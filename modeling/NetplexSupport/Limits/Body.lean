/-
The limit on request bodies.  The wrapped `receive` is a meter over the server's
messages: the body of an `http.request` is what it weighs, and a message past the
cap is answered with an error in its place.
-/
import NetplexSupport.Main
import NetplexSupport.Transition.Meter

namespace NetplexSupport

open Py

/-! ### The wrapper as a meter -/

/-- The bytes a message is charged for. -/
def Message.charge (m : Message) : Option Nat :=
  if m.isRequest then some m.bodyLength else none

/-- The body bytes of a stretch of messages. -/
def bodyBytes (messages : List Message) : Nat := Meter.spent Message.charge messages

/-- What the application gets for a message. -/
def outcomeOf (m : Message) (passed : Bool) : Except Failure Message :=
  if passed then .ok m else .error tooLarge

theorem Message.charge_eq_none {m : Message} : m.charge = none ↔ m.isRequest = false := by
  unfold Message.charge
  cases m.isRequest with
  | false => simp
  | true => simp

/-- One call is one reading of the meter. -/
theorem limitedReceive_cons (cap : Int) (m : Message) (pending : List Message) (total : Nat) :
    limitedReceive cap ⟨m :: pending, total⟩ =
      (some (outcomeOf m (Meter.read Message.charge cap total m).1),
        ⟨pending, (Meter.read Message.charge cap total m).2⟩) := by
  cases hrequest : m.isRequest with
  | false => simp [limitedReceive, Meter.read, Message.charge, hrequest, outcomeOf]
  | true =>
      by_cases hover : cap < ((total + m.bodyLength : Nat) : Int)
      · have hread : Meter.read Message.charge cap total m = (false, total + m.bodyLength) := by
          simp only [Meter.read, Message.charge, hrequest, if_true]
          rw [decide_eq_false (not_le.mpr hover)]
        rw [hread]
        simp only [limitedReceive, hrequest, if_true, if_pos hover]
        rfl
      · have hread : Meter.read Message.charge cap total m = (true, total + m.bodyLength) := by
          simp only [Meter.read, Message.charge, hrequest, if_true]
          rw [decide_eq_true (not_lt.mp hover)]
        rw [hread]
        simp only [limitedReceive, hrequest, if_true, if_neg hover]
        rfl

/-- The application's calls read one message each. -/
theorem receiveCalls_eq (cap : Int) (calls : Nat) (messages : List Message) (total : Nat) :
    receiveCalls cap calls ⟨messages, total⟩ =
      (List.zipWith outcomeOf (messages.take calls)
          (Meter.verdicts Message.charge cap total messages),
        ⟨messages.drop calls, total + bodyBytes (messages.take calls)⟩) := by
  induction calls generalizing messages total with
  | zero => simp [receiveCalls, bodyBytes]
  | succ calls ih =>
      cases messages with
      | nil => simp [receiveCalls, limitedReceive, bodyBytes]
      | cons m messages =>
          rw [receiveCalls, limitedReceive_cons]
          simp only [ih, Meter.read_snd, List.take_succ_cons, List.drop_succ_cons,
            Meter.verdicts, List.zipWith_cons_cons, bodyBytes, Meter.spent_cons, Nat.add_assoc]

theorem unread_receiveCalls (cap : Int) (calls : Nat) (messages : List Message) (total : Nat) :
    (receiveCalls cap calls ⟨messages, total⟩).2.pending = messages.drop calls := by
  rw [receiveCalls_eq]

/-! ### What the application obtains -/

/-- The messages obtained before the first error. -/
def obtained : List (Except Failure Message) → List Message
  | .ok m :: outcomes => m :: obtained outcomes
  | _ => []

/-- They are the longest stretch that passes. -/
theorem obtained_zipWith (cap : Int) (total calls : Nat) (messages : List Message) :
    ∃ n, obtained (List.zipWith outcomeOf (messages.take calls)
        (Meter.verdicts Message.charge cap total messages)) = messages.take n ∧
      ∀ passed ∈ Meter.verdicts Message.charge cap total (messages.take n), passed = true := by
  induction messages generalizing total calls with
  | nil => exact ⟨0, by simp [obtained], by simp [Meter.verdicts]⟩
  | cons m messages ih =>
      cases calls with
      | zero => exact ⟨0, by simp [obtained], by simp [Meter.verdicts]⟩
      | succ calls =>
          cases hpassed : (Meter.read Message.charge cap total m).1 with
          | false =>
              refine ⟨0, ?_, by simp [Meter.verdicts]⟩
              simp [Meter.verdicts, hpassed, outcomeOf, obtained]
          | true =>
              obtain ⟨n, hobtained, hall⟩ :=
                ih (Meter.read Message.charge cap total m).2 calls
              refine ⟨n + 1, ?_, ?_⟩
              · simp only [Meter.verdicts, List.take_succ_cons, List.zipWith_cons_cons, hpassed,
                  outcomeOf, if_true, obtained]
                exact congrArg (List.cons m) hobtained
              · rw [List.take_succ_cons, Meter.verdicts]
                exact List.forall_mem_cons.mpr ⟨hpassed, hall⟩

/-- The law of the wrapper over the outcomes of a number of calls. -/
structure Capped (cap : Int) (messages : List Message) (calls : Nat)
    (outcomes : List (Except Failure Message)) : Prop where
  answered : outcomes.length = min calls messages.length
  obtained_initial : obtained outcomes <+: messages
  obtained_bytes : (bodyBytes (obtained outcomes) : Int) ≤ max cap 0
  outcome : ∀ i m, i < calls → messages[i]? = some m →
    outcomes[i]? = some (if m.isRequest ∧ cap < bodyBytes (messages.take (i + 1)) then
      .error tooLarge else .ok m)
  again : ∀ i j m, i ≤ j → j < calls → outcomes[i]? = some (.error tooLarge) →
    messages[j]? = some m → m.isRequest = true → outcomes[j]? = some (.error tooLarge)
  complete : (bodyBytes messages : Int) ≤ cap → outcomes = (messages.take calls).map .ok

theorem outcomes_getElem? (cap : Int) {messages : List Message} {calls i : Nat} {m : Message}
    (hi : i < calls) (hm : messages[i]? = some m) :
    (List.zipWith outcomeOf (messages.take calls)
        (Meter.verdicts Message.charge cap 0 messages))[i]? =
      some (if m.isRequest ∧ cap < bodyBytes (messages.take (i + 1)) then
        .error tooLarge else .ok m) := by
  rw [List.getElem?_zipWith, List.getElem?_take_of_lt hi, Meter.verdicts_getElem?, hm]
  simp only [Option.map_some, Nat.zero_add, outcomeOf, Message.charge_eq_none, bodyBytes,
    Option.some.injEq]
  cases m.isRequest with
  | false => simp
  | true =>
      by_cases hover : cap < ((Meter.spent Message.charge (messages.take (i + 1)) : Nat) : Int)
      · simp [hover]
      · simp [hover, not_lt.mp hover]

theorem capped_receiveCalls (cap : Int) (messages : List Message) (calls : Nat) :
    Capped cap messages calls (receiveCalls cap calls ⟨messages, 0⟩).1 := by
  rw [receiveCalls_eq]
  obtain ⟨n, hobtained, hall⟩ := obtained_zipWith cap 0 calls messages
  constructor
  · simp [Meter.length_verdicts]
  · rw [hobtained]
    exact List.take_prefix n messages
  · rw [hobtained, bodyBytes, ← Nat.zero_add (Meter.spent Message.charge (messages.take n))]
    exact Meter.spent_le_of_verdicts Message.charge cap hall
  · intro i m hi hm
    exact outcomes_getElem? cap hi hm
  · intro i j m hij hj hrefused hm hrequest
    have hlt : i < messages.length := by
      have hjlt := (List.getElem?_eq_some_iff.mp hm).1
      omega
    rw [outcomes_getElem? cap (lt_of_le_of_lt hij hj) (List.getElem?_eq_getElem hlt),
      Option.some.injEq] at hrefused
    split at hrefused
    · rename_i hover
      have hmono := Meter.spent_take_mono Message.charge messages (Nat.add_le_add_right hij 1)
      rw [outcomes_getElem? cap hj hm, if_pos]
      refine ⟨hrequest, lt_of_lt_of_le hover.2 ?_⟩
      exact_mod_cast hmono
    · cases hrefused
  · intro hwithin
    have hwithin' : ((0 + Meter.spent Message.charge messages : Nat) : Int) ≤ cap := by
      rwa [Nat.zero_add]
    rw [Meter.verdicts_of_spent_le Message.charge cap hwithin']
    apply List.ext_getElem?
    intro i
    rw [List.getElem?_zipWith, List.getElem?_map]
    cases hm : (messages.take calls)[i]? with
    | none => simp
    | some m =>
        have hlt := (List.getElem?_eq_some_iff.mp hm).1
        rw [List.length_take] at hlt
        rw [List.getElem?_replicate, if_pos (by omega)]
        rfl

/-! ### The middleware -/

/-- What the declared length says about a body: nothing, or the answer without
which nothing is read. -/
def declaredAnswer (cap : Int) (scope : Scope) : Option (Nat × Str) :=
  match scope.header contentLengthName with
  | none => none
  | some cl =>
      match intOfBytes cl with
      | none => some (400, "invalid Content-Length")
      | some length => if cap < length then some (413, "request body too large") else none

theorem bodySizeLimit_http (settings : Settings) {scope : Scope}
    (hhttp : scope.type = Str.ofString "http") (messages : List Message) (calls : Nat) :
    bodySizeLimit settings scope messages calls =
      match declaredAnswer (capForPath settings (scope.path.getD [])) scope with
      | some answer => ⟨some answer, [], messages⟩
      | none =>
          ⟨none, (receiveCalls (capForPath settings (scope.path.getD [])) calls ⟨messages, 0⟩).1,
            messages.drop calls⟩ := by
  rw [bodySizeLimit, if_neg (not_not.mpr hhttp), declaredAnswer]
  simp only [unread_receiveCalls]
  cases scope.header contentLengthName with
  | none => rfl
  | some cl =>
      dsimp only
      cases intOfBytes cl with
      | none => rfl
      | some length =>
          by_cases hover : capForPath settings (scope.path.getD []) < length
          · simp only [if_pos hover]
          · simp only [if_neg hover]

/-- The law of the body limit: a declared length that is no integer, or over the
cap, is answered and nothing is read; otherwise the application's calls follow
the wrapper's law, whatever the chunks are and however often it calls. -/
theorem body_limit (settings : Settings) (scope : Scope)
    (hhttp : scope.type = Str.ofString "http") (messages : List Message) (calls : Nat) :
    ∃ cap : Int,
      (scope.path = some ATTACHMENT_ROUTE_PATH → cap = 2 * settings.maxBlobBytes) ∧
      (scope.path ≠ some ATTACHMENT_ROUTE_PATH → cap = settings.maxRequestBodyBytes) ∧
      (∀ cl, scope.header contentLengthName = some cl → intOfBytes cl = none →
        bodySizeLimit settings scope messages calls =
          ⟨some (400, "invalid Content-Length"), [], messages⟩) ∧
      (∀ cl length, scope.header contentLengthName = some cl → intOfBytes cl = some length →
        cap < length → bodySizeLimit settings scope messages calls =
          ⟨some (413, "request body too large"), [], messages⟩) ∧
      ((∀ cl, scope.header contentLengthName = some cl →
          ∃ length, intOfBytes cl = some length ∧ length ≤ cap) →
        (bodySizeLimit settings scope messages calls).answer = none ∧
          (bodySizeLimit settings scope messages calls).unread = messages.drop calls ∧
          Capped cap messages calls (bodySizeLimit settings scope messages calls).outcomes) := by
  refine ⟨capForPath settings (scope.path.getD []), fun hpath => ?_, fun hpath => ?_,
    fun cl hcl hint => ?_, fun cl length hcl hint hover => ?_, fun hdeclared => ?_⟩
  · rw [hpath, Option.getD_some, capForPath, if_pos rfl, mul_comm]
  · rw [capForPath, if_neg]
    intro hroute
    cases hscope : scope.path with
    | none =>
        rw [hscope] at hroute
        exact absurd (congrArg List.length hroute) (by simp [ATTACHMENT_ROUTE_PATH, Str.ofString])
    | some path =>
        rw [hscope, Option.getD_some] at hroute
        exact hpath (by rw [hscope, hroute])
  · rw [bodySizeLimit_http settings hhttp, declaredAnswer, hcl]
    simp only [hint]
  · rw [bodySizeLimit_http settings hhttp, declaredAnswer, hcl]
    simp only [hint, if_pos hover]
  · have hnone : declaredAnswer (capForPath settings (scope.path.getD [])) scope = none := by
      rw [declaredAnswer]
      cases hcl : scope.header contentLengthName with
      | none => rfl
      | some cl =>
          obtain ⟨length, hint, hle⟩ := hdeclared cl hcl
          simp only [hint, if_neg (not_lt.mpr hle)]
    rw [bodySizeLimit_http settings hhttp, hnone]
    exact ⟨rfl, rfl, capped_receiveCalls _ messages calls⟩

/-- Three chunks, the last one past a cap of three bytes, and a disconnect. -/
def chunkedMessages : List Message :=
  [⟨"http.request", some [1, 2], some true⟩, ⟨"http.request", some [3], some true⟩,
    ⟨"http.request", some [4], none⟩, ⟨"http.disconnect", none, none⟩]

theorem body_limit_chunks :
    (bodySizeLimit { maxRequestBodyBytes := 3 } {} chunkedMessages 4).outcomes[1]? =
        some (.ok ⟨"http.request", some [3], some true⟩) ∧
      (bodySizeLimit { maxRequestBodyBytes := 3 } {} chunkedMessages 4).outcomes[2]? =
        some (.error tooLarge) ∧
      (bodySizeLimit { maxRequestBodyBytes := 3 } {} chunkedMessages 4).outcomes[3]? =
        some (.ok ⟨"http.disconnect", none, none⟩) := by
  obtain ⟨cap, -, hcap, -, -, hread⟩ :=
    body_limit { maxRequestBodyBytes := 3 } {} rfl chunkedMessages 4
  obtain rfl : cap = 3 := hcap (by decide)
  have hcapped := (hread (by simp [Scope.header])).2.2
  refine ⟨?_, ?_, ?_⟩
  · rw [hcapped.outcome 1 _ (by decide) rfl, if_neg (by decide +kernel)]
  · rw [hcapped.outcome 2 _ (by decide) rfl, if_pos (by decide +kernel)]
  · rw [hcapped.outcome 3 _ (by decide) rfl, if_neg (by decide +kernel)]

/-! ### Bodies of a known length -/

/-- Some answer is a 413: the middleware's own, or what the application gets. -/
def Served.Refused (served : Served) : Prop :=
  (∃ detail, served.answer = some (413, detail)) ∨ .error tooLarge ∈ served.outcomes

/-- The body of a request, put together. -/
def bodyOf (messages : List Message) : Bytes :=
  messages.flatMap fun m => if m.isRequest then m.body.getD [] else []

theorem bodyBytes_eq (messages : List Message) : bodyBytes messages = (bodyOf messages).length := by
  induction messages with
  | nil => rfl
  | cons m messages ih =>
      rw [bodyBytes, Meter.spent_cons, bodyOf, List.flatMap_cons, List.length_append]
      congr 1
      unfold Message.charge
      cases m.isRequest with
      | false => rfl
      | true => rfl

theorem Capped.refused {cap : Int} {messages : List Message} {calls : Nat}
    {outcomes : List (Except Failure Message)} (h : Capped cap messages calls outcomes)
    (hrefused : .error tooLarge ∈ outcomes) : cap < bodyBytes messages := by
  by_contra hwithin
  rw [h.complete (not_lt.mp hwithin)] at hrefused
  obtain ⟨m, -, hm⟩ := List.mem_map.mp hrefused
  cases hm

/-- A body past the cap is refused to an application that reads it all. -/
theorem refused_of_lt {cap : Int} (hcap : 0 ≤ cap) {messages : List Message}
    (hover : cap < bodyBytes messages) :
    .error tooLarge ∈ (receiveCalls cap messages.length ⟨messages, 0⟩).1 := by
  have hsome : ∃ passed ∈ Meter.verdicts Message.charge cap 0 messages, ¬ passed = true := by
    by_contra hall
    have hle : ((0 + Meter.spent Message.charge messages : Nat) : Int) ≤ max cap (0 : Nat) :=
      Meter.spent_le_of_verdicts Message.charge cap fun passed hmem =>
        by_contra fun hnot => hall ⟨passed, hmem, hnot⟩
    rw [Nat.zero_add] at hle
    have hmax : max cap ((0 : Nat) : Int) = cap := max_eq_left hcap
    rw [hmax] at hle
    exact absurd hle (not_le.mpr hover)
  obtain ⟨passed, hmem, hfalse⟩ := hsome
  obtain ⟨i, hi⟩ := List.mem_iff_getElem?.mp hmem
  rw [Bool.not_eq_true] at hfalse
  have hlt := (List.getElem?_eq_some_iff.mp hi).1
  rw [Meter.length_verdicts] at hlt
  rw [receiveCalls_eq, List.mem_iff_getElem?]
  refine ⟨i, ?_⟩
  rw [List.getElem?_zipWith, hi, List.take_length, List.getElem?_eq_getElem hlt, hfalse]
  rfl

/-- A body on its way to a path: cut into messages in some way, its length not
declared or declared as it is. -/
structure Delivery (path : Str) (bytes : Bytes) where
  scope : Scope
  messages : List Message
  http : scope.type = Str.ofString "http"
  path_eq : scope.path = some path
  body : bodyOf messages = bytes
  declared : ∀ cl, scope.header contentLengthName = some cl →
    intOfBytes cl = some (bytes.length : Int)

/-- The body in one message. -/
def Delivery.whole (path : Str) (bytes : Bytes) : Delivery path bytes where
  scope := { path := some path }
  messages := [{ type := "http.request", body := some bytes }]
  http := rfl
  path_eq := rfl
  body := by simp [bodyOf, Message.isRequest]
  declared := by simp [Scope.header]

/-- Some call of the application, or none at all, is answered with a 413. -/
def Delivery.Refused {path : Str} {bytes : Bytes} (d : Delivery path bytes)
    (settings : Settings) : Prop :=
  ∃ calls, (bodySizeLimit settings d.scope d.messages calls).Refused

/-- A body meets a 413 exactly when it is past the cap of its path. -/
theorem Delivery.refused_iff {path : Str} {bytes : Bytes} (d : Delivery path bytes)
    {settings : Settings} (hcap : 0 ≤ capForPath settings path) :
    d.Refused settings ↔ capForPath settings path < bytes.length := by
  have hpath : d.scope.path.getD [] = path := by rw [d.path_eq, Option.getD_some]
  have hbytes : bodyBytes d.messages = bytes.length := by rw [bodyBytes_eq, d.body]
  simp only [Delivery.Refused, bodySizeLimit_http settings d.http, declaredAnswer, hpath]
  rw [← hbytes]
  have hcalls : ∀ calls, .error tooLarge ∈
      (receiveCalls (capForPath settings path) calls ⟨d.messages, 0⟩).1 →
        capForPath settings path < bodyBytes d.messages :=
    fun calls => (capped_receiveCalls _ d.messages calls).refused
  cases hcl : d.scope.header contentLengthName with
  | none =>
      constructor
      · rintro ⟨calls, ⟨detail, hanswer⟩ | hrefused⟩
        · cases hanswer
        · exact hcalls calls hrefused
      · intro hover
        exact ⟨d.messages.length, Or.inr (refused_of_lt hcap hover)⟩
  | some cl =>
      have hdeclared : intOfBytes cl = some (bodyBytes d.messages : Int) := by
        rw [hbytes, d.declared cl hcl]
      simp only [hdeclared]
      by_cases hover : capForPath settings path < bodyBytes d.messages
      · simp only [hover, if_true, iff_true]
        exact ⟨0, Or.inl ⟨_, rfl⟩⟩
      · simp only [hover, if_false, iff_false]
        rintro ⟨calls, ⟨detail, hanswer⟩ | hrefused⟩
        · cases hanswer
        · exact hover (hcalls calls hrefused)

end NetplexSupport
