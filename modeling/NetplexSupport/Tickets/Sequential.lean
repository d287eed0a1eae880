/-
The ticket store under calls that run one at a time: what the store keeps true,
and what each call of an intake handler does to it.
-/
import NetplexSupport.Routers.Diagnostics
import Mathlib.Algebra.BigOperators.Group.List.Basic

namespace NetplexSupport

open Py

/-- A call of `create_or_dedupe` as an intake handler makes it. -/
inductive FilingCall where
  | forward (report : ForwardedReport) (verifiedTier : Str) (licenseIdHash : Option Str)
  | web (report : WebReport)
  | email (report : EmailReport)

def FilingCall.fields : FilingCall → Fields
  | .forward report verifiedTier licenseIdHash =>
      forwardFields report verifiedTier licenseIdHash
  | .web report => webFields report
  | .email report => emailFields report

/-- No handler chooses the status or the count of a new ticket. -/
theorem FilingCall.fields_fresh (call : FilingCall) :
    call.fields.status = Str.ofString "new" ∧ call.fields.occurrences = 1 := by
  cases call <;> exact ⟨rfl, rfl⟩

/-- One call: the answer, and the table. -/
def fileStep (tickets : List Ticket) (call : FilingCall × Draw) :
    List Ticket × Except Exc Ticket :=
  match createOrDedupe tickets call.1.fields call.2 with
  | .ok (ticket, tickets) => (tickets, .ok ticket)
  | .error exc => (tickets, .error exc)

def severityFactor (severity : Str) : Int := (dictGet severityWeight severity).getD 4

def tierFactor (tier : Str) : Int := (dictGet tierWeight tier).getD 1

/-- What holds of the store between calls. -/
structure StoreInv (clock : Time) (tickets : List Ticket) : Prop where
  ids : (tickets.map Ticket.id).Nodup
  oneOpen : ∀ fingerprint, fingerprint ≠ [] → ∀ source,
    (tickets.filter (Ticket.matching fingerprint source)).length ≤ 1
  positive : ∀ t ∈ tickets, 1 ≤ t.occurrences
  seen : ∀ t ∈ tickets, t.firstSeen ≤ t.lastSeen
  scored : ∀ t ∈ tickets, t.priorityScore =
    severityFactor t.severity * t.occurrences * tierFactor t.reporterTier
  past : ∀ t ∈ tickets, t.firstSeen ≤ clock

/-- `t'` is the open ticket `t` of the report's fingerprint and source with
nothing changed but the count, the last sighting, the score and `updated_at`. -/
def Merged (fields : Fields) (t t' : Ticket) : Prop :=
  t.fingerprint = fields.fingerprint ∧ t.source = fields.source ∧
    t.status ∈ openStates ∧
    t' = { t with
      occurrences := t'.occurrences
      lastSeen := t'.lastSeen
      priorityScore := t'.priorityScore
      updatedAt := t'.updatedAt }

/-- What one call does to the table. -/
structure FilingEffect (call : FilingCall × Draw) (tickets tickets' : List Ticket) :
    Prop where
  /-- At most one row changed, and every other row stands where it stood. -/
  rows : tickets' = tickets ++ [newTicket call.1.fields call.2] ∨
    ∃ pre t t' post, tickets = pre ++ t :: post ∧ tickets' = pre ++ t' :: post ∧
      Merged call.1.fields t t'
  /-- A report without a fingerprint gets its own row. -/
  unmerged : call.1.fields.fingerprint.getD [] = [] →
    tickets' = tickets ++ [newTicket call.1.fields call.2]
  /-- The report is counted once. -/
  total : (tickets'.map Ticket.occurrences).sum =
    (tickets.map Ticket.occurrences).sum + 1
  /-- No score falls. -/
  rising : ∀ t ∈ tickets, ∃ t' ∈ tickets', t'.id = t.id ∧
    t.priorityScore ≤ t'.priorityScore

/-! ### The score -/

theorem severityFactor_nonneg (severity : Str) : 0 ≤ severityFactor severity := by
  have hweights : ∀ m ∈ severityWeight, 0 ≤ m.2 := by decide
  unfold severityFactor
  rcases h : dictGet severityWeight severity with _ | w
  · decide
  · exact hweights _ (mem_of_dictGet h)

theorem tierFactor_nonneg (tier : Str) : 0 ≤ tierFactor tier := by
  have hweights : ∀ m ∈ tierWeight, 0 ≤ m.2 := by decide
  unfold tierFactor
  rcases h : dictGet tierWeight tier with _ | w
  · decide
  · exact hweights _ (mem_of_dictGet h)

theorem priorityScore_eq {severity tier : Str} {occurrences : Int}
    (h : 1 ≤ occurrences) :
    priorityScore severity occurrences tier =
      severityFactor severity * occurrences * tierFactor tier := by
  rw [priorityScore, severityFactor, tierFactor, max_eq_left h]

theorem score_le_bumped {t : Ticket} {draw : Draw} (hpositive : 1 ≤ t.occurrences)
    (hscored : t.priorityScore =
      severityFactor t.severity * t.occurrences * tierFactor t.reporterTier) :
    t.priorityScore ≤ (bumped t draw).priorityScore := by
  change t.priorityScore ≤ priorityScore t.severity (t.occurrences + 1) t.reporterTier
  rw [hscored, priorityScore_eq (by omega)]
  apply mul_le_mul_of_nonneg_right _ (tierFactor_nonneg _)
  apply mul_le_mul_of_nonneg_left _ (severityFactor_nonneg _)
  omega

/-! ### One call -/

@[simp] theorem matching_bumped (fingerprint source : Str) (t : Ticket) (draw : Draw) :
    (bumped t draw).matching fingerprint source = t.matching fingerprint source := rfl

/-- The row a call merges into is open and has the report's fingerprint and
source. -/
theorem matching_existingFor {tickets : List Ticket} {fields : Fields} {existing : Ticket}
    (h : existingFor tickets fields = some existing) :
    ∃ fingerprint, fields.fingerprint = some fingerprint ∧ fingerprint ≠ [] ∧
      existing.matching fingerprint fields.source = true := by
  obtain ⟨fingerprint, hfingerprint, hne, hselect⟩ := existingFor_eq_some h
  refine ⟨fingerprint, hfingerprint, hne, ?_⟩
  exact (List.mem_filter.mp (Sql.firstBy_mem hselect)).2

theorem storeInv_bump {clock : Time} {pre post : List Ticket} {t : Ticket} {draw : Draw}
    (h : StoreInv clock (pre ++ t :: post)) (hclock : clock ≤ draw.now) :
    StoreInv draw.now (pre ++ bumped t draw :: post) := by
  have hmem : t ∈ pre ++ t :: post := by simp
  have hother : ∀ x ∈ pre ++ bumped t draw :: post,
      x = bumped t draw ∨ x ∈ pre ++ t :: post := by
    intro x hx
    rcases List.mem_append.mp hx with hx | hx
    · exact Or.inr (List.mem_append_left _ hx)
    · rcases List.mem_cons.mp hx with hx | hx
      · exact Or.inl hx
      · exact Or.inr (List.mem_append_right _ (List.mem_cons_of_mem _ hx))
  have hfirst : (bumped t draw).firstSeen = t.firstSeen := rfl
  have hcount : (bumped t draw).occurrences = t.occurrences + 1 := rfl
  have hpositive := h.positive t hmem
  constructor
  · simpa [bumped, bump] using h.ids
  · intro fingerprint hne source
    have hlength := h.oneOpen fingerprint hne source
    simp only [List.filter_append, List.filter_cons, matching_bumped,
      List.length_append] at hlength ⊢
    by_cases hmatch : t.matching fingerprint source = true
    · simp only [hmatch, if_true, List.length_cons] at hlength ⊢
      exact hlength
    · simp only [hmatch] at hlength ⊢
      exact hlength
  · intro x hx
    rcases hother x hx with rfl | hx
    · rw [hcount]
      omega
    · exact h.positive x hx
  · intro x hx
    rcases hother x hx with rfl | hx
    · exact (h.past t hmem).trans hclock
    · exact h.seen x hx
  · intro x hx
    rcases hother x hx with rfl | hx
    · exact priorityScore_eq (by omega)
    · exact h.scored x hx
  · intro x hx
    rcases hother x hx with rfl | hx
    · exact (h.past t hmem).trans hclock
    · exact (h.past x hx).trans hclock

theorem storeInv_insert {clock : Time} {tickets : List Ticket} {fields : Fields}
    {draw : Draw} (h : StoreInv clock tickets) (hclock : clock ≤ draw.now)
    (hfresh : draw.ticketId ∉ tickets.map Ticket.id) (hcount : fields.occurrences = 1)
    (hnone : existingFor tickets fields = none) :
    StoreInv draw.now (tickets ++ [newTicket fields draw]) := by
  have hmem : ∀ {P : Ticket → Prop}, (∀ t ∈ tickets, P t) → P (newTicket fields draw) →
      ∀ t ∈ tickets ++ [newTicket fields draw], P t := by
    intro P hold hnew t ht
    rcases List.mem_append.mp ht with ht | ht
    · exact hold t ht
    · exact List.mem_singleton.mp ht ▸ hnew
  constructor
  · rw [List.map_append, List.nodup_append']
    refine ⟨h.ids, by simp, ?_⟩
    exact List.disjoint_singleton.mpr hfresh
  · intro fingerprint hne source
    rw [List.filter_append, List.length_append]
    by_cases hmatch : (newTicket fields draw).matching fingerprint source = true
    · rcases matching_iff.mp hmatch with ⟨hfingerprint, hsource, _⟩
      change fields.source = source at hsource
      rw [← hsource, filter_of_existingFor_none hnone hne hfingerprint]
      simpa using List.length_filter_le _ [newTicket fields draw]
    · simpa [List.filter_cons, hmatch] using h.oneOpen fingerprint hne source
  · apply hmem h.positive
    change 1 ≤ fields.occurrences
    omega
  · exact hmem h.seen le_rfl
  · apply hmem h.scored
    exact priorityScore_eq (by omega)
  · exact hmem (fun t ht => (h.past t ht).trans hclock) le_rfl

/-- One call keeps the invariant and has the effect described. -/
theorem fileStep_spec {clock : Time} {tickets : List Ticket} {call : FilingCall × Draw}
    (h : StoreInv clock tickets) (hclock : clock ≤ call.2.now)
    (hfresh : call.2.ticketId ∉ tickets.map Ticket.id) :
    ∃ ticket tickets', fileStep tickets call = (tickets', .ok ticket) ∧
      StoreInv call.2.now tickets' ∧ FilingEffect call tickets tickets' ∧
      tickets'.map Ticket.id ⊆ tickets.map Ticket.id ++ [call.2.ticketId] := by
  obtain ⟨call, draw⟩ := call
  rcases createOrDedupe_cases call.fields h.ids hfresh with
    ⟨pre, t, post, _, rfl, hexisting, _, _, hcall⟩ | ⟨hnone, hcall⟩
  · refine ⟨bumped t draw, _, by simp only [fileStep, hcall], storeInv_bump h hclock,
      ?_, ?_⟩
    · obtain ⟨fingerprint, hfingerprint, hne, hmatch⟩ := matching_existingFor hexisting
      rcases matching_iff.mp hmatch with ⟨hfp, hsource, hstatus⟩
      have ht : t ∈ pre ++ t :: post := by simp
      constructor
      · exact Or.inr ⟨pre, t, bumped t draw, post, rfl, rfl, hfp.trans hfingerprint.symm,
          hsource, hstatus, rfl⟩
      · intro hempty
        rw [hfingerprint, Option.getD_some] at hempty
        exact absurd hempty hne
      · have hcount : (bumped t draw).occurrences = t.occurrences + 1 := rfl
        simp only [List.map_append, List.map_cons, List.sum_append, List.sum_cons, hcount]
        omega
      · intro x hx
        rcases List.mem_append.mp hx with hx | hx
        · exact ⟨x, List.mem_append_left _ hx, rfl, le_rfl⟩
        · rcases List.mem_cons.mp hx with rfl | hx
          · exact ⟨bumped x draw, by simp, rfl,
              score_le_bumped (h.positive x ht) (h.scored x ht)⟩
          · exact ⟨x, List.mem_append_right _ (List.mem_cons_of_mem _ hx), rfl, le_rfl⟩
    · intro x hx
      have hids : (pre ++ bumped t draw :: post).map Ticket.id =
          (pre ++ t :: post).map Ticket.id := by simp [bumped, bump]
      exact List.mem_append_left _ (hids ▸ hx)
  · have hcount := call.fields_fresh.2
    refine ⟨newTicket call.fields draw, _, by simp only [fileStep, hcall],
      storeInv_insert h hclock hfresh hcount hnone, ?_, ?_⟩
    · constructor
      · exact Or.inl rfl
      · exact fun _ => rfl
      · have hnew : (newTicket call.fields draw).occurrences = 1 := hcount
        simp [hnew]
      · exact fun x hx => ⟨x, List.mem_append_left _ hx, rfl, le_rfl⟩
    · rw [List.map_append]
      exact List.Subset.refl _

/-! ### Runs -/

/-- After every call of every run the store invariant holds, and the call had
the effect of one report. -/
theorem fileStep_run {clock : Time} {tickets : List Ticket}
    {calls : List (FilingCall × Draw)} (hinv : StoreInv clock tickets)
    (hclock : (clock :: calls.map fun call => call.2.now).Pairwise (· ≤ ·))
    (hfresh : (tickets.map Ticket.id ++ calls.map fun call => call.2.ticketId).Nodup)
    {past : List (FilingCall × Draw)} {call : FilingCall × Draw}
    {rest : List (FilingCall × Draw)} (hcalls : calls = past ++ call :: rest) :
    ∃ ticket tickets', fileStep (Transition.after fileStep tickets past) call =
        (tickets', .ok ticket) ∧
      StoreInv call.2.now tickets' ∧
      FilingEffect call (Transition.after fileStep tickets past) tickets' := by
  let Inv : List Ticket → List (FilingCall × Draw) → Prop := fun s rest =>
    ∃ now, StoreInv now s ∧
      (now :: rest.map fun call => call.2.now).Pairwise (· ≤ ·) ∧
      (s.map Ticket.id ++ rest.map fun call => call.2.ticketId).Nodup
  have hstep : ∀ s call rest, Inv s (call :: rest) → Inv (fileStep s call).1 rest := by
    rintro s call rest ⟨now, hs, hnow, hids⟩
    simp only [List.map_cons, List.pairwise_cons] at hnow hids
    rcases List.nodup_append'.mp hids with ⟨_, hrest, hdisjoint⟩
    have hcall : call.2.ticketId ∉ s.map Ticket.id :=
      fun hmem => hdisjoint hmem List.mem_cons_self
    obtain ⟨ticket, s', hstep, hs', _, hsubset⟩ :=
      fileStep_spec hs (hnow.1 _ List.mem_cons_self) hcall
    rw [hstep]
    refine ⟨call.2.now, hs', List.pairwise_cons.mpr hnow.2, ?_⟩
    rw [List.nodup_append']
    refine ⟨hs'.ids, (List.nodup_cons.mp hrest).2, ?_⟩
    intro x hx hxrest
    rcases List.mem_append.mp (hsubset hx) with hx | hx
    · exact hdisjoint hx (List.mem_cons_of_mem _ hxrest)
    · exact (List.nodup_cons.mp hrest).1 (List.mem_singleton.mp hx ▸ hxrest)
  have hpast : Inv (Transition.after fileStep tickets past) (call :: rest) :=
    Transition.inv_after hstep (call :: rest) (hcalls ▸ ⟨clock, hinv, hclock, hfresh⟩)
  rcases hpast with ⟨now, hs, hnow, hids⟩
  simp only [List.map_cons, List.pairwise_cons] at hnow hids
  have hcall : call.2.ticketId ∉ (Transition.after fileStep tickets past).map Ticket.id :=
    fun hmem => (List.nodup_append'.mp hids).2.2 hmem List.mem_cons_self
  obtain ⟨ticket, tickets', hanswer, hinv', heffect, _⟩ :=
    fileStep_spec hs (hnow.1 _ List.mem_cons_self) hcall
  exact ⟨ticket, tickets', hanswer, hinv', heffect⟩

/-- A web ticket that was closed, and two later reports of its fingerprint. -/
def closedTicket : Ticket :=
  { newTicket (webFields { title := "crash", fingerprint := some "f" })
      ⟨"SUP-000000000001", 10, 10, 10⟩ with
    status := "closed" }

def firstReport : FilingCall × Draw :=
  (.web { title := "crash", fingerprint := some "f" }, ⟨"SUP-000000000002", 20, 20, 20⟩)

def secondReport : FilingCall × Draw :=
  (.web { title := "again", fingerprint := some "f" }, ⟨"SUP-000000000003", 30, 30, 30⟩)

theorem closedTicket_inv : StoreInv 10 [closedTicket] := by
  have hclosed : closedTicket.status ∉ openStates := by decide +kernel
  constructor
  · simp
  · intro fingerprint _ source
    simp [Ticket.matching, hclosed]
  all_goals
    simp only [List.forall_mem_singleton]
    decide +kernel

/-- The closed ticket stays as it is; the first report opens a new one and the
second is merged into it. -/
theorem fileStep_run_reports :
    ∃ ticket tickets',
      fileStep (Transition.after fileStep [closedTicket] [firstReport]) secondReport =
        (tickets', .ok ticket) ∧
      StoreInv 30 tickets' ∧
      FilingEffect secondReport (Transition.after fileStep [closedTicket] [firstReport])
        tickets' :=
  fileStep_run closedTicket_inv (by decide +kernel) (by decide +kernel)
    (rfl : [firstReport, secondReport] = [firstReport] ++ secondReport :: [])

end NetplexSupport
