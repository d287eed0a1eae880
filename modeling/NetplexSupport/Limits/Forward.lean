/-
The two budgets of the forward intake.  A report is checked against the bucket
of its client address and then against the bucket of its install, and the first
check has already charged the address when the second one refuses.
-/
import NetplexSupport.Crypto.Table
import NetplexSupport.Limits.RateOk
import NetplexSupport.Routers.Diagnostics

namespace NetplexSupport

open Py Transition

/-! ### Keys and the two checks -/

def Forward.address (D : Deployment) (e : Forward) : Str :=
  clientIp D.ip D.settings e.arrival.request

/-- `report.install_id or ip`. -/
def Forward.install (D : Deployment) (e : Forward) : Str :=
  orElse e.report.installId (e.address D)

def addressKey (address : Str) : Str := "fwd:ip:" ++ address

def installKey (install : Str) : Str := "fwd:install:" ++ install

theorem addressKey_inj {x y : Str} : addressKey x = addressKey y ↔ x = y :=
  List.append_right_inj _

theorem installKey_inj {x y : Str} : installKey x = installKey y ↔ x = y :=
  List.append_right_inj _

theorem addressKey_ne_installKey (x y : Str) : addressKey x ≠ installKey y := by
  intro h
  have hletter := congrArg (fun key => key[5]?) h
  simp [addressKey, installKey, Str.ofString] at hletter

def forwardLimit (D : Deployment) : Int := max D.settings.intakeRatePerMin 1

/-- The two checks of `receive_forwarded`. -/
def admission (D : Deployment) (hits : Hits) (e : Forward) : Bool × Hits :=
  let r := rateOk hits (addressKey (e.address D)) (forwardLimit D) e.arrival.firstTick
  if r.1 then
    rateOk r.2 (installKey (e.install D)) (forwardLimit D) e.arrival.secondTick
  else r

/-- The answer is a 429. -/
def tooMany {α : Type} : Except Failure α → Bool
  | .error (.http status _) => decide (status = 429)
  | _ => false

/-- A handler that leaves the limiter as these checks do, and answers 429 exactly
when they refuse. -/
def Follows {α : Type} (r : Service × Except Failure α) (checks : Bool × Hits) : Prop :=
  r.1.hits = checks.2 ∧ tooMany r.2 = !checks.1

theorem follows_limited {α : Type} {s : Service} {key : Str} {limit now : Int}
    {detail : Str} {next : Service → Service × Except Failure α}
    (checks : Hits → Bool × Hits)
    (hnext : ∀ hits, Follows (next { s with hits := hits }) (checks hits)) :
    Follows (limited s key limit now detail next)
      (if (rateOk s.hits key limit now).1 then checks (rateOk s.hits key limit now).2
        else rateOk s.hits key limit now) := by
  unfold limited
  by_cases hok : (rateOk s.hits key limit now).1 = true
  · simp only [hok, if_true]
    exact hnext _
  · simp only [hok]
    exact ⟨rfl, by simp [tooMany, hok]⟩

theorem follows_fileReport {α : Type} (s : Service) (fields : Fields) (draw : Draw)
    (reply : Ticket → α) : Follows (fileReport s fields draw reply) (true, s.hits) := by
  refine ⟨hits_fileReport s fields draw reply, ?_⟩
  unfold fileReport
  rcases createOrDedupe s.tickets fields draw with exc | ⟨t, rows⟩
  · rfl
  · rfl

section

variable (F : Type) [PyFloat F] [Interpreter]

/-- An authenticated request moves the limiter as the two checks do, and is
answered 429 exactly when one of them refuses. -/
theorem serveForward_admission (D : Deployment) (s : Service) {e : Forward}
    (hauth : requireForwardAuth D.settings e.arrival.request = .ok ()) :
    Follows (serveForward F D s e) (admission D s.hits e) := by
  have hlast : ∀ r : Bool × Hits, (if r.1 then (true, r.2) else r) = r := by
    rintro ⟨_ | _, hits⟩
    · rfl
    · rfl
  simp only [serveForward, receiveForwarded, hauth]
  apply follows_limited fun hits =>
    rateOk hits (installKey (e.install D)) (forwardLimit D) e.arrival.secondTick
  intro hits
  rw [← hlast (rateOk hits _ _ _)]
  apply follows_limited (s := { s with hits := hits }) fun hits => (true, hits)
  intro hits
  simp only
  rcases verifiedLicense F D e.report e.arrival.unixTime with _ | ⟨tier, licenseIdHash⟩
  · exact ⟨rfl, rfl⟩
  · exact follows_fileReport _ _ _ _

end

/-! ### What the two checks do -/

/-- The live part of the address bucket when it is checked. -/
def liveAddress (D : Deployment) (hits : Hits) (e : Forward) : List Int :=
  live e.arrival.firstTick (hits (addressKey (e.address D)))

/-- The live part of the install bucket when it is checked. -/
def liveInstall (D : Deployment) (hits : Hits) (e : Forward) : List Int :=
  live e.arrival.secondTick (hits (installKey (e.install D)))

/-- The table after the address check and the install check left these
buckets. -/
def setBuckets (D : Deployment) (hits : Hits) (e : Forward) (address install : List Int) :
    Hits :=
  Function.update (Function.update hits (addressKey (e.address D)) address)
    (installKey (e.install D)) install

/-- How the two checks end: refused at the address, refused at the install, or
admitted. -/
inductive Admission (D : Deployment) (hits : Hits) (e : Forward) : Bool × Hits → Prop
  | address (haddress : forwardLimit D ≤ (liveAddress D hits e).length) :
      Admission D hits e (false, setBuckets D hits e
        (liveAddress D hits e) (hits (installKey (e.install D))))
  | install (haddress : ((liveAddress D hits e).length : Int) < forwardLimit D)
      (hinstall : forwardLimit D ≤ (liveInstall D hits e).length) :
      Admission D hits e (false, setBuckets D hits e
        (liveAddress D hits e ++ [e.arrival.firstTick]) (liveInstall D hits e))
  | admitted (haddress : ((liveAddress D hits e).length : Int) < forwardLimit D)
      (hinstall : ((liveInstall D hits e).length : Int) < forwardLimit D) :
      Admission D hits e (true, setBuckets D hits e
        (liveAddress D hits e ++ [e.arrival.firstTick])
        (liveInstall D hits e ++ [e.arrival.secondTick]))

theorem admission_cases (D : Deployment) (hits : Hits) (e : Forward) :
    Admission D hits e (admission D hits e) := by
  have hother : ∀ bucket, Function.update hits (addressKey (e.address D)) bucket
      (installKey (e.install D)) = hits (installKey (e.install D)) :=
    fun bucket => Function.update_of_ne (addressKey_ne_installKey _ _).symm _ _
  by_cases haddress : forwardLimit D ≤ ((liveAddress D hits e).length : Int)
  · have hrun : admission D hits e = (false, setBuckets D hits e
        (liveAddress D hits e) (hits (installKey (e.install D)))) := by
      simp only [liveAddress] at haddress
      simp only [admission, rateOk, haddress, if_true, setBuckets, liveAddress]
      rw [← hother, Function.update_eq_self]
      rfl
    exact hrun ▸ .address haddress
  · by_cases hinstall : forwardLimit D ≤ ((liveInstall D hits e).length : Int)
    · have hrun : admission D hits e = (false, setBuckets D hits e
          (liveAddress D hits e ++ [e.arrival.firstTick]) (liveInstall D hits e)) := by
        simp only [liveAddress, liveInstall] at haddress hinstall
        simp [admission, rateOk, haddress, hinstall, hother, liveAddress, liveInstall,
          setBuckets]
      exact hrun ▸ .install (not_le.mp haddress) hinstall
    · have hrun : admission D hits e = (true, setBuckets D hits e
          (liveAddress D hits e ++ [e.arrival.firstTick])
          (liveInstall D hits e ++ [e.arrival.secondTick])) := by
        simp only [liveAddress, liveInstall] at haddress hinstall
        simp [admission, rateOk, haddress, hinstall, hother, liveAddress, liveInstall,
          setBuckets]
      exact hrun ▸ .admitted (not_le.mp haddress) (not_le.mp hinstall)

@[simp] theorem setBuckets_address (D : Deployment) (hits : Hits) (e : Forward)
    (address install : List Int) :
    setBuckets D hits e address install (addressKey (e.address D)) = address := by
  rw [setBuckets, Function.update_of_ne (addressKey_ne_installKey _ _),
    Function.update_self]

@[simp] theorem setBuckets_install (D : Deployment) (hits : Hits) (e : Forward)
    (address install : List Int) :
    setBuckets D hits e address install (installKey (e.install D)) = install :=
  Function.update_self _ _ _

theorem setBuckets_other (D : Deployment) (hits : Hits) (e : Forward)
    (address install : List Int) {key : Str} (haddress : key ≠ addressKey (e.address D))
    (hinstall : key ≠ installKey (e.install D)) :
    setBuckets D hits e address install key = hits key := by
  rw [setBuckets, Function.update_of_ne hinstall, Function.update_of_ne haddress]

/-! ### Boxes that share no bucket -/

/-- A request touches the bucket of its address and the bucket of its install. -/
theorem admission_other (D : Deployment) (hits : Hits) (e : Forward) {key : Str}
    (haddress : key ≠ addressKey (e.address D)) (hinstall : key ≠ installKey (e.install D)) :
    (admission D hits e).2 key = hits key := by
  unfold admission
  have hfirst := rateOk_other hits haddress (forwardLimit D) e.arrival.firstTick
  by_cases hok : (rateOk hits (addressKey (e.address D)) (forwardLimit D)
      e.arrival.firstTick).1 = true
  · simp only [hok, if_true]
    exact (rateOk_other _ hinstall _ _).trans hfirst
  · simp only [hok]
    exact hfirst

/-- It reads these two buckets only. -/
theorem admission_congr (D : Deployment) {hits hits' : Hits} (e : Forward)
    (haddress : hits (addressKey (e.address D)) = hits' (addressKey (e.address D)))
    (hinstall : hits (installKey (e.install D)) = hits' (installKey (e.install D))) :
    (admission D hits e).1 = (admission D hits' e).1 ∧
      (admission D hits e).2 (addressKey (e.address D)) =
        (admission D hits' e).2 (addressKey (e.address D)) ∧
      (admission D hits e).2 (installKey (e.install D)) =
        (admission D hits' e).2 (installKey (e.install D)) := by
  have hother : ∀ hits : Hits, (rateOk hits (addressKey (e.address D)) (forwardLimit D)
      e.arrival.firstTick).2 (installKey (e.install D)) = hits (installKey (e.install D)) :=
    fun hits => rateOk_other hits (addressKey_ne_installKey _ _).symm _ _
  rcases rateOk_congr haddress (forwardLimit D) e.arrival.firstTick with ⟨hok, hbucket⟩
  rcases rateOk_congr ((hother hits).trans (hinstall.trans (hother hits').symm))
    (forwardLimit D) e.arrival.secondTick with ⟨hok', hbucket'⟩
  unfold admission
  by_cases hpass : (rateOk hits' (addressKey (e.address D)) (forwardLimit D)
      e.arrival.firstTick).1 = true
  · simp only [hok, hpass, if_true]
    refine ⟨hok', ?_, hbucket'⟩
    rw [rateOk_other _ (addressKey_ne_installKey _ _),
      rateOk_other _ (addressKey_ne_installKey _ _)]
    exact hbucket
  · simp only [hok, hpass]
    exact ⟨hok, hbucket, (hother hits).trans (hinstall.trans (hother hits').symm)⟩

/-- The buckets of the requests of a run that come from an address. -/
def BucketOf (D : Deployment) (events : List Forward) (a key : Str) : Prop :=
  ∃ e ∈ events, e.address D = a ∧
    (key = addressKey (e.address D) ∨ key = installKey (e.install D))

/-- A request from elsewhere that shares no install with them leaves these
buckets alone. -/
theorem admission_apart (D : Deployment) (hits : Hits) {events : List Forward} {a key : Str}
    {e : Forward} (he : e.address D ≠ a)
    (hapart : ∀ d ∈ events, d.address D = a → d.install D ≠ e.install D)
    (hkey : BucketOf D events a key) : (admission D hits e).2 key = hits key := by
  obtain ⟨d, hd, hda, hkey⟩ := hkey
  apply admission_other
  · rintro rfl
    rcases hkey with hkey | hkey
    · exact he (addressKey_inj.mp hkey ▸ hda)
    · exact addressKey_ne_installKey _ _ hkey
  · rintro rfl
    rcases hkey with hkey | hkey
    · exact addressKey_ne_installKey _ _ hkey.symm
    · exact hapart d hd hda (installKey_inj.mp hkey).symm

/-- Where these buckets are the same, a request of the address is admitted alike
and leaves them the same. -/
theorem admission_agree (D : Deployment) {hits hits' : Hits} {events : List Forward}
    {e : Forward} (he : e ∈ events)
    (hagree : ∀ key, BucketOf D events (e.address D) key → hits key = hits' key) :
    (admission D hits e).1 = (admission D hits' e).1 ∧
      ∀ key, BucketOf D events (e.address D) key →
        (admission D hits e).2 key = (admission D hits' e).2 key := by
  obtain ⟨hok, haddress, hinstall⟩ := admission_congr D e
    (hagree _ ⟨e, he, rfl, .inl rfl⟩) (hagree _ ⟨e, he, rfl, .inr rfl⟩)
  refine ⟨hok, fun key hkey => ?_⟩
  by_cases hka : key = addressKey (e.address D)
  · rw [hka]
    exact haddress
  · by_cases hki : key = installKey (e.install D)
    · rw [hki]
      exact hinstall
    · rw [admission_other D _ e hka hki, admission_other D _ e hka hki]
      exact hagree key hkey

section

variable (F : Type) [PyFloat F] [Interpreter]

/-- Requests from elsewhere that share no install with those of an address do
not change which of these are refused. -/
theorem forward_apart (D : Deployment) (start : Service) {events : List Forward} {a : Str}
    (hauth : ∀ e ∈ events, requireForwardAuth D.settings e.arrival.request = .ok ())
    (hapart : ∀ e ∈ events, ∀ e' ∈ events, e.address D = a → e'.address D ≠ a →
      e.install D ≠ e'.install D) :
    ((events.zip (answers (serveForward F D) start events)).filter
        fun p => decide (p.1.address D = a)).map (fun p => tooMany p.2) =
      (answers (serveForward F D) start
        (events.filter fun e => decide (e.address D = a))).map tooMany := by
  -- Related states agree on every bucket the address will ever use.
  let R : Service → Service → List Forward → List Forward → Prop :=
    fun s s' rest _ => rest ⊆ events ∧
      ∀ key, BucketOf D events a key → s.hits key = s'.hits key
  have hhidden : ∀ s s' e rest rest', decide (e.address D = a) = false →
      R s s' (e :: rest) rest' → R (serveForward F D s e).1 s' rest rest' := by
    rintro s s' e rest rest' he ⟨hsub, hagree⟩
    rw [List.cons_subset] at hsub
    rw [decide_eq_false_iff_not] at he
    refine ⟨hsub.2, fun key hkey => ?_⟩
    have hother := admission_apart D s.hits he
      (fun d hd hda => hapart d hd e hsub.1 hda he) hkey
    rw [(serveForward_admission F D s (hauth e hsub.1)).1, hother]
    exact hagree key hkey
  have hvisible : ∀ s s' e e' rest rest', decide (e.address D = a) = true → e = e' →
      R s s' (e :: rest) (e' :: rest') →
      R (serveForward F D s e).1 (serveForward F D s' e').1 rest rest' ∧
        tooMany (serveForward F D s e).2 = tooMany (serveForward F D s' e').2 := by
    rintro s s' e _ rest rest' he rfl ⟨hsub, hagree⟩
    rw [List.cons_subset] at hsub
    obtain rfl := of_decide_eq_true he
    obtain ⟨hhits, hanswer⟩ := serveForward_admission F D s (hauth e hsub.1)
    obtain ⟨hhits', hanswer'⟩ := serveForward_admission F D s' (hauth e hsub.1)
    obtain ⟨hok, hbuckets⟩ := admission_agree D hsub.1 hagree
    refine ⟨⟨hsub.2, ?_⟩, by rw [hanswer, hanswer', hok]⟩
    rw [hhits, hhits']
    exact hbuckets
  have hsame : List.Forall₂ (· = ·) (events.filter fun e => decide (e.address D = a))
      (events.filter fun e => decide (e.address D = a)) := List.forall₂_refl _
  exact (unwinding hhidden hvisible ⟨List.Subset.refl events, fun _ _ => rfl⟩ hsame).2

end

/-! ### Two boxes -/

/-- `x` and `y` are the install ids of different boxes; a box that sends none
differs from every other. -/
def DifferentIds (x y : Option Str) : Prop := truthy x = true → x ≠ y

/-- One box sends no install id, and the other sends the address of the first
as its own. -/
def SendsAddress (x y : Option Str) (address : Str) : Prop :=
  truthy x = false ∧ y = some address

instance DifferentIds.decidable (x y : Option Str) : Decidable (DifferentIds x y) :=
  inferInstanceAs (Decidable (_ → _))

instance SendsAddress.decidable (x y : Option Str) (address : Str) :
    Decidable (SendsAddress x y address) :=
  inferInstanceAs (Decidable (_ ∧ _))

theorem orElse_eq_fallback {text : Option Str} (h : truthy text = false) (fallback : Str) :
    orElse text fallback = fallback := by
  rcases text with _ | s
  · rfl
  · have hs : s = [] := by simpa [truthy] using h
    simp [orElse, hs]

theorem some_orElse {text : Option Str} (h : truthy text = true) (fallback : Str) :
    text = some (orElse text fallback) := by
  rcases text with _ | s
  · simp [truthy] at h
  · have hs : s ≠ [] := by simpa [truthy] using h
    simp [orElse, hs]

theorem orElse_ne {x y : Option Str} {a b : Str} (hab : a ≠ b) (hids : DifferentIds x y)
    (hx : ¬ SendsAddress x y a) (hy : ¬ SendsAddress y x b) : orElse x a ≠ orElse y b := by
  intro heq
  rcases htx : truthy x with _ | _
  · rw [orElse_eq_fallback htx] at heq
    rcases hty : truthy y with _ | _
    · exact hab (heq.trans (orElse_eq_fallback hty b))
    · exact hx ⟨htx, (some_orElse hty b).trans (congrArg some heq.symm)⟩
  · have hxsome := some_orElse htx a
    rcases hty : truthy y with _ | _
    · rw [orElse_eq_fallback hty] at heq
      exact hy ⟨hty, hxsome.trans (congrArg some heq)⟩
    · exact hids htx (hxsome.trans ((congrArg some heq).trans (some_orElse hty b).symm))

section

variable (F : Type) [PyFloat F] [Interpreter]

/-- Two boxes at different addresses with different install ids.  As long as
neither sends the address of the other as its install id while the other sends
none, deleting all requests of the second from a run changes no admission
decision of the first. -/
theorem forward_budgets_apart (D : Deployment) (start : Service) {events : List Forward}
    {a b : Str} (hab : a ≠ b)
    (hauth : ∀ e ∈ events, requireForwardAuth D.settings e.arrival.request = .ok ())
    (haddress : ∀ e ∈ events, e.address D = a ∨ e.address D = b)
    (hids : ∀ e ∈ events, ∀ e' ∈ events, e.address D = a → e'.address D = b →
      DifferentIds e.report.installId e'.report.installId)
    (hsends : ∀ e ∈ events, ∀ e' ∈ events, e.address D = a → e'.address D = b →
      ¬ SendsAddress e.report.installId e'.report.installId a ∧
        ¬ SendsAddress e'.report.installId e.report.installId b) :
    ((events.zip (answers (serveForward F D) start events)).filter
        fun p => decide (p.1.address D = a)).map (fun p => tooMany p.2) =
      (answers (serveForward F D) start
        (events.filter fun e => decide (e.address D = a))).map tooMany := by
  apply forward_apart F D start hauth
  intro e he e' he' hea hne
  have heb : e'.address D = b := (haddress e' he').resolve_left hne
  have hnot := hsends e he e' he' hea heb
  rw [Forward.install, Forward.install, hea, heb]
  exact orElse_ne hab (hids e he e' he' hea heb) hnot.1 hnot.2

end

section

attribute [local instance] FloatView.asFloat Interpreter.ascii

/-- One forwarded report a minute for each bucket. -/
def onceAMinute : Deployment where
  crypto := recordedKey.crypto
  ip := ⟨Unit, Unit, fun _ => none, fun _ => none, fun _ _ => false⟩
  settings := { forwardIntakeTokens := "fleet", intakeRatePerMin := 1 }

def emptyService : Service := ⟨[], noHits⟩

/-- A report from an address at a time. -/
def forwardFrom (address : Str) (tick : Int) (id : Str) (installId : Option Str) :
    Forward where
  arrival :=
    { request := { authorization := some (asciiBytes "Bearer fleet"), client := some address }
      firstTick := tick
      secondTick := tick
      unixTime := 1700000000
      ticket := ⟨id, tick, tick, tick⟩ }
  report := { title := "crash", installId := installId }

/-- The second box has an install id, the first has none. -/
def twoBoxes (installId : Str) : List Forward :=
  [forwardFrom "10.0.0.2" 0 "SUP-1" (some installId),
    forwardFrom "10.0.0.1" 1 "SUP-2" none,
    forwardFrom "10.0.0.1" 2 "SUP-3" none]

/-- Which requests of the first box are refused. -/
def refusedFirst (events : List Forward) : List Bool :=
  ((events.zip (answers (serveForward FloatView onceAMinute) emptyService events)).filter
    fun p => decide (p.1.address onceAMinute = Str.ofString "10.0.0.1")).map
    fun p => tooMany p.2

theorem forward_budgets_apart_twoBoxes :
    refusedFirst (twoBoxes "box-b") = [false, true] := by
  have h := @forward_budgets_apart FloatView _ _ onceAMinute emptyService
    (twoBoxes "box-b") "10.0.0.1" "10.0.0.2" (by decide) (by decide +kernel)
    (by decide +kernel) (by decide +kernel) (by decide +kernel)
  exact h.trans (by decide +kernel)

/-- The second box sends the address of the first as its install id, and the
budget of the first is gone before its first report. -/
theorem forward_budgets_shared :
    let events := twoBoxes "10.0.0.1"
    (∀ e ∈ events, requireForwardAuth onceAMinute.settings e.arrival.request = .ok ()) ∧
    (∀ e ∈ events, e.address onceAMinute = Str.ofString "10.0.0.1" ∨
      e.address onceAMinute = Str.ofString "10.0.0.2") ∧
    (∀ e ∈ events, ∀ e' ∈ events, e.address onceAMinute = Str.ofString "10.0.0.1" →
      e'.address onceAMinute = Str.ofString "10.0.0.2" →
      DifferentIds e.report.installId e'.report.installId) ∧
    refusedFirst events ≠
      (answers (serveForward FloatView onceAMinute) emptyService (events.filter fun e =>
        decide (e.address onceAMinute = Str.ofString "10.0.0.1"))).map tooMany := by
  refine ⟨by decide +kernel, by decide +kernel, by decide +kernel, by decide +kernel⟩

end

end NetplexSupport
