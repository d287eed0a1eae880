/-
What the forward intake charges.  As long as no request passes the check of its
address and fails the check of its install, both buckets hold exactly the
admitted requests of the last minute.
-/
import NetplexSupport.Limits.Forward

namespace NetplexSupport

open Py Transition

/-! ### Accepted requests -/

section

variable (F : Type) [PyFloat F] [Interpreter]

/-- The requests of a run that passed both checks. -/
def passed (D : Deployment) (start : Service) (events : List Forward) : List Forward :=
  selected (serveForward F D) (fun answer => !tooMany answer) start events

end

/-- The requests from the address of `e` in the closed minute behind its first
check. -/
def fromAddress (D : Deployment) (past : List Forward) (e : Forward) : List Forward :=
  past.filter fun d => decide (d.address D = e.address D) &&
    decide (e.arrival.firstTick - d.arrival.firstTick ≤ rateWindow)

/-- The requests with the install id of `e` in the closed minute behind its
second check. -/
def fromInstall (past : List Forward) (e : Forward) : List Forward :=
  past.filter fun d => decide (d.report.installId = e.report.installId) &&
    decide (e.arrival.secondTick - d.arrival.secondTick ≤ rateWindow)

/-- The request passes the check of its address and fails the check of its
install, no more than a minute later. -/
def Overcharges (D : Deployment) (hits : Hits) (e : Forward) : Prop :=
  ((liveAddress D hits e).length : Int) < forwardLimit D ∧
    forwardLimit D ≤ (liveInstall D hits e).length ∧
    e.arrival.secondTick - e.arrival.firstTick ≤ rateWindow

instance Overcharges.decidable (D : Deployment) (hits : Hits) (e : Forward) :
    Decidable (Overcharges D hits e) :=
  inferInstanceAs (Decidable (_ ∧ _ ∧ _))

section

variable (F : Type) [PyFloat F] [Interpreter]

/-- Only accepted requests are charged. -/
structure ChargesAccepted (D : Deployment) (start : Service) (events : List Forward) :
    Prop where
  refused : ∀ pre e post, events = pre ++ e :: post →
    tooMany (serveForward F D (after (serveForward F D) start pre) e).2 = true →
    forwardLimit D ≤ (fromAddress D (passed F D start pre) e).length ∨
      forwardLimit D ≤ (fromInstall (passed F D start pre) e).length
  unchanged : ∀ pre e post, events = pre ++ e :: post →
    tooMany (serveForward F D (after (serveForward F D) start pre) e).2 = true →
    ∀ key later, e.arrival.secondTick ≤ later →
      live later ((serveForward F D (after (serveForward F D) start pre) e).1.hits key) =
        live later ((after (serveForward F D) start pre).hits key)

end

/-! ### The buckets keep the accepted requests -/

/-- The moments at which the requests of one `who` were charged. -/
def chargeTimes (who : Forward → Str) (tick : Forward → Int) (x : Str)
    (past : List Forward) : List Int :=
  (past.filter fun d => decide (who d = x)).map tick

theorem chargeTimes_self (who : Forward → Str) (tick : Forward → Int) (past : List Forward)
    (e : Forward) : chargeTimes who tick (who e) (past ++ [e]) =
      chargeTimes who tick (who e) past ++ [tick e] := by
  simp [chargeTimes]

theorem chargeTimes_other {who : Forward → Str} (tick : Forward → Int) {x : Str}
    {past : List Forward} {e : Forward} (ok : Bool) (h : x ≠ who e) :
    chargeTimes who tick x (if ok then past ++ [e] else past) =
      chargeTimes who tick x past := by
  cases ok
  · rfl
  · simp [chargeTimes, Ne.symm h]

def addressTimes (D : Deployment) : Str → List Forward → List Int :=
  chargeTimes (Forward.address D) fun d => d.arrival.firstTick

def installTimes (D : Deployment) : Str → List Forward → List Int :=
  chargeTimes (Forward.install D) fun d => d.arrival.secondTick

/-- At `now`, every bucket keeps the accepted requests. -/
structure BucketsKeep (D : Deployment) (hits : Hits) (past : List Forward) (now : Int) :
    Prop where
  address : ∀ x, Window.Keeps rateWindow (hits (addressKey x)) (addressTimes D x past) now
  install : ∀ x, Window.Keeps rateWindow (hits (installKey x)) (installTimes D x past) now

theorem BucketsKeep.mono {D : Deployment} {hits : Hits} {past : List Forward}
    {now now' : Int} (h : BucketsKeep D hits past now) (hle : now ≤ now') :
    BucketsKeep D hits past now' :=
  ⟨fun x => (h.address x).mono hle, fun x => (h.install x).mono hle⟩

theorem liveAddress_eq {D : Deployment} {hits : Hits} {past : List Forward} {e : Forward}
    (h : BucketsKeep D hits past e.arrival.firstTick) :
    liveAddress D hits e =
      (fromAddress D past e).map fun d => d.arrival.firstTick := by
  refine (h.address (e.address D)).expire_eq.trans ?_
  rw [Window.recent, addressTimes, chargeTimes, List.filter_map, List.filter_filter, fromAddress]
  congr 1
  apply List.filter_congr
  intro d _
  exact Bool.and_comm _ _

/-- Requests that carry an install id share their install when they share the
id. -/
theorem install_eq_iff (D : Deployment) {d e : Forward}
    (hd : truthy d.report.installId = true) (he : truthy e.report.installId = true) :
    d.install D = e.install D ↔ d.report.installId = e.report.installId := by
  have hdsome := some_orElse hd (d.address D)
  have hesome := some_orElse he (e.address D)
  rw [hdsome, hesome, Option.some_inj]
  rfl

theorem liveInstall_eq {D : Deployment} {hits : Hits} {past : List Forward} {e : Forward}
    (h : BucketsKeep D hits past e.arrival.secondTick)
    (hpast : ∀ d ∈ past, truthy d.report.installId = true)
    (he : truthy e.report.installId = true) :
    liveInstall D hits e = (fromInstall past e).map fun d => d.arrival.secondTick := by
  refine (h.install (e.install D)).expire_eq.trans ?_
  rw [Window.recent, installTimes, chargeTimes, List.filter_map, List.filter_filter, fromInstall]
  congr 1
  apply List.filter_congr
  intro d hd
  rw [Bool.and_comm, decide_eq_decide.mpr (install_eq_iff D (hpast d hd) he)]
  rfl

/-- Two buckets are written; all others keep what they kept. -/
theorem bucketsKeep_set {D : Deployment} {hits : Hits} {past : List Forward} {e : Forward}
    {address install : List Int} (ok : Bool)
    (h : BucketsKeep D hits past e.arrival.firstTick)
    (htick : e.arrival.firstTick ≤ e.arrival.secondTick)
    (haddress : Window.Keeps rateWindow address
      (addressTimes D (e.address D) (if ok then past ++ [e] else past)) e.arrival.secondTick)
    (hinstall : Window.Keeps rateWindow install
      (installTimes D (e.install D) (if ok then past ++ [e] else past))
        e.arrival.secondTick) :
    BucketsKeep D (setBuckets D hits e address install)
      (if ok then past ++ [e] else past) e.arrival.secondTick := by
  refine ⟨fun x => ?_, fun x => ?_⟩
  · by_cases hx : x = e.address D
    · subst hx
      rw [setBuckets_address]
      exact haddress
    · rw [setBuckets_other D hits e _ _ (mt addressKey_inj.mp hx)
        (addressKey_ne_installKey _ _), addressTimes, chargeTimes_other _ _ hx]
      exact (h.address x).mono htick
  · by_cases hx : x = e.install D
    · subst hx
      rw [setBuckets_install]
      exact hinstall
    · rw [setBuckets_other D hits e _ _ (addressKey_ne_installKey _ _).symm
        (mt installKey_inj.mp hx), installTimes, chargeTimes_other _ _ hx]
      exact (h.install x).mono htick

/-- A request that does not overcharge leaves every bucket keeping the accepted
requests. -/
theorem bucketsKeep_step {D : Deployment} {hits : Hits} {past : List Forward} {e : Forward}
    (h : BucketsKeep D hits past e.arrival.firstTick)
    (htick : e.arrival.firstTick ≤ e.arrival.secondTick) (hnot : ¬ Overcharges D hits e) :
    BucketsKeep D (admission D hits e).2
      (if (admission D hits e).1 then past ++ [e] else past) e.arrival.secondTick := by
  have haddress := (h.address (e.address D)).expired
  have hinstall := (h.install (e.install D)).mono htick
  have hcases := admission_cases D hits e
  generalize admission D hits e = r at hcases ⊢
  rcases hcases with hrefuse | ⟨hpass, hrefuse⟩ | ⟨hpass, hpass'⟩
  · exact bucketsKeep_set false h htick (haddress.mono htick) hinstall
  · -- The charge of the address is older than a minute when the install refuses.
    have hlate : rateWindow < e.arrival.secondTick - e.arrival.firstTick :=
      not_le.mp fun hle => hnot ⟨hpass, hrefuse, hle⟩
    exact bucketsKeep_set false h htick ((haddress.record.mono htick).forget hlate)
      hinstall.expired
  · apply bucketsKeep_set true h htick
    · rw [if_pos rfl, addressTimes, chargeTimes_self]
      exact haddress.record.mono htick
    · rw [if_pos rfl, installTimes, chargeTimes_self]
      exact hinstall.expired.record

theorem live_setBuckets {D : Deployment} {hits : Hits} {e : Forward}
    {address install : List Int} {later : Int}
    (haddress : live later address = live later (hits (addressKey (e.address D))))
    (hinstall : live later install = live later (hits (installKey (e.install D))))
    (key : Str) :
    live later (setBuckets D hits e address install key) = live later (hits key) := by
  by_cases hka : key = addressKey (e.address D)
  · rw [hka, setBuckets_address]
    exact haddress
  · by_cases hki : key = installKey (e.install D)
    · rw [hki, setBuckets_install]
      exact hinstall
    · rw [setBuckets_other D hits e _ _ hka hki]

section

variable (F : Type) [PyFloat F] [Interpreter]

/-- What a run without an overcharging request carries. -/
structure Unspoilt (D : Deployment) (s : Service) (past rest : List Forward) : Prop where
  auth : ∀ e ∈ rest, requireForwardAuth D.settings e.arrival.request = .ok ()
  clock : ∀ e ∈ rest, e.arrival.firstTick ≤ e.arrival.secondTick
  order : rest.Pairwise fun e e' => e.arrival.secondTick ≤ e'.arrival.firstTick
  sound : ∀ pre e post, rest = pre ++ e :: post →
    ¬ Overcharges D (after (serveForward F D) s pre).hits e
  keeps : ∀ e ∈ rest, BucketsKeep D s.hits past e.arrival.firstTick

theorem unspoilt_step (D : Deployment) {s : Service} {past : List Forward} {e : Forward}
    {rest : List Forward} (h : Unspoilt F D s past (e :: rest)) :
    Unspoilt F D (serveForward F D s e).1
      (if !tooMany (serveForward F D s e).2 then past ++ [e] else past) rest := by
  have horder := List.pairwise_cons.mp h.order
  refine ⟨fun d hd => h.auth d (.tail e hd), fun d hd => h.clock d (.tail e hd), horder.2,
    ?_, fun d hd => ?_⟩
  · rintro pre d post rfl
    exact h.sound (e :: pre) d post rfl
  · rcases serveForward_admission F D s (h.auth e (.head _)) with ⟨hhits, hanswer⟩
    rw [hhits, hanswer, Bool.not_not]
    apply BucketsKeep.mono _ (horder.1 d hd)
    exact bucketsKeep_step (h.keeps e (.head _)) (h.clock e (.head _)) (h.sound [] e rest rfl)

theorem unspoilt_run (D : Deployment) {start : Service} {events rest : List Forward}
    (h : Unspoilt F D start [] (events ++ rest)) :
    Unspoilt F D (after (serveForward F D) start events) (passed F D start events) rest := by
  have hrun := inv_selected (p := fun answer => !tooMany answer)
    (fun _ _ _ _ h => unspoilt_step F D h) rest h
  rwa [List.nil_append] at hrun

/-! ### The two directions -/

/-- A refused request that does not overcharge had one of its budgets used up by
accepted requests. -/
theorem refused_accounted (D : Deployment) {s : Service} {past rest : List Forward}
    {e : Forward} (h : Unspoilt F D s past (e :: rest))
    (hpast : ∀ d ∈ past, truthy d.report.installId = true)
    (he : truthy e.report.installId = true)
    (hrefused : tooMany (serveForward F D s e).2 = true) :
    forwardLimit D ≤ (fromAddress D past e).length ∨
      forwardLimit D ≤ (fromInstall past e).length := by
  have hkeeps := h.keeps e (.head _)
  have hlater := hkeeps.mono (h.clock e (.head _))
  rw [(serveForward_admission F D s (h.auth e (.head _))).2] at hrefused
  have hcases := admission_cases D s.hits e
  generalize admission D s.hits e = r at hcases hrefused
  rcases hcases with hrefuse | ⟨_, hrefuse⟩ | _
  · left
    rwa [liveAddress_eq hkeeps, List.length_map] at hrefuse
  · right
    rwa [liveInstall_eq hlater hpast he, List.length_map] at hrefuse
  · cases hrefused

/-- It leaves the live part of every bucket as it was. -/
theorem refused_unchanged (D : Deployment) {s : Service} {past rest : List Forward}
    {e : Forward} (h : Unspoilt F D s past (e :: rest))
    (hrefused : tooMany (serveForward F D s e).2 = true) (key : Str) {later : Int}
    (hlater : e.arrival.secondTick ≤ later) :
    live later ((serveForward F D s e).1.hits key) = live later (s.hits key) := by
  have hclock := h.clock e (.head _)
  have hbucket := ((h.keeps e (.head _)).address (e.address D)).expired
  have haddress : live later (liveAddress D s.hits e) =
      live later (s.hits (addressKey (e.address D))) :=
    Window.expire_expire (hclock.trans hlater) _
  have hinstall : live later (liveInstall D s.hits e) =
      live later (s.hits (installKey (e.install D))) :=
    Window.expire_expire hlater _
  rcases serveForward_admission F D s (h.auth e (.head _)) with ⟨hhits, hanswer⟩
  rw [hanswer] at hrefused
  rw [hhits]
  have hcases := admission_cases D s.hits e
  generalize admission D s.hits e = r at hcases hrefused ⊢
  rcases hcases with hrefuse | ⟨hpass, hrefuse⟩ | _
  · exact live_setBuckets haddress rfl key
  · have hlate : rateWindow < later - e.arrival.firstTick :=
      (not_le.mp fun hle => h.sound [] e rest rfl ⟨hpass, hrefuse, hle⟩).trans_le
        (sub_le_sub_right hlater _)
    exact live_setBuckets ((hbucket.expire_record hlate).trans haddress) hinstall key
  · cases hrefused

/-- A request that overcharges is refused, and leaves a charge behind. -/
theorem overcharge_changes (D : Deployment) {s : Service} {e : Forward}
    (hauth : requireForwardAuth D.settings e.arrival.request = .ok ())
    (hclock : e.arrival.firstTick ≤ e.arrival.secondTick) (h : Overcharges D s.hits e) :
    tooMany (serveForward F D s e).2 = true ∧
      live e.arrival.secondTick ((serveForward F D s e).1.hits (addressKey (e.address D))) ≠
        live e.arrival.secondTick (s.hits (addressKey (e.address D))) := by
  rcases h with ⟨hpass, hrefuse, hsoon⟩
  rcases serveForward_admission F D s hauth with ⟨hhits, hanswer⟩
  rw [hhits, hanswer]
  have hcases := admission_cases D s.hits e
  generalize admission D s.hits e = r at hcases ⊢
  rcases hcases with hrefuse' | _ | ⟨_, hpass'⟩
  · exact absurd hpass (not_lt.mpr hrefuse')
  · refine ⟨rfl, fun heq => ?_⟩
    have hmore : live e.arrival.secondTick
        (liveAddress D s.hits e ++ [e.arrival.firstTick]) =
          live e.arrival.secondTick (s.hits (addressKey (e.address D))) ++
            [e.arrival.firstTick] :=
      (Window.expire_append_recent hsoon _).trans
        (congrArg (· ++ _) (Window.expire_expire hclock _))
    simp only [setBuckets_address, hmore] at heq
    simp at heq
  · exact absurd hrefuse (not_le.mpr hpass')

/-- In every run of authenticated forward requests that carry an install id, the
budgets are charged for accepted requests only if and only if no request passes
the check of its address and then fails the check of its install. -/
theorem forward_budgets_iff (D : Deployment) {start : Service} {events : List Forward}
    (hstart : start.hits = noHits)
    (hauth : ∀ e ∈ events, requireForwardAuth D.settings e.arrival.request = .ok ())
    (hids : ∀ e ∈ events, truthy e.report.installId = true)
    (hclock : ∀ e ∈ events, e.arrival.firstTick ≤ e.arrival.secondTick)
    (horder : events.Pairwise fun e e' => e.arrival.secondTick ≤ e'.arrival.firstTick) :
    ChargesAccepted F D start events ↔ ∀ pre e post, events = pre ++ e :: post →
      ¬ Overcharges D (after (serveForward F D) start pre).hits e := by
  constructor
  · rintro h pre e post rfl hover
    have he : e ∈ pre ++ e :: post := by simp
    have hchange := overcharge_changes F D (hauth e he) (hclock e he) hover
    exact hchange.2 (h.unchanged pre e post rfl hchange.1 _ _ (le_refl _))
  · intro hsound
    have hbegin : Unspoilt F D start [] events :=
      ⟨hauth, hclock, horder, hsound, fun e _ => ⟨fun x => hstart ▸ Window.Keeps.nil _ _,
        fun x => hstart ▸ Window.Keeps.nil _ _⟩⟩
    constructor
    · rintro pre e post rfl hrefused
      apply refused_accounted F D (unspoilt_run F D hbegin) _ (hids e (by simp)) hrefused
      intro d hd
      exact hids d (List.mem_append_left _ ((selected_sublist ..).subset hd))
    · rintro pre e post rfl hrefused key later hlater
      exact refused_unchanged F D (unspoilt_run F D hbegin) hrefused key hlater

end

section

attribute [local instance] FloatView.asFloat Interpreter.ascii

/-- A box reports twice within a minute. -/
def impatientBox : List Forward :=
  [forwardFrom "10.0.0.1" 0 "SUP-1" (some "box-a"),
    forwardFrom "10.0.0.1" 1 "SUP-2" (some "box-a")]

theorem forward_budgets_iff_impatient :
    ChargesAccepted FloatView onceAMinute emptyService impatientBox := by
  apply (forward_budgets_iff FloatView onceAMinute rfl (by decide +kernel)
    (by decide +kernel) (by decide +kernel) (by decide +kernel)).mpr
  intro pre e post h
  rcases pre with _ | ⟨x, _ | ⟨y, pre⟩⟩
  · obtain ⟨rfl, _⟩ := List.cons.inj h
    decide +kernel
  · obtain ⟨rfl, hrest⟩ := List.cons.inj h
    obtain ⟨rfl, _⟩ := List.cons.inj hrest
    decide +kernel
  · simp [impatientBox] at h

/-- The install of a box is seen from a second address, which then reports for
another install. -/
def movedBox : List Forward :=
  [forwardFrom "10.0.0.1" 0 "SUP-1" (some "box-a"),
    forwardFrom "10.0.0.2" 1 "SUP-2" (some "box-a"),
    forwardFrom "10.0.0.2" 2 "SUP-3" (some "box-b")]

/-- The third report is refused, although nothing was accepted from its address
or for its install. -/
theorem forward_budgets_moved :
    (∀ e ∈ movedBox,
      requireForwardAuth onceAMinute.settings e.arrival.request = .ok () ∧
        truthy e.report.installId = true ∧ e.arrival.firstTick ≤ e.arrival.secondTick) ∧
      movedBox.Pairwise (fun e e' => e.arrival.secondTick ≤ e'.arrival.firstTick) ∧
      ¬ ChargesAccepted FloatView onceAMinute emptyService movedBox := by
  refine ⟨by decide +kernel, by decide +kernel, fun h => ?_⟩
  have hthird := h.refused (movedBox.take 2)
    (forwardFrom "10.0.0.2" 2 "SUP-3" (some "box-b")) [] rfl (by decide +kernel)
  revert hthird
  decide +kernel

end

end NetplexSupport
