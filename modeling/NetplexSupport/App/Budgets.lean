/-
The limiter in the application.  Between two restarts no minute holds more calls
of one bucket that got past the limiter than the part's limit, whatever else is
called in between.
-/
import NetplexSupport.App.Separation
import NetplexSupport.Limits.Forward

namespace NetplexSupport

open Py Transition

/-! ### What a call is charged for -/

/-- What the limiter allows a part in a minute; the registries do not ask it. -/
def Part.limit (settings : Settings) : Part → Int
  | .forward => max settings.intakeRatePerMin 1
  | .web | .email => max settings.webIntakeRatePerMin 1
  | .verify => max settings.licenseVerifyRatePerMin 1
  | .licences | .releases => 1

theorem Part.limit_pos (settings : Settings) (p : Part) : 0 < p.limit settings := by
  cases p
  · exact lt_of_lt_of_le one_pos (le_max_right _ _)
  · exact lt_of_lt_of_le one_pos (le_max_right _ _)
  · exact lt_of_lt_of_le one_pos (le_max_right _ _)
  · exact lt_of_lt_of_le one_pos (le_max_right _ _)
  · exact one_pos
  · exact one_pos

def Intake.charges (D : Deployment) (e : Intake) : List RateCall :=
  let ip := clientIp D.ip D.settings e.arrival.request
  match e.report with
  | .forward report =>
      if (requireForwardAuth D.settings e.arrival.request).isOk then
        [⟨"fwd:ip:" ++ ip, Part.limit D.settings .forward, e.arrival.firstTick⟩,
          ⟨"fwd:install:" ++ orElse report.installId ip, Part.limit D.settings .forward,
            e.arrival.secondTick⟩]
      else []
  | .web _ => [⟨"web:" ++ ip, Part.limit D.settings .web, e.arrival.firstTick⟩]
  | .email _ =>
      if (requireEmailAuth D.settings e.arrival.request).isOk then
        [⟨"email:" ++ ip, Part.limit D.settings .email, e.arrival.firstTick⟩]
      else []

/-- The limiter calls of a call, when each of them is let through. -/
def Call.charges {F : Type} (host : Host) (settings : Settings) : Call F → List RateCall
  | .intake e => e.charges (host.deploy settings)
  | .verify request _ tick _ =>
      [⟨"license-verify:" ++ clientIp host.ip settings request,
        Part.limit settings .verify, tick⟩]
  | _ => []

/-- Make the calls one after another, until one is not let through. -/
def charge : Hits → List RateCall → Bool × Hits
  | hits, [] => (true, hits)
  | hits, c :: charges =>
      if (callRateOk hits c).2 then charge (callRateOk hits c).1 charges
      else (false, (callRateOk hits c).1)

/-- The calls that are made. -/
def tried : Hits → List RateCall → List RateCall
  | _, [] => []
  | hits, c :: charges =>
      if (callRateOk hits c).2 then c :: tried (callRateOk hits c).1 charges else [c]

theorem charge_hits (hits : Hits) (charges : List RateCall) :
    (charge hits charges).2 = after callRateOk hits (tried hits charges) := by
  induction charges generalizing hits with
  | nil => rfl
  | cons c charges ih =>
      rw [charge, tried]
      by_cases hok : (callRateOk hits c).2 = true
      · rw [if_pos hok, if_pos hok, after_cons, ih]
      · rw [if_neg hok, if_neg hok, after_cons, after_nil]

theorem tried_sublist (hits : Hits) (charges : List RateCall) :
    (tried hits charges).Sublist charges := by
  induction charges generalizing hits with
  | nil => exact .slnil
  | cons c charges ih =>
      rw [tried]
      by_cases hok : (callRateOk hits c).2 = true
      · rw [if_pos hok]
        exact .cons_cons c (ih _)
      · rw [if_neg hok]
        exact .cons_cons c (List.nil_sublist _)

/-- A call that gets past the limiter has all its charges let through. -/
theorem selected_tried {hits : Hits} {charges : List RateCall}
    (h : (charge hits charges).1 = true) :
    selected callRateOk id hits (tried hits charges) = charges := by
  induction charges generalizing hits with
  | nil => rfl
  | cons c charges ih =>
      rw [charge] at h
      rw [tried]
      by_cases hok : (callRateOk hits c).2 = true
      · rw [if_pos hok] at h
        rw [if_pos hok, selected, id_eq, if_pos hok, ih h]
      · rw [if_neg hok] at h
        cases h

/-! ### The handlers -/

theorem follows_map {α β : Type} {f : α → β} {r : Service × Except Failure α}
    {checks : Bool × Hits} (h : Follows r checks) : Follows (r.1, r.2.map f) checks := by
  obtain ⟨hhits, hanswer⟩ := h
  refine ⟨hhits, ?_⟩
  rw [← hanswer]
  rcases r with ⟨s, (_ | _) | _⟩
  · rfl
  · rfl
  · rfl

/-- No gate answers 429. -/
theorem tooMany_bearerGate {request : Request} {tokensCsv unconfigured invalid : Str}
    {failure : Failure}
    (h : bearerGate request tokensCsv unconfigured invalid = .error failure) {α : Type} :
    tooMany (α := α) (.error failure) = false := by
  simp only [bearerGate] at h
  split at h
  · obtain rfl := Except.error.inj h
    rfl
  · split at h
    · obtain rfl := Except.error.inj h
      rfl
    · generalize anyDigest (presentedToken request) (listed tokensCsv) = found at h
      rcases found with exc | _ | _
      · obtain rfl := Except.error.inj h
        rfl
      · obtain rfl := Except.error.inj h
        rfl
      · cases h

/-- A refusal at a gate charges nothing. -/
theorem follows_refused {α : Type} {request : Request}
    {tokensCsv unconfigured invalid : Str} {failure : Failure}
    (h : bearerGate request tokensCsv unconfigured invalid = .error failure) (s : Service) :
    Follows (α := α) (s, .error failure) (charge s.hits []) :=
  ⟨rfl, tooMany_bearerGate h⟩

theorem charge_singleton (hits : Hits) (c : RateCall) :
    charge hits [c] = rateOk hits c.key c.limit c.now := by
  rw [charge]
  by_cases hok : (callRateOk hits c).2 = true
  · rw [if_pos hok, charge]
    exact Prod.ext hok.symm rfl
  · rw [if_neg hok]
    exact Prod.ext (Bool.eq_false_iff.mpr hok).symm rfl

theorem follows_receiveLimited (D : Deployment) (s : Service) (a : Arrival) (start : Str)
    (fields : Fields) :
    Follows (receiveLimited D s a start fields)
      (charge s.hits [⟨start ++ clientIp D.ip D.settings a.request,
        max D.settings.webIntakeRatePerMin 1, a.firstTick⟩]) := by
  have hlast : ∀ r : Bool × Hits, (if r.1 then (true, r.2) else r) = r := by
    rintro ⟨_ | _, hits⟩
    · rfl
    · rfl
  rw [charge_singleton, ← hlast (rateOk _ _ _ _)]
  apply follows_limited fun hits => (true, hits)
  intro hits
  exact follows_fileReport _ _ _ _

section

variable {F : Type} [PyFloat F] [Interpreter]

omit [PyFloat F] [Interpreter] in
theorem admission_eq_charge (D : Deployment) (hits : Hits) (e : Forward) :
    admission D hits e = charge hits
      [⟨"fwd:ip:" ++ e.address D, forwardLimit D, e.arrival.firstTick⟩,
        ⟨"fwd:install:" ++ e.install D, forwardLimit D, e.arrival.secondTick⟩] := by
  rw [admission, charge, charge_singleton]
  change (if (rateOk hits ("fwd:ip:" ++ e.address D) (forwardLimit D) e.arrival.firstTick).1 =
    true then _ else _) = if (rateOk hits ("fwd:ip:" ++ e.address D) (forwardLimit D)
      e.arrival.firstTick).1 = true then _ else _
  by_cases hok : (rateOk hits ("fwd:ip:" ++ e.address D) (forwardLimit D)
      e.arrival.firstTick).1 = true
  · rw [if_pos hok, if_pos hok]
    rfl
  · rw [if_neg hok, if_neg hok]
    exact Prod.ext (Bool.eq_false_iff.mpr hok) rfl

/-- A request moves the limiter as its charges do, and is answered 429 exactly
when one of them is not let through. -/
theorem follows_serve (D : Deployment) (s : Service) (e : Intake) :
    Follows (serve F D s e) (charge s.hits (e.charges D)) := by
  rcases e with ⟨a, report | report | report⟩
  · rcases hgate : requireForwardAuth D.settings a.request with failure | _
    · have hcharges : Intake.charges D ⟨a, .forward report⟩ = [] := by
        simp [Intake.charges, hgate, Except.isOk, Except.toBool]
      simp only [hcharges, serve, receiveForwarded, hgate]
      exact follows_map (f := Reply.forward) (follows_refused hgate s)
    · have hcharges : Intake.charges D ⟨a, .forward report⟩ =
          [⟨"fwd:ip:" ++ Forward.address D ⟨a, report⟩, forwardLimit D, a.firstTick⟩,
            ⟨"fwd:install:" ++ Forward.install D ⟨a, report⟩, forwardLimit D,
              a.secondTick⟩] := by
        simp only [Intake.charges, hgate, Except.isOk, Except.toBool, if_true]
        rfl
      rw [hcharges, ← admission_eq_charge D s.hits ⟨a, report⟩]
      exact follows_map (f := Reply.forward)
        (serveForward_admission F D s (e := ⟨a, report⟩) hgate)
  · exact follows_map (f := Reply.intake) (follows_receiveLimited D s a "web:" (webFields report))
  · rcases hgate : requireEmailAuth D.settings a.request with failure | _
    · have hcharges : Intake.charges D ⟨a, .email report⟩ = [] := by
        simp [Intake.charges, hgate, Except.isOk, Except.toBool]
      simp only [hcharges, serve, receiveEmail, hgate]
      exact follows_map (f := Reply.intake) (follows_refused hgate s)
    · have hcharges : Intake.charges D ⟨a, .email report⟩ =
          [⟨"email:" ++ clientIp D.ip D.settings a.request,
            max D.settings.webIntakeRatePerMin 1, a.firstTick⟩] := by
        simp only [Intake.charges, hgate, Except.isOk, Except.toBool, if_true]
        rfl
      simp only [hcharges, serve, receiveEmail, hgate]
      exact follows_map (f := Reply.intake)
        (follows_receiveLimited D s a "email:" (emailFields report))

/-- Every other call moves the limiter as its charges do, and gets past it only
when all of them are let through. -/
theorem charged_call (host : Host) (s : App) {c : Call F} (hc : c.isRestart = false) :
    (App.serve host s c).1.settings = s.settings ∧
      (App.serve host s c).1.service.hits =
        (charge s.service.hits (c.charges host s.settings)).2 ∧
      (tooMany (App.serve host s c).2 = false →
        (charge s.service.hits (c.charges host s.settings)).1 = true) := by
  cases c with
  | restart settings => cases hc
  | intake e =>
      obtain ⟨hhits, hanswer⟩ := follows_map (f := Answer.filed (F := F))
        (follows_serve (F := F) (host.deploy s.settings) s.service e)
      refine ⟨rfl, hhits, fun hmany => ?_⟩
      have hpassed := hanswer.symm.trans hmany
      rwa [Bool.not_eq_false'] at hpassed
  | verify request token tick now =>
      rw [Call.charges, charge_singleton]
      refine ⟨rfl, hits_verifyLicense (F := F) .., fun hmany => ?_⟩
      by_contra hrefused
      have hanswer : (App.serve host s (.verify (F := F) request token tick now)).2 =
          .error (.http 429 "rate limit exceeded - slow down") := by
        simp only [App.serve, verifyLicense]
        rw [if_pos (by simpa [Part.limit] using hrefused)]
        rfl
      rw [hanswer] at hmany
      cases hmany
  | _ => exact ⟨rfl, rfl, fun _ => rfl⟩

/-! ### Runs -/

/-- The calls that get past the limiter. -/
def admitted (host : Host) (start : App) (calls : List (Call F)) : List (Call F) :=
  selected (App.serve host) (fun answer => !tooMany answer) start calls

/-- Their charges were all let through. -/
theorem charges_admitted (host : Host) (start : App) {calls : List (Call F)}
    (hcalls : ∀ c ∈ calls, c.isRestart = false) :
    let made := emitted (App.serve host)
      (fun s c => tried s.service.hits (c.charges host s.settings)) start calls
    made.Sublist (calls.flatMap (Call.charges host start.settings)) ∧
      ((admitted host start calls).flatMap (Call.charges host start.settings)).Sublist
        (selected callRateOk id start.service.hits made) := by
  induction calls generalizing start with
  | nil => exact ⟨.slnil, .slnil⟩
  | cons c calls ih =>
      rw [List.forall_mem_cons] at hcalls
      obtain ⟨hsettings, hhits, hpassed⟩ := charged_call host start hcalls.1
      obtain ⟨hmade, hadmitted⟩ := ih (App.serve host start c).1 hcalls.2
      rw [hsettings] at hmade hadmitted
      rw [hhits, charge_hits] at hadmitted
      simp only [emitted_cons, List.flatMap_cons, admitted, selected, selected_append]
      refine ⟨(tried_sublist _ _).append hmade, ?_⟩
      by_cases hmany : tooMany (App.serve host start c).2 = true
      · rw [if_neg (by simp [hmany])]
        exact hadmitted.trans (List.sublist_append_right _ _)
      · rw [Bool.not_eq_true] at hmany
        rw [if_pos (by simp [hmany]), selected_tried (hpassed hmany), List.flatMap_cons]
        exact List.Sublist.append_left hadmitted _

/-- The call is charged to the bucket within the minute from `start`. -/
def Call.chargedTo (host : Host) (settings : Settings) (key : Str) (start : Int)
    (c : Call F) : Bool :=
  (c.charges host settings).any fun d =>
    decide (d.key = key) && decide (start ≤ d.now) && decide (d.now ≤ start + rateWindow)

omit [PyFloat F] [Interpreter] in
theorem length_chargedTo_le (host : Host) (settings : Settings) (key : Str) (start : Int)
    (calls : List (Call F)) :
    (calls.filter (Call.chargedTo host settings key start)).length ≤
      (within key start (calls.flatMap (Call.charges host settings))).length := by
  induction calls with
  | nil => exact Nat.zero_le _
  | cons c calls ih =>
      rw [List.flatMap_cons, within_append, List.length_append, List.filter_cons]
      by_cases hc : c.chargedTo host settings key start = true
      · obtain ⟨d, hd, hin⟩ := List.any_eq_true.mp hc
        have hsome : d ∈ within key start (c.charges host settings) :=
          List.mem_filter.mpr ⟨hd, hin⟩
        have hpos := List.length_pos_of_mem hsome
        rw [if_pos hc, List.length_cons]
        omega
      · rw [if_neg hc]
        omega

omit [PyFloat F] [Interpreter] in
/-- A charge is made under a key of its part, with the part's limit. -/
theorem part_of_charge {host : Host} {settings : Settings} {c : Call F} {d : RateCall}
    (hd : d ∈ c.charges host settings) :
    ∃ p : Part, ∃ first, p.keyPrefix = some first ∧ first <+: d.key ∧
      d.limit = p.limit settings := by
  cases c with
  | intake e =>
      rcases e with ⟨a, report | report | report⟩
      · simp only [Call.charges, Intake.charges] at hd
        split at hd
        · simp only [List.mem_cons, List.not_mem_nil, or_false] at hd
          rcases hd with rfl | rfl
          · exact ⟨.forward, _, rfl, forwardKey_ip _, rfl⟩
          · exact ⟨.forward, _, rfl, forwardKey_install _, rfl⟩
        · cases hd
      · obtain rfl := List.mem_singleton.mp hd
        exact ⟨.web, _, rfl, List.prefix_append _ _, rfl⟩
      · simp only [Call.charges, Intake.charges] at hd
        split at hd
        · obtain rfl := List.mem_singleton.mp hd
          exact ⟨.email, _, rfl, List.prefix_append _ _, rfl⟩
        · cases hd
  | verify request token tick now =>
      obtain rfl := List.mem_singleton.mp hd
      exact ⟨.verify, _, rfl, List.prefix_append _ _, rfl⟩
  | _ => cases hd

omit [PyFloat F] [Interpreter] in
/-- All charges of a bucket have the limit of its part. -/
theorem limit_of_charge {host : Host} {settings : Settings} {c : Call F} {d : RateCall}
    (hd : d ∈ c.charges host settings) {p : Part} {first : Str}
    (hp : p.keyPrefix = some first) (hkey : first <+: d.key) :
    d.limit = p.limit settings := by
  obtain ⟨p', first', hp', hkey', hlimit⟩ := part_of_charge hd
  have hsame := (seesKey_iff hp hkey fun q => decide (q = p')).symm.trans
    (seesKey_iff hp' hkey' fun q => decide (q = p'))
  rw [decide_eq_true_eq, decide_eq_true_eq] at hsame
  rw [hsame.mpr rfl]
  exact hlimit

/-- Between two restarts, whatever is called in between: of the calls that got past
the limiter, no closed minute holds more that were charged to one bucket than the
limit of the bucket's part. -/
theorem budgets_hold (host : Host) {start : App} (hempty : start.service.hits = noHits)
    {calls : List (Call F)} (hcalls : ∀ c ∈ calls, c.isRestart = false)
    (hclock : (calls.flatMap (Call.charges host start.settings)).Pairwise
      fun c d => c.now ≤ d.now)
    {p : Part} {first key : Str} (hp : p.keyPrefix = some first) (hkey : first <+: key)
    (begin : Int) :
    (((admitted host start calls).filter
      (Call.chargedTo host start.settings key begin)).length : Int) ≤
        p.limit start.settings := by
  obtain ⟨hmade, hadmitted⟩ := charges_admitted host start hcalls
  rw [hempty] at hadmitted
  have hlimit := length_within_le (hclock.sublist hmade)
    (p.limit_pos start.settings) (by
      intro d hd heq
      obtain ⟨c, _, hcharge⟩ := List.mem_flatMap.mp (hmade.subset hd)
      exact limit_of_charge hcharge hp (heq ▸ hkey)) begin
  have hwithin := (hadmitted.filter fun d =>
    decide (d.key = key) && decide (begin ≤ d.now) &&
      decide (d.now ≤ begin + rateWindow)).length_le
  have hcount := length_chargedTo_le host start.settings key begin (admitted host start calls)
  have hchain := hcount.trans hwithin
  exact (Int.ofNat_le.mpr hchain).trans hlimit

end

section

attribute [local instance] FloatView.asFloat Interpreter.ascii

/-- A box that may forward once a minute forwards three times. -/
def hastyCalls : List (Call FloatView) :=
  [.intake ⟨fleetArrival 0 "SUP-1", .forward { title := "crash" }⟩,
    .intake ⟨fleetArrival 1 "SUP-2", .forward { title := "crash" }⟩,
    .intake ⟨fleetArrival 70000000000 "SUP-3", .forward { title := "crash" }⟩]

/-- Two of them get past the limiter, at most one in each minute. -/
theorem budgets_hold_hasty :
    (admitted fleetHost (App.fresh fleetSettings) hastyCalls).length = 2 ∧
      (((admitted fleetHost (App.fresh fleetSettings) hastyCalls).filter
        (Call.chargedTo fleetHost fleetSettings "fwd:ip:10.0.0.1" 0)).length : Int) ≤ 1 :=
  ⟨by decide +kernel,
    budgets_hold fleetHost (rfl : (App.fresh fleetSettings).service.hits = noHits)
      (by decide +kernel : ∀ c ∈ hastyCalls, c.isRestart = false) (by decide +kernel)
      (p := .forward) rfl
      (forwardKey_ip "10.0.0.1") 0⟩

end

end NetplexSupport
