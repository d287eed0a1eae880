/-
Where the tier of a ticket comes from.  Only a licence token that verified when
the ticket was created gives it a tier or a licence hash; the tier a report
names for itself is never read.
-/
import NetplexSupport.Licensing.Confusion
import NetplexSupport.Tickets.Filing

namespace NetplexSupport

open Py

section

variable (F : Type) [PyFloat F] [Interpreter]

/-! ### What a report proves -/

/-- The token of a report verifies under the licence trust store of the moment,
with this tier and this hash of its text. -/
def ProvesTier (D : Deployment) (e : Forward) (tier : Str) (licenseIdHash : Option Str) :
    Prop :=
  ∃ (token : Str) (trust : TrustStore F) (result : VerifyResult F) (bytes : Bytes),
    e.report.licenseToken = some token ∧
    licenseTrustStore D.crypto D.settings = .ok trust ∧
    verifyToken D.crypto token trust e.arrival.unixTime = .ok result ∧
    result.valid = true ∧ tier = result.tier ∧
    encodeUtf8 token = .ok bytes ∧ licenseIdHash = some (hexdigest (D.crypto.sha256 bytes))

/-- The tier a verified token gives: the floor when the token names none. -/
def tierOrFloor (tier : Str) : Str := if tier = [] then "associate" else tier

/-- A report gives its ticket the floor and no hash, or what its token proves. -/
theorem verifiedLicense_cases {D : Deployment} {e : Forward} {tier : Str}
    {licenseIdHash : Option Str}
    (h : verifiedLicense F D e.report e.arrival.unixTime = .ok (tier, licenseIdHash)) :
    (tier = Str.ofString "associate" ∧ licenseIdHash = none) ∨
      ∃ proven, ProvesTier F D e proven licenseIdHash ∧ tier = tierOrFloor proven := by
  have hfloor : ∀ {r : Except Exc (Str × Option Str)},
      r = .ok (Str.ofString "associate", none) → r = .ok (tier, licenseIdHash) →
      tier = Str.ofString "associate" ∧ licenseIdHash = none := by
    rintro r rfl hr
    obtain ⟨rfl, rfl⟩ := Prod.mk.inj (Except.ok.inj hr)
    exact ⟨rfl, rfl⟩
  unfold verifiedLicense at h
  rcases htoken : e.report.licenseToken with _ | token
  · rw [htoken] at h
    exact Or.inl (hfloor rfl h)
  · simp only [htoken] at h
    by_cases hempty : token = []
    · rw [if_pos hempty] at h
      exact Or.inl (hfloor rfl h)
    · rw [if_neg hempty] at h
      obtain ⟨trust, htrust, h⟩ := bind_eq_ok.mp h
      obtain ⟨result, hresult, h⟩ := bind_eq_ok.mp h
      by_cases hvalid : result.valid = true
      · rw [if_pos hvalid] at h
        obtain ⟨bytes, hbytes, h⟩ := bind_eq_ok.mp h
        obtain ⟨rfl, rfl⟩ := Prod.mk.inj (Except.ok.inj h)
        exact Or.inr ⟨result.tier, ⟨token, trust, result, bytes, htoken, htrust, hresult,
          hvalid, rfl, hbytes, rfl⟩, rfl⟩
      · rw [if_neg hvalid] at h
        exact Or.inl (hfloor rfl h)

/-! ### Provenance -/

/-- The columns that say where a ticket's tier comes from. -/
def Ticket.standing (t : Ticket) : Str × Str × Str × Option Str :=
  (t.id, t.source, t.reporterTier, t.licenseIdHash)

omit F [PyFloat F] [Interpreter] in
/-- A row either stood in the table with the same standing, or was appended. -/
theorem Filing.standing {tickets rows : List Ticket} {fields : Fields} {draw : Draw}
    {t t' : Ticket} (h : Filing tickets fields draw t rows) (ht' : t' ∈ rows) :
    (∃ old ∈ tickets, t'.standing = old.standing) ∨
      rows = tickets ++ [newTicket fields draw] ∧ t' = newTicket fields draw := by
  rcases h.row ht' with ⟨old, hold, rfl | rfl⟩ | hnew
  · exact Or.inl ⟨t', hold, rfl⟩
  · exact Or.inl ⟨old, hold, rfl⟩
  · exact Or.inr hnew

/-- A ticket above the floor was created by a forward request of the run whose
token proved its tier, as `shown` shows it, and its hash. -/
def TierProven (shown : Str → Str) (s : Service) (events : List (Deployment × Intake))
    (t : Ticket) : Prop :=
  t.reporterTier ≠ Str.ofString "associate" ∨ t.licenseIdHash ≠ none →
    t.source = Str.ofString "forward" ∧
    ∃ before D a report rest created tier,
      events = before ++ (D, ⟨a, .forward report⟩) :: rest ∧
      (Transition.after (intakeStep F) s (before ++ [(D, ⟨a, .forward report⟩)])).tickets =
        (Transition.after (intakeStep F) s before).tickets ++ [created] ∧
      created.id = t.id ∧
      ProvesTier F D ⟨a, report⟩ tier t.licenseIdHash ∧ t.reporterTier = shown tier

/-- Later requests take nothing away from it. -/
theorem TierProven.later {shown : Str → Str} {s : Service}
    {events : List (Deployment × Intake)} {t t' : Ticket}
    (h : TierProven F shown s events t) (hsame : t'.standing = t.standing)
    (e : Deployment × Intake) : TierProven F shown s (events ++ [e]) t' := by
  simp only [Ticket.standing, Prod.mk.injEq] at hsame
  rcases hsame with ⟨hid, hsource, htier, hhash⟩
  unfold TierProven at h ⊢
  rw [hid, hsource, htier, hhash]
  intro habove
  obtain ⟨hforward, before, D, a, report, rest, created, tier, rfl, hrest⟩ := h habove
  exact ⟨hforward, before, D, a, report, rest ++ [e], created, tier, by simp, hrest⟩

/-- A new ticket is proven by the request that creates it. -/
theorem tierProven_new {s : Service} {events : List (Deployment × Intake)}
    {e : Deployment × Intake} {fields : Fields} (hfields : Files F e.1 e.2 fields)
    (hrows : (Transition.after (intakeStep F) s (events ++ [e])).tickets =
      (Transition.after (intakeStep F) s events).tickets ++
        [newTicket fields e.2.arrival.ticket]) :
    TierProven F tierOrFloor s (events ++ [e]) (newTicket fields e.2.arrival.ticket) := by
  rcases e with ⟨D, a, report⟩
  have hfloor : fields.reporterTier = Str.ofString "associate" → fields.licenseIdHash = none →
      TierProven F tierOrFloor s (events ++ [(D, ⟨a, report⟩)]) (newTicket fields a.ticket) :=
    fun htier hhash habove => (habove.elim (· htier) (· hhash)).elim
  rcases report with report | report | report
  · obtain ⟨tier, licenseIdHash, hlicense, rfl⟩ := hfields
    rcases verifiedLicense_cases F (e := ⟨a, report⟩) hlicense with
      ⟨rfl, rfl⟩ | ⟨proven, hproves, rfl⟩
    · exact hfloor rfl rfl
    · exact fun _ => ⟨rfl, events, D, a, report, [], _, proven, rfl, hrows, rfl, hproves, rfl⟩
  · obtain rfl : fields = webFields report := hfields
    exact hfloor rfl rfl
  · obtain rfl : fields = emailFields report := hfields
    exact hfloor rfl rfl

/-- Every ticket of a run from an empty table above the floor is proven. -/
theorem tierProven_after (hits : Hits) (events : List (Deployment × Intake)) :
    let s : Service := ⟨[], hits⟩
    ((Transition.after (intakeStep F) s events).tickets.map Ticket.id).Nodup ∧
      ∀ t ∈ (Transition.after (intakeStep F) s events).tickets,
        TierProven F tierOrFloor s events t := by
  intro s
  induction events using List.reverseRecOn with
  | nil => exact ⟨List.nodup_nil, by simp [s]⟩
  | append_singleton events e ih =>
      obtain ⟨hids, hproven⟩ := ih
      have hlast : Transition.after (intakeStep F) s (events ++ [e]) =
          (serve F e.1 (Transition.after (intakeStep F) s events) e.2).1 :=
        Transition.after_append _ _ _ _
      rw [hlast]
      rcases serve_tickets F e.1 (Transition.after (intakeStep F) s events) e.2 with
        hsame | ⟨fields, t, hfields, hcall⟩
      · rw [hsame]
        exact ⟨hids, fun t ht => (hproven t ht).later F rfl e⟩
      · have hfiling := filing_of_createOrDedupe hids hcall
        refine ⟨hfiling.nodup hids, fun t' ht' => ?_⟩
        rcases hfiling.standing ht' with ⟨old, hold, hsame⟩ | ⟨hrows, rfl⟩
        · exact (hproven old hold).later F hsame e
        · exact tierProven_new F hfields (hlast ▸ hrows)

/-! ### The self-asserted tier -/

/-- The same report with another tier asserted for itself. -/
def Report.withTier : Report → Str → Report
  | .forward report, tier => .forward { report with reporterTier := tier }
  | .web report, _ => .web report
  | .email report, _ => .email report

/-- The same request, up to the tier its report asserts. -/
def SameButTier (e e' : Deployment × Intake) : Prop :=
  ∃ tier, e' = (e.1, { e.2 with report := e.2.report.withTier tier })

theorem intakeStep_withTier {s : Service} {e e' : Deployment × Intake}
    (h : SameButTier e e') : intakeStep F s e = intakeStep F s e' := by
  obtain ⟨tier, rfl⟩ := h
  rcases e with ⟨D, a, report | report | report⟩
  · rfl
  · rfl
  · rfl

/-- In every run from an empty table a ticket above the floor was created by a
forward request with a token that proved its tier (a token without a tier
proves the floor), and the tiers that reports assert for themselves change no
ticket, no answer and no place in the triage queue. -/
theorem tier_never_selfAsserted (hits : Hits) (events : List (Deployment × Intake)) :
    let s : Service := ⟨[], hits⟩
    (∀ t ∈ (Transition.after (intakeStep F) s events).tickets,
      TierProven F tierOrFloor s events t) ∧
    ∀ events', List.Forall₂ SameButTier events events' →
      Transition.after (intakeStep F) s events = Transition.after (intakeStep F) s events' ∧
      Transition.answers (intakeStep F) s events =
        Transition.answers (intakeStep F) s events' ∧
      ∀ limit,
        adminQueue (Transition.after (intakeStep F) s events).tickets limit =
          adminQueue (Transition.after (intakeStep F) s events').tickets limit ∧
        triageQueue F (Transition.after (intakeStep F) s events).tickets limit =
          triageQueue F (Transition.after (intakeStep F) s events').tickets limit := by
  intro s
  refine ⟨(tierProven_after F hits events).2, fun events' hsame => ?_⟩
  have hstep : ∀ s s' e e', SameButTier e e' → s = s' →
      (intakeStep F s e).1 = (intakeStep F s' e').1 ∧
        id (intakeStep F s e).2 = id (intakeStep F s' e').2 := by
    rintro s _ e e' he rfl
    rw [intakeStep_withTier F he]
    exact ⟨rfl, rfl⟩
  obtain ⟨hafter, hanswers⟩ := Transition.lockstep hstep (Eq.refl s) hsame
  rw [List.map_id, List.map_id] at hanswers
  rw [hafter]
  exact ⟨rfl, hanswers, fun _ => ⟨rfl, rfl⟩⟩

end

section

attribute [local instance] FloatView.asFloat Interpreter.ascii

/-- The recorded licence server with the fleet's intake token. -/
def licenceFleet : Deployment :=
  { licenceServer with
    settings := { licenceServer.settings with forwardIntakeTokens := "fleet" } }

/-- A crash with the revocation list of `lic-1` for a licence. -/
def crlReport : Forward :=
  ⟨fleetArrival 0 "SUP-1", { title := "a", licenseToken := some (mintedCrl.toOption.getD []) }⟩

def crlRun : List (Deployment × Intake) :=
  [(licenceFleet, ⟨crlReport.arrival, .forward crlReport.report⟩)]

/-- The revocation list names no tier. -/
theorem tier_of_crlReport {tier : Str} {licenseIdHash : Option Str}
    (h : ProvesTier FloatView licenceFleet crlReport tier licenseIdHash) : tier = [] := by
  obtain ⟨token, trust, result, _, htoken, htrust, hresult, _, rfl, _⟩ := h
  obtain rfl := Option.some.inj htoken
  have hrun : (licenseTrustStore (F := FloatView) licenceFleet.crypto licenceFleet.settings >>=
      fun trust => verifyToken licenceFleet.crypto (mintedCrl.toOption.getD []) trust
        1700000000 >>= fun result => .ok result.tier) = .ok [] := by decide +kernel
  obtain ⟨trust', htrust', hrun⟩ := bind_eq_ok.mp hrun
  obtain rfl := Except.ok.inj (htrust'.symm.trans htrust)
  obtain ⟨result', hresult', hrun⟩ := bind_eq_ok.mp hrun
  obtain rfl := Except.ok.inj (hresult'.symm.trans hresult)
  exact Except.ok.inj hrun

theorem crlRun_standing :
    (Transition.after (intakeStep FloatView) emptyTable crlRun).tickets.map
      (fun t => (t.reporterTier, t.licenseIdHash.isSome)) =
        [(Str.ofString "associate", true)] := by
  decide +kernel

/-- The token names no tier, and its ticket shows the floor. -/
theorem tier_not_shown_crlRun :
    ¬ ∀ t ∈ (Transition.after (intakeStep FloatView) emptyTable crlRun).tickets,
      TierProven FloatView id emptyTable crlRun t := by
  intro hproven
  obtain ⟨t, htickets, hstanding⟩ := List.map_eq_singleton_iff.mp crlRun_standing
  obtain ⟨htier, hhash⟩ := Prod.mk.inj hstanding
  have ht : t ∈ (Transition.after (intakeStep FloatView) emptyTable crlRun).tickets :=
    htickets ▸ List.mem_singleton_self t
  obtain ⟨_, before, D, a, report, rest, _, tier, hevents, _, _, hproves, hshown⟩ :=
    hproven t ht (Or.inr (Option.isSome_iff_ne_none.mp hhash))
  cases before with
  | nil =>
      obtain ⟨hevent, _⟩ := List.cons.inj hevents
      obtain ⟨rfl, hintake⟩ := Prod.mk.inj hevent
      obtain ⟨rfl, hreport⟩ := Intake.mk.inj hintake
      obtain rfl := Report.forward.inj hreport
      rw [htier, id_eq, tier_of_crlReport hproves] at hshown
      cases hshown
  | cons e before =>
      have hlength := congrArg List.length hevents
      simp [crlRun] at hlength

end

end NetplexSupport
