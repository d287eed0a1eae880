/-
Identity on the forward path.  The intake stores the contact a report brings and
marks its ticket as identified, whatever its licence proves; so identity stands on
paid tickets only in those runs in which every report that creates its ticket
with a contact also proves a paid tier.
-/
import NetplexSupport.Limits.Forward
import NetplexSupport.Python.Utf8
import NetplexSupport.Tickets.Tiers

namespace NetplexSupport

open Py

/-! ### When a forward request creates its ticket -/

section

variable (F : Type) [PyFloat F] [Interpreter]

/-- Past the gate and the two checks a forward request files its report, if its
licence can be read. -/
theorem receiveForwarded_admitted {D : Deployment} {s : Service} {a : Arrival}
    {report : ForwardedReport} (hauth : requireForwardAuth D.settings a.request = .ok ()) :
    receiveForwarded F D s a report =
      let checks := admission D s.hits ⟨a, report⟩
      if checks.1 then
        match verifiedLicense F D report a.unixTime with
        | .error exc => ({ s with hits := checks.2 }, .error (.raised exc))
        | .ok (tier, licenseIdHash) =>
            fileReport { s with hits := checks.2 } (forwardFields report tier licenseIdHash)
              a.ticket forwardReply
      else ({ s with hits := checks.2 },
        .error (.http 429 "forward rate limit exceeded - back off")) := by
  simp only [receiveForwarded, hauth, limited, admission]
  cases hfirst : (rateOk s.hits (addressKey (Forward.address D ⟨a, report⟩)) (forwardLimit D)
      a.firstTick).1 with
  | false =>
      simp only [addressKey, Forward.address, forwardLimit] at hfirst
      simp only [addressKey, Forward.address, forwardLimit, hfirst, Bool.false_eq_true, if_false]
  | true =>
      simp only [addressKey, Forward.address, forwardLimit] at hfirst
      simp only [addressKey, installKey, Forward.address, Forward.install, forwardLimit, hfirst,
        if_true]
      rfl

/-- The request passes the gate and the two checks, no open forward ticket has its
fingerprint, and its ticket id is new: it creates its ticket. -/
structure Creates (D : Deployment) (s : Service) (a : Arrival) (report : ForwardedReport) :
    Prop where
  authorised : requireForwardAuth D.settings a.request = .ok ()
  admitted : (admission D s.hits ⟨a, report⟩).1 = true
  unmerged : ∀ fingerprint, report.fingerprint = some fingerprint → fingerprint ≠ [] →
    selectOpen s.tickets fingerprint "forward" = none
  fresh : a.ticket.ticketId ∉ s.tickets.map Ticket.id

/-- The report proves no paid tier: it presents no licence token, or one that is
not valid, or one whose tier is empty or `associate`. -/
def NoPaidLicence (D : Deployment) (a : Arrival) (report : ForwardedReport) : Prop :=
  report.licenseToken.getD [] = [] ∨
    ∃ (token : Str) (trust : TrustStore F) (result : VerifyResult F),
      report.licenseToken = some token ∧
      licenseTrustStore D.crypto D.settings = .ok trust ∧
      verifyToken D.crypto token trust a.unixTime = .ok result ∧
      (result.valid = false ∨
        Str.WellFormed token ∧ (result.tier = [] ∨ result.tier = Str.ofString "associate"))

/-- It is then filed at the floor. -/
theorem noPaidLicence_iff {D : Deployment} {a : Arrival} {report : ForwardedReport} :
    NoPaidLicence F D a report ↔
      ∃ licenseIdHash, verifiedLicense F D report a.unixTime =
        .ok (Str.ofString "associate", licenseIdHash) := by
  unfold NoPaidLicence verifiedLicense
  cases htoken : report.licenseToken with
  | none => simp
  | some token =>
      by_cases hempty : token = []
      · simp [hempty]
      · simp only [Option.getD_some, hempty, if_false, false_or, Option.some.injEq, bind_eq_ok]
        constructor
        · rintro ⟨_, trust, result, rfl, htrust, hresult, hinvalid | ⟨hencodes, htier⟩⟩
          · exact ⟨none, trust, htrust, result, hresult, by rw [hinvalid]; rfl⟩
          · cases hvalid : result.valid with
            | false => exact ⟨none, trust, htrust, result, hresult, by rw [hvalid]; rfl⟩
            | true =>
                refine ⟨some (hexdigest (D.crypto.sha256 (utf8 token))), trust, htrust, result,
                  hresult, ?_⟩
                rw [hvalid, if_pos rfl, bind_eq_ok]
                refine ⟨utf8 token, encodeUtf8_eq_ok_iff.mpr ⟨hencodes, rfl⟩, ?_⟩
                rcases htier with htier | htier
                · rw [if_pos htier]
                  rfl
                · rw [htier, if_neg (by simp [Str.ofString])]
                  rfl
        · rintro ⟨licenseIdHash, trust, htrust, result, hresult, h⟩
          refine ⟨token, trust, result, rfl, htrust, hresult, ?_⟩
          cases hvalid : result.valid with
          | false => exact Or.inl rfl
          | true =>
              rw [hvalid, if_pos rfl, bind_eq_ok] at h
              obtain ⟨bytes, hbytes, h⟩ := h
              obtain ⟨htier, -⟩ := Prod.mk.inj (Except.ok.inj h)
              refine Or.inr ⟨(encodeUtf8_eq_ok_iff.mp hbytes).1, ?_⟩
              by_cases hnone : result.tier = []
              · exact Or.inl hnone
              · rw [if_neg hnone] at htier
                exact Or.inr htier

/-! ### What a request does to the identities in the table -/

/-- The columns the rule speaks about. -/
def Ticket.identity (t : Ticket) : Str × Str × Option Str × Bool :=
  (t.source, t.reporterTier, t.contact, t.identified)

/-- The ticket of a forward request that creates it. -/
theorem tickets_of_creates {D : Deployment} {s : Service} {a : Arrival}
    {report : ForwardedReport} (h : Creates D s a report) {tier : Str}
    {licenseIdHash : Option Str}
    (hlicense : verifiedLicense F D report a.unixTime = .ok (tier, licenseIdHash)) :
    (receiveForwarded F D s a report).1.tickets =
      s.tickets ++ [newTicket (forwardFields report tier licenseIdHash) a.ticket] := by
  have hnone : existingFor s.tickets (forwardFields report tier licenseIdHash) = none := by
    rw [existingFor]
    cases hfingerprint : report.fingerprint with
    | none => simp [forwardFields, hfingerprint]
    | some fingerprint =>
        by_cases hempty : fingerprint = []
        · simp [forwardFields, hfingerprint, hempty]
        · simpa [forwardFields, hfingerprint, hempty] using
            h.unmerged fingerprint hfingerprint hempty
  have hinsert : Sql.insert Ticket.id
      (newTicket (forwardFields report tier licenseIdHash) a.ticket) s.tickets =
        some (s.tickets ++ [newTicket (forwardFields report tier licenseIdHash) a.ticket]) :=
    Sql.insert_eq_some_iff.mpr ⟨h.fresh, rfl⟩
  rw [receiveForwarded_admitted F h.authorised]
  simp only [h.admitted, if_true, hlicense, fileReport, createOrDedupe, hnone, commitInsert,
    hinsert]
  rfl

/-- A row after a forward request has the identity of an old one, or is the
ticket the request creates. -/
theorem row_of_forward {D : Deployment} {s : Service} {a : Arrival} {report : ForwardedReport}
    (hids : (s.tickets.map Ticket.id).Nodup) {t' : Ticket}
    (ht' : t' ∈ (receiveForwarded F D s a report).1.tickets) :
    (∃ old ∈ s.tickets, t'.identity = old.identity) ∨
      ∃ tier licenseIdHash, Creates D s a report ∧
        verifiedLicense F D report a.unixTime = .ok (tier, licenseIdHash) ∧
        t' = newTicket (forwardFields report tier licenseIdHash) a.ticket := by
  cases hauth : requireForwardAuth D.settings a.request with
  | error failure =>
      simp only [receiveForwarded, hauth] at ht'
      exact Or.inl ⟨t', ht', rfl⟩
  | ok _ =>
      rw [receiveForwarded_admitted F hauth] at ht'
      cases hadmitted : (admission D s.hits ⟨a, report⟩).1 with
      | false =>
          simp only [hadmitted, Bool.false_eq_true, if_false] at ht'
          exact Or.inl ⟨t', ht', rfl⟩
      | true =>
          simp only [hadmitted, if_true] at ht'
          cases hlicense : verifiedLicense F D report a.unixTime with
          | error exc =>
              simp only [hlicense] at ht'
              exact Or.inl ⟨t', ht', rfl⟩
          | ok proven =>
              obtain ⟨tier, licenseIdHash⟩ := proven
              simp only [hlicense, fileReport] at ht'
              cases hcall : createOrDedupe s.tickets (forwardFields report tier licenseIdHash)
                  a.ticket with
              | error exc =>
                  simp only [hcall] at ht'
                  exact Or.inl ⟨t', ht', rfl⟩
              | ok filed =>
                  obtain ⟨t, rows⟩ := filed
                  simp only [hcall] at ht'
                  have hfiling := filing_of_createOrDedupe hids hcall
                  rcases hfiling.row ht' with ⟨old, hold, rfl | rfl⟩ | ⟨hrows, rfl⟩
                  · exact Or.inl ⟨t', hold, rfl⟩
                  · exact Or.inl ⟨old, hold, rfl⟩
                  · obtain ⟨hnone, hfresh⟩ := hfiling.created_of_rows hrows
                    refine Or.inr ⟨tier, licenseIdHash, ⟨hauth, hadmitted, ?_, hfresh⟩, rfl, rfl⟩
                    intro fingerprint hfingerprint hne
                    simpa [existingFor, forwardFields, hfingerprint, hne] using hnone

/-- A row after a request of another intake has the identity of an old one, or
comes from that intake. -/
theorem row_of_other {D : Deployment} {s : Service} {e : Intake}
    (hids : (s.tickets.map Ticket.id).Nodup) (hother : ∀ report, e.report ≠ .forward report)
    {t' : Ticket} (ht' : t' ∈ (serve F D s e).1.tickets) :
    (∃ old ∈ s.tickets, t'.identity = old.identity) ∨ t'.source ≠ Str.ofString "forward" := by
  rcases serve_tickets F D s e with hsame | ⟨fields, t, hfields, hcall⟩
  · rw [hsame] at ht'
    exact Or.inl ⟨t', ht', rfl⟩
  · rcases (filing_of_createOrDedupe hids hcall).row ht' with ⟨old, hold, rfl | rfl⟩ | ⟨-, rfl⟩
    · exact Or.inl ⟨t', hold, rfl⟩
    · exact Or.inl ⟨old, hold, rfl⟩
    · right
      unfold Files at hfields
      cases hreport : e.report with
      | forward report => exact absurd hreport (hother report)
      | web report =>
          rw [hreport] at hfields
          rw [hfields]
          simp [newTicket, webFields, Str.ofString_inj]
      | email report =>
          rw [hreport] at hfields
          rw [hfields]
          simp [newTicket, emailFields, Str.ofString_inj]

/-! ### Runs -/

/-- The ticket carries an identity. -/
def Ticket.HasIdentity (t : Ticket) : Prop := truthy t.contact = true ∨ t.identified = true

/-- A forward request of the run created this ticket, and its token proved the
tier the ticket shows. -/
def VerifiedTier (s : Service) (events : List (Deployment × Intake)) (t : Ticket) : Prop :=
  ∃ before D a report rest created,
    events = before ++ (D, ⟨a, .forward report⟩) :: rest ∧
    (Transition.after (intakeStep F) s (before ++ [(D, ⟨a, .forward report⟩)])).tickets =
      (Transition.after (intakeStep F) s before).tickets ++ [created] ∧
    created.id = t.id ∧ ProvesTier F D ⟨a, report⟩ t.reporterTier t.licenseIdHash

/-- Identity stands on a forward ticket only with a verified tier above
`associate`. -/
def IdentityPaid (s : Service) (events : List (Deployment × Intake)) : Prop :=
  ∀ t ∈ (Transition.after (intakeStep F) s events).tickets,
    t.source = Str.ofString "forward" → t.HasIdentity →
      t.reporterTier ≠ Str.ofString "associate" ∧ VerifiedTier F s events t

/-- Whenever a forward request of the run creates its ticket with a contact, its
licence proves a paid tier. -/
def ContactsPaid (s : Service) (events : List (Deployment × Intake)) : Prop :=
  ∀ before D a report rest, events = before ++ (D, ⟨a, .forward report⟩) :: rest →
    truthy report.contact = true → Creates D (Transition.after (intakeStep F) s before) a report →
      ¬ NoPaidLicence F D a report

/-- One request more keeps identity off the floor. -/
theorem aboveFloor_step {s : Service} {D : Deployment} {e : Intake}
    (hids : (s.tickets.map Ticket.id).Nodup)
    (hpaid : ∀ report, e.report = .forward report → truthy report.contact = true →
      Creates D s e.arrival report → ¬ NoPaidLicence F D e.arrival report)
    (h : ∀ t ∈ s.tickets, t.source = Str.ofString "forward" → t.HasIdentity →
      t.reporterTier ≠ Str.ofString "associate") :
    ∀ t ∈ (serve F D s e).1.tickets, t.source = Str.ofString "forward" → t.HasIdentity →
      t.reporterTier ≠ Str.ofString "associate" := by
  intro t ht hsource hidentity
  have hold : ∀ old ∈ s.tickets, t.identity = old.identity →
      t.reporterTier ≠ Str.ofString "associate" := by
    intro old hold hsame
    simp only [Ticket.identity, Prod.mk.injEq] at hsame
    obtain ⟨hsource', htier, hcontact, hidentified⟩ := hsame
    rw [Ticket.HasIdentity, hcontact, hidentified] at hidentity
    rw [htier]
    exact h old hold (hsource' ▸ hsource) hidentity
  by_cases hforward : ∃ report, e.report = .forward report
  · obtain ⟨report, hreport⟩ := hforward
    have ht' : t ∈ (receiveForwarded F D s e.arrival report).1.tickets := by
      simpa only [serve, hreport] using ht
    rcases row_of_forward F hids ht' with ⟨old, hmem, hsame⟩ |
      ⟨tier, licenseIdHash, hcreates, hlicense, rfl⟩
    · exact hold old hmem hsame
    · rintro rfl
      have hcontact : truthy report.contact = true := hidentity.elim id id
      exact hpaid report hreport hcontact hcreates
        ((noPaidLicence_iff F).mpr ⟨licenseIdHash, hlicense⟩)
  · rcases row_of_other F hids (fun report hreport => hforward ⟨report, hreport⟩) ht with
      ⟨old, hmem, hsame⟩ | hother
    · exact hold old hmem hsame
    · exact absurd hsource hother

/-- In a run in which contacts are paid for, no identity stands on the floor. -/
theorem aboveFloor_run (hits : Hits) {events rest : List (Deployment × Intake)}
    (hpaid : ContactsPaid F ⟨[], hits⟩ (events ++ rest)) :
    ∀ t ∈ (Transition.after (intakeStep F) ⟨[], hits⟩ events).tickets,
      t.source = Str.ofString "forward" → t.HasIdentity →
        t.reporterTier ≠ Str.ofString "associate" := by
  induction events using List.reverseRecOn generalizing rest with
  | nil => simp
  | append_singleton events e ih =>
      have hids := (tierProven_after F hits events).1
      have hlast : Transition.after (intakeStep F) ⟨[], hits⟩ (events ++ [e]) =
          (serve F e.1 (Transition.after (intakeStep F) ⟨[], hits⟩ events) e.2).1 :=
        Transition.after_append _ _ _ _
      rw [hlast]
      apply aboveFloor_step F hids
      · intro report hreport hcontact hcreates
        apply hpaid events e.1 e.2.arrival report rest _ hcontact hcreates
        rw [List.append_assoc, List.singleton_append, ← hreport]
      · have hbefore : ContactsPaid F ⟨[], hits⟩ (events ++ e :: rest) := by
          rwa [List.append_assoc, List.singleton_append] at hpaid
        exact ih hbefore

/-- A tier above the floor was verified. -/
theorem verifiedTier_of_aboveFloor (hits : Hits) {events : List (Deployment × Intake)}
    {t : Ticket} (ht : t ∈ (Transition.after (intakeStep F) ⟨[], hits⟩ events).tickets)
    (htier : t.reporterTier ≠ Str.ofString "associate") :
    VerifiedTier F ⟨[], hits⟩ events t := by
  obtain ⟨-, before, D, a, report, rest, created, tier, hevents, hcreated, hid, hproves, hshown⟩ :=
    (tierProven_after F hits events).2 t ht (Or.inl htier)
  refine ⟨before, D, a, report, rest, created, hevents, hcreated, hid, ?_⟩
  have hnonempty : tier ≠ [] := by
    rintro rfl
    exact htier hshown
  rwa [hshown, tierOrFloor, if_neg hnonempty]

/-- Every state of a run from an empty table keeps identity to verified paid tiers
exactly when every forward request that creates its ticket with a contact proves
a paid tier. -/
theorem identity_paid_iff (hits : Hits) (events : List (Deployment × Intake)) :
    (∀ before rest, events = before ++ rest → IdentityPaid F ⟨[], hits⟩ before) ↔
      ContactsPaid F ⟨[], hits⟩ events := by
  constructor
  · rintro hidentity before D a report rest rfl hcontact hcreates hfloor
    obtain ⟨licenseIdHash, hlicense⟩ := (noPaidLicence_iff F).mp hfloor
    have hreached := hidentity (before ++ [(D, ⟨a, .forward report⟩)]) rest (by simp)
    have hlast : (Transition.after (intakeStep F) ⟨[], hits⟩
        (before ++ [(D, ⟨a, .forward report⟩)])).tickets =
          (Transition.after (intakeStep F) ⟨[], hits⟩ before).tickets ++
            [newTicket (forwardFields report (Str.ofString "associate") licenseIdHash)
              a.ticket] := by
      rw [Transition.after_append]
      exact tickets_of_creates F hcreates hlicense
    have hmem := hlast.symm ▸ List.mem_append_right _ (List.mem_singleton_self
      (newTicket (forwardFields report (Str.ofString "associate") licenseIdHash) a.ticket))
    exact (hreached _ hmem rfl (Or.inl hcontact)).1 rfl
  · rintro hpaid before rest rfl t ht hsource hidentity
    have htier := aboveFloor_run F hits hpaid t ht hsource hidentity
    exact ⟨htier, verifiedTier_of_aboveFloor F hits ht htier⟩

end

section

attribute [local instance] FloatView.asFloat Interpreter.ascii

/-- A crash with a contact and no licence. -/
def contactRun : List (Deployment × Intake) :=
  [(fleet, ⟨fleetArrival 0 "SUP-1", .forward { title := "a", contact := some "a@b.c" }⟩)]

/-- Its ticket is identified, on the floor. -/
theorem identity_paid_contact : ¬ IdentityPaid FloatView emptyTable contactRun := by
  intro hidentity
  have hrow : (Transition.after (intakeStep FloatView) emptyTable contactRun).tickets.map
      (fun t => (t.source, t.reporterTier, t.contact, t.identified)) =
        [(Str.ofString "forward", Str.ofString "associate", some (Str.ofString "a@b.c"),
          true)] := by
    decide +kernel
  obtain ⟨t, htickets, hrow⟩ := List.map_eq_singleton_iff.mp hrow
  simp only [Prod.mk.injEq] at hrow
  obtain ⟨hsource, htier, -, hidentified⟩ := hrow
  have ht : t ∈ (Transition.after (intakeStep FloatView) emptyTable contactRun).tickets :=
    htickets ▸ List.mem_singleton_self t
  exact (hidentity t ht hsource (Or.inr hidentified)).1 htier

end

end NetplexSupport
