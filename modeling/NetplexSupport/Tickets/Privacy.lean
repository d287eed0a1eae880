/-
The public surface does not depend on who reported.  Two stores that agree up
to contacts, bodies and the contents of bundles answer every intake and every
public lookup alike, and an intake keeps them so.
-/
import NetplexSupport.Tickets.Filing

namespace NetplexSupport

open Py

/-! ### What is hidden -/

/-- Only whether there is a bundle. -/
def redactBundle (bundle : Option Str) : Option Str :=
  if truthy bundle then some "bundle" else none

theorem truthy_redactBundle (bundle : Option Str) :
    truthy (redactBundle bundle) = truthy bundle := by
  unfold redactBundle
  by_cases h : truthy bundle = true
  · rw [if_pos h, h]
    rfl
  · rw [if_neg h, Bool.eq_false_iff.mpr h]
    rfl

def ForwardedReport.redact (report : ForwardedReport) : ForwardedReport :=
  { report with
    body := []
    platformVersion := []
    contact := none
    diagnosticBundle := redactBundle report.diagnosticBundle }

def WebReport.redact (report : WebReport) : WebReport :=
  { report with body := [], contact := none }

def EmailReport.redact (report : EmailReport) : EmailReport :=
  { report with fromEmail := [], body := [] }

/-- A report without what identifies its reporter. -/
def Report.redact : Report → Report
  | .forward report => .forward report.redact
  | .web report => .web report.redact
  | .email report => .email report.redact

def Fields.redact (fields : Fields) : Fields :=
  { fields with
    body := []
    identified := false
    contact := none
    diagnosticJson := redactBundle fields.diagnosticJson }

theorem redactBundle_redactBundle (bundle : Option Str) :
    redactBundle (redactBundle bundle) = redactBundle bundle := by
  rw [redactBundle, truthy_redactBundle]
  rfl

theorem forwardFields_redact (report : ForwardedReport) (tier : Str)
    (licenseIdHash : Option Str) :
    (forwardFields report.redact tier licenseIdHash).redact =
      (forwardFields report tier licenseIdHash).redact := by
  simp only [Fields.redact, forwardFields, ForwardedReport.redact,
    redactBundle_redactBundle]

/-- A ticket without what identifies its reporter. -/
def Ticket.redact (t : Ticket) : Ticket :=
  { t with
    body := []
    identified := false
    contact := none
    diagnosticJson := redactBundle t.diagnosticJson }

def Service.redact (s : Service) : Service :=
  { s with tickets := s.tickets.map Ticket.redact }

/-- Two requests at the same time, under the same deployment, that differ at
most in what identifies the reporter. -/
def SameButReporter (e e' : Deployment × Intake) : Prop :=
  e.1 = e'.1 ∧ e.2.arrival = e'.2.arrival ∧ e.2.report.redact = e'.2.report.redact

/-! ### Filing a report -/

theorem existingFor_redact (tickets : List Ticket) (fields : Fields) :
    existingFor (tickets.map Ticket.redact) fields.redact =
      (existingFor tickets fields).map Ticket.redact := by
  have hselect : ∀ fingerprint source,
      selectOpen (tickets.map Ticket.redact) fingerprint source =
        (selectOpen tickets fingerprint source).map Ticket.redact := by
    intro fingerprint source
    rw [selectOpen, List.filter_map, Sql.firstBy_map]
    rfl
  unfold existingFor
  simp only [Fields.redact, hselect]
  rcases fields.fingerprint with _ | fingerprint
  · rfl
  · by_cases hne : fingerprint = []
    · simp [hne]
    · simp [hne]

theorem commitBump_redact (tickets : List Ticket) (existing : Ticket) (draw : Draw) :
    commitBump (tickets.map Ticket.redact) existing.redact draw =
      (commitBump tickets existing draw).map Ticket.redact := by
  simp only [commitBump, Sql.update, List.map_map]
  apply List.map_congr_left
  intro row _
  simp only [Function.comp_apply]
  by_cases hid : row.id = existing.id
  · have hid' : row.redact.id = existing.redact.id := hid
    rw [if_pos hid, if_pos hid']
    rfl
  · have hid' : ¬ row.redact.id = existing.redact.id := hid
    rw [if_neg hid, if_neg hid']

theorem commitInsert_redact (tickets : List Ticket) (ticket : Ticket) :
    commitInsert (tickets.map Ticket.redact) ticket.redact =
      (commitInsert tickets ticket).map (List.map Ticket.redact) := by
  have hids : (tickets.map Ticket.redact).map Ticket.id = tickets.map Ticket.id := by
    rw [List.map_map]
    rfl
  have hid : ticket.redact.id = ticket.id := rfl
  unfold commitInsert Sql.insert
  rw [hids, hid]
  by_cases hmem : ticket.id ∈ tickets.map Ticket.id
  · simp only [hmem, if_true]
    rfl
  · simp only [hmem, if_false, Except.map, List.map_append, List.map_singleton]

/-- The store does with a redacted report what it does with the report. -/
theorem createOrDedupe_redact (tickets : List Ticket) (fields : Fields) (draw : Draw) :
    createOrDedupe (tickets.map Ticket.redact) fields.redact draw =
      (createOrDedupe tickets fields draw).map fun r => (r.1.redact, r.2.map Ticket.redact) := by
  unfold createOrDedupe
  rw [existingFor_redact]
  rcases existingFor tickets fields with _ | existing
  · have hnew : newTicket fields.redact draw = (newTicket fields draw).redact := rfl
    simp only [Option.map_none, hnew, commitInsert_redact]
    rcases commitInsert tickets (newTicket fields draw) with exc | rows
    · rfl
    · rfl
  · simp only [Option.map_some, commitBump_redact]
    rfl

theorem getTicket_redact (tickets : List Ticket) (ticketId : Str) :
    getTicket (tickets.map Ticket.redact) ticketId =
      (getTicket tickets ticketId).map Ticket.redact := by
  rw [getTicket, List.find?_map]
  rfl

/-! ### Requests -/

theorem redact_eq_iff {s s' : Service} :
    s.redact = s'.redact ↔
      s.tickets.map Ticket.redact = s'.tickets.map Ticket.redact ∧ s.hits = s'.hits :=
  Service.mk.injEq .. ▸ Iff.rfl

/-- Two handlers answer alike and end in stores that are alike. -/
def AnswersAlike {α : Type} (r r' : Service × Except Failure α) : Prop :=
  r.1.redact = r'.1.redact ∧ r.2 = r'.2

section

variable {α : Type} {s s' : Service}

theorem answersAlike_limited (h : s.redact = s'.redact) {key : Str} {limit now : Int}
    {detail : Str} {next next' : Service → Service × Except Failure α}
    (hnext : ∀ hits, AnswersAlike (next { s with hits := hits })
      (next' { s' with hits := hits })) :
    AnswersAlike (limited s key limit now detail next)
      (limited s' key limit now detail next') := by
  rcases redact_eq_iff.mp h with ⟨htickets, hhits⟩
  unfold limited
  rw [hhits]
  by_cases hok : (rateOk s'.hits key limit now).1 = true
  · simp only [hok, if_true]
    exact hnext _
  · simp only [hok]
    exact ⟨redact_eq_iff.mpr ⟨htickets, rfl⟩, rfl⟩

theorem answersAlike_fileReport (h : s.redact = s'.redact) {fields fields' : Fields}
    (hfields : fields.redact = fields'.redact) (draw : Draw) {reply : Ticket → α}
    (hreply : ∀ t : Ticket, reply t.redact = reply t) :
    AnswersAlike (fileReport s fields draw reply) (fileReport s' fields' draw reply) := by
  rcases redact_eq_iff.mp h with ⟨htickets, hhits⟩
  have hcall := createOrDedupe_redact s.tickets fields draw
  rw [htickets, hfields, createOrDedupe_redact] at hcall
  unfold fileReport
  rcases hfirst : createOrDedupe s.tickets fields draw with exc | ⟨t, rows⟩ <;>
    rcases hsecond : createOrDedupe s'.tickets fields' draw with exc' | ⟨t', rows'⟩ <;>
    rw [hfirst, hsecond] at hcall
  · obtain rfl := Except.error.inj hcall
    exact ⟨h, rfl⟩
  · cases hcall
  · cases hcall
  · obtain ⟨ht, hrows⟩ := Prod.mk.inj (Except.ok.inj hcall)
    have hsame : reply t = reply t' := by rw [← hreply t, ← hreply t', ht]
    exact ⟨redact_eq_iff.mpr ⟨hrows.symm, hhits⟩, congrArg Except.ok hsame⟩

theorem answersAlike_receiveLimited (D : Deployment) (h : s.redact = s'.redact)
    (a : Arrival) (keyPrefix : Str) {fields fields' : Fields}
    (hfields : fields.redact = fields'.redact) :
    AnswersAlike (receiveLimited D s a keyPrefix fields)
      (receiveLimited D s' a keyPrefix fields') := by
  rcases redact_eq_iff.mp h with ⟨htickets, _⟩
  apply answersAlike_limited h
  intro hits
  have hs : Service.redact { s with hits := hits } = Service.redact { s' with hits := hits } :=
    redact_eq_iff.mpr ⟨htickets, rfl⟩
  exact answersAlike_fileReport hs hfields a.ticket fun _ => rfl

end

theorem AnswersAlike.map {α β : Type} {r r' : Service × Except Failure α}
    (h : AnswersAlike r r') (f : α → β) :
    AnswersAlike (r.1, r.2.map f) (r'.1, r'.2.map f) :=
  ⟨h.1, congrArg (Except.map f) h.2⟩

section

variable (F : Type) [PyFloat F] [Interpreter]

theorem answersAlike_receiveForwarded (D : Deployment) {s s' : Service}
    (h : s.redact = s'.redact) (a : Arrival) {report report' : ForwardedReport}
    (hreport : report.redact = report'.redact) :
    AnswersAlike (receiveForwarded F D s a report) (receiveForwarded F D s' a report') := by
  -- Neither the keys of the limiter nor the licence check read a hidden field.
  have hinstall : report.installId = report'.installId := by
    change report.redact.installId = report'.redact.installId
    rw [hreport]
  have hlicense : verifiedLicense F D report a.unixTime =
      verifiedLicense F D report' a.unixTime := by
    change verifiedLicense F D report.redact a.unixTime =
      verifiedLicense F D report'.redact a.unixTime
    rw [hreport]
  rcases redact_eq_iff.mp h with ⟨htickets, _⟩
  have hlimited : ∀ hits, Service.redact { s with hits := hits } =
      Service.redact { s' with hits := hits } :=
    fun hits => redact_eq_iff.mpr ⟨htickets, rfl⟩
  unfold receiveForwarded
  rw [hinstall, hlicense]
  rcases requireForwardAuth D.settings a.request with failure | _
  · exact ⟨h, rfl⟩
  · apply answersAlike_limited h
    intro hits
    apply answersAlike_limited (hlimited hits)
    intro hits
    simp only
    rcases verifiedLicense F D report' a.unixTime with exc | ⟨tier, licenseIdHash⟩
    · exact ⟨hlimited hits, rfl⟩
    · have hfields : (forwardFields report tier licenseIdHash).redact =
          (forwardFields report' tier licenseIdHash).redact := by
        rw [← forwardFields_redact, hreport, forwardFields_redact]
      exact answersAlike_fileReport (hlimited hits) hfields a.ticket fun _ => rfl

/-- Requests that differ in the reporter alone are answered alike. -/
theorem answersAlike_serve {s s' : Service} (h : s.redact = s'.redact)
    {e e' : Deployment × Intake} (he : SameButReporter e e') :
    AnswersAlike (serve F e.1 s e.2) (serve F e'.1 s' e'.2) := by
  rcases e with ⟨D, a, report⟩
  rcases e' with ⟨D', a', report'⟩
  rcases he with ⟨hD, ha, hreport⟩
  obtain rfl : D = D' := hD
  obtain rfl : a = a' := ha
  rcases report with report | report | report <;>
    rcases report' with report' | report' | report' <;>
    simp only [Report.redact, reduceCtorEq, Report.forward.injEq, Report.web.injEq,
      Report.email.injEq] at hreport
  · exact (answersAlike_receiveForwarded F D h a hreport).map Reply.forward
  · have hfields : (webFields report).redact = (webFields report').redact := by
      change (webFields report.redact).redact = (webFields report'.redact).redact
      rw [hreport]
    exact (answersAlike_receiveLimited D h a "web:" hfields).map Reply.intake
  · have hfields : (emailFields report).redact = (emailFields report').redact := by
      change (emailFields report.redact).redact = (emailFields report'.redact).redact
      rw [hreport]
    simp only [serve, receiveEmail]
    rcases requireEmailAuth D.settings a.request with failure | _
    · exact ⟨h, rfl⟩
    · exact (answersAlike_receiveLimited D h a "email:" hfields).map Reply.intake

/-! ### Lookups -/

theorem getTicketRoute_redact (tickets : List Ticket) (ticketId : Str) :
    getTicketRoute F (tickets.map Ticket.redact) ticketId = getTicketRoute F tickets ticketId := by
  unfold getTicketRoute
  rw [getTicket_redact]
  rcases getTicket tickets ticketId with _ | t
  · rfl
  · have hview : TicketView.of F t.redact = TicketView.of F t := by
      have hbundle : truthy t.redact.diagnosticJson = truthy t.diagnosticJson :=
        truthy_redactBundle _
      unfold TicketView.of
      rw [hbundle]
      rfl
    simp only [Option.map_some, hview]

/-! ### Runs -/

/-- Two runs that differ in the reporters alone give the same answers, and
afterwards every id is looked up with the same result. -/
theorem reporters_unseen (s : Service) {events events' : List (Deployment × Intake)}
    (h : List.Forall₂ SameButReporter events events') :
    Transition.answers (intakeStep F) s events = Transition.answers (intakeStep F) s events' ∧
    ∀ ticketId,
      getTicketRoute F (Transition.after (intakeStep F) s events).tickets ticketId =
        getTicketRoute F (Transition.after (intakeStep F) s events').tickets ticketId ∧
      (getTicket (Transition.after (intakeStep F) s events).tickets ticketId = none ↔
        getTicket (Transition.after (intakeStep F) s events').tickets ticketId = none) := by
  let R : Service → Service → Prop := fun s s' => s.redact = s'.redact
  have hstep : ∀ s s' e e', SameButReporter e e' → R s s' →
      R (intakeStep F s e).1 (intakeStep F s' e').1 ∧
        id (intakeStep F s e).2 = id (intakeStep F s' e').2 :=
    fun _ _ _ _ he hs => answersAlike_serve F hs he
  have hstart : R s s := rfl
  obtain ⟨hafter, hanswers⟩ := Transition.lockstep hstep hstart h
  rw [List.map_id, List.map_id] at hanswers
  obtain ⟨htickets, _⟩ := redact_eq_iff.mp hafter
  refine ⟨hanswers, fun ticketId => ⟨?_, ?_⟩⟩
  · rw [← getTicketRoute_redact, htickets, getTicketRoute_redact]
  · have hfound := getTicket_redact (Transition.after (intakeStep F) s events).tickets ticketId
    rw [htickets, getTicket_redact] at hfound
    rw [← Option.map_eq_none_iff (f := Ticket.redact), ← hfound, Option.map_eq_none_iff]

end

section

attribute [local instance] FloatView.asFloat Interpreter.ascii

/-- A crash, a bug and a mail of one reporter. -/
def reportedBy (contact : Option Str) (fromEmail body bundle : Str) :
    List (Deployment × Intake) :=
  [(fleet, ⟨fleetArrival 0 "SUP-1", .forward
      { title := "a", fingerprint := some "f", body := body, contact := contact,
        diagnosticBundle := some bundle }⟩),
    (fleet, ⟨fleetArrival 1 "SUP-2", .web { title := "b", body := body, contact := contact }⟩),
    (fleet, ⟨fleetArrival 2 "SUP-3", .email { fromEmail := fromEmail, body := body }⟩)]

/-- A reporter with an address and one without. -/
theorem reporters_unseen_reportedBy :
    let named := reportedBy (some "ada") "ada" "my disk" "cpu"
    let unnamed := reportedBy none "bob" "" "ram"
    Transition.answers (intakeStep FloatView) emptyTable named =
        Transition.answers (intakeStep FloatView) emptyTable unnamed ∧
      getTicketRoute FloatView
          (Transition.after (intakeStep FloatView) emptyTable named).tickets "SUP-1" =
        getTicketRoute FloatView
          (Transition.after (intakeStep FloatView) emptyTable unnamed).tickets "SUP-1" := by
  have hsame : List.Forall₂ SameButReporter (reportedBy (some "ada") "ada" "my disk" "cpu")
      (reportedBy none "bob" "" "ram") :=
    .cons ⟨rfl, rfl, rfl⟩ (.cons ⟨rfl, rfl, rfl⟩ (.cons ⟨rfl, rfl, rfl⟩ .nil))
  obtain ⟨hanswers, hlookups⟩ := reporters_unseen FloatView emptyTable hsame
  exact ⟨hanswers, (hlookups "SUP-1").1⟩

end

end NetplexSupport
