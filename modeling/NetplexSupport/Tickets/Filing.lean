/-
What a request does to the ticket table.  Every handler either fails and leaves
the table alone, or makes one call of `create_or_dedupe` and answers with the
ticket it returns.
-/
import NetplexSupport.Crypto.Table
import NetplexSupport.Routers.Diagnostics

namespace NetplexSupport

open Py

/-- The handler failed, or it filed fields of this kind and answered. -/
def Handles {α : Type} (s : Service) (P : Fields → Prop) (draw : Draw) (reply : Ticket → α)
    (r : Service × Except Failure α) : Prop :=
  (∃ failure, r.2 = .error failure ∧ r.1.tickets = s.tickets) ∨
    ∃ fields t, P fields ∧ createOrDedupe s.tickets fields draw = .ok (t, r.1.tickets) ∧
      r.2 = .ok (reply t)

section

variable {α : Type} {P : Fields → Prop} {draw : Draw} {reply : Ticket → α}

theorem handles_error {s s' : Service} (h : s'.tickets = s.tickets) (failure : Failure) :
    Handles s P draw reply (s', .error failure) :=
  Or.inl ⟨failure, rfl, h⟩

theorem handles_fileReport {s : Service} {fields : Fields} (h : P fields) :
    Handles s P draw reply (fileReport s fields draw reply) := by
  unfold fileReport
  rcases hcall : createOrDedupe s.tickets fields draw with exc | ⟨t, rows⟩
  · exact handles_error rfl _
  · exact Or.inr ⟨fields, t, h, hcall, rfl⟩

theorem handles_limited {s : Service} {key : Str} {limit now : Int} {detail : Str}
    {next : Service → Service × Except Failure α}
    (hnext : ∀ hits, Handles s P draw reply (next { s with hits := hits })) :
    Handles s P draw reply (limited s key limit now detail next) := by
  unfold limited
  by_cases hok : (rateOk s.hits key limit now).1 = true
  · simp only [hok, if_true]
    exact hnext _
  · simp only [hok]
    exact handles_error rfl _

end

/-- The answer of the forward intake. -/
def forwardReply (t : Ticket) : ForwardReply where
  ticketId := t.id
  occurrences := t.occurrences
  priorityScore := t.priorityScore
  kind := t.kind
  originLocalId := t.originLocalId

/-- The answer of the two other intakes. -/
def intakeReply (t : Ticket) : IntakeReply := ⟨t.id, t.occurrences⟩

theorem handles_receiveLimited {D : Deployment} {s : Service} {a : Arrival} {keyPrefix : Str}
    {fields : Fields} :
    Handles s (· = fields) a.ticket intakeReply
      (receiveLimited D s a keyPrefix fields) := by
  apply handles_limited
  intro hits
  exact handles_fileReport (s := { s with hits := hits }) rfl

section

variable (F : Type) [PyFloat F] [Interpreter]

/-- What a forward request files: its report, with the tier and the hash of the
licence it presents. -/
def ForwardFiles (D : Deployment) (e : Forward) (fields : Fields) : Prop :=
  ∃ tier licenseIdHash,
    verifiedLicense F D e.report e.arrival.unixTime = .ok (tier, licenseIdHash) ∧
      fields = forwardFields e.report tier licenseIdHash

theorem handles_serveForward (D : Deployment) (s : Service) (e : Forward) :
    Handles s (ForwardFiles F D e) e.arrival.ticket forwardReply
      (serveForward F D s e) := by
  unfold serveForward receiveForwarded
  rcases requireForwardAuth D.settings e.arrival.request with failure | _
  · exact handles_error rfl failure
  · apply handles_limited
    intro hits
    apply handles_limited (s := { s with hits := hits })
    intro hits
    simp only
    rcases hlicense : verifiedLicense F D e.report e.arrival.unixTime with
      exc | ⟨tier, licenseIdHash⟩
    · exact handles_error rfl _
    · exact handles_fileReport (s := { s with hits := hits })
        ⟨tier, licenseIdHash, hlicense, rfl⟩

/-- What a request files. -/
def Files (D : Deployment) (e : Intake) (fields : Fields) : Prop :=
  match e.report with
  | .forward report => ForwardFiles F D ⟨e.arrival, report⟩ fields
  | .web report => fields = webFields report
  | .email report => fields = emailFields report

/-- A request leaves the table alone, or files its report. -/
theorem serve_tickets (D : Deployment) (s : Service) (e : Intake) :
    (serve F D s e).1.tickets = s.tickets ∨
      ∃ fields t, Files F D e fields ∧
        createOrDedupe s.tickets fields e.arrival.ticket =
          .ok (t, (serve F D s e).1.tickets) := by
  have hdone : ∀ {α : Type} {P : Fields → Prop} {reply : Ticket → α}
      {r : Service × Except Failure α}, Handles s P e.arrival.ticket reply r →
      r.1.tickets = s.tickets ∨ ∃ fields t, P fields ∧
        createOrDedupe s.tickets fields e.arrival.ticket = .ok (t, r.1.tickets) := by
    rintro α P reply r (⟨_, _, hsame⟩ | ⟨fields, t, hfields, hcall, _⟩)
    · exact Or.inl hsame
    · exact Or.inr ⟨fields, t, hfields, hcall⟩
  unfold serve Files
  rcases e.report with report | report | report
  · have hforward := hdone (handles_serveForward F D s ⟨e.arrival, report⟩)
    exact hforward
  · have hweb := hdone (@handles_receiveLimited D s e.arrival "web:" (webFields report))
    exact hweb
  · simp only [receiveEmail]
    rcases requireEmailAuth D.settings e.arrival.request with failure | _
    · exact Or.inl rfl
    · have hemail := hdone (@handles_receiveLimited D s e.arrival "email:" (emailFields report))
      exact hemail

/-- A request to one of the three intakes, under the deployment of its
moment. -/
def intakeStep (s : Service) (e : Deployment × Intake) : Service × Except Failure Reply :=
  serve F e.1 s e.2

/-! ### Accepted forward requests -/

/-- An accepted forward request files its report. -/
theorem filing_of_accepted {D : Deployment} {s : Service} {e : Forward}
    {answer : ForwardReply} (hids : (s.tickets.map Ticket.id).Nodup)
    (hok : (serveForward F D s e).2 = .ok answer) :
    ∃ fields t, ForwardFiles F D e fields ∧
      Filing s.tickets fields e.arrival.ticket t (serveForward F D s e).1.tickets ∧
      answer = forwardReply t := by
  rcases handles_serveForward F D s e with ⟨failure, herror, _⟩ |
    ⟨fields, t, hfields, hcall, hreply⟩
  · rw [hok] at herror
    cases herror
  · refine ⟨fields, t, hfields, filing_of_createOrDedupe hids hcall, ?_⟩
    exact Except.ok.inj (hok.symm.trans hreply)

/-- A forward request, served under the deployment of its moment. -/
def forwardStep (s : Service) (e : Deployment × Forward) :
    Service × Except Failure ForwardReply :=
  serveForward F e.1 s e.2

/-- Every request of a run is accepted. -/
def Accepted (s : Service) (events : List (Deployment × Forward)) : Prop :=
  ∀ answer ∈ Transition.answers (forwardStep F) s events, answer.isOk = true

instance Accepted.decidable (s : Service) (events : List (Deployment × Forward)) :
    Decidable (Accepted F s events) :=
  inferInstanceAs (Decidable (∀ answer ∈ _, _))

theorem accepted_cons {s : Service} {e : Deployment × Forward}
    {events : List (Deployment × Forward)} :
    Accepted F s (e :: events) ↔
      (∃ answer, (forwardStep F s e).2 = .ok answer) ∧
        Accepted F (forwardStep F s e).1 events := by
  have hok : ∀ answer : Except Failure ForwardReply,
      answer.isOk = true ↔ ∃ reply, answer = .ok reply := by
    rintro (failure | reply)
    · simp [Except.isOk, Except.toBool]
    · simp [Except.isOk, Except.toBool]
  simp only [Accepted, Transition.answers, List.forall_mem_cons, hok]

/-- What every accepted report keeps of the table, a run of them keeps.  The
invariant may speak about the requests still to come. -/
theorem inv_accepted (Inv : List Ticket → List (Deployment × Forward) → Prop)
    (hstep : ∀ {tickets e events fields t rows}, Inv tickets (e :: events) →
      ForwardFiles F e.1 e.2 fields →
      Filing tickets fields e.2.arrival.ticket t rows → Inv rows events)
    {s : Service} {events rest : List (Deployment × Forward)}
    (hids : (s.tickets.map Ticket.id).Nodup) (haccepted : Accepted F s (events ++ rest))
    (h : Inv s.tickets (events ++ rest)) :
    let s' := Transition.after (forwardStep F) s events
    (s'.tickets.map Ticket.id).Nodup ∧ Accepted F s' rest ∧ Inv s'.tickets rest := by
  induction events generalizing s with
  | nil => exact ⟨hids, haccepted, h⟩
  | cons e events ih =>
      obtain ⟨⟨answer, hok⟩, haccepted⟩ := (accepted_cons F).mp haccepted
      obtain ⟨fields, t, hfields, hfiling, _⟩ := filing_of_accepted F hids hok
      exact ih (hfiling.nodup hids) haccepted (hstep h hfields hfiling)

/-- The table keeps its primary key, and the rest of the run is accepted. -/
theorem accepted_after {s : Service} {events rest : List (Deployment × Forward)}
    (hids : (s.tickets.map Ticket.id).Nodup) (haccepted : Accepted F s (events ++ rest)) :
    let s' := Transition.after (forwardStep F) s events
    (s'.tickets.map Ticket.id).Nodup ∧ Accepted F s' rest := by
  obtain ⟨hids', haccepted', _⟩ := inv_accepted F (fun _ _ => True)
    (fun _ _ _ => trivial) hids haccepted trivial
  exact ⟨hids', haccepted'⟩

/-- What a request of an accepted run does where it arrives. -/
theorem filing_at {s : Service} {before rest : List (Deployment × Forward)}
    {e : Deployment × Forward} (hids : (s.tickets.map Ticket.id).Nodup)
    (haccepted : Accepted F s (before ++ e :: rest)) :
    let s' := Transition.after (forwardStep F) s before
    ∃ fields t, ForwardFiles F e.1 e.2 fields ∧
      Filing s'.tickets fields e.2.arrival.ticket t
        (Transition.after (forwardStep F) s (before ++ [e])).tickets ∧
      (forwardStep F s' e).2 = .ok (forwardReply t) := by
  obtain ⟨hids', haccepted'⟩ := accepted_after F hids haccepted
  obtain ⟨⟨answer, hok⟩, _⟩ := (accepted_cons F).mp haccepted'
  obtain ⟨fields, t, hfields, hfiling, rfl⟩ := filing_of_accepted F hids' hok
  rw [Transition.after_append]
  exact ⟨fields, t, hfields, hfiling, hok⟩

end

/-! ### One box -/

/-- A deployment with one token for the boxes and the mail bridge. -/
def fleet : Deployment where
  crypto := recordedKey.crypto
  ip := ⟨Unit, Unit, fun _ => none, fun _ => none, fun _ _ => false⟩
  settings := { forwardIntakeTokens := "fleet", emailIntakeSecrets := "fleet" }

def emptyTable : Service := ⟨[], fun _ => []⟩

/-- What a request of the box reads from outside. -/
def fleetArrival (tick : Int) (id : Str) : Arrival where
  request := { authorization := some (asciiBytes "Bearer fleet"), client := some "10.0.0.1" }
  firstTick := tick
  secondTick := tick
  unixTime := 1700000000
  ticket := ⟨id, tick, tick, tick⟩

def boxForwards (tick : Int) (id : Str) (report : ForwardedReport) : Deployment × Forward :=
  (fleet, ⟨fleetArrival tick id, report⟩)

end NetplexSupport
