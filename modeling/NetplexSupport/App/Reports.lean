/-
What the ticket table says about the reports of a run.  A ticket's count is the
number of calls that were answered with its id, all of which came through the
intake of its source with that intake's gate open, and everything else in its row
comes from the first of them.
-/
import NetplexSupport.App.Separation
import NetplexSupport.Tickets.Priority

namespace NetplexSupport

open Py

/-! ### Answers that name a ticket -/

def Reply.ticketId : Reply → Str
  | .forward reply => reply.ticketId
  | .intake reply => reply.ticketId

/-- The call was answered with this ticket. -/
def named {F : Type} (id : Str) : Except Failure (Answer F) → Bool
  | .ok (.filed reply) => decide (reply.ticketId = id)
  | _ => false

/-- How many calls of a run were answered with a ticket. -/
def timesNamed {F : Type} (id : Str) (answers : List (Except Failure (Answer F))) : Nat :=
  (answers.filter (named id)).length

/-- The reports a table counts under an id. -/
def countOf (id : Str) (tickets : List Ticket) : Int :=
  ((tickets.filter fun t => decide (t.id = id)).map Ticket.occurrences).sum

theorem countOf_append (id : Str) (tickets more : List Ticket) :
    countOf id (tickets ++ more) = countOf id tickets + countOf id more := by
  simp [countOf]

theorem countOf_singleton (id : Str) (t : Ticket) :
    countOf id [t] = if t.id = id then t.occurrences else 0 := by
  by_cases hid : t.id = id
  · simp [countOf, hid]
  · simp [countOf, hid]

/-- In a table with a primary key, the row's own count. -/
theorem countOf_of_mem {tickets : List Ticket} (hids : (tickets.map Ticket.id).Nodup)
    {t : Ticket} (ht : t ∈ tickets) : countOf t.id tickets = t.occurrences := by
  induction tickets with
  | nil => cases ht
  | cons first tickets ih =>
      rw [List.map_cons, List.nodup_cons] at hids
      rw [← List.singleton_append, countOf_append, countOf_singleton]
      rcases List.mem_cons.mp ht with rfl | ht
      · have hnone : tickets.filter (fun t' => decide (t'.id = t.id)) = [] := by
          rw [List.filter_eq_nil_iff]
          intro t' ht' hid
          rw [decide_eq_true_eq] at hid
          exact hids.1 (hid ▸ List.mem_map_of_mem ht')
        simp [countOf, hnone]
      · have hne : first.id ≠ t.id := fun hid => hids.1 (hid ▸ List.mem_map_of_mem ht)
        rw [if_neg hne, ih hids.2 ht, Int.zero_add]

/-- A report is counted under the ticket it is answered with, and there only. -/
theorem Filing.countOf_eq {tickets rows : List Ticket} {fields : Fields} {draw : Draw}
    {t : Ticket} (h : Filing tickets fields draw t rows) (hone : fields.occurrences = 1)
    (id : Str) : countOf id rows = countOf id tickets + if t.id = id then 1 else 0 := by
  rcases h with @⟨pre, post, existing, rfl, _⟩ | ⟨_, _⟩
  · have hrow : countOf id [bumped existing draw] =
        countOf id [existing] + if existing.id = id then 1 else 0 := by
      rw [countOf_singleton, countOf_singleton]
      change (if existing.id = id then existing.occurrences + 1 else 0) = _
      by_cases hid : existing.id = id
      · simp [hid]
      · simp [hid]
    have hsplit : ∀ row : Ticket, pre ++ row :: post = pre ++ ([row] ++ post) := fun _ => rfl
    rw [hsplit, hsplit, countOf_append, countOf_append, countOf_append, countOf_append, hrow]
    change _ = _ + if existing.id = id then 1 else 0
    omega
  · rw [countOf_append, countOf_singleton]
    change _ + (if draw.ticketId = id then fields.occurrences else 0) = _
    rw [hone]
    rfl

/-! ### One call -/

/-- What a report's ticket keeps for good: all but the count, the last sighting,
the score and `updated_at`. -/
def Ticket.origin (t : Ticket) : Ticket :=
  { t with occurrences := 0, lastSeen := 0, priorityScore := 0, updatedAt := 0 }

theorem Ticket.of_origin {t t' : Ticket} (h : t.origin = t'.origin) :
    t.id = t'.id ∧ t.source = t'.source := by
  have hid : t.origin.id = t'.origin.id := congrArg Ticket.id h
  have hsource : t.origin.source = t'.origin.source := congrArg Ticket.source h
  exact ⟨hid, hsource⟩

/-- No row is lost. -/
theorem Filing.kept {tickets rows : List Ticket} {fields : Fields} {draw : Draw} {t : Ticket}
    (h : Filing tickets fields draw t rows) {old : Ticket} (hold : old ∈ tickets) :
    ∃ new ∈ rows, new.origin = old.origin := by
  have hmem : old.origin ∈ rows.map Ticket.origin := by
    have hthere := List.mem_map_of_mem (f := Ticket.origin) hold
    rcases h with ⟨rfl, _⟩ | ⟨_, _⟩
    · simpa [Ticket.origin, bumped, bump] using hthere
    · rw [List.map_append]
      exact List.mem_append_left _ hthere
  obtain ⟨new, hnew, horigin⟩ := List.mem_map.mp hmem
  exact ⟨new, hnew, horigin⟩

/-- A row is an old one, but for what a report changes, or the report's own. -/
theorem Filing.stems {tickets rows : List Ticket} {fields : Fields} {draw : Draw}
    {t t' : Ticket} (h : Filing tickets fields draw t rows) (ht' : t' ∈ rows) :
    (∃ old ∈ tickets, old.origin = t'.origin) ∨
      t' = t ∧ t = newTicket fields draw ∧ draw.ticketId ∉ tickets.map Ticket.id := by
  rcases h with @⟨pre, post, existing, rfl, _⟩ | ⟨_, hfresh⟩
  · left
    rcases List.mem_append.mp ht' with hpre | hpost
    · exact ⟨t', by simp [hpre], rfl⟩
    · rcases List.mem_cons.mp hpost with rfl | hpost
      · exact ⟨existing, by simp, rfl⟩
      · exact ⟨t', by simp [hpost], rfl⟩
  · rcases List.mem_append.mp ht' with hold | hnew
    · exact Or.inl ⟨t', hold, rfl⟩
    · exact Or.inr ⟨List.mem_singleton.mp hnew, rfl, hfresh⟩

theorem Filing.answered {tickets rows : List Ticket} {fields : Fields} {draw : Draw}
    {t : Ticket} (h : Filing tickets fields draw t rows) :
    t ∈ rows ∧ t.source = fields.source := by
  rcases h with @⟨pre, post, existing, rfl, hexisting⟩ | ⟨_, _⟩
  · refine ⟨by simp, ?_⟩
    obtain ⟨fingerprint, _, _, hselect⟩ := existingFor_eq_some hexisting
    exact (matching_iff.mp (List.mem_filter.mp (Sql.firstBy_mem hselect)).2).2.1
  · exact ⟨by simp, rfl⟩

section

variable {F : Type} [PyFloat F] [Interpreter]

variable (F) in
/-- What a call that is answered with a ticket does: its gate is open, it files
its report, and it names the ticket. -/
structure Reported (D : Deployment) (s s' : Service) (e : Intake) (fields : Fields)
    (t : Ticket) (p : Part) : Prop where
  files : Files F D e fields
  filing : Filing s.tickets fields e.arrival.ticket t s'.tickets
  opened : e.part D.settings = some p
  source : p.source = some fields.source

/-- A request is refused and leaves the tickets alone, or it is answered with the
ticket it files. -/
theorem serve_reported (D : Deployment) {s : Service} (e : Intake)
    (hids : (s.tickets.map Ticket.id).Nodup) :
    (∃ failure, (serve F D s e).2 = .error failure ∧
      (serve F D s e).1.tickets = s.tickets) ∨
    ∃ fields t p reply, Reported F D s (serve F D s e).1 e fields t p ∧
      (serve F D s e).2 = .ok reply ∧ reply.ticketId = t.id := by
  rcases e with ⟨a, report | report | report⟩
  · rcases hgate : requireForwardAuth D.settings a.request with failure | _
    · left
      refine ⟨failure, ?_, ?_⟩
      · simp only [serve, receiveForwarded, hgate]
        rfl
      · simp only [serve, receiveForwarded, hgate]
    · rcases handles_serveForward F D s ⟨a, report⟩ with
        ⟨failure, hanswer, hsame⟩ | ⟨fields, t, hfiles, hcall, hanswer⟩
      · exact Or.inl ⟨failure, congrArg (Except.map Reply.forward) hanswer, hsame⟩
      · refine Or.inr ⟨fields, t, .forward, .forward (forwardReply t), ⟨hfiles,
          filing_of_createOrDedupe hids hcall, ?_, ?_⟩,
          congrArg (Except.map Reply.forward) hanswer, rfl⟩
        · simp [Intake.part, behind, hgate, Except.isOk, Except.toBool]
        · obtain ⟨_, _, _, rfl⟩ := hfiles
          rfl
  · rcases @handles_receiveLimited D s a "web:" (webFields report) with
      ⟨failure, hanswer, hsame⟩ | ⟨fields, t, rfl, hcall, hanswer⟩
    · exact Or.inl ⟨failure, congrArg (Except.map Reply.intake) hanswer, hsame⟩
    · exact Or.inr ⟨_, t, .web, .intake (intakeReply t),
        ⟨rfl, filing_of_createOrDedupe hids hcall, rfl, rfl⟩,
        congrArg (Except.map Reply.intake) hanswer, rfl⟩
  · rcases hgate : requireEmailAuth D.settings a.request with failure | _
    · left
      refine ⟨failure, ?_, ?_⟩
      · simp only [serve, receiveEmail, hgate]
        rfl
      · simp only [serve, receiveEmail, hgate]
    · have hserve : serve F D s ⟨a, .email report⟩ =
          ((receiveLimited D s a "email:" (emailFields report)).1,
            (receiveLimited D s a "email:" (emailFields report)).2.map Reply.intake) := by
        simp only [serve, receiveEmail, hgate]
      rw [hserve]
      rcases @handles_receiveLimited D s a "email:" (emailFields report) with
        ⟨failure, hanswer, hsame⟩ | ⟨fields, t, rfl, hcall, hanswer⟩
      · exact Or.inl ⟨failure, congrArg (Except.map Reply.intake) hanswer, hsame⟩
      · refine Or.inr ⟨_, t, .email, .intake (intakeReply t), ⟨rfl,
          filing_of_createOrDedupe hids hcall, ?_, rfl⟩,
          congrArg (Except.map Reply.intake) hanswer, rfl⟩
        simp [Intake.part, behind, hgate, Except.isOk, Except.toBool]

omit [PyFloat F] [Interpreter] in
theorem named_map {α : Type} {id : Str} {f : α → Answer F}
    (hf : ∀ a, named id (.ok (f a)) = false) (r : Except Failure α) :
    named id (r.map f) = false := by
  rcases r with failure | a
  · rfl
  · exact hf a

omit [PyFloat F] [Interpreter] in
theorem named_admin {id : Str} (settings : Settings) (request : Request)
    {r : Except Failure (Answer F)} (hr : named id r = false) :
    named id (admin settings request r) = false := by
  unfold admin
  rcases requireAdmin settings request with failure | _
  · rfl
  · exact hr

/-- Only an intake is answered with a ticket, and only an intake files one. -/
theorem serve_call (host : Host) {s : App} (c : Call F)
    (hids : (s.service.tickets.map Ticket.id).Nodup) :
    ((App.serve host s c).1.service.tickets = s.service.tickets ∧
      ∀ id, named id (App.serve host s c).2 = false) ∨
    ∃ e fields t p, c = .intake e ∧
      Reported F (host.deploy s.settings) s.service (App.serve host s c).1.service e fields t
        p ∧
      ∀ id, named id (App.serve host s c).2 = decide (t.id = id) := by
  cases c with
  | intake e =>
      rcases serve_reported (F := F) (host.deploy s.settings) e hids with
        ⟨failure, hanswer, hsame⟩ | ⟨fields, t, p, reply, hreported, hanswer, hid⟩
      · refine Or.inl ⟨hsame, fun id => ?_⟩
        rw [App.serve, hanswer]
        rfl
      · refine Or.inr ⟨e, fields, t, p, rfl, hreported, fun id => ?_⟩
        rw [App.serve, hanswer, ← hid]
        rfl
  | queue request limit =>
      exact Or.inl ⟨rfl, fun id => named_admin _ _ (named_map (fun _ => rfl) _)⟩
  | byOrigin request originLocalId =>
      exact Or.inl ⟨rfl, fun id => named_admin _ _ (named_map (fun _ => rfl) _)⟩
  | diagnostic request ticketId =>
      exact Or.inl ⟨rfl, fun id => named_admin _ _ (named_map (fun _ => rfl) _)⟩
  | restart | claim | issue | publish => exact Or.inl ⟨rfl, fun id => rfl⟩
  | _ => exact Or.inl ⟨rfl, fun id => named_map (fun _ => rfl) _⟩

/-! ### Runs -/

/-- The tickets of a run account for its reports. -/
structure Accounted (host : Host) (start : App) (calls : List (Call F)) : Prop where
  /-- A count is the number of calls answered with the ticket. -/
  counts : ∀ id,
    countOf id (Transition.after (App.serve host) start calls).service.tickets =
      timesNamed id (Transition.answers (App.serve host) start calls)
  /-- They came through the intake of the ticket's source. -/
  reports : ∀ past c rest, calls = past ++ c :: rest →
    let s := Transition.after (App.serve host) start past
    ∀ id, named id (App.serve host s c).2 = true →
      ∃ t ∈ (Transition.after (App.serve host) start calls).service.tickets, t.id = id ∧
        ∃ p, c.part s.settings = some p ∧ p.source = some t.source
  /-- The rest of the row is that of the first of them. -/
  origins : ∀ t ∈ (Transition.after (App.serve host) start calls).service.tickets,
    ∃ past e rest fields, calls = past ++ .intake e :: rest ∧
      let s := Transition.after (App.serve host) start past
      t.id ∉ s.service.tickets.map Ticket.id ∧
        named t.id (App.serve (F := F) host s (.intake e)).2 = true ∧
        Files F (host.deploy s.settings) e fields ∧
        t.origin = (newTicket fields e.arrival.ticket).origin

omit [PyFloat F] [Interpreter] in
theorem timesNamed_concat (id : Str) (answers : List (Except Failure (Answer F)))
    (r : Except Failure (Answer F)) :
    timesNamed id (answers ++ [r]) = timesNamed id answers + if named id r then 1 else 0 := by
  by_cases hr : named id r = true
  · simp [timesNamed, hr]
  · simp [timesNamed, hr]

theorem after_concat (host : Host) (start : App) (calls : List (Call F)) (c : Call F) :
    Transition.after (App.serve host) start (calls ++ [c]) =
      (App.serve host (Transition.after (App.serve host) start calls) c).1 :=
  Transition.after_append _ _ _ _

/-- A call that is not answered with a ticket. -/
theorem Accounted.skip {host : Host} {start : App} {calls : List (Call F)} {c : Call F}
    (h : Accounted host start calls)
    (hsame : (App.serve host (Transition.after (App.serve host) start calls)
      c).1.service.tickets =
      (Transition.after (App.serve host) start calls).service.tickets)
    (hnamed : ∀ id,
      named id (App.serve host (Transition.after (App.serve host) start calls) c).2 = false) :
    Accounted host start (calls ++ [c]) := by
  constructor
  · intro id
    rw [after_concat, hsame, Transition.answers_concat, timesNamed_concat, hnamed, h.counts]
    simp
  · intro past c' rest hcalls s id hid
    rw [after_concat, hsame]
    rcases Transition.concat_eq_append_cons_iff.mp hcalls with ⟨rfl, rfl, _⟩ | ⟨rest', _, hpast⟩
    · rw [hnamed] at hid
      cases hid
    · exact h.reports past c' rest' hpast id hid
  · rw [after_concat, hsame]
    intro t ht
    obtain ⟨past, e, rest, fields, rfl, horigin⟩ := h.origins t ht
    exact ⟨past, e, rest ++ [c], fields, by simp, horigin⟩

/-- A call that is. -/
theorem Accounted.report {host : Host} {start : App} {calls : List (Call F)} {e : Intake}
    {fields : Fields} {t : Ticket} {p : Part} (h : Accounted host start calls)
    (hreported : Reported F
      (host.deploy (Transition.after (App.serve host) start calls).settings)
      (Transition.after (App.serve host) start calls).service
      (App.serve (F := F) host (Transition.after (App.serve host) start calls)
        (.intake e)).1.service e fields t p)
    (hnamed : ∀ id, named id (App.serve (F := F) host
      (Transition.after (App.serve host) start calls) (.intake e)).2 = decide (t.id = id)) :
    Accounted host start (calls ++ [.intake e]) := by
  have hfiling := hreported.filing
  constructor
  · intro id
    rw [after_concat, hfiling.countOf_eq (hreported.files.occurrences F),
      Transition.answers_concat, timesNamed_concat, hnamed, h.counts]
    by_cases hid : t.id = id
    · simp [hid]
    · simp [hid]
  · intro past c' rest hcalls s id hid
    rw [after_concat]
    rcases Transition.concat_eq_append_cons_iff.mp hcalls with ⟨rfl, rfl, _⟩ | ⟨rest', _, hpast⟩
    · rw [hnamed, decide_eq_true_eq] at hid
      obtain ⟨hmem, hsource⟩ := hfiling.answered
      exact ⟨t, hmem, hid, p, hreported.opened, hsource ▸ hreported.source⟩
    · obtain ⟨old, hold, hid', p', hpart, hsource⟩ := h.reports past c' rest' hpast id hid
      obtain ⟨new, hnew, horigin⟩ := hfiling.kept hold
      obtain ⟨hnewId, hnewSource⟩ := Ticket.of_origin horigin
      exact ⟨new, hnew, hnewId.trans hid', p', hpart, hnewSource ▸ hsource⟩
  · rw [after_concat]
    intro t' ht'
    rcases hfiling.stems ht' with ⟨old, hold, horigin⟩ | ⟨rfl, rfl, hfresh⟩
    · obtain ⟨past, e', rest, fields', rfl, hfirst⟩ := h.origins old hold
      rw [(Ticket.of_origin horigin).1, horigin] at hfirst
      exact ⟨past, e', rest ++ [.intake e], fields', by simp, hfirst⟩
    · refine ⟨calls, e, [], fields, rfl, hfresh, ?_, hreported.files, rfl⟩
      rw [hnamed]
      exact decide_eq_true rfl

theorem accounted_after (host : Host) {start : App} (hempty : start.service.tickets = [])
    {calls : List (Call F)} (hids : (calls.flatMap Call.ticketIds).Nodup) :
    Accounted host start calls := by
  induction calls using List.reverseRecOn with
  | nil =>
      constructor
      · intro id
        rw [Transition.after_nil, hempty]
        rfl
      · intro past c rest hcalls
        simp at hcalls
      · intro t ht
        rw [Transition.after_nil, hempty] at ht
        cases ht
  | append_singleton calls c ih =>
      rw [List.flatMap_append] at hids
      have hbefore := ih (List.nodup_append'.mp hids).1
      have hthere : (Transition.after (App.serve host) start calls).service.tickets.map
          Ticket.id |>.Nodup :=
        (orderly_of_empty hempty (List.nodup_append'.mp hids).1).whole.nodup
      rcases serve_call host c hthere with ⟨hsame, hnamed⟩ |
        ⟨e, fields, t, p, rfl, hreported, hnamed⟩
      · exact hbefore.skip hsame hnamed
      · exact hbefore.report hreported hnamed

/-- In every run from an empty ticket table, a ticket's count is the number of
calls that were answered with its id; each of these calls went through the open
gate of the intake its source names; and but for the count, the last sighting,
the score and `updated_at`, the row is the one the first of them wrote.  Every
call answered with an id has its ticket. -/
theorem reports_accounted (host : Host) {start : App}
    (hempty : start.service.tickets = []) {calls : List (Call F)}
    (hids : (calls.flatMap Call.ticketIds).Nodup) :
    let tickets := (Transition.after (App.serve host) start calls).service.tickets
    (∀ t ∈ tickets,
      t.occurrences = timesNamed t.id (Transition.answers (App.serve host) start calls) ∧
      ∃ past e rest fields, calls = past ++ .intake e :: rest ∧
        let s := Transition.after (App.serve host) start past
        t.id ∉ s.service.tickets.map Ticket.id ∧
          named t.id (App.serve (F := F) host s (.intake e)).2 = true ∧
          Files F (host.deploy s.settings) e fields ∧
          t.origin = (newTicket fields e.arrival.ticket).origin) ∧
    ∀ past c rest, calls = past ++ c :: rest →
      let s := Transition.after (App.serve host) start past
      ∀ id, named id (App.serve host s c).2 = true →
        ∃ t ∈ tickets, t.id = id ∧ ∃ p, c.part s.settings = some p ∧
          p.source = some t.source := by
  intro tickets
  have h := accounted_after host hempty hids
  have hthere : (tickets.map Ticket.id).Nodup :=
    (orderly_of_empty hempty hids).whole.nodup
  refine ⟨fun t ht => ⟨?_, h.origins t ht⟩, h.reports⟩
  rw [← countOf_of_mem hthere ht]
  exact h.counts t.id

end

section

attribute [local instance] FloatView.asFloat Interpreter.ascii

/-- A box meets the same crash twice, and a visitor files it as well. -/
def crashCalls : List (Call FloatView) :=
  [.intake ⟨fleetArrival 0 "SUP-1", .web { title := "mine", fingerprint := some "f" }⟩,
    .intake ⟨fleetArrival 1 "SUP-2", .forward { title := "crash", fingerprint := some "f" }⟩,
    .intake ⟨fleetArrival 70000000000 "SUP-3",
      .forward { title := "again", fingerprint := some "f" }⟩]

/-- The box's ticket counts its two reports. -/
theorem reports_accounted_twice :
    ∃ t ∈ (Transition.after (App.serve fleetHost) (App.fresh fleetSettings)
        crashCalls).service.tickets,
      t.id = Str.ofString "SUP-2" ∧ t.occurrences = 2 := by
  obtain ⟨hcounts, hreports⟩ := reports_accounted fleetHost
    (rfl : (App.fresh fleetSettings).service.tickets = [])
    (by decide +kernel : (crashCalls.flatMap Call.ticketIds).Nodup)
  obtain ⟨t, ht, hid, _⟩ := hreports (crashCalls.take 2) _ [] rfl "SUP-2" (by decide +kernel)
  refine ⟨t, ht, hid, (hcounts t ht).1.trans ?_⟩
  rw [hid]
  decide +kernel

end

end NetplexSupport
