/-
What can be read of the ticket table after any run.  The columns that hold JSON
were written by the intakes, so no view of a ticket fails, and the operator's
queue is exactly the most urgent open tickets.
-/
import NetplexSupport.App.Reports
import NetplexSupport.Tickets.Evidence

namespace NetplexSupport

open Py

/-! ### The order of the queue -/

instance : Std.Total queueOrder where
  total a b := by
    rcases lt_trichotomy a.priorityScore b.priorityScore with hlt | heq | hlt
    · exact Or.inr (Or.inl hlt)
    · rcases le_total a.lastSeen b.lastSeen with hle | hle
      · exact Or.inr (Or.inr ⟨heq, hle⟩)
      · exact Or.inl (Or.inr ⟨heq.symm, hle⟩)
    · exact Or.inl (Or.inl hlt)

instance : IsTrans Ticket queueOrder where
  trans a b c := by
    rintro (hab | ⟨hab, hab'⟩) (hbc | ⟨hbc, hbc'⟩)
    · exact Or.inl (hbc.trans hab)
    · exact Or.inl (hbc ▸ hab)
    · exact Or.inl (hab ▸ hbc)
    · exact Or.inr ⟨hbc.trans hab, hbc'.trans hab'⟩

/-- The tickets the queue is about. -/
def openTickets (tickets : List Ticket) : List Ticket :=
  tickets.filter fun t => decide (t.status ∈ openStates)

section

variable {F : Type} [PyFloat F]

/-! ### Views -/

/-- The refs were written by an intake. -/
def Ticket.Readable (t : Ticket) : Prop := ∃ refs, t.attachments = attachmentsJson refs

variable [Interpreter]

variable (F) in
theorem Ticket.Readable.view {t : Ticket} (h : t.Readable) :
    ∃ view, TicketView.of F t = .ok view := by
  obtain ⟨refs, hattachments⟩ := h
  have hrefs := attachmentRefs_of_json F hattachments
  exact ⟨_, (TicketView.of_eq_ok_iff F).mpr ⟨_, _, hrefs, listOfStr_strings F _, rfl⟩⟩

theorem readable_of_files {D : Deployment} {e : Intake} {fields : Fields} (draw : Draw)
    (hfiles : Files F D e fields) : (newTicket fields draw).Readable := by
  rcases e with ⟨a, report | report | report⟩
  · obtain ⟨_, _, _, rfl⟩ := hfiles
    exact ⟨report.attachmentRefs, rfl⟩
  · obtain rfl := hfiles
    exact ⟨[], rfl⟩
  · obtain rfl := hfiles
    exact ⟨[], rfl⟩

/-- Every ticket of a reached table is readable. -/
theorem readable_after (host : Host) {start : App} (hempty : start.service.tickets = [])
    {calls : List (Call F)} (hids : (calls.flatMap Call.ticketIds).Nodup) :
    ∀ t ∈ (Transition.after (App.serve host) start calls).service.tickets, t.Readable := by
  intro t ht
  obtain ⟨past, e, rest, fields, rfl, _, _, hfiles, horigin⟩ :=
    (accounted_after host hempty hids).origins t ht
  obtain ⟨refs, hattachments⟩ := readable_of_files e.arrival.ticket hfiles
  have hsame : t.origin.attachments = (newTicket fields e.arrival.ticket).origin.attachments :=
    congrArg Ticket.attachments horigin
  exact ⟨refs, hsame.trans hattachments⟩

theorem views_of_readable {tickets : List Ticket}
    (h : ∀ t ∈ tickets, t.Readable) :
    ∃ views, tickets.mapM (TicketView.of F) = .ok views ∧
      List.Forall₂ (fun t view => TicketView.of F t = .ok view) tickets views := by
  induction tickets with
  | nil => exact ⟨[], rfl, .nil⟩
  | cons t tickets ih =>
      rw [List.forall_mem_cons] at h
      obtain ⟨view, hview⟩ := h.1.view F
      obtain ⟨views, hviews, hall⟩ := ih h.2
      refine ⟨view :: views, ?_, .cons hview hall⟩
      rw [List.mapM_cons, hview, hviews]
      rfl

/-! ### Reads -/

/-- After every run the operator's queue is answered with as many different open tickets
as there are up to its limit, most urgent first, and no open ticket that is left out is
more urgent than one that is shown. -/
theorem queue_exact (host : Host) {start : App} (hempty : start.service.tickets = [])
    {calls : List (Call F)} (hids : (calls.flatMap Call.ticketIds).Nodup)
    {request : Request} (limit : Nat)
    (hgate : requireAdmin (Transition.after (App.serve host) start calls).settings request =
      .ok ()) :
    let s := Transition.after (App.serve host) start calls
    ∃ page views, (App.serve (F := F) host s (.queue request limit)).2 =
        .ok (.queue page.length views) ∧
      List.Forall₂ (fun t view => TicketView.of F t = .ok view) page views ∧
      page.length = min limit (openTickets s.service.tickets).length ∧
      (page.map Ticket.id).Nodup ∧ page.Pairwise queueOrder ∧
      (∀ t ∈ page, t ∈ openTickets s.service.tickets) ∧
      ∀ t ∈ openTickets s.service.tickets, t ∉ page → ∀ shown ∈ page, queueOrder shown t := by
  intro s
  have hreadable := readable_after host hempty hids
  have horderly : Orderly (F := F) s [] := (orderly_of_empty hempty hids).whole
  obtain ⟨hlength, hsorted, hopen, hrest⟩ :=
    Sql.page_spec queueOrder (openTickets s.service.tickets) limit
  have hdistinct : ((adminQueue s.service.tickets limit).map Ticket.id).Nodup :=
    Sql.page_nodup queueOrder (horderly.nodup.sublist (List.filter_sublist.map _)) limit
  have hshown : ∀ t ∈ adminQueue s.service.tickets limit, t.Readable :=
    fun t ht => hreadable t (List.mem_filter.mp (hopen t ht)).1
  obtain ⟨views, hviews, hall⟩ := views_of_readable (F := F) hshown
  refine ⟨adminQueue s.service.tickets limit, views, ?_, hall, hlength, hdistinct, hsorted,
    hopen, hrest⟩
  simp only [App.serve, admin, triageQueue, hviews, s, hgate]
  rfl

theorem getTicketRoute_of_mem {tickets : List Ticket} (hids : (tickets.map Ticket.id).Nodup)
    {t : Ticket} (ht : t ∈ tickets) (hreadable : t.Readable) :
    ∃ view, TicketView.of F t = .ok view ∧ getTicketRoute F tickets t.id = .ok view := by
  obtain ⟨view, hview⟩ := hreadable.view F
  refine ⟨view, hview, ?_⟩
  rw [getTicketRoute, (getTicket_eq_some_iff hids).mpr ⟨ht, rfl⟩]
  exact raising_eq_ok.mpr hview

theorem getTicketByOriginRoute_cases {tickets : List Ticket}
    (hreadable : ∀ t ∈ tickets, t.Readable) (originLocalId : Str) :
    (∃ t ∈ tickets, t.originLocalId = some originLocalId ∧ ∃ view,
      TicketView.of F t = .ok view ∧
        getTicketByOriginRoute F tickets originLocalId = .ok view) ∨
    (∀ t ∈ tickets, t.originLocalId ≠ some originLocalId) ∧
      getTicketByOriginRoute F tickets originLocalId =
        .error (.http 404 "no ticket for that origin_local_id") := by
  rw [getTicketByOriginRoute]
  rcases hfound : getTicketByOriginLocalId tickets originLocalId with _ | t
  · refine Or.inr ⟨fun t ht horigin => ?_, rfl⟩
    have hempty := Sql.firstBy_eq_none.mp hfound
    rw [List.filter_eq_nil_iff] at hempty
    exact hempty t ht (decide_eq_true horigin)
  · obtain ⟨ht, horigin⟩ := List.mem_filter.mp (Sql.firstBy_mem hfound)
    obtain ⟨view, hview⟩ := (hreadable t ht).view F
    exact Or.inl ⟨t, ht, of_decide_eq_true horigin, view, hview, raising_eq_ok.mpr hview⟩

/-- After every run a ticket is shown to whoever knows its id, and to an operator
by the box's id, which finds forwarded reports only; and no such lookup fails in
any other way than by a 404. -/
theorem tickets_readable (host : Host) {start : App} (hempty : start.service.tickets = [])
    {calls : List (Call F)} (hids : (calls.flatMap Call.ticketIds).Nodup) :
    let s := Transition.after (App.serve host) start calls
    (∀ t ∈ s.service.tickets, ∃ view, TicketView.of F t = .ok view ∧
      (App.serve (F := F) host s (.ticket t.id)).2 = .ok (.ticket view)) ∧
    (∀ id ∉ s.service.tickets.map Ticket.id,
      (App.serve (F := F) host s (.ticket id)).2 = .error (.http 404 "ticket not found")) ∧
    ∀ request originLocalId, requireAdmin s.settings request = .ok () →
      (∃ t ∈ s.service.tickets, t.originLocalId = some originLocalId ∧
        t.source = Str.ofString "forward" ∧ ∃ view, TicketView.of F t = .ok view ∧
        (App.serve (F := F) host s (.byOrigin request originLocalId)).2 =
          .ok (.ticket view)) ∨
      (∀ t ∈ s.service.tickets, t.originLocalId ≠ some originLocalId) ∧
        (App.serve (F := F) host s (.byOrigin request originLocalId)).2 =
          .error (.http 404 "no ticket for that origin_local_id") := by
  intro s
  have hreadable := readable_after host hempty hids
  have horderly : Orderly (F := F) s [] :=
    (orderly_of_empty hempty hids).whole
  refine ⟨fun t ht => ?_, fun id hid => ?_, fun request originLocalId hgate => ?_⟩
  · obtain ⟨view, hview, hroute⟩ := getTicketRoute_of_mem (F := F) horderly.nodup ht
      (hreadable t ht)
    exact ⟨view, hview, congrArg (Except.map Answer.ticket) hroute⟩
  · have hnone : getTicket s.service.tickets id = none := by
      rw [getTicket, List.find?_eq_none]
      intro t ht heq
      exact hid (of_decide_eq_true heq ▸ List.mem_map_of_mem ht)
    have hroute : getTicketRoute F s.service.tickets id =
        .error (.http 404 "ticket not found") := by
      rw [getTicketRoute, hnone]
    exact congrArg (Except.map Answer.ticket) hroute
  · have hserve : (App.serve (F := F) host s (.byOrigin request originLocalId)).2 =
        (getTicketByOriginRoute F s.service.tickets originLocalId).map .ticket := by
      rw [App.serve, admin, hgate]
      rfl
    rw [hserve]
    rcases getTicketByOriginRoute_cases (F := F) hreadable originLocalId with
      ⟨t, ht, horigin, view, hview, hroute⟩ | ⟨hnone, hroute⟩
    · have hsource := horderly.boxes t ht (by rw [horigin]; exact Option.some_ne_none _)
      exact Or.inl ⟨t, ht, horigin, hsource, view, hview, congrArg (Except.map _) hroute⟩
    · exact Or.inr ⟨hnone, congrArg (Except.map _) hroute⟩

/-! ### Evidence -/

/-- The attachment refs a report brings; only a forwarded one has any. -/
def Report.refs : Report → List Str
  | .forward report => report.attachmentRefs
  | .web _ => []
  | .email _ => []

/-- The bundle a report brings. -/
def Report.bundle : Report → Option Str
  | .forward report => report.diagnosticBundle
  | .web _ => none
  | .email _ => none

variable (F) in
/-- A bundle as an operator is shown it: parsed when it is JSON, and raw otherwise.  One
that `json.loads` cannot follow makes it raise. -/
def shownBundle (bundle : Option Str) : Except Exc (Json F) :=
  match bundle with
  | none => .ok .null
  | some text => if text = [] then .ok .null else (tryLoads text).map fun j => j.getD (.str text)

theorem evidence_of_files {D : Deployment} {e : Intake} {fields : Fields}
    (hfiles : Files F D e fields) : fields.attachments = attachmentsJson e.report.refs ∧
      fields.diagnosticJson = e.report.bundle := by
  rcases e with ⟨a, report | report | report⟩
  · obtain ⟨_, _, _, rfl⟩ := hfiles
    exact ⟨rfl, rfl⟩
  · obtain rfl := hfiles
    exact ⟨rfl, rfl⟩
  · obtain rfl := hfiles
    exact ⟨rfl, rfl⟩

/-- Nothing but the nesting keeps a bundle from being shown. -/
theorem shownBundle_error {bundle : Option Str} {exc : Exc}
    (h : shownBundle F bundle = .error exc) : exc.kind = .recursionError := by
  rcases bundle with _ | text
  · cases h
  · by_cases hempty : text = []
    · simp [shownBundle, hempty] at h
    · rcases hparsed : tryLoads (F := F) text with exc' | j
      · simp only [shownBundle, hempty, if_false, hparsed, Except.map, Except.error.injEq] at h
        exact h ▸ tryLoads_error hparsed
      · simp [shownBundle, hempty, hparsed, Except.map] at h

/-- After every run an operator who opens a ticket is shown the evidence of the call
that was the first to be answered with it: all its attachment refs, and its bundle.
The endpoint fails on a bundle that is nested too deep, and on nothing else. -/
theorem evidence_readable (host : Host) {start : App} (hempty : start.service.tickets = [])
    {calls : List (Call F)} (hids : (calls.flatMap Call.ticketIds).Nodup) :
    let s := Transition.after (App.serve host) start calls
    ∀ t ∈ s.service.tickets, ∃ past e rest, calls = past ++ .intake e :: rest ∧
      t.id ∉ (Transition.after (App.serve host) start past).service.tickets.map Ticket.id ∧
      named t.id (App.serve (F := F) host (Transition.after (App.serve host) start past)
        (.intake e)).2 = true ∧
      ∀ request, requireAdmin s.settings request = .ok () →
        (∀ bundle, shownBundle F e.report.bundle = .ok bundle →
          (App.serve (F := F) host s (.diagnostic request t.id)).2 =
            .ok (.diagnostic ⟨t.id, bundle, .arr ((e.report.refs.map Str.rejoin).map .str)⟩)) ∧
        ∀ exc, shownBundle F e.report.bundle = .error exc → exc.kind = .recursionError ∧
          (App.serve (F := F) host s (.diagnostic request t.id)).2 = .error (.raised exc) := by
  intro s t ht
  obtain ⟨past, e, rest, fields, hcalls, hnew, hnamed, hfiles, horigin⟩ :=
    (accounted_after host hempty hids).origins t ht
  refine ⟨past, e, rest, hcalls, hnew, hnamed, fun request hgate => ?_⟩
  have horderly : Orderly (F := F) s [] := (orderly_of_empty hempty hids).whole
  obtain ⟨hattachments, hbundle⟩ := evidence_of_files hfiles
  have hrefs : t.attachmentRefs F = .ok (.arr ((e.report.refs.map Str.rejoin).map .str)) :=
    attachmentRefs_of_json F ((congrArg Ticket.attachments horigin).trans hattachments)
  have hdiagnostic : t.diagnosticJson = e.report.bundle :=
    (congrArg Ticket.diagnosticJson horigin).trans hbundle
  have hshown : t.diagnosticBundle F = shownBundle F e.report.bundle := by
    rw [Ticket.diagnosticBundle, hdiagnostic]
    rcases e.report.bundle with _ | text
    · rfl
    · rfl
  have hfound := (getTicket_eq_some_iff horderly.nodup).mpr ⟨ht, rfl⟩
  have hserve : (App.serve (F := F) host s (.diagnostic request t.id)).2 =
      (getTicketDiagnostic F s.service.tickets t.id).map .diagnostic := by
    rw [App.serve, admin, hgate]
    rfl
  rw [hserve]
  constructor
  · intro bundle hok
    rw [(getTicketDiagnostic_eq_ok F hfound).mpr ⟨bundle, _, hshown.trans hok, hrefs, rfl⟩]
    rfl
  · intro exc herror
    refine ⟨shownBundle_error herror, ?_⟩
    rw [getTicketDiagnostic, hfound]
    simp only [hshown, herror]
    rfl

end

section

attribute [local instance] FloatView.asFloat Interpreter.ascii

def afterCrashes : App :=
  Transition.after (App.serve fleetHost) (App.fresh fleetSettings) crashCalls

theorem noTickets : (App.fresh fleetSettings).service.tickets = [] := rfl

theorem crashCalls_nodup : (crashCalls.flatMap Call.ticketIds).Nodup := by decide +kernel

theorem operatorAdmitted : requireAdmin afterCrashes.settings operatorRequest = .ok () := by
  decide +kernel

/-- Of the two tickets the box's crash, met twice, comes first. -/
theorem queue_exact_crashes :
    ∃ t view, (App.serve (F := FloatView) fleetHost afterCrashes (.queue operatorRequest 1)).2 =
        .ok (.queue 1 [view]) ∧ TicketView.of FloatView t = .ok view ∧
      t ∈ openTickets afterCrashes.service.tickets ∧
      ∀ t' ∈ openTickets afterCrashes.service.tickets, t' ≠ t → queueOrder t t' := by
  obtain ⟨page, views, hanswer, hall, hlength, _, _, hopen, hrest⟩ :=
    queue_exact fleetHost noTickets crashCalls_nodup 1 operatorAdmitted
  have hone : page.length = 1 := hlength.trans (by decide +kernel)
  obtain ⟨t, rfl⟩ := List.length_eq_one_iff.mp hone
  obtain ⟨view, rest, hview, hnil, rfl⟩ := List.forall₂_cons_left_iff.mp hall
  obtain rfl := List.forall₂_nil_left_iff.mp hnil
  exact ⟨t, view, hanswer, hview, hopen t List.mem_cons_self,
    fun t' ht' hne => hrest t' ht' (by simpa using hne) t List.mem_cons_self⟩

/-- The visitor's ticket is not reached by the box's id. -/
theorem tickets_readable_crashes :
    (App.serve (F := FloatView) fleetHost afterCrashes (.byOrigin operatorRequest "NPX-1")).2 =
      .error (.http 404 "no ticket for that origin_local_id") := by
  have h := (tickets_readable fleetHost noTickets crashCalls_nodup).2.2
    operatorRequest "NPX-1" operatorAdmitted
  rcases h with ⟨t, ht, horigin, _⟩ | ⟨_, hanswer⟩
  · have hnone : ∀ t ∈ afterCrashes.service.tickets, t.originLocalId = none := by
      decide +kernel
    rw [hnone t ht] at horigin
    cases horigin
  · exact hanswer

/-- A box sends a crash with a screenshot and a log. -/
def evidenceCalls (bundle : Str) : List (Call FloatView) :=
  [.intake ⟨fleetArrival 0 "SUP-1", .forward
    { title := "crash", attachmentRefs := ["objstore://1"], diagnosticBundle := some bundle }⟩]

def afterEvidence (bundle : Str) : App :=
  Transition.after (App.serve fleetHost) (App.fresh fleetSettings) (evidenceCalls bundle)

/-- One opening bracket more than can be followed. -/
def deepBundle : Str := List.replicate 9999 (ch '[')

/-- A log is shown as it is, and one nested too deep makes the endpoint fail. -/
theorem evidence_readable_screenshot :
    (∃ t ∈ (afterEvidence "cpu 100").service.tickets,
      (App.serve (F := FloatView) fleetHost (afterEvidence "cpu 100")
        (.diagnostic operatorRequest t.id)).2 =
          .ok (.diagnostic ⟨t.id, .str "cpu 100", .arr [.str "objstore://1"]⟩)) ∧
    ∃ t ∈ (afterEvidence deepBundle).service.tickets,
      (App.serve (F := FloatView) fleetHost (afterEvidence deepBundle)
        (.diagnostic operatorRequest t.id)).2 =
          .error (.raised (recursionError "array")) := by
  have hanswered : ∀ bundle : Str, (afterEvidence bundle).service.tickets.length = 1 →
      requireAdmin (afterEvidence bundle).settings operatorRequest = .ok () →
      ∃ t ∈ (afterEvidence bundle).service.tickets,
        (∀ shown, shownBundle FloatView (some bundle) = .ok shown →
          (App.serve (F := FloatView) fleetHost (afterEvidence bundle)
            (.diagnostic operatorRequest t.id)).2 =
              .ok (.diagnostic ⟨t.id, shown, .arr [.str "objstore://1"]⟩)) ∧
        ∀ exc, shownBundle FloatView (some bundle) = .error exc →
          (App.serve (F := FloatView) fleetHost (afterEvidence bundle)
            (.diagnostic operatorRequest t.id)).2 = .error (.raised exc) := by
    intro bundle hone hadmin
    obtain ⟨t, htickets⟩ := List.length_eq_one_iff.mp hone
    have ht : t ∈ (afterEvidence bundle).service.tickets :=
      htickets ▸ List.mem_singleton_self t
    have hids : ((evidenceCalls bundle).flatMap Call.ticketIds).Nodup :=
      List.nodup_singleton _
    obtain ⟨past, e, rest, hcalls, _, _, hanswer⟩ :=
      evidence_readable fleetHost noTickets hids t ht
    rcases past with _ | ⟨c, past⟩
    · obtain ⟨he, _⟩ := List.cons.inj hcalls
      obtain rfl := Call.intake.inj he
      obtain ⟨hok, herror⟩ := hanswer operatorRequest hadmin
      exact ⟨t, ht, hok, fun exc hexc => (herror exc hexc).2⟩
    · have hlength := congrArg List.length hcalls
      simp [evidenceCalls] at hlength
  constructor
  · obtain ⟨t, ht, hok, _⟩ := hanswered "cpu 100" (by decide +kernel) (by decide +kernel)
    have hloads : loads (F := FloatView) (Str.ofString "cpu 100") = none := by decide +kernel
    have hshort : (Str.ofString "cpu 100").length ≤ 4096 := by decide
    have hbundle : shownBundle FloatView (some "cpu 100") = .ok (.str "cpu 100") := by
      simp only [shownBundle, tryLoads_short hshort, hloads]
      rfl
    exact ⟨t, ht, hok _ hbundle⟩
  · obtain ⟨t, ht, _, herror⟩ := hanswered deepBundle (by decide +kernel) (by decide +kernel)
    have hparsed : tryLoads (F := FloatView) deepBundle = .error (recursionError "array") :=
      tryLoads_brackets (by decide)
    have hbundle : shownBundle FloatView (some deepBundle) =
        .error (recursionError "array") := by
      simp only [shownBundle, hparsed]
      rfl
    exact ⟨t, ht, herror _ hbundle⟩

end

end NetplexSupport
