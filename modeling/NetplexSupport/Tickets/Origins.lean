/-
Finding a forwarded report by its box-local id.  A ticket keeps the id of the
report that created it, so the lookup holds for exactly the reports that were
not merged into another one's ticket.
-/
import NetplexSupport.Tickets.Filing

namespace NetplexSupport

open Py

/-! ### The ids of a table -/

/-- The ids of the tickets that carry a box-local id. -/
def originIds (originLocalId : Str) (tickets : List Ticket) : List Str :=
  (tickets.filter fun t => decide (t.originLocalId = some originLocalId)).map Ticket.id

theorem originIds_append (o : Str) (tickets more : List Ticket) :
    originIds o (tickets ++ more) = originIds o tickets ++ originIds o more := by
  simp [originIds]

theorem originIds_singleton {o : Str} {t : Ticket} (h : t.originLocalId = some o) :
    originIds o [t] = [t.id] := by
  simp [originIds, h]

theorem originIds_singleton_other {o : Str} {t : Ticket} (h : t.originLocalId ≠ some o) :
    originIds o [t] = [] := by
  simp [originIds, h]

theorem originIds_eq_nil {o : Str} {tickets : List Ticket} :
    originIds o tickets = [] ↔ ∀ t ∈ tickets, t.originLocalId ≠ some o := by
  simp [originIds, List.filter_eq_nil_iff]

/-- The lookup returns the one ticket that carries the id. -/
theorem getTicketByOriginLocalId_of_originIds {o id : Str} {tickets : List Ticket}
    (h : originIds o tickets = [id]) :
    ∃ t, getTicketByOriginLocalId tickets o = some t ∧ t.id = id := by
  obtain ⟨t, hfilter, hid⟩ := List.map_eq_singleton_iff.mp h
  exact ⟨t, by rw [getTicketByOriginLocalId, hfilter]; rfl, hid⟩

section

variable {tickets rows : List Ticket} {fields : Fields} {draw : Draw} {t : Ticket}

/-- Merging a report leaves every id where it was. -/
theorem originIds_merged (o : Str) (pre post : List Ticket) (t : Ticket) :
    originIds o (pre ++ bumped t draw :: post) = originIds o (pre ++ t :: post) := by
  by_cases ht : t.originLocalId = some o
  · simp [originIds, ht, bumped, bump]
  · have hbumped : (bumped t draw).originLocalId ≠ some o := ht
    simp [originIds, ht, hbumped]

/-- A report does not touch the ids of other reports. -/
theorem Filing.originIds_other (h : Filing tickets fields draw t rows) {o : Str}
    (ho : fields.originLocalId ≠ some o) : originIds o rows = originIds o tickets := by
  rcases h with ⟨rfl, _⟩ | ⟨_, _⟩
  · exact originIds_merged o _ _ _
  · have hnew : (newTicket fields draw).originLocalId ≠ some o := ho
    rw [originIds_append, originIds_singleton_other hnew, List.append_nil]

/-- A report that merges into no ticket is found under its id. -/
theorem Filing.originIds_created (h : Filing tickets fields draw t rows) {o : Str}
    (hnone : existingFor tickets fields = none) (ho : fields.originLocalId = some o) :
    t.originLocalId = some o ∧ originIds o rows = originIds o tickets ++ [t.id] := by
  rcases h with ⟨_, hexisting⟩ | ⟨_, _⟩
  · rw [hnone] at hexisting
    cases hexisting
  · have hnew : (newTicket fields draw).originLocalId = some o := ho
    rw [originIds_append, originIds_singleton hnew]
    exact ⟨hnew, rfl⟩

/-- A report that merges into a ticket is answered with that ticket's id. -/
theorem Filing.origin_of_merged (h : Filing tickets fields draw t rows)
    (hsome : existingFor tickets fields ≠ none) :
    ∃ existing ∈ tickets, t.originLocalId = existing.originLocalId := by
  rcases h with @⟨pre, post, existing, rfl, _⟩ | ⟨hnone, _⟩
  · exact ⟨existing, by simp, rfl⟩
  · exact absurd hnone hsome

end

/-- A call merges into no ticket exactly when no open ticket has its
fingerprint and source. -/
theorem existingFor_eq_none_iff {tickets : List Ticket} {fields : Fields} :
    existingFor tickets fields = none ↔
      ∀ fingerprint, fields.fingerprint = some fingerprint → fingerprint ≠ [] →
        ∀ t ∈ tickets, t.matching fingerprint fields.source = false := by
  constructor
  · intro hnone fingerprint hfingerprint hne t ht
    have hempty := filter_of_existingFor_none hnone hne hfingerprint
    exact Bool.eq_false_iff.mpr (List.filter_eq_nil_iff.mp hempty t ht)
  · intro h
    by_contra hsome
    obtain ⟨existing, hexisting⟩ := Option.ne_none_iff_exists'.mp hsome
    obtain ⟨fingerprint, hfingerprint, hne, hselect⟩ := existingFor_eq_some hexisting
    obtain ⟨hmem, hmatching⟩ := List.mem_filter.mp (Sql.firstBy_mem hselect)
    rw [h fingerprint hfingerprint hne existing hmem] at hmatching
    cases hmatching

/-- The same for a forwarded report. -/
theorem existingFor_forward_eq_none_iff {tickets : List Ticket} {report : ForwardedReport}
    {tier : Str} {licenseIdHash : Option Str} :
    existingFor tickets (forwardFields report tier licenseIdHash) = none ↔
      ∀ fingerprint, report.fingerprint = some fingerprint → fingerprint ≠ [] →
        ∀ t ∈ tickets, t.matching fingerprint "forward" = false :=
  existingFor_eq_none_iff

/-! ### Runs -/

section

variable (F : Type) [PyFloat F] [Interpreter]

/-- The box-local ids of a run's reports, when present, are pairwise distinct. -/
def DistinctOrigins (events : List (Deployment × Forward)) : Prop :=
  (events.filterMap fun e => e.2.report.originLocalId).Nodup

instance DistinctOrigins.decidable (events : List (Deployment × Forward)) :
    Decidable (DistinctOrigins events) :=
  inferInstanceAs (Decidable (List.Nodup _))

/-- No ticket carries an id of the run's reports. -/
def UnusedOrigins (tickets : List Ticket) (events : List (Deployment × Forward)) : Prop :=
  ∀ e ∈ events, ∀ o, e.2.report.originLocalId = some o → originIds o tickets = []

/-- Right after a report with an id is accepted, and ever after, the lookup by
the id returns the ticket of the response, and the response repeats the id. -/
def OriginsResolve (s : Service) (events : List (Deployment × Forward)) : Prop :=
  ∀ before e later rest, events = before ++ e :: (later ++ rest) →
    ∀ o, e.2.report.originLocalId = some o →
    ∀ answer, (forwardStep F (Transition.after (forwardStep F) s before) e).2 = .ok answer →
      answer.originLocalId = some o ∧
        ∃ t, getTicketByOriginLocalId
            (Transition.after (forwardStep F) s (before ++ e :: later)).tickets o = some t ∧
          t.id = answer.ticketId

/-- Every report with an id finds no open forward ticket of its fingerprint. -/
def OriginsUnmerged (s : Service) (events : List (Deployment × Forward)) : Prop :=
  ∀ before e rest, events = before ++ e :: rest →
    ∀ o, e.2.report.originLocalId = some o →
    ∀ fingerprint, e.2.report.fingerprint = some fingerprint → fingerprint ≠ [] →
    ∀ t ∈ (Transition.after (forwardStep F) s before).tickets,
      t.matching fingerprint "forward" = false

/-- A run leaves the ids of its later reports unused. -/
theorem unused_after {s : Service} {events rest : List (Deployment × Forward)}
    (hids : (s.tickets.map Ticket.id).Nodup) (haccepted : Accepted F s (events ++ rest))
    (hdistinct : DistinctOrigins (events ++ rest))
    (hunused : UnusedOrigins s.tickets (events ++ rest)) :
    let s' := Transition.after (forwardStep F) s events
    (s'.tickets.map Ticket.id).Nodup ∧ Accepted F s' rest ∧
      DistinctOrigins rest ∧ UnusedOrigins s'.tickets rest := by
  apply inv_accepted F (fun tickets events =>
    DistinctOrigins events ∧ UnusedOrigins tickets events) ?_ hids haccepted
    ⟨hdistinct, hunused⟩
  rintro tickets e events fields t rows ⟨hdistinct, hunused⟩ ⟨_, _, _, rfl⟩ hfiling
  have hrest : DistinctOrigins events :=
    List.Nodup.sublist (List.Sublist.filterMap _ (List.sublist_cons_self e events)) hdistinct
  refine ⟨hrest, fun e' he' o ho => ?_⟩
  have hne : e.2.report.originLocalId ≠ some o := by
    intro heq
    rw [DistinctOrigins, List.filterMap_cons, heq] at hdistinct
    exact (List.nodup_cons.mp hdistinct).1 (List.mem_filterMap.mpr ⟨e', he', ho⟩)
  rw [hfiling.originIds_other hne]
  exact hunused e' (List.mem_cons_of_mem e he') o ho

/-- An id that one ticket carries stays with that ticket while no later report
has it. -/
theorem originIds_after {s : Service} {later rest : List (Deployment × Forward)} {o : Str}
    (hids : (s.tickets.map Ticket.id).Nodup) (haccepted : Accepted F s (later ++ rest))
    (hother : ∀ e ∈ later ++ rest, e.2.report.originLocalId ≠ some o) :
    originIds o (Transition.after (forwardStep F) s later).tickets = originIds o s.tickets := by
  have hkeep := inv_accepted F (fun tickets events =>
    originIds o tickets = originIds o s.tickets ∧
      ∀ e ∈ events, e.2.report.originLocalId ≠ some o) ?_ hids haccepted ⟨rfl, hother⟩
  · exact hkeep.2.2.1
  · rintro tickets e events fields t rows ⟨hsame, hother⟩ ⟨_, _, _, rfl⟩ hfiling
    have hne : e.2.report.originLocalId ≠ some o := hother e List.mem_cons_self
    exact ⟨(hfiling.originIds_other hne).trans hsame,
      fun e' he' => hother e' (List.mem_cons_of_mem e he')⟩

/-- In a run of accepted requests with distinct new ids, every report is found
by its id for good exactly when every report with an id creates its ticket. -/
theorem origins_resolve_iff {s : Service} {events : List (Deployment × Forward)}
    (hids : (s.tickets.map Ticket.id).Nodup) (haccepted : Accepted F s events)
    (hdistinct : DistinctOrigins events) (hunused : UnusedOrigins s.tickets events) :
    OriginsResolve F s events ↔ OriginsUnmerged F s events := by
  -- What a request that carries an id does where it arrives.
  have hstep : ∀ before e rest, events = before ++ e :: rest →
      ∀ o, e.2.report.originLocalId = some o →
      ∃ fields t, ForwardFiles F e.1 e.2 fields ∧
        Filing (Transition.after (forwardStep F) s before).tickets fields
          e.2.arrival.ticket t (Transition.after (forwardStep F) s (before ++ [e])).tickets ∧
        (forwardStep F (Transition.after (forwardStep F) s before) e).2 =
          .ok (forwardReply t) ∧
        originIds o (Transition.after (forwardStep F) s before).tickets = [] := by
    rintro before e rest rfl o ho
    obtain ⟨fields, t, hfields, hfiling, hok⟩ := filing_at F hids haccepted
    obtain ⟨_, _, _, hunused⟩ := unused_after F hids haccepted hdistinct hunused
    exact ⟨fields, t, hfields, hfiling, hok, hunused e List.mem_cons_self o ho⟩
  constructor
  · intro hresolve before e rest hevents o ho
    obtain ⟨fields, t, ⟨_, _, _, rfl⟩, hfiling, hok, hempty⟩ :=
      hstep before e rest hevents o ho
    have hanswer := (hresolve before e [] rest hevents o ho _ hok).1
    apply existingFor_forward_eq_none_iff.mp
    by_contra hsome
    obtain ⟨existing, hmem, horigin⟩ := hfiling.origin_of_merged hsome
    exact originIds_eq_nil.mp hempty existing hmem (horigin.symm.trans hanswer)
  · intro hunmerged before e later rest hevents o ho answer hanswer
    obtain ⟨fields, t, ⟨_, _, _, rfl⟩, hfiling, hok, hempty⟩ :=
      hstep before e (later ++ rest) hevents o ho
    obtain rfl := Except.ok.inj (hok.symm.trans hanswer)
    have hunmerged := hunmerged before e (later ++ rest) hevents o ho
    obtain ⟨horigin, hids'⟩ :=
      hfiling.originIds_created (existingFor_forward_eq_none_iff.mpr hunmerged) ho
    refine ⟨horigin, getTicketByOriginLocalId_of_originIds ?_⟩
    -- No later report carries the id, so the ticket keeps it.
    have hrest : events = (before ++ [e]) ++ (later ++ rest) := by rw [hevents]; simp
    rw [hrest] at haccepted hdistinct hunused
    obtain ⟨hnodup, haccepted', _⟩ := unused_after F hids haccepted hdistinct hunused
    have hother : ∀ e' ∈ later ++ rest, e'.2.report.originLocalId ≠ some o := by
      intro e' he' ho'
      rw [DistinctOrigins, List.filterMap_append, List.nodup_append'] at hdistinct
      exact hdistinct.2.2 (List.mem_filterMap.mpr ⟨e, by simp, ho⟩)
        (List.mem_filterMap.mpr ⟨e', he', ho'⟩)
    rw [List.append_cons, Transition.after_append,
      originIds_after F hnodup haccepted' hother, hids', hempty]
    rfl

end

section

attribute [local instance] FloatView.asFloat Interpreter.ascii

/-- Two crashes that differ, and a third report without an id. -/
def crashReports : List (Deployment × Forward) :=
  [boxForwards 0 "SUP-1" { title := "a", fingerprint := some "f", originLocalId := some "box-1" },
    boxForwards 1 "SUP-2" { title := "b", fingerprint := some "g", originLocalId := some "box-2" },
    boxForwards 2 "SUP-3" { title := "a", fingerprint := some "f" }]

theorem origins_resolve_iff_crashReports :
    OriginsResolve FloatView emptyTable crashReports ↔
      OriginsUnmerged FloatView emptyTable crashReports :=
  origins_resolve_iff FloatView (by decide +kernel) (by decide +kernel) (by decide +kernel)
    (fun _ _ _ _ => rfl)

/-- The same crash twice, each report with an id of its own. -/
def repeatedCrash : List (Deployment × Forward) :=
  [boxForwards 0 "SUP-1" { title := "a", fingerprint := some "f", originLocalId := some "box-1" },
    boxForwards 1 "SUP-2" { title := "a", fingerprint := some "f", originLocalId := some "box-2" }]

/-- The second report is answered with the id of the first, and the lookup by
its own finds nothing. -/
theorem origins_lost_repeatedCrash :
    Accepted FloatView emptyTable repeatedCrash ∧ DistinctOrigins repeatedCrash ∧
      ¬ OriginsResolve FloatView emptyTable repeatedCrash := by
  refine ⟨by decide +kernel, by decide +kernel, fun hresolve => ?_⟩
  have hfound := hresolve [repeatedCrash.head (by decide)] repeatedCrash[1] [] [] rfl "box-2" rfl
    ⟨"SUP-1", 2, 16, "crash", some "box-1"⟩ (by decide +kernel)
  revert hfound
  decide +kernel

end

end NetplexSupport
