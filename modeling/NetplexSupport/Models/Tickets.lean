/-
`app/models.py`, the ticket store.  A report whose fingerprint already has an
open ticket from the same source bumps that ticket; any other report inserts a
new row.
-/
import NetplexSupport.Python.Dict
import NetplexSupport.Sql.Table
import Mathlib.Data.List.Sort

namespace NetplexSupport

open Py

/-- A `datetime` in UTC, in microseconds. -/
abbrev Time := Int

def severityWeight : Dict Int :=
  [("s1_crash", 16), ("s2_broken", 8), ("s3_degraded", 4), ("s4_cosmetic", 2),
    ("s5_idea", 1)]

def tierWeight : Dict Int :=
  [("master", 5), ("enterprise", 5), ("team", 4), ("architect", 4),
    ("professional", 3), ("class", 3), ("associate", 1)]

/-- The states in which a ticket takes part in deduplication. -/
def openStates : List Str := ["new", "triaged", "in_progress", "fixed"]

def priorityScore (severity : Str) (occurrences : Int) (tier : Str) : Int :=
  (dictGet severityWeight severity).getD 4 * max occurrences 1 *
    (dictGet tierWeight tier).getD 1

/-- A row of `tickets`. -/
structure Ticket where
  id : Str
  kind : Str
  fingerprint : Option Str
  status : Str
  severity : Str
  title : Str
  body : Str
  occurrences : Int
  firstSeen : Time
  lastSeen : Time
  source : Str
  reporterTier : Str
  identified : Bool
  contact : Option Str
  installId : Option Str
  originLocalId : Option Str
  licenseIdHash : Option Str
  scopePath : Option Str
  priorityScore : Int
  githubIssue : Option Int
  fixedInVersion : Option Str
  attachments : Option Str
  diagnosticJson : Option Str
  createdAt : Time
  updatedAt : Time
deriving DecidableEq

/-- The keyword arguments of `create_or_dedupe`, with the defaults its
`fields.get` calls give. -/
structure Fields where
  kind : Str := "crash"
  fingerprint : Option Str := none
  status : Str := "new"
  severity : Str := "s2_broken"
  title : Str := ""
  body : Str := ""
  occurrences : Int := 1
  source : Str := "web"
  reporterTier : Str := "associate"
  identified : Bool := false
  contact : Option Str := none
  installId : Option Str := none
  originLocalId : Option Str := none
  licenseIdHash : Option Str := none
  scopePath : Option Str := none
  githubIssue : Option Int := none
  fixedInVersion : Option Str := none
  attachments : Option Str := none
  diagnosticJson : Option Str := none

/-- What one call draws from outside: the random id and the clock, which the
column defaults read again when the row is written. -/
structure Draw where
  ticketId : Str
  now : Time
  createdAt : Time
  updatedAt : Time

/-! ### The query -/

/-- `WHERE fingerprint = … AND source = … AND status IN (open states)`. -/
def Ticket.matching (fingerprint source : Str) (t : Ticket) : Bool :=
  decide (t.fingerprint = some fingerprint) && decide (t.source = source) &&
    decide (t.status ∈ openStates)

/-- The oldest open ticket of a fingerprint and source. -/
def selectOpen (tickets : List Ticket) (fingerprint source : Str) : Option Ticket :=
  Sql.firstBy Ticket.firstSeen (tickets.filter (Ticket.matching fingerprint source))

/-- The ticket a report is merged into; an absent or empty fingerprint has
none. -/
def existingFor (tickets : List Ticket) (fields : Fields) : Option Ticket :=
  match fields.fingerprint with
  | some fingerprint =>
      if fingerprint ≠ [] then selectOpen tickets fingerprint fields.source else none
  | none => none

/-! ### The two writes -/

/-- The loaded ticket after the assignments of the merge path. -/
def bump (existing : Ticket) (now : Time) : Ticket :=
  { existing with
    occurrences := existing.occurrences + 1
    lastSeen := now
    priorityScore :=
      NetplexSupport.priorityScore existing.severity (existing.occurrences + 1)
        existing.reporterTier }

/-- The `UPDATE` of a loaded ticket writes the columns that changed since it was
loaded, and `updated_at`. -/
def flush (loaded changed : Ticket) (updatedAt : Time) (row : Ticket) : Ticket :=
  { row with
    occurrences :=
      if changed.occurrences = loaded.occurrences then row.occurrences
      else changed.occurrences
    lastSeen :=
      if changed.lastSeen = loaded.lastSeen then row.lastSeen else changed.lastSeen
    priorityScore :=
      if changed.priorityScore = loaded.priorityScore then row.priorityScore
      else changed.priorityScore
    updatedAt := updatedAt }

def commitBump (tickets : List Ticket) (existing : Ticket) (draw : Draw) :
    List Ticket :=
  Sql.update Ticket.id existing.id
    (flush existing (bump existing draw.now) draw.updatedAt) tickets

/-- The row of a new ticket. -/
def newTicket (fields : Fields) (draw : Draw) : Ticket where
  id := draw.ticketId
  kind := fields.kind
  fingerprint := fields.fingerprint
  status := fields.status
  severity := fields.severity
  title := fields.title
  body := fields.body
  occurrences := fields.occurrences
  firstSeen := draw.now
  lastSeen := draw.now
  source := fields.source
  reporterTier := fields.reporterTier
  identified := fields.identified
  contact := fields.contact
  installId := fields.installId
  originLocalId := fields.originLocalId
  licenseIdHash := fields.licenseIdHash
  scopePath := fields.scopePath
  priorityScore :=
    NetplexSupport.priorityScore fields.severity fields.occurrences fields.reporterTier
  githubIssue := fields.githubIssue
  fixedInVersion := fields.fixedInVersion
  attachments := fields.attachments
  diagnosticJson := fields.diagnosticJson
  createdAt := draw.createdAt
  updatedAt := draw.updatedAt

def commitInsert (tickets : List Ticket) (ticket : Ticket) : Except Exc (List Ticket) :=
  match Sql.insert Ticket.id ticket tickets with
  | some tickets => .ok tickets
  | none => .error ⟨.databaseError, "UNIQUE constraint failed: tickets.id"⟩

/-- `create_or_dedupe`, one call at a time: the ticket returned, as the refresh
after the commit reads it, and the table. -/
def createOrDedupe (tickets : List Ticket) (fields : Fields) (draw : Draw) :
    Except Exc (Ticket × List Ticket) :=
  match existingFor tickets fields with
  | some existing =>
      .ok (flush existing (bump existing draw.now) draw.updatedAt existing,
        commitBump tickets existing draw)
  | none => do
      let tickets ← commitInsert tickets (newTicket fields draw)
      pure (newTicket fields draw, tickets)

/-! ### Queries -/

/-- `get_ticket`. -/
def getTicket (tickets : List Ticket) (ticketId : Str) : Option Ticket :=
  tickets.find? fun t => decide (t.id = ticketId)

/-- `get_ticket_by_origin_local_id`. -/
def getTicketByOriginLocalId (tickets : List Ticket) (originLocalId : Str) :
    Option Ticket :=
  Sql.lastBy Ticket.firstSeen
    (tickets.filter fun t => decide (t.originLocalId = some originLocalId))

/-- `ORDER BY priority_score DESC, last_seen DESC`. -/
def queueOrder (a b : Ticket) : Prop :=
  b.priorityScore < a.priorityScore ∨
    b.priorityScore = a.priorityScore ∧ b.lastSeen ≤ a.lastSeen

instance queueOrder.decidable : DecidableRel queueOrder := fun _ _ =>
  inferInstanceAs (Decidable (_ ∨ _))

/-- `admin_queue`: open tickets only. -/
def adminQueue (tickets : List Ticket) (limit : Nat) : List Ticket :=
  ((tickets.filter fun t => decide (t.status ∈ openStates)).insertionSort queueOrder).take
    limit

theorem getTicket_eq_some_iff {tickets : List Ticket}
    (hids : (tickets.map Ticket.id).Nodup) {ticketId : Str} {t : Ticket} :
    getTicket tickets ticketId = some t ↔ t ∈ tickets ∧ t.id = ticketId := by
  constructor
  · intro h
    exact ⟨List.mem_of_find?_eq_some h, by simpa using List.find?_some h⟩
  · rintro ⟨ht, rfl⟩
    rcases hfind : getTicket tickets t.id with _ | t'
    · have hnone := List.find?_eq_none.mp hfind t ht
      simp at hnone
    · have hid : t'.id = t.id := by simpa using List.find?_some hfind
      rw [List.inj_on_of_nodup_map hids (List.mem_of_find?_eq_some hfind) ht hid]

/-! ### What one call can do -/

/-- A bumped ticket as it stands in the table after a sequential call. -/
def bumped (existing : Ticket) (draw : Draw) : Ticket :=
  { bump existing draw.now with updatedAt := draw.updatedAt }

theorem flush_self (loaded changed : Ticket) (updatedAt : Time) :
    flush loaded changed updatedAt loaded =
      { loaded with
        occurrences := changed.occurrences
        lastSeen := changed.lastSeen
        priorityScore := changed.priorityScore
        updatedAt := updatedAt } := by
  simp only [flush]
  congr 1
  · split <;> simp_all
  · split <;> simp_all
  · split <;> simp_all

theorem flush_bump (existing : Ticket) (draw : Draw) :
    flush existing (bump existing draw.now) draw.updatedAt existing =
      bumped existing draw :=
  flush_self _ _ _

theorem matching_iff {fingerprint source : Str} {t : Ticket} :
    t.matching fingerprint source = true ↔
      t.fingerprint = some fingerprint ∧ t.source = source ∧ t.status ∈ openStates := by
  simp [Ticket.matching, and_assoc]

theorem existingFor_eq_some {tickets : List Ticket} {fields : Fields} {existing : Ticket}
    (h : existingFor tickets fields = some existing) :
    ∃ fingerprint, fields.fingerprint = some fingerprint ∧ fingerprint ≠ [] ∧
      selectOpen tickets fingerprint fields.source = some existing := by
  unfold existingFor at h
  rcases hfingerprint : fields.fingerprint with _ | fingerprint
  · simp [hfingerprint] at h
  · simp only [hfingerprint] at h
    by_cases hne : fingerprint ≠ []
    · exact ⟨fingerprint, rfl, hne, by simpa [hne] using h⟩
    · simp [hne] at h

/-- A call that merges into no row leaves no open row of its key behind. -/
theorem filter_of_existingFor_none {tickets : List Ticket} {fields : Fields}
    (h : existingFor tickets fields = none) {fingerprint : Str} (hne : fingerprint ≠ [])
    (hfingerprint : fields.fingerprint = some fingerprint) :
    tickets.filter (Ticket.matching fingerprint fields.source) = [] := by
  rw [existingFor, hfingerprint] at h
  simp only [hne, ne_eq, not_false_eq_true, if_true] at h
  exact Sql.firstBy_eq_none.mp h

/-- A call that finds a row rewrites it in place. -/
theorem createOrDedupe_merged {tickets : List Ticket} {fields : Fields} (draw : Draw)
    (hids : (tickets.map Ticket.id).Nodup) {existing : Ticket}
    (hexisting : existingFor tickets fields = some existing) :
    ∃ pre post fingerprint, tickets = pre ++ existing :: post ∧
      fields.fingerprint = some fingerprint ∧
      Sql.FirstAt Ticket.firstSeen (Ticket.matching fingerprint fields.source) pre
        existing post ∧
      createOrDedupe tickets fields draw =
        .ok (bumped existing draw, pre ++ bumped existing draw :: post) := by
  obtain ⟨fingerprint, hfingerprint, _, hselect⟩ := existingFor_eq_some hexisting
  obtain ⟨pre, post, rfl, hfirst⟩ := Sql.firstBy_filter_eq_some_iff.mp hselect
  refine ⟨pre, post, fingerprint, rfl, hfingerprint, hfirst, ?_⟩
  simp only [createOrDedupe, hexisting, commitBump]
  rw [Sql.update_eq _ hids, flush_bump]

/-- A call either rewrites the one row it merges into, or appends a row. -/
theorem createOrDedupe_cases {tickets : List Ticket} (fields : Fields) {draw : Draw}
    (hids : (tickets.map Ticket.id).Nodup)
    (hfresh : draw.ticketId ∉ tickets.map Ticket.id) :
    (∃ pre existing post fingerprint, tickets = pre ++ existing :: post ∧
      existingFor tickets fields = some existing ∧
      fields.fingerprint = some fingerprint ∧
      Sql.FirstAt Ticket.firstSeen (Ticket.matching fingerprint fields.source) pre
        existing post ∧
      createOrDedupe tickets fields draw =
        .ok (bumped existing draw, pre ++ bumped existing draw :: post)) ∨
    (existingFor tickets fields = none ∧
      createOrDedupe tickets fields draw =
        .ok (newTicket fields draw, tickets ++ [newTicket fields draw])) := by
  rcases hexisting : existingFor tickets fields with _ | existing
  · right
    have hid : (newTicket fields draw).id ∉ tickets.map Ticket.id := hfresh
    have hinsert := Sql.insert_eq_some_iff.mpr ⟨hid, rfl⟩
    simp [createOrDedupe, hexisting, commitInsert, hinsert, bind, Except.bind, pure,
      Except.pure]
  · left
    obtain ⟨pre, post, fingerprint, htickets, hrest⟩ :=
      createOrDedupe_merged draw hids hexisting
    exact ⟨pre, existing, post, fingerprint, htickets, rfl, hrest⟩

/-- What a call that returned has done. -/
inductive Filing (tickets : List Ticket) (fields : Fields) (draw : Draw) :
    Ticket → List Ticket → Prop
  | merged {pre post : List Ticket} {existing : Ticket}
      (htickets : tickets = pre ++ existing :: post)
      (hexisting : existingFor tickets fields = some existing) :
      Filing tickets fields draw (bumped existing draw) (pre ++ bumped existing draw :: post)
  | created (hnone : existingFor tickets fields = none)
      (hfresh : draw.ticketId ∉ tickets.map Ticket.id) :
      Filing tickets fields draw (newTicket fields draw) (tickets ++ [newTicket fields draw])

theorem filing_of_createOrDedupe {tickets rows : List Ticket} {fields : Fields}
    {draw : Draw} {t : Ticket} (hids : (tickets.map Ticket.id).Nodup)
    (hcall : createOrDedupe tickets fields draw = .ok (t, rows)) :
    Filing tickets fields draw t rows := by
  rcases hexisting : existingFor tickets fields with _ | existing
  · simp only [createOrDedupe, hexisting] at hcall
    obtain ⟨rows', hinsert, hcall⟩ := bind_eq_ok.mp hcall
    obtain ⟨rfl, rfl⟩ := Prod.mk.inj (Except.ok.inj hcall)
    unfold commitInsert at hinsert
    rcases hrows : Sql.insert Ticket.id (newTicket fields draw) tickets with _ | rows
    · rw [hrows] at hinsert
      cases hinsert
    · rw [hrows] at hinsert
      obtain rfl := Except.ok.inj hinsert
      obtain ⟨hfresh, rfl⟩ := Sql.insert_eq_some_iff.mp hrows
      exact .created hexisting hfresh
  · obtain ⟨pre, post, _, rfl, _, _, hmerged⟩ := createOrDedupe_merged draw hids hexisting
    obtain ⟨rfl, rfl⟩ := Prod.mk.inj (Except.ok.inj (hmerged.symm.trans hcall))
    exact .merged rfl hexisting

/-- The primary keys stay, or the call's own one is added behind them. -/
theorem Filing.ids {tickets rows : List Ticket} {fields : Fields} {draw : Draw} {t : Ticket}
    (h : Filing tickets fields draw t rows) :
    rows.map Ticket.id = tickets.map Ticket.id ∨
      draw.ticketId ∉ tickets.map Ticket.id ∧
        rows.map Ticket.id = tickets.map Ticket.id ++ [draw.ticketId] := by
  rcases h with ⟨rfl, _⟩ | ⟨_, hfresh⟩
  · exact Or.inl (by simp [bumped, bump])
  · exact Or.inr ⟨hfresh, List.map_append⟩

/-- A row stood in the table, or is one of its rows bumped, or was appended. -/
theorem Filing.row {tickets rows : List Ticket} {fields : Fields} {draw : Draw}
    {t t' : Ticket} (h : Filing tickets fields draw t rows) (ht' : t' ∈ rows) :
    (∃ old ∈ tickets, t' = old ∨ t' = bumped old draw) ∨
      rows = tickets ++ [newTicket fields draw] ∧ t' = newTicket fields draw := by
  rcases h with @⟨pre, post, existing, rfl, _⟩ | ⟨_, _⟩
  · left
    rcases List.mem_append.mp ht' with hpre | hpost
    · exact ⟨t', by simp [hpre], Or.inl rfl⟩
    · rcases List.mem_cons.mp hpost with rfl | hpost
      · exact ⟨existing, by simp, Or.inr rfl⟩
      · exact ⟨t', by simp [hpost], Or.inl rfl⟩
  · rcases List.mem_append.mp ht' with hold | hnew
    · exact Or.inl ⟨t', hold, Or.inl rfl⟩
    · exact Or.inr ⟨rfl, List.mem_singleton.mp hnew⟩

/-- Only a call that merges into no row makes the table longer. -/
theorem Filing.created_of_rows {tickets rows : List Ticket} {fields : Fields} {draw : Draw}
    {t t' : Ticket} (h : Filing tickets fields draw t rows) (hrows : rows = tickets ++ [t']) :
    existingFor tickets fields = none ∧ draw.ticketId ∉ tickets.map Ticket.id := by
  rcases h with ⟨rfl, _⟩ | ⟨hnone, hfresh⟩
  · have hlength := congrArg List.length hrows
    simp at hlength
  · exact ⟨hnone, hfresh⟩

/-- Primary keys stay unique. -/
theorem Filing.nodup {tickets rows : List Ticket} {fields : Fields} {draw : Draw}
    {t : Ticket} (h : Filing tickets fields draw t rows)
    (hids : (tickets.map Ticket.id).Nodup) : (rows.map Ticket.id).Nodup := by
  rcases h.ids with hsame | ⟨hfresh, hadded⟩
  · rw [hsame]
    exact hids
  · rw [hadded, List.nodup_append']
    exact ⟨hids, List.nodup_singleton _, List.disjoint_singleton.mpr hfresh⟩

/-- A call uses up its own id and no other. -/
theorem nodup_createOrDedupe {tickets rows : List Ticket} {fields : Fields} {draw : Draw}
    {t : Ticket} {rest : List Str}
    (hids : (tickets.map Ticket.id ++ draw.ticketId :: rest).Nodup)
    (hcall : createOrDedupe tickets fields draw = .ok (t, rows)) :
    (rows.map Ticket.id ++ rest).Nodup := by
  have htickets : (tickets.map Ticket.id).Nodup := (List.nodup_append'.mp hids).1
  rcases (filing_of_createOrDedupe htickets hcall).ids with hsame | ⟨_, hadded⟩
  · rw [hsame]
    exact hids.sublist (List.Sublist.append_left (List.sublist_cons_self _ _) _)
  · rw [hadded, List.append_assoc]
    exact hids

end NetplexSupport
