/-
`create_or_dedupe` from separate sessions.  A call is two steps of the database,
its `SELECT` and its commit; the steps of different calls interleave freely,
each one atomic, with no lock held in between.
-/
import NetplexSupport.Tickets.Sequential
import Mathlib.Data.Fintype.Card
import Mathlib.Data.Finset.Card

namespace NetplexSupport

open Py

variable {ι : Type} [DecidableEq ι]

/-! ### Interleavings -/

/-- Where a call stands; between its two steps it holds the ticket its `SELECT`
returned. -/
inductive Phase where
  | pending
  | selected (existing : Option Ticket)
  | returned
  | failed (exc : Exc)

structure Sessions (ι : Type) where
  tickets : List Ticket
  phase : ι → Phase

inductive DbStep (ι : Type) where
  | select (i : ι)
  | commit (i : ι)

/-- What the `SELECT` may return: some oldest matching ticket, or none when
there is none. -/
def Selects (tickets : List Ticket) (fields : Fields) (existing : Option Ticket) : Prop :=
  ∃ fingerprint, fields.fingerprint = some fingerprint ∧ fingerprint ≠ [] ∧
    match existing with
    | some t => t ∈ tickets ∧ t.matching fingerprint fields.source = true ∧
        ∀ r ∈ tickets, r.matching fingerprint fields.source = true →
          t.firstSeen ≤ r.firstSeen
    | none => ∀ r ∈ tickets, r.matching fingerprint fields.source = false

/-- The commit of a call that holds `existing`. -/
def commitCall (tickets : List Ticket) (existing : Option Ticket) (fields : Fields)
    (draw : Draw) : Except Exc (List Ticket) :=
  match existing with
  | some t => .ok (commitBump tickets t draw)
  | none => commitInsert tickets (newTicket fields draw)

inductive SessionStep (calls : ι → FilingCall × Draw) :
    Sessions ι → DbStep ι → Sessions ι → Prop where
  | select {s : Sessions ι} {i : ι} {existing : Option Ticket}
      (hpending : s.phase i = .pending)
      (hselect : Selects s.tickets (calls i).1.fields existing) :
      SessionStep calls s (.select i)
        ⟨s.tickets, Function.update s.phase i (.selected existing)⟩
  | commit {s : Sessions ι} {i : ι} {existing : Option Ticket} {tickets : List Ticket}
      (hselected : s.phase i = .selected existing)
      (hcommit : commitCall s.tickets existing (calls i).1.fields (calls i).2 =
        .ok tickets) :
      SessionStep calls s (.commit i) ⟨tickets, Function.update s.phase i .returned⟩
  | fail {s : Sessions ι} {i : ι} {existing : Option Ticket} {exc : Exc}
      (hselected : s.phase i = .selected existing)
      (hcommit : commitCall s.tickets existing (calls i).1.fields (calls i).2 =
        .error exc) :
      SessionStep calls s (.commit i)
        ⟨s.tickets, Function.update s.phase i (.failed exc)⟩

/-- The sessions after a schedule of steps. -/
inductive Interleaving (calls : ι → FilingCall × Draw) (tickets : List Ticket) :
    List (DbStep ι) → Sessions ι → Prop where
  | start : Interleaving calls tickets [] ⟨tickets, fun _ => .pending⟩
  | step {schedule : List (DbStep ι)} {s s' : Sessions ι} {e : DbStep ι}
      (hrun : Interleaving calls tickets schedule s) (hstep : SessionStep calls s e s') :
      Interleaving calls tickets (schedule ++ [e]) s'

/-- No call commits between the `SELECT` and the commit of another. -/
def Undisturbed (schedule : List (DbStep ι)) : Prop :=
  ∀ before between rest i j,
    schedule = before ++ .select i :: between ++ .commit i :: rest →
      .commit j ∉ between

/-- The open tickets of a key. -/
def openCount (fingerprint source : Str) (tickets : List Ticket) : Nat :=
  (tickets.filter (Ticket.matching fingerprint source)).length

def Ticket.ofKey (fingerprint source : Str) (t : Ticket) : Bool :=
  decide (t.fingerprint = some fingerprint) && decide (t.source = source)

/-- The occurrences over all tickets of a key. -/
def keyTotal (fingerprint source : Str) (tickets : List Ticket) : Int :=
  ((tickets.filter (Ticket.ofKey fingerprint source)).map Ticket.occurrences).sum

/-! ### The query and the two writes -/

omit [DecidableEq ι] in
/-- The query of a sequential call is one that the database may answer. -/
theorem selects_existingFor {tickets : List Ticket} {fields : Fields} {fingerprint : Str}
    (hfingerprint : fields.fingerprint = some fingerprint) (hne : fingerprint ≠ []) :
    Selects tickets fields (existingFor tickets fields) := by
  refine ⟨fingerprint, hfingerprint, hne, ?_⟩
  have hquery : existingFor tickets fields =
      selectOpen tickets fingerprint fields.source := by
    simp [existingFor, hfingerprint, hne]
  rw [hquery]
  rcases hselect : selectOpen tickets fingerprint fields.source with _ | t
  · simpa [List.filter_eq_nil_iff] using Sql.firstBy_eq_none.mp hselect
  · rcases List.mem_filter.mp (Sql.firstBy_mem hselect) with ⟨hmem, hmatch⟩
    exact ⟨hmem, hmatch, fun r hr hrmatch =>
      Sql.firstBy_le hselect r (List.mem_filter.mpr ⟨hr, hrmatch⟩)⟩

omit [DecidableEq ι] in
/-- A call whose two steps stand together is a sequential call. -/
theorem commitCall_existingFor (tickets : List Ticket) (fields : Fields) (draw : Draw) :
    commitCall tickets (existingFor tickets fields) fields draw =
      (createOrDedupe tickets fields draw).map Prod.snd := by
  unfold commitCall createOrDedupe
  rcases existingFor tickets fields with _ | t
  · rcases commitInsert tickets (newTicket fields draw) <;> rfl
  · rfl

section

variable {fingerprint source : Str}

theorem ofKey_of_matching {t : Ticket} (h : t.matching fingerprint source = true) :
    t.ofKey fingerprint source = true := by
  rcases matching_iff.mp h with ⟨hfingerprint, hsource, _⟩
  simp [Ticket.ofKey, hfingerprint, hsource]

theorem open_unique {tickets : List Ticket} (hone : openCount fingerprint source tickets ≤ 1)
    {t r : Ticket} (ht : t ∈ tickets) (hr : r ∈ tickets)
    (htmatch : t.matching fingerprint source = true)
    (hrmatch : r.matching fingerprint source = true) : t = r := by
  have htmem := List.mem_filter.mpr ⟨ht, htmatch⟩
  have hrmem := List.mem_filter.mpr ⟨hr, hrmatch⟩
  rcases hfilter : tickets.filter (Ticket.matching fingerprint source) with _ | ⟨x, rest⟩
  · rw [hfilter] at htmem
    cases htmem
  · rcases rest with _ | ⟨y, rest⟩
    · rw [hfilter] at htmem hrmem
      rw [List.mem_singleton.mp htmem, List.mem_singleton.mp hrmem]
    · simp [openCount, hfilter] at hone

theorem openCount_pos {tickets : List Ticket} {t : Ticket} (ht : t ∈ tickets)
    (hmatch : t.matching fingerprint source = true) :
    1 ≤ openCount fingerprint source tickets :=
  List.length_pos_of_mem (List.mem_filter.mpr ⟨ht, hmatch⟩)

/-- A bump writes the count it read plus one, whatever the row holds by then. -/
theorem commitBump_spec {tickets : List Ticket} {t existing : Ticket} (draw : Draw)
    (hids : (tickets.map Ticket.id).Nodup) (ht : t ∈ tickets)
    (hmatch : t.matching fingerprint source = true) (hid : existing.id = t.id) :
    ∃ t' ∈ commitBump tickets existing draw,
      t'.id = t.id ∧ t'.matching fingerprint source = true ∧
      t'.occurrences = existing.occurrences + 1 ∧
      keyTotal fingerprint source (commitBump tickets existing draw) =
        keyTotal fingerprint source tickets - t.occurrences + (existing.occurrences + 1) ∧
      openCount fingerprint source (commitBump tickets existing draw) =
        openCount fingerprint source tickets := by
  obtain ⟨pre, post, rfl⟩ := List.append_of_mem ht
  let t' := flush existing (bump existing draw.now) draw.updatedAt t
  have hcommit : commitBump (pre ++ t :: post) existing draw = pre ++ t' :: post := by
    rw [commitBump, hid]
    exact Sql.update_eq _ hids
  have hmatch' : t'.matching fingerprint source = true := hmatch
  have hcount : t'.occurrences = existing.occurrences + 1 := by
    change (if existing.occurrences + 1 = existing.occurrences then _ else _) = _
    rw [if_neg (by omega)]
    rfl
  rw [hcommit]
  refine ⟨t', by simp, rfl, hmatch', hcount, ?_, ?_⟩
  · simp only [keyTotal, List.filter_append, List.filter_cons, ofKey_of_matching hmatch,
      ofKey_of_matching hmatch', if_true, List.map_append, List.map_cons, List.sum_append,
      List.sum_cons, hcount]
    omega
  · simp only [openCount, List.filter_append, List.filter_cons, hmatch, hmatch', if_true,
      List.length_append, List.length_cons]

theorem ids_commitBump (tickets : List Ticket) (existing : Ticket) (draw : Draw) :
    (commitBump tickets existing draw).map Ticket.id = tickets.map Ticket.id := by
  apply Sql.map_id_update
  intro t
  rfl

/-- A bump of any row leaves as many open rows as there were. -/
theorem openCount_commitBump (tickets : List Ticket) (existing : Ticket) (draw : Draw) :
    openCount fingerprint source (commitBump tickets existing draw) =
      openCount fingerprint source tickets := by
  induction tickets with
  | nil => rfl
  | cons t tickets ih =>
      have hhead : (if t.id = existing.id then
          flush existing (bump existing draw.now) draw.updatedAt t else t).matching
            fingerprint source = t.matching fingerprint source := by
        split <;> rfl
      simp only [openCount, commitBump, Sql.update, List.map_cons, List.filter_cons,
        hhead] at ih ⊢
      by_cases hmatch : t.matching fingerprint source = true
      · simp [hmatch, ih]
      · simp [hmatch, ih]

theorem ids_commitInsert {tickets tickets' : List Ticket} {ticket : Ticket}
    (hids : (tickets.map Ticket.id).Nodup) (h : commitInsert tickets ticket = .ok tickets') :
    (tickets'.map Ticket.id).Nodup := by
  unfold commitInsert at h
  rcases hinsert : Sql.insert Ticket.id ticket tickets with _ | rows
  · simp [hinsert] at h
  · rw [hinsert] at h
    obtain rfl := Except.ok.inj h
    rcases Sql.insert_eq_some_iff.mp hinsert with ⟨hid, rfl⟩
    rw [List.map_append, List.nodup_append']
    exact ⟨hids, by simp, List.disjoint_singleton.mpr hid⟩

/-- An insert adds one open row that counts one occurrence. -/
theorem commitInsert_spec {tickets tickets' : List Ticket} {call : FilingCall}
    {draw : Draw} (hfingerprint : call.fields.fingerprint = some fingerprint)
    (hsource : call.fields.source = source)
    (h : commitInsert tickets (newTicket call.fields draw) = .ok tickets') :
    tickets' = tickets ++ [newTicket call.fields draw] ∧
      (newTicket call.fields draw).matching fingerprint source = true ∧
      keyTotal fingerprint source tickets' = keyTotal fingerprint source tickets + 1 ∧
      openCount fingerprint source tickets' =
        openCount fingerprint source tickets + 1 := by
  rcases call.fields_fresh with ⟨hstatus, hcount⟩
  have hmatch : (newTicket call.fields draw).matching fingerprint source = true := by
    rw [matching_iff]
    refine ⟨hfingerprint, hsource, ?_⟩
    change call.fields.status ∈ openStates
    rw [hstatus]
    exact List.mem_cons_self
  have hnew : (newTicket call.fields draw).occurrences = 1 := hcount
  unfold commitInsert at h
  rcases hinsert : Sql.insert Ticket.id (newTicket call.fields draw) tickets with _ | rows
  · simp [hinsert] at h
  · rw [hinsert] at h
    obtain rfl := Except.ok.inj h
    rcases Sql.insert_eq_some_iff.mp hinsert with ⟨_, rfl⟩
    refine ⟨rfl, hmatch, ?_, ?_⟩
    · simp [keyTotal, List.filter_append, ofKey_of_matching hmatch, hnew]
    · simp [openCount, List.filter_append, hmatch]

end

/-! ### Counting the calls that returned -/

def Phase.isReturned : Phase → Bool
  | .returned => true
  | _ => false

section

variable [Fintype ι]

def returnedCount (s : Sessions ι) : Int :=
  ((Finset.univ.filter fun i => (s.phase i).isReturned = true).card : Int)

theorem returnedCount_return {tickets tickets' : List Ticket} {phase : ι → Phase} {i : ι}
    (hi : (phase i).isReturned = false) :
    returnedCount ⟨tickets', Function.update phase i .returned⟩ =
      returnedCount ⟨tickets, phase⟩ + 1 := by
  have hinsert : (Finset.univ.filter fun j =>
      (Function.update phase i .returned j).isReturned = true) =
      insert i (Finset.univ.filter fun j => (phase j).isReturned = true) := by
    ext j
    simp only [Finset.mem_filter, Finset.mem_univ, true_and, Finset.mem_insert]
    by_cases hj : j = i
    · subst hj
      rw [Function.update_self]
      simp only [true_or, iff_true]
      rfl
    · simp only [Function.update_of_ne hj, hj, false_or]
  rw [returnedCount, hinsert, Finset.card_insert_of_notMem (by simp [hi])]
  push_cast
  rfl

theorem returnedCount_select (tickets : List Ticket) {phase : ι → Phase} {i : ι}
    {existing : Option Ticket} (hi : (phase i).isReturned = false) :
    returnedCount ⟨tickets, Function.update phase i (.selected existing)⟩ =
      returnedCount ⟨tickets, phase⟩ := by
  unfold returnedCount
  congr 2
  ext j
  simp only [Finset.mem_filter, Finset.mem_univ, true_and]
  by_cases hj : j = i
  · subst hj
    rw [Function.update_self, hi]
    rfl
  · rw [Function.update_of_ne hj]

omit [DecidableEq ι] in
theorem returnedCount_all {s : Sessions ι} (h : ∀ i, s.phase i = .returned) :
    returnedCount s = Fintype.card ι := by
  have hall : (Finset.univ.filter fun i => (s.phase i).isReturned = true) = Finset.univ := by
    rw [Finset.filter_eq_self]
    intro i _
    rw [h i]
    rfl
  rw [returnedCount, hall, Finset.card_univ]

end

/-- A phase after an update: that of the call that moved, or as before. -/
theorem phase_update {phase : ι → Phase} {i j : ι} {p q : Phase}
    (h : Function.update phase i p j = q) : (j = i ∧ p = q) ∨ (j ≠ i ∧ phase j = q) := by
  by_cases hj : j = i
  · subst hj
    exact Or.inl ⟨rfl, by simpa using h⟩
  · exact Or.inr ⟨hj, by simpa [hj] using h⟩

/-! ### Stale reads -/

/-- The element `b` of a list that ends with `a` is that `a`, or stands before
it. -/
theorem split_append_singleton {α : Type} {xs ys zs : List α} {a b : α}
    (h : xs ++ [a] = ys ++ b :: zs) :
    (zs = [] ∧ xs = ys ∧ a = b) ∨ ∃ zs', zs = zs' ++ [a] ∧ xs = ys ++ b :: zs' := by
  rcases List.eq_nil_or_concat' zs with rfl | ⟨zs', e, rfl⟩
  · exact Or.inl ⟨rfl, List.append_singleton_inj.mp h⟩
  · rw [← List.cons_append, ← List.append_assoc, List.append_singleton_inj] at h
    exact Or.inr ⟨zs', h.2 ▸ rfl, h.1⟩

/-- Another call has committed since `i` read. -/
def Stale (schedule : List (DbStep ι)) (i : ι) : Prop :=
  ∃ before between j, schedule = before ++ .select i :: between ∧ .commit j ∈ between

omit [DecidableEq ι] in
theorem Stale.mono {schedule : List (DbStep ι)} {i : ι} (h : Stale schedule i)
    (e : DbStep ι) : Stale (schedule ++ [e]) i := by
  obtain ⟨before, between, j, rfl, hj⟩ := h
  exact ⟨before, between ++ [e], j, by simp, List.mem_append_left _ hj⟩

omit [DecidableEq ι] in
theorem not_stale_of_not_mem {schedule : List (DbStep ι)} {i : ι}
    (h : .select i ∉ schedule) : ¬ Stale (schedule ++ [.select i]) i := by
  rintro ⟨before, between, j, heq, hj⟩
  rcases split_append_singleton heq with ⟨rfl, _, _⟩ | ⟨between, _, rfl⟩
  · cases hj
  · exact h (by simp)

omit [DecidableEq ι] in
theorem stale_commit {schedule : List (DbStep ι)} {i j : ι} (h : .select i ∈ schedule) :
    Stale (schedule ++ [.commit j]) i := by
  obtain ⟨before, between, rfl⟩ := List.append_of_mem h
  exact ⟨before, between ++ [.commit j], j, by simp, by simp⟩

omit [DecidableEq ι] in
theorem undisturbed_append_select {schedule : List (DbStep ι)} (i : ι) :
    Undisturbed (schedule ++ [.select i]) ↔ Undisturbed schedule := by
  constructor
  · rintro h before between rest i' j rfl
    exact h before between (rest ++ [.select i]) i' j (by simp)
  · intro h before between rest i' j heq
    rcases split_append_singleton heq with ⟨_, _, hlast⟩ | ⟨rest, _, hfront⟩
    · cases hlast
    · exact h before between rest i' j hfront

omit [DecidableEq ι] in
/-- A commit disturbs a schedule when it writes back a stale read. -/
theorem undisturbed_append_commit {schedule : List (DbStep ι)} (i : ι) :
    Undisturbed (schedule ++ [.commit i]) ↔
      Undisturbed schedule ∧ ¬ Stale schedule i := by
  constructor
  · intro h
    constructor
    · rintro before between rest i' j rfl
      exact h before between (rest ++ [.commit i]) i' j (by simp)
    · rintro ⟨before, between, j, rfl, hj⟩
      exact h before between [] i j (by simp) hj
  · rintro ⟨h, hstale⟩ before between rest i' j heq
    rcases split_append_singleton heq with ⟨_, hfront, hlast⟩ | ⟨rest, _, hfront⟩
    · obtain rfl := DbStep.commit.inj hlast
      exact fun hj => hstale ⟨before, between, j, hfront, hj⟩
    · exact h before between rest i' j hfront

/-! ### One key -/

/-- Every call reports the same non-empty fingerprint from the same source. -/
structure SameKey (fingerprint source : Str) (calls : ι → FilingCall × Draw) : Prop where
  nonempty : fingerprint ≠ []
  fingerprint : ∀ i, (calls i).1.fields.fingerprint = some fingerprint
  source : ∀ i, (calls i).1.fields.source = source

section

variable {fingerprint source : Str} {calls : ι → FilingCall × Draw}

omit [DecidableEq ι] in
theorem SameKey.selects_some (hkey : SameKey fingerprint source calls)
    {tickets : List Ticket} {i : ι} {t : Ticket}
    (h : Selects tickets (calls i).1.fields (some t)) :
    t ∈ tickets ∧ t.matching fingerprint source = true := by
  obtain ⟨fp, hfp, _, ht, hmatch, _⟩ := h
  rw [hkey.fingerprint i] at hfp
  obtain rfl := Option.some.inj hfp
  exact ⟨ht, hkey.source i ▸ hmatch⟩

omit [DecidableEq ι] in
theorem SameKey.selects_none (hkey : SameKey fingerprint source calls)
    {tickets : List Ticket} {i : ι} (h : Selects tickets (calls i).1.fields none) :
    ∀ r ∈ tickets, r.matching fingerprint source = false := by
  obtain ⟨fp, hfp, _, hnone⟩ := h
  rw [hkey.fingerprint i] at hfp
  obtain rfl := Option.some.inj hfp
  exact hkey.source i ▸ hnone

variable [Fintype ι]

/-- While no stale read was written back: one open ticket at most, every call
counted, and a call that holds a stale read holds a smaller count than the open
ticket has by now. -/
structure Clean (fingerprint source : Str) (calls : ι → FilingCall × Draw) (start : Int)
    (schedule : List (DbStep ι)) (s : Sessions ι) : Prop where
  ids : (s.tickets.map Ticket.id).Nodup
  one : openCount fingerprint source s.tickets ≤ 1
  total : keyTotal fingerprint source s.tickets = start + returnedCount s
  fresh : ∀ i existing, s.phase i = .selected existing → ¬ Stale schedule i →
    Selects s.tickets (calls i).1.fields existing
  stale : ∀ i existing, s.phase i = .selected existing → Stale schedule i →
    ∃ t ∈ s.tickets, t.matching fingerprint source = true ∧
      ∀ r, existing = some r → r.id = t.id ∧ r.occurrences < t.occurrences

/-- Once a stale read was written back: two open tickets, or a count that falls
short and stays short whichever of the held reads is written back next. -/
structure Broken (fingerprint source : Str) (start : Int) (s : Sessions ι) : Prop where
  ids : (s.tickets.map Ticket.id).Nodup
  lost : 2 ≤ openCount fingerprint source s.tickets ∨
    openCount fingerprint source s.tickets = 1 ∧
    ∃ t ∈ s.tickets, t.matching fingerprint source = true ∧
      keyTotal fingerprint source s.tickets < start + returnedCount s ∧
      ∀ i r, s.phase i = .selected (some r) → r.id = t.id ∧
        keyTotal fingerprint source s.tickets - t.occurrences + r.occurrences <
          start + returnedCount s

theorem clean_select {start : Int} {schedule : List (DbStep ι)} {tickets : List Ticket}
    {phase : ι → Phase} (h : Clean fingerprint source calls start schedule ⟨tickets, phase⟩)
    {i : ι} {existing : Option Ticket} (hpending : phase i = .pending)
    (hnew : .select i ∉ schedule)
    (hselect : Selects tickets (calls i).1.fields existing) :
    Clean fingerprint source calls start (schedule ++ [.select i])
      ⟨tickets, Function.update phase i (.selected existing)⟩ := by
  have hother : ∀ j, Stale (schedule ++ [.select i]) j → j ≠ i → Stale schedule j := by
    rintro j ⟨before, between, k, heq, hk⟩ hj
    rcases split_append_singleton heq with ⟨rfl, _, _⟩ | ⟨between, rfl, hfront⟩
    · cases hk
    · exact ⟨before, between, k, hfront, by simpa using hk⟩
  constructor
  · exact h.ids
  · exact h.one
  · rw [returnedCount_select tickets (by rw [hpending]; rfl)]
    exact h.total
  · intro j e hj hstale
    rcases phase_update hj with ⟨rfl, he⟩ | ⟨_, hj⟩
    · exact Phase.selected.inj he ▸ hselect
    · exact h.fresh j e hj fun hs => hstale (hs.mono _)
  · intro j e hj hstale
    rcases phase_update hj with ⟨rfl, _⟩ | ⟨hji, hj⟩
    · exact absurd hstale (not_stale_of_not_mem hnew)
    · exact h.stale j e hj (hother j hstale hji)

omit [DecidableEq ι] in
/-- What a call holds is the open ticket, as it is now or as it was. -/
theorem Clean.held {start : Int} {schedule : List (DbStep ι)} {s : Sessions ι}
    (hkey : SameKey fingerprint source calls)
    (h : Clean fingerprint source calls start schedule s) {t : Ticket}
    (ht : t ∈ s.tickets) (hmatch : t.matching fingerprint source = true) {i : ι}
    {r : Ticket} (hi : s.phase i = .selected (some r)) :
    r.id = t.id ∧ r.occurrences ≤ t.occurrences := by
  by_cases hstale : Stale schedule i
  · obtain ⟨t₁, ht₁, hmatch₁, hr⟩ := h.stale i _ hi hstale
    obtain rfl := open_unique h.one ht ht₁ hmatch hmatch₁
    exact ⟨(hr r rfl).1, (hr r rfl).2.le⟩
  · obtain ⟨hr, hrmatch⟩ := hkey.selects_some (h.fresh i _ hi hstale)
    obtain rfl := open_unique h.one ht hr hmatch hrmatch
    exact ⟨rfl, le_rfl⟩

omit [DecidableEq ι] in
/-- Without an open ticket no call holds one, and no read is stale. -/
theorem Clean.unheld {start : Int} {schedule : List (DbStep ι)} {s : Sessions ι}
    (hkey : SameKey fingerprint source calls)
    (h : Clean fingerprint source calls start schedule s)
    (hnone : ∀ r ∈ s.tickets, r.matching fingerprint source = false) {i : ι}
    {existing : Option Ticket} (hi : s.phase i = .selected existing) :
    existing = none := by
  by_cases hstale : Stale schedule i
  · obtain ⟨t, ht, hmatch, _⟩ := h.stale i _ hi hstale
    rw [hnone t ht] at hmatch
    cases hmatch
  · rcases existing with _ | r
    · rfl
    · obtain ⟨hr, hmatch⟩ := hkey.selects_some (h.fresh i _ hi hstale)
      rw [hnone r hr] at hmatch
      cases hmatch

omit [Fintype ι] in
/-- After a commit every other call that has read holds a stale read. -/
theorem held_stale {phase : ι → Phase} {schedule : List (DbStep ι)}
    (hread : ∀ j existing, phase j = .selected existing → .select j ∈ schedule) (i : ι)
    {j : ι} {existing : Option Ticket}
    (hj : Function.update phase i .returned j = .selected existing) :
    phase j = .selected existing ∧ Stale (schedule ++ [.commit i]) j := by
  rcases phase_update hj with ⟨_, he⟩ | ⟨_, hj⟩
  · cases he
  · exact ⟨hj, stale_commit (hread j existing hj)⟩

/-- With no ticket open, a commit opens the one ticket of the key. -/
theorem clean_insert {start : Int} {schedule : List (DbStep ι)} {s : Sessions ι}
    (hkey : SameKey fingerprint source calls)
    (hread : ∀ j existing, s.phase j = .selected existing → .select j ∈ schedule)
    (h : Clean fingerprint source calls start schedule s) {i : ι}
    (hi : s.phase i = .selected none) (hfresh : ¬ Stale schedule i) {tickets : List Ticket}
    (hcommit : commitCall s.tickets none (calls i).1.fields (calls i).2 = .ok tickets) :
    Clean fingerprint source calls start (schedule ++ [.commit i])
      ⟨tickets, Function.update s.phase i .returned⟩ := by
  have hnone := hkey.selects_none (h.fresh i none hi hfresh)
  have hids := ids_commitInsert h.ids hcommit
  have hreturned : returnedCount ⟨tickets, Function.update s.phase i .returned⟩ =
      returnedCount s + 1 := returnedCount_return (by rw [hi]; rfl)
  obtain ⟨rfl, hmatch, htotal, hopen⟩ :=
    commitInsert_spec (hkey.fingerprint i) (hkey.source i) hcommit
  constructor
  · exact hids
  · have hzero : openCount fingerprint source s.tickets = 0 := by
      simp only [openCount, List.length_eq_zero_iff, List.filter_eq_nil_iff]
      intro r hr hr'
      rw [hnone r hr] at hr'
      cases hr'
    change openCount fingerprint source (s.tickets ++ _) ≤ 1
    rw [hopen, hzero]
  · rw [hreturned, htotal, h.total]
    omega
  · intro j existing hj hstale
    exact absurd (held_stale hread i hj).2 hstale
  · intro j existing hj _
    refine ⟨newTicket (calls i).1.fields (calls i).2, by simp, hmatch, ?_⟩
    rintro r rfl
    cases h.unheld hkey hnone (held_stale hread i hj).1

/-- Writing back the open ticket as it stands counts the call. -/
theorem clean_bump {start : Int} {schedule : List (DbStep ι)} {s : Sessions ι}
    (hkey : SameKey fingerprint source calls)
    (hread : ∀ j existing, s.phase j = .selected existing → .select j ∈ schedule)
    (h : Clean fingerprint source calls start schedule s) {i : ι} {t : Ticket}
    (hi : s.phase i = .selected (some t)) (hfresh : ¬ Stale schedule i) :
    Clean fingerprint source calls start (schedule ++ [.commit i])
      ⟨commitBump s.tickets t (calls i).2, Function.update s.phase i .returned⟩ := by
  obtain ⟨ht, hmatch⟩ := hkey.selects_some (h.fresh i (some t) hi hfresh)
  have hreturned : returnedCount
      ⟨commitBump s.tickets t (calls i).2, Function.update s.phase i .returned⟩ =
        returnedCount s + 1 := returnedCount_return (by rw [hi]; rfl)
  obtain ⟨t', ht', hid, hmatch', hcount, htotal, hopen⟩ :=
    commitBump_spec (calls i).2 h.ids ht hmatch rfl
  constructor
  · rw [ids_commitBump]
    exact h.ids
  · rw [hopen]
    exact h.one
  · rw [hreturned, htotal, h.total]
    omega
  · intro j existing hj hstale
    exact absurd (held_stale hread i hj).2 hstale
  · intro j existing hj _
    refine ⟨t', ht', hmatch', ?_⟩
    rintro r rfl
    obtain ⟨hrid, hr⟩ := h.held hkey ht hmatch (held_stale hread i hj).1
    exact ⟨hrid.trans hid.symm, by omega⟩

/-- Writing back a fresh read counts the call. -/
theorem clean_commit {start : Int} {schedule : List (DbStep ι)} {s : Sessions ι}
    (hkey : SameKey fingerprint source calls)
    (hread : ∀ j existing, s.phase j = .selected existing → .select j ∈ schedule)
    (h : Clean fingerprint source calls start schedule s) {i : ι}
    {existing : Option Ticket} (hi : s.phase i = .selected existing)
    (hfresh : ¬ Stale schedule i) {tickets : List Ticket}
    (hcommit : commitCall s.tickets existing (calls i).1.fields (calls i).2 = .ok tickets) :
    Clean fingerprint source calls start (schedule ++ [.commit i])
      ⟨tickets, Function.update s.phase i .returned⟩ := by
  rcases existing with _ | t
  · exact clean_insert hkey hread h hi hfresh hcommit
  · obtain rfl := Except.ok.inj hcommit
    exact clean_bump hkey hread h hi hfresh

omit [DecidableEq ι] in
/-- A second ticket of the key is opened. -/
theorem broken_insert {start : Int} {tickets tickets' : List Ticket}
    (hkey : SameKey fingerprint source calls) (hids : (tickets.map Ticket.id).Nodup)
    (hopened : 1 ≤ openCount fingerprint source tickets) {i : ι}
    (hcommit : commitCall tickets none (calls i).1.fields (calls i).2 = .ok tickets')
    (phase : ι → Phase) : Broken fingerprint source start ⟨tickets', phase⟩ := by
  have hids' := ids_commitInsert hids hcommit
  obtain ⟨_, _, _, hopen⟩ :=
    commitInsert_spec (hkey.fingerprint i) (hkey.source i) hcommit
  refine ⟨hids', Or.inl ?_⟩
  rw [hopen]
  omega

/-- The open ticket is written back with a count that is too small, while every
other call holds one that is too small as well. -/
theorem broken_bump {start : Int} {s : Sessions ι} (hids : (s.tickets.map Ticket.id).Nodup)
    (hone : openCount fingerprint source s.tickets = 1) {t : Ticket} (ht : t ∈ s.tickets)
    (hmatch : t.matching fingerprint source = true) {i : ι} {r : Ticket}
    (hi : s.phase i = .selected (some r)) (hid : r.id = t.id)
    (hless : keyTotal fingerprint source s.tickets - t.occurrences + r.occurrences <
      start + returnedCount s)
    (hheld : ∀ j x, s.phase j = .selected (some x) → x.id = t.id ∧
      keyTotal fingerprint source s.tickets - t.occurrences + x.occurrences ≤
        start + returnedCount s) (draw : Draw) :
    Broken fingerprint source start
      ⟨commitBump s.tickets r draw, Function.update s.phase i .returned⟩ := by
  have hreturned : returnedCount
      ⟨commitBump s.tickets r draw, Function.update s.phase i .returned⟩ =
        returnedCount s + 1 := returnedCount_return (by rw [hi]; rfl)
  obtain ⟨t', ht', hid', hmatch', hcount, htotal, hopen⟩ :=
    commitBump_spec draw hids ht hmatch hid
  refine ⟨by rw [ids_commitBump]; exact hids, Or.inr ?_⟩
  refine ⟨hopen.trans hone, t', ht', hmatch', ?_, ?_⟩
  · rw [hreturned, htotal]
    omega
  · intro j x hj
    rcases phase_update hj with ⟨_, he⟩ | ⟨_, hj⟩
    · cases he
    · obtain ⟨hxid, hx⟩ := hheld j x hj
      refine ⟨hxid.trans hid'.symm, ?_⟩
      rw [hreturned, htotal, hcount]
      omega

/-- Writing back a stale read loses a count or opens a second ticket. -/
theorem broken_of_stale {start : Int} {schedule : List (DbStep ι)} {s : Sessions ι}
    (hkey : SameKey fingerprint source calls)
    (h : Clean fingerprint source calls start schedule s) {i : ι}
    {existing : Option Ticket} (hi : s.phase i = .selected existing)
    (hstale : Stale schedule i) {tickets : List Ticket}
    (hcommit : commitCall s.tickets existing (calls i).1.fields (calls i).2 = .ok tickets) :
    Broken fingerprint source start
      ⟨tickets, Function.update s.phase i .returned⟩ := by
  obtain ⟨t, ht, hmatch, hstaleRead⟩ := h.stale i existing hi hstale
  have hopened := openCount_pos ht hmatch
  rcases existing with _ | r
  · exact broken_insert hkey h.ids hopened hcommit _
  · obtain rfl := Except.ok.inj hcommit
    obtain ⟨hid, hr⟩ := hstaleRead r rfl
    have htotal := h.total
    apply broken_bump h.ids (le_antisymm h.one hopened) ht hmatch hi hid
    · omega
    · intro j x hj
      obtain ⟨hxid, hx⟩ := h.held hkey ht hmatch hj
      exact ⟨hxid, by omega⟩

theorem broken_select {start : Int} {s : Sessions ι}
    (hkey : SameKey fingerprint source calls) (h : Broken fingerprint source start s)
    {i : ι} {existing : Option Ticket} (hpending : s.phase i = .pending)
    (hselect : Selects s.tickets (calls i).1.fields existing) :
    Broken fingerprint source start
      ⟨s.tickets, Function.update s.phase i (.selected existing)⟩ := by
  have hcount : returnedCount ⟨s.tickets, Function.update s.phase i (.selected existing)⟩ =
      returnedCount s := returnedCount_select _ (by rw [hpending]; rfl)
  refine ⟨h.ids, ?_⟩
  rcases h.lost with htwo | ⟨hone, t, ht, hmatch, hless, hheld⟩
  · exact Or.inl htwo
  · right
    refine ⟨hone, t, ht, hmatch, by rw [hcount]; exact hless, ?_⟩
    intro j r hj
    rw [hcount]
    rcases phase_update hj with ⟨_, he⟩ | ⟨_, hj⟩
    · obtain rfl := Phase.selected.inj he
      obtain ⟨hr, hrmatch⟩ := hkey.selects_some hselect
      obtain rfl := open_unique hone.le ht hr hmatch hrmatch
      exact ⟨rfl, by simpa using hless⟩
    · exact hheld j r hj

theorem broken_commit {start : Int} {s : Sessions ι}
    (hkey : SameKey fingerprint source calls) (h : Broken fingerprint source start s)
    {i : ι} {existing : Option Ticket} (hi : s.phase i = .selected existing)
    {tickets : List Ticket}
    (hcommit : commitCall s.tickets existing (calls i).1.fields (calls i).2 = .ok tickets) :
    Broken fingerprint source start ⟨tickets, Function.update s.phase i .returned⟩ := by
  rcases existing with _ | r
  · have hopened : 1 ≤ openCount fingerprint source s.tickets := by
      rcases h.lost with htwo | ⟨hone, _⟩
      · omega
      · exact hone.ge
    exact broken_insert hkey h.ids hopened hcommit _
  · obtain rfl := Except.ok.inj hcommit
    rcases h.lost with htwo | ⟨hone, t, ht, hmatch, _, hheld⟩
    · refine ⟨by rw [ids_commitBump]; exact h.ids, Or.inl ?_⟩
      rw [openCount_commitBump]
      exact htwo
    · obtain ⟨hid, hr⟩ := hheld i r hi
      apply broken_bump h.ids hone ht hmatch hi hid hr
      intro j x hj
      obtain ⟨hxid, hx⟩ := hheld j x hj
      exact ⟨hxid, hx.le⟩

/-! ### Whole interleavings -/

omit [Fintype ι] in
/-- What a schedule says about the calls: a call that has read stands in it, a
pending one does not. -/
theorem Interleaving.reads {tickets : List Ticket} {schedule : List (DbStep ι)}
    {s : Sessions ι} (hrun : Interleaving calls tickets schedule s) :
    (∀ i, s.phase i = .pending → .select i ∉ schedule) ∧
      ∀ i existing, s.phase i = .selected existing → .select i ∈ schedule := by
  induction hrun with
  | start => exact ⟨fun i _ => List.not_mem_nil, fun i existing hi => by cases hi⟩
  | @step schedule s s' e hrun hstep ih =>
      -- Only the step's own call changes its phase, and it leaves `pending`.
      have hmoved : ∀ {i : ι} {p : Phase} {e : DbStep ι},
          (e = .select i ∨ ∀ existing, p ≠ .selected existing) → p ≠ .pending →
          (e = .select i ∨ e = .commit i) →
          (∀ j, Function.update s.phase i p j = .pending → .select j ∉ schedule ++ [e]) ∧
            ∀ j existing, Function.update s.phase i p j = .selected existing →
              .select j ∈ schedule ++ [e] := by
        intro i p e hread hp he
        constructor
        · intro j hj
          rcases phase_update hj with ⟨_, hpj⟩ | ⟨hji, hj⟩
          · exact absurd hpj hp
          · rcases he with rfl | rfl <;> simp [ih.1 j hj, hji]
        · intro j existing hj
          rcases phase_update hj with ⟨rfl, hpj⟩ | ⟨_, hj⟩
          · rcases hread with rfl | hread
            · simp
            · exact absurd hpj (hread existing)
          · exact List.mem_append_left _ (ih.2 j existing hj)
      cases hstep with
      | select _ _ => exact hmoved (Or.inl rfl) (by simp) (Or.inl rfl)
      | commit _ _ => exact hmoved (Or.inr (by simp)) (by simp) (Or.inr rfl)
      | fail _ _ => exact hmoved (Or.inr (by simp)) (by simp) (Or.inr rfl)

omit [Fintype ι] in
theorem no_failure_before {phase : ι → Phase} {i : ι} {p : Phase}
    (hi : ∀ exc, phase i ≠ .failed exc)
    (h : ∀ j exc, Function.update phase i p j ≠ .failed exc) :
    ∀ j exc, phase j ≠ .failed exc := by
  intro j exc hj
  by_cases hji : j = i
  · exact hi exc (hji ▸ hj)
  · exact h j exc (by rw [Function.update_of_ne hji, hj])

/-- As long as no call failed, a schedule is undisturbed and the sessions clean,
or it is disturbed and they are broken. -/
theorem Interleaving.clean_or_broken (hkey : SameKey fingerprint source calls)
    {tickets : List Ticket} (hids : (tickets.map Ticket.id).Nodup)
    (hone : openCount fingerprint source tickets ≤ 1) {schedule : List (DbStep ι)}
    {s : Sessions ι} (hrun : Interleaving calls tickets schedule s)
    (hfailed : ∀ i exc, s.phase i ≠ .failed exc) :
    (Undisturbed schedule ∧
      Clean fingerprint source calls (keyTotal fingerprint source tickets) schedule s) ∨
    (¬ Undisturbed schedule ∧
      Broken fingerprint source (keyTotal fingerprint source tickets) s) := by
  induction hrun with
  | start =>
      left
      refine ⟨?_, hids, hone, ?_, ?_, ?_⟩
      · intro before between rest i j h
        simp at h
      · simp [returnedCount, Phase.isReturned]
      · intro i existing hi
        cases hi
      · intro i existing hi
        cases hi
  | @step schedule s s' e hrun hstep ih =>
      obtain ⟨hpendings, hreads⟩ := hrun.reads
      cases hstep with
      | @select i existing hpending hselect =>
          have hbefore := no_failure_before (by rw [hpending]; simp) hfailed
          rw [undisturbed_append_select]
          rcases ih hbefore with ⟨hundisturbed, hclean⟩ | ⟨hdisturbed, hbroken⟩
          · exact Or.inl ⟨hundisturbed,
              clean_select hclean hpending (hpendings i hpending) hselect⟩
          · exact Or.inr ⟨hdisturbed, broken_select hkey hbroken hpending hselect⟩
      | @commit i existing rows hselected hcommit =>
          have hbefore := no_failure_before (by rw [hselected]; simp) hfailed
          rw [undisturbed_append_commit]
          rcases ih hbefore with ⟨hundisturbed, hclean⟩ | ⟨hdisturbed, hbroken⟩
          · by_cases hstale : Stale schedule i
            · exact Or.inr ⟨fun h => h.2 hstale,
                broken_of_stale hkey hclean hselected hstale hcommit⟩
            · exact Or.inl ⟨⟨hundisturbed, hstale⟩,
                clean_commit hkey hreads hclean hselected hstale hcommit⟩
          · exact Or.inr ⟨fun h => hdisturbed h.1,
              broken_commit hkey hbroken hselected hcommit⟩
      | @fail i existing exc hselected hcommit =>
          exact absurd (Function.update_self i _ s.phase) (hfailed i exc)

/-- When every call has returned there is one open ticket at most and every call
was counted, exactly if no call committed between the two steps of another. -/
theorem concurrent_reports_iff (hkey : SameKey fingerprint source calls)
    {tickets : List Ticket} (hids : (tickets.map Ticket.id).Nodup)
    (hone : openCount fingerprint source tickets ≤ 1) {schedule : List (DbStep ι)}
    {s : Sessions ι} (hrun : Interleaving calls tickets schedule s)
    (hreturned : ∀ i, s.phase i = .returned) :
    (openCount fingerprint source s.tickets ≤ 1 ∧
      keyTotal fingerprint source s.tickets =
        keyTotal fingerprint source tickets + Fintype.card ι) ↔
    Undisturbed schedule := by
  have hcount := returnedCount_all hreturned
  have hfailed : ∀ i exc, s.phase i ≠ .failed exc := by
    intro i exc hi
    rw [hreturned i] at hi
    cases hi
  rcases hrun.clean_or_broken hkey hids hone hfailed with
    ⟨hundisturbed, hclean⟩ | ⟨hdisturbed, hbroken⟩
  · exact iff_of_true ⟨hclean.one, hcount ▸ hclean.total⟩ hundisturbed
  · refine iff_of_false ?_ hdisturbed
    rintro ⟨honeEnd, htotalEnd⟩
    rcases hbroken.lost with htwo | ⟨_, _, _, _, hless, _⟩
    · omega
    · rw [hcount] at hless
      omega

end

/-! ### Two reports of one fingerprint -/

def twoReports : Bool → FilingCall × Draw
  | false => firstReport
  | true => secondReport

/-- One call after the other. -/
def inTurn : List (DbStep Bool) :=
  [.select false, .commit false, .select true, .commit true]

/-- Both calls read before either commits. -/
def together : List (DbStep Bool) :=
  [.select false, .select true, .commit false, .commit true]

theorem twoReports_sameKey : SameKey "f" "web" twoReports where
  nonempty := by decide
  fingerprint i := by cases i <;> rfl
  source i := by cases i <;> rfl

theorem undisturbed_inTurn : Undisturbed inTurn := by
  have hsplit : inTurn =
      (([] ++ [.select false] ++ [.commit false]) ++ [.select true]) ++ [.commit true] := rfl
  have hnil : Undisturbed ([] : List (DbStep Bool)) := by
    intro before between rest i j h
    simp at h
  rw [hsplit, undisturbed_append_commit, undisturbed_append_select,
    undisturbed_append_commit, undisturbed_append_select]
  exact ⟨⟨hnil, not_stale_of_not_mem List.not_mem_nil⟩,
    not_stale_of_not_mem (by simp)⟩

def firstTicket : Ticket := newTicket firstReport.1.fields firstReport.2

def secondTicket : Ticket := newTicket secondReport.1.fields secondReport.2

theorem selects_empty (i : Bool) : Selects [] (twoReports i).1.fields none := by
  refine ⟨"f", twoReports_sameKey.fingerprint i, twoReports_sameKey.nonempty, ?_⟩
  simp

theorem commit_first :
    commitCall [] none (twoReports false).1.fields (twoReports false).2 =
      .ok [firstTicket] := by
  decide +kernel

/-- In turn, the second report is merged into the ticket of the first. -/
theorem concurrent_reports_inTurn :
    ∃ s : Sessions Bool, Interleaving twoReports [] inTurn s ∧
      openCount "f" "web" s.tickets ≤ 1 ∧
      keyTotal "f" "web" s.tickets = keyTotal "f" "web" [] + Fintype.card Bool := by
  have hselect : Selects [firstTicket] (twoReports true).1.fields (some firstTicket) := by
    refine ⟨"f", twoReports_sameKey.fingerprint true, twoReports_sameKey.nonempty, ?_⟩
    exact ⟨by simp, by decide +kernel, by simp⟩
  have hrun : Interleaving twoReports [] inTurn _ :=
    .step (.step (.step (.step .start
      (.select (i := false) rfl (selects_empty false)))
      (.commit (i := false) rfl commit_first))
      (.select (i := true) rfl hselect))
      (.commit (i := true) rfl rfl)
  have h := concurrent_reports_iff twoReports_sameKey (by simp) (by decide) hrun
    (by intro i; cases i <;> rfl)
  exact ⟨_, hrun, h.mpr undisturbed_inTurn⟩

/-- Together, both reports open a ticket. -/
theorem concurrent_reports_together :
    ∃ s : Sessions Bool, Interleaving twoReports [] together s ∧
      SameKey "f" "web" twoReports ∧ (∀ i, s.phase i = .returned) ∧
      ¬ (openCount "f" "web" s.tickets ≤ 1 ∧
        keyTotal "f" "web" s.tickets = keyTotal "f" "web" [] + Fintype.card Bool) := by
  have hcommit : commitCall [firstTicket] none (twoReports true).1.fields
      (twoReports true).2 = .ok [firstTicket, secondTicket] := by decide +kernel
  refine ⟨_, .step (.step (.step (.step .start
    (.select (i := false) rfl (selects_empty false)))
    (.select (i := true) rfl (selects_empty true)))
    (.commit (i := false) rfl commit_first))
    (.commit (i := true) rfl hcommit), twoReports_sameKey, ?_, ?_⟩
  · intro i
    cases i <;> rfl
  · decide +kernel

end NetplexSupport
