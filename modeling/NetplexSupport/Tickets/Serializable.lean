/-
Concurrent reports of any kind.  The calls of separate sessions leave the table
that they leave one at a time, in the order of their commits, as long as no report
of the same crash from the same intake commits between the two steps of a call.
Reports of other crashes, of other intakes and without a fingerprint never get in
its way.
-/
import NetplexSupport.Tickets.Concurrent
import NetplexSupport.Transition.Serial

namespace NetplexSupport

open Py

variable {ι : Type}

/-- The two steps of the calls.  A report without a fingerprint asks nothing. -/
def filings (calls : ι → FilingCall × Draw) :
    Transition.TwoStep ι (List Ticket) (Option Ticket) (Except Exc Unit) where
  Reads i tickets existing :=
    if (calls i).1.fields.fingerprint.getD [] = [] then existing = none
    else Selects tickets (calls i).1.fields existing
  read i tickets := existingFor tickets (calls i).1.fields
  write i existing tickets :=
    match commitCall tickets existing (calls i).1.fields (calls i).2 with
    | .ok rows => (rows, .ok ())
    | .error exc => (tickets, .error exc)

/-- Two reports of one crash from one intake. -/
def SameCrash (calls : ι → FilingCall × Draw) (i j : ι) : Prop :=
  (calls i).1.fields.fingerprint.getD [] ≠ [] ∧
    (calls i).1.fields.fingerprint = (calls j).1.fields.fingerprint ∧
    (calls i).1.fields.source = (calls j).1.fields.source

/-! ### The steps -/

/-- A call that runs alone is a sequential one. -/
theorem filings_alone (calls : ι → FilingCall × Draw) (tickets : List Ticket) (i : ι) :
    (filings calls).alone tickets i =
      ((fileStep tickets (calls i)).1, (fileStep tickets (calls i)).2.map fun _ => ()) := by
  simp only [Transition.TwoStep.alone, filings, fileStep, commitCall_existingFor]
  rcases createOrDedupe tickets (calls i).1.fields (calls i).2 with exc | ⟨t, rows⟩
  · rfl
  · rfl

/-- Where a key has one open ticket, its query has one answer. -/
theorem selects_unique {tickets : List Ticket} {fields : Fields}
    (hone : ∀ fingerprint, fingerprint ≠ [] → ∀ source,
      openCount fingerprint source tickets ≤ 1)
    {existing existing' : Option Ticket} (h : Selects tickets fields existing)
    (h' : Selects tickets fields existing') : existing = existing' := by
  obtain ⟨fingerprint, hfingerprint, hne, hfound⟩ := h
  obtain ⟨fingerprint', hfingerprint', _, hfound'⟩ := h'
  obtain rfl : fingerprint = fingerprint' :=
    Option.some.inj (hfingerprint.symm.trans hfingerprint')
  rcases existing with _ | t
  · rcases existing' with _ | t'
    · rfl
    · have hnot := hfound t' hfound'.1
      rw [hfound'.2.1] at hnot
      cases hnot
  · rcases existing' with _ | t'
    · have hnot := hfound' t hfound.1
      rw [hfound.2.1] at hnot
      cases hnot
    · exact congrArg some (open_unique (hone fingerprint hne _) hfound.1 hfound'.1
        hfound.2.1 hfound'.2.1)

/-- A report leaves the open tickets of other keys alone. -/
theorem Filing.filter_matching {tickets rows : List Ticket} {fields : Fields} {draw : Draw}
    {t : Ticket} (h : Filing tickets fields draw t rows) {fingerprint source : Str}
    (hother : ¬ (fields.fingerprint = some fingerprint ∧ fields.source = source)) :
    rows.filter (Ticket.matching fingerprint source) =
      tickets.filter (Ticket.matching fingerprint source) := by
  have hskip : ∀ row : Ticket, row.fingerprint = fields.fingerprint →
      row.source = fields.source → row.matching fingerprint source = false := by
    intro row hfp hsource
    rw [Bool.eq_false_iff]
    intro hmatch
    obtain ⟨hfp', hsource', _⟩ := matching_iff.mp hmatch
    exact hother ⟨hfp.symm.trans hfp', hsource.symm.trans hsource'⟩
  rcases h with @⟨pre, post, existing, rfl, hexisting⟩ | ⟨_, _⟩
  · obtain ⟨fp, hfp, _, hmatch⟩ := matching_existingFor hexisting
    obtain ⟨hfp', hsource, _⟩ := matching_iff.mp hmatch
    have hno := hskip existing (hfp'.trans hfp.symm) hsource
    have hno' : (bumped existing draw).matching fingerprint source = false := hno
    simp [hno, hno']
  · have hno := hskip (newTicket fields draw) rfl rfl
    simp [List.filter_append, hno]

/-- The table between two commits: what the calls to come need of it. -/
structure Tracked (calls : ι → FilingCall × Draw) (start : Int) (past : List ι)
    (tickets : List Ticket) : Prop where
  ids : (tickets.map Ticket.id).Nodup
  one : ∀ fingerprint, fingerprint ≠ [] → ∀ source, openCount fingerprint source tickets ≤ 1
  fresh : ∀ i ∉ past, (calls i).2.ticketId ∉ tickets.map Ticket.id
  total : (tickets.map Ticket.occurrences).sum = start + past.length

section

variable {calls : ι → FilingCall × Draw} {start : Int} {past : List ι} {tickets : List Ticket}
  {i : ι}

/-- A call to come reads what it would read alone. -/
theorem Tracked.reads (h : Tracked calls start past tickets) {existing : Option Ticket}
    (hreads : (filings calls).Reads i tickets existing) :
    existing = (filings calls).read i tickets := by
  simp only [filings] at hreads ⊢
  rcases hfingerprint : (calls i).1.fields.fingerprint with _ | fingerprint
  · rw [if_pos (by rw [hfingerprint]; rfl)] at hreads
    rw [hreads, existingFor, hfingerprint]
  · by_cases hne : fingerprint = []
    · rw [if_pos (by rw [hfingerprint]; exact hne)] at hreads
      rw [hreads, existingFor, hfingerprint]
      simp [hne]
    · rw [if_neg (by rw [hfingerprint]; exact hne)] at hreads
      exact selects_unique h.one hreads (selects_existingFor hfingerprint hne)

/-- A call to come files its report. -/
theorem Tracked.files (h : Tracked calls start past tickets) (hi : i ∉ past) :
    ∃ t rows, fileStep tickets (calls i) = (rows, .ok t) ∧
      Filing tickets (calls i).1.fields (calls i).2 t rows := by
  rcases createOrDedupe_cases (calls i).1.fields h.ids (h.fresh i hi) with
    ⟨_, _, _, _, _, _, _, _, hcall⟩ | ⟨_, hcall⟩
  · exact ⟨_, _, by simp only [fileStep, hcall], filing_of_createOrDedupe h.ids hcall⟩
  · exact ⟨_, _, by simp only [fileStep, hcall], filing_of_createOrDedupe h.ids hcall⟩

theorem Filing.openCount_le {rows : List Ticket} {fields : Fields} {draw : Draw} {t : Ticket}
    (h : Filing tickets fields draw t rows) {fingerprint source : Str}
    (hne : fingerprint ≠ []) (hone : openCount fingerprint source tickets ≤ 1) :
    openCount fingerprint source rows ≤ 1 := by
  by_cases hkey : fields.fingerprint = some fingerprint ∧ fields.source = source
  · obtain ⟨hfingerprint, rfl⟩ := hkey
    rcases h with @⟨pre, post, existing, rfl, hexisting⟩ | ⟨hnone, _⟩
    · by_cases hmatch : existing.matching fingerprint fields.source = true
      · simpa [openCount, hmatch] using hone
      · simpa [openCount, hmatch] using hone
    · rw [openCount, List.filter_append, filter_of_existingFor_none hnone hne hfingerprint]
      exact List.length_filter_le _ [newTicket fields draw]
  · rw [openCount, h.filter_matching hkey]
    exact hone

/-- A report is counted once. -/
theorem Filing.total {rows : List Ticket} {fields : Fields} {draw : Draw} {t : Ticket}
    (h : Filing tickets fields draw t rows) (hone : fields.occurrences = 1) :
    (rows.map Ticket.occurrences).sum = (tickets.map Ticket.occurrences).sum + 1 := by
  rcases h with @⟨pre, post, existing, rfl, _⟩ | ⟨_, _⟩
  · have hcount : (bumped existing draw).occurrences = existing.occurrences + 1 := rfl
    simp only [List.map_append, List.map_cons, List.sum_append, List.sum_cons, hcount]
    omega
  · have hcount : (newTicket fields draw).occurrences = 1 := hone
    simp [hcount]

/-- It leaves what the other calls need. -/
theorem Tracked.step (h : Tracked calls start past tickets)
    (hdistinct : Function.Injective fun i => (calls i).2.ticketId) (hi : i ∉ past) :
    Tracked calls start (past ++ [i]) ((filings calls).alone tickets i).1 := by
  obtain ⟨t, rows, hstep, hfiling⟩ := h.files hi
  rw [filings_alone, hstep]
  refine ⟨hfiling.nodup h.ids,
    fun fingerprint hne source => hfiling.openCount_le hne (h.one fingerprint hne source),
    fun j hj => ?_, ?_⟩
  · rw [List.mem_append, List.mem_singleton, not_or] at hj
    rcases hfiling.ids with hsame | ⟨_, hadded⟩
    · rw [hsame]
      exact h.fresh j hj.1
    · rw [hadded, List.mem_append, List.mem_singleton, not_or]
      exact ⟨h.fresh j hj.1, fun hid => hj.2 (hdistinct hid)⟩
  · rw [hfiling.total (calls i).1.fields_fresh.2, h.total, List.length_append,
      List.length_singleton, Nat.cast_add, Nat.cast_one, add_assoc]

/-- A report of another crash does not change what a call reads. -/
theorem Tracked.keeps (h : Tracked calls start past tickets) {j : ι} (hj : j ∉ past)
    (hother : ¬ SameCrash calls i j) :
    (filings calls).read i ((filings calls).alone tickets j).1 =
      (filings calls).read i tickets := by
  obtain ⟨t, rows, hstep, hfiling⟩ := h.files hj
  rw [filings_alone, hstep]
  simp only [filings, existingFor]
  rcases hfingerprint : (calls i).1.fields.fingerprint with _ | fingerprint
  · rfl
  · by_cases hne : fingerprint = []
    · simp [hne]
    · have hkey : ¬ ((calls j).1.fields.fingerprint = some fingerprint ∧
          (calls j).1.fields.source = (calls i).1.fields.source) := by
        rintro ⟨hfp, hsource⟩
        exact hother ⟨by rw [hfingerprint]; exact hne, hfingerprint.trans hfp.symm,
          hsource.symm⟩
      simp only [selectOpen, hfiling.filter_matching hkey]

end

/-! ### Schedules -/

theorem after_filings (calls : ι → FilingCall × Draw) (tickets : List Ticket)
    (order : List ι) : Transition.after (filings calls).alone tickets order =
      Transition.after fileStep tickets (order.map calls) := by
  induction order generalizing tickets with
  | nil => rfl
  | cons i order ih =>
      rw [Transition.after_cons, ih, filings_alone, List.map_cons, Transition.after_cons]

/-- For every finite or infinite family of calls of any kind and every schedule of
their two steps in which no report of the same crash from the same intake commits
between the steps of a call: the table is the one that the calls leave that have
committed, run one at a time in the order of their commits, each of them is counted
once, and none of them failed. -/
theorem reports_serialize [DecidableEq ι] {calls : ι → FilingCall × Draw}
    {tickets : List Ticket} (hids : (tickets.map Ticket.id).Nodup)
    (hone : ∀ fingerprint, fingerprint ≠ [] → ∀ source,
      openCount fingerprint source tickets ≤ 1)
    (hfresh : ∀ i, (calls i).2.ticketId ∉ tickets.map Ticket.id)
    (hdistinct : Function.Injective fun i => (calls i).2.ticketId)
    {schedule : List (Transition.Access ι)} {rows : List Ticket}
    {stage : ι → Transition.Stage (Option Ticket) (Except Exc Unit)}
    (hrun : Transition.Interleaves (filings calls) tickets schedule rows stage)
    (hapart : Transition.Apart (SameCrash calls) schedule) :
    rows = Transition.after fileStep tickets ((Transition.written schedule).map calls) ∧
      (rows.map Ticket.occurrences).sum =
        (tickets.map Ticket.occurrences).sum + (Transition.written schedule).length ∧
      ∀ i exc, stage i ≠ .answered (.error exc) := by
  have hread : ∀ past s i existing,
      Tracked calls (tickets.map Ticket.occurrences).sum past s →
      (filings calls).Reads i s existing → existing = (filings calls).read i s :=
    fun _ _ _ _ h hreads => h.reads hreads
  obtain ⟨hrows, htotal, hanswers⟩ := hrun.serial hread (fun _ _ _ h hi => h.step hdistinct hi)
    (fun _ _ _ _ h hj hother => h.keeps hj hother)
    ⟨hids, hone, fun i _ => hfresh i, by simp⟩ hapart
  refine ⟨hrows.trans (after_filings calls tickets _), htotal.total, fun i exc hi => ?_⟩
  obtain ⟨past, _, _, hnew, htracked, hfailed⟩ := hanswers i _ hi
  obtain ⟨t, rows', hstep, _⟩ := htracked.files hnew
  rw [filings_alone, hstep] at hfailed
  cases hfailed

/-- Two reports of different crashes. -/
def apartReports : Bool → FilingCall × Draw
  | false => firstReport
  | true => (.web { title := "other", fingerprint := some "g" },
      ⟨"SUP-000000000004", 40, 40, 40⟩)

/-- Both read before either commits. -/
theorem reports_serialize_apart :
    ∃ rows stage, Transition.Interleaves (filings apartReports) []
        [.read false, .read true, .write false, .write true] rows stage ∧
      rows = Transition.after fileStep [] [apartReports false, apartReports true] ∧
      (rows.map Ticket.occurrences).sum = 2 := by
  have hnone : ∀ i, (filings apartReports).Reads i [] none := by
    intro i
    have hkeyed : (apartReports i).1.fields.fingerprint.getD [] ≠ [] := by
      cases i <;> decide +kernel
    simp only [filings, if_neg hkeyed]
    cases i
    · exact ⟨"f", rfl, by decide, by simp⟩
    · exact ⟨"g", rfl, by decide, by simp⟩
  have hrun := Transition.Interleaves.write (.write (.read
    (.read .nil (i := false) rfl (hnone false)) (i := true) rfl (hnone true))
    (i := false) rfl) (i := true) rfl
  have hother : ¬ SameCrash apartReports true false := by
    rintro ⟨_, hfingerprint, _⟩
    exact absurd hfingerprint (by decide +kernel)
  have hapart : Transition.Apart (SameCrash apartReports)
      [.read false, .read true, .write false, .write true] :=
    (((Transition.Apart.nil _).read false |>.read true).write
      (Transition.undisturbed_of_forall (by simp))).write
      (Transition.undisturbed_of_forall (by simpa using hother))
  obtain ⟨hrows, htotal, _⟩ := reports_serialize (by simp) (by simp [openCount]) (by simp)
    (by decide +kernel) hrun hapart
  exact ⟨_, _, hrun, hrows, htotal⟩

end NetplexSupport
