/-
The parts of the application.  Three intakes, the public verification and the two
registries share one process and one database; each has tickets, limiter keys or
a table of its own.  An intake reads and writes what its own part keeps.
-/
import NetplexSupport.App.Calls
import NetplexSupport.Tickets.Isolation

namespace NetplexSupport

open Py

inductive Part where
  | forward
  | web
  | email
  | verify
  | licences
  | releases
deriving DecidableEq

/-- The `source` of the part's tickets. -/
def Part.source : Part → Option Str
  | .forward => some (Str.ofString "forward")
  | .web => some (Str.ofString "web")
  | .email => some (Str.ofString "email")
  | .verify | .licences | .releases => none

/-- What the part's limiter keys start with. -/
def Part.keyPrefix : Part → Option Str
  | .forward => some (Str.ofString "fwd:")
  | .web => some (Str.ofString "web:")
  | .email => some (Str.ofString "email:")
  | .verify => some (Str.ofString "license-verify:")
  | .licences | .releases => none

def parts : List Part := [.forward, .web, .email, .verify, .licences, .releases]

/-- Tickets of this source belong to a part of `Q`. -/
def seesSource (Q : Part → Bool) (source : Str) : Bool :=
  parts.any fun p => Q p && decide (p.source = some source)

/-- A limiter key of a part of `Q`. -/
def SeesKey (Q : Part → Bool) (key : Str) : Prop :=
  ∃ p start, Q p = true ∧ p.keyPrefix = some start ∧ start <+: key

theorem seesSource_eq {p : Part} {source : Str} (h : p.source = some source)
    (Q : Part → Bool) : seesSource Q source = Q p := by
  have hother : ∀ p' : Part, decide (p'.source = some source) = decide (p' = p) ∨
      p'.source = none := by
    intro p'
    cases p <;> cases h <;> cases p' <;> decide
  have hnone : ∀ p' : Part, p'.source = none → decide (p'.source = some source) = false := by
    intro p' hp'
    rw [hp']
    rfl
  rw [Bool.eq_iff_iff, seesSource, List.any_eq_true]
  constructor
  · rintro ⟨p', _, hp'⟩
    rw [Bool.and_eq_true] at hp'
    rcases hother p' with heq | hnot
    · rw [heq, decide_eq_true_eq] at hp'
      exact hp'.2 ▸ hp'.1
    · rw [hnone p' hnot] at hp'
      exact absurd hp'.2 Bool.false_ne_true
  · intro hQ
    refine ⟨p, by cases p <;> decide, ?_⟩
    rw [hQ, h]
    simp

/-- No key belongs to two parts. -/
theorem seesKey_iff {p : Part} {start key : Str} (h : p.keyPrefix = some start)
    (hkey : start <+: key) (Q : Part → Bool) : SeesKey Q key ↔ Q p = true := by
  constructor
  · rintro ⟨p', start', hQ, h', hkey'⟩
    have hcomparable := List.prefix_or_prefix_of_prefix hkey hkey'
    have hsame : ∀ p p' : Part, ∀ a ∈ p.keyPrefix, ∀ b ∈ p'.keyPrefix,
        a <+: b ∨ b <+: a → p = p' := by
      intro p p'
      cases p <;> cases p' <;> decide
    rw [hsame p p' start h start' h' hcomparable]
    exact hQ
  · intro hQ
    exact ⟨p, start, hQ, h, hkey⟩

/-- The part that a call behind a gate concerns, when it opens. -/
def behind (gate : Except Failure Unit) (p : Part) : Option Part :=
  if gate.isOk then some p else none

def Intake.part (settings : Settings) (e : Intake) : Option Part :=
  match e.report with
  | .forward _ => behind (requireForwardAuth settings e.arrival.request) .forward
  | .web _ => some .web
  | .email _ => behind (requireEmailAuth settings e.arrival.request) .email

/-! ### What the application keeps for some parts -/

/-- The tickets of some parts. -/
def ticketsOf (Q : Part → Bool) (tickets : List Ticket) : List Ticket :=
  tickets.filter fun t => seesSource Q t.source

/-- Two services that keep the same for the parts of `Q`. -/
structure SameService (Q : Part → Bool) (s s' : Service) : Prop where
  tickets : ticketsOf Q s.tickets = ticketsOf Q s'.tickets
  hits : ∀ key, SeesKey Q key → s.hits key = s'.hits key

theorem SameService.refl (Q : Part → Bool) (s : Service) : SameService Q s s :=
  ⟨rfl, fun _ _ => rfl⟩

theorem SameService.trans {Q : Part → Bool} {s₁ s₂ s₃ : Service}
    (h : SameService Q s₁ s₂) (h' : SameService Q s₂ s₃) : SameService Q s₁ s₃ :=
  ⟨h.tickets.trans h'.tickets, fun key hkey => (h.hits key hkey).trans (h'.hits key hkey)⟩

/-! ### Filing a report -/

/-- A report finds its ticket among those of its part. -/
theorem existingFor_ticketsOf {Q : Part → Bool} (tickets : List Ticket) {fields : Fields}
    (hsees : seesSource Q fields.source = true) :
    existingFor (ticketsOf Q tickets) fields = existingFor tickets fields := by
  unfold existingFor
  rcases fields.fingerprint with _ | fingerprint
  · rfl
  · have hfilter : (ticketsOf Q tickets).filter (Ticket.matching fingerprint fields.source) =
        tickets.filter (Ticket.matching fingerprint fields.source) := by
      rw [ticketsOf, List.filter_filter]
      apply List.filter_congr
      intro t _
      rw [Bool.and_eq_left_iff_imp]
      intro ht
      rw [(matching_iff.mp ht).2.1, hsees]
    simp only [selectOpen, hfilter]

theorem ticketsOf_commitBump (Q : Part → Bool) (tickets : List Ticket) (existing : Ticket)
    (draw : Draw) :
    ticketsOf Q (commitBump tickets existing draw) =
      commitBump (ticketsOf Q tickets) existing draw := by
  simp only [ticketsOf, commitBump, Sql.update, List.filter_map]
  congr 1
  apply List.filter_congr
  intro t _
  rw [Function.comp_apply]
  by_cases hid : t.id = existing.id
  · rw [if_pos hid]
    rfl
  · rw [if_neg hid]

/-- A report of the part is filed among its tickets as in the whole table. -/
theorem createOrDedupe_ticketsOf {Q : Part → Bool} {tickets : List Ticket} {fields : Fields}
    {draw : Draw} (hfresh : draw.ticketId ∉ tickets.map Ticket.id)
    (hsees : seesSource Q fields.source = true) :
    ∃ t rows, createOrDedupe tickets fields draw = .ok (t, rows) ∧
      createOrDedupe (ticketsOf Q tickets) fields draw = .ok (t, ticketsOf Q rows) := by
  have hexisting := existingFor_ticketsOf tickets hsees
  rcases hfound : existingFor tickets fields with _ | existing
  · have hsome : ∀ rows : List Ticket, draw.ticketId ∉ rows.map Ticket.id →
        commitInsert rows (newTicket fields draw) = .ok (rows ++ [newTicket fields draw]) := by
      intro rows hrows
      rw [commitInsert, Sql.insert_eq_some_iff.mpr ⟨hrows, rfl⟩]
    have hsub : draw.ticketId ∉ (ticketsOf Q tickets).map Ticket.id :=
      fun hmem => hfresh (List.map_subset _ (List.filter_sublist.subset) hmem)
    have hnew : ticketsOf Q [newTicket fields draw] = [newTicket fields draw] :=
      List.filter_eq_self.mpr fun t ht => List.mem_singleton.mp ht ▸ hsees
    refine ⟨newTicket fields draw, tickets ++ [newTicket fields draw], ?_, ?_⟩
    · rw [createOrDedupe, hfound]
      simp only [hsome tickets hfresh]
      rfl
    · rw [createOrDedupe, hexisting, hfound]
      have happend : ticketsOf Q (tickets ++ [newTicket fields draw]) =
          ticketsOf Q tickets ++ [newTicket fields draw] := by
        rw [ticketsOf, List.filter_append]
        exact congrArg (ticketsOf Q tickets ++ ·) hnew
      simp only [hsome _ hsub, happend]
      rfl
  · refine ⟨flush existing (bump existing draw.now) draw.updatedAt existing,
      commitBump tickets existing draw, ?_, ?_⟩
    · rw [createOrDedupe, hfound]
    · rw [createOrDedupe, hexisting, hfound, ticketsOf_commitBump]

/-- A report of another part leaves them alone. -/
theorem createOrDedupe_unseen {Q : Part → Bool} {tickets rows : List Ticket}
    {fields : Fields} {draw : Draw} {t : Ticket} (hids : (tickets.map Ticket.id).Nodup)
    (hcall : createOrDedupe tickets fields draw = .ok (t, rows))
    (hunseen : seesSource Q fields.source = false) :
    ticketsOf Q rows = ticketsOf Q tickets := by
  rcases filing_of_createOrDedupe hids hcall with
    @⟨pre, post, existing, rfl, hexisting⟩ | ⟨_, _⟩
  · have hsource : seesSource Q existing.source = false := by
      obtain ⟨fingerprint, _, _, hselect⟩ := existingFor_eq_some hexisting
      have hmatch := (List.mem_filter.mp (Sql.firstBy_mem hselect)).2
      rw [(matching_iff.mp hmatch).2.1]
      exact hunseen
    have hbumped : seesSource Q (bumped existing draw).source = false := hsource
    have hskip : ∀ t, seesSource Q t.source = false →
        ticketsOf Q (pre ++ t :: post) = ticketsOf Q pre ++ ticketsOf Q post := by
      intro t ht
      simp [ticketsOf, ht]
    rw [hskip _ hbumped, hskip _ hsource]
  · have hnew : seesSource Q (newTicket fields draw).source = false := hunseen
    simp [ticketsOf, List.filter_append, hnew]

/-! ### Handlers -/

/-- Two handlers leave the same for the parts of `Q` and answer alike. -/
def AlikeParts {α : Type} (Q : Part → Bool) (r r' : Service × Except Failure α) : Prop :=
  SameService Q r.1 r'.1 ∧ r.2 = r'.2

section

variable {α : Type} {Q : Part → Bool} {s s' : Service} {key : Str} {limit now : Int}
  {detail : Str}

theorem alikeParts_limited (h : SameService Q s s') (hkey : SeesKey Q key)
    {next next' : Service → Service × Except Failure α}
    (hnext : ∀ hits hits', SameService Q { s with hits := hits } { s' with hits := hits' } →
      AlikeParts Q (next { s with hits := hits }) (next' { s' with hits := hits' })) :
    AlikeParts Q (limited s key limit now detail next)
      (limited s' key limit now detail next') := by
  obtain ⟨hok, hsame⟩ := rateOk_congr (h.hits key hkey) limit now
  have hafter : SameService Q { s with hits := (rateOk s.hits key limit now).2 }
      { s' with hits := (rateOk s'.hits key limit now).2 } := by
    refine ⟨h.tickets, fun other hother => ?_⟩
    by_cases heq : other = key
    · rw [heq]
      exact hsame
    · simp only [rateOk_other _ heq]
      exact h.hits other hother
  unfold limited
  by_cases hok' : (rateOk s'.hits key limit now).1 = true
  · simp only [hok, hok', if_true]
    exact hnext _ _ hafter
  · simp only [hok, hok']
    exact ⟨hafter, rfl⟩

theorem sameService_limited (hkey : ¬ SeesKey Q key)
    {next : Service → Service × Except Failure α}
    (hnext : ∀ hits, SameService Q (next { s with hits := hits }).1
      { s with hits := hits }) :
    SameService Q (limited s key limit now detail next).1 s := by
  have hafter : SameService Q { s with hits := (rateOk s.hits key limit now).2 } s := by
    refine ⟨rfl, fun other hother => ?_⟩
    have hne : other ≠ key := by
      rintro rfl
      exact hkey hother
    exact rateOk_other _ hne _ _
  unfold limited
  by_cases hok : (rateOk s.hits key limit now).1 = true
  · simp only [hok, if_true]
    exact (hnext _).trans hafter
  · simp only [hok]
    exact hafter

theorem alikeParts_fileReport (h : SameService Q s s') {fields : Fields} {draw : Draw}
    (hfresh : draw.ticketId ∉ s.tickets.map Ticket.id)
    (hfresh' : draw.ticketId ∉ s'.tickets.map Ticket.id)
    (hsees : seesSource Q fields.source = true) (reply : Ticket → α) :
    AlikeParts Q (fileReport s fields draw reply) (fileReport s' fields draw reply) := by
  obtain ⟨t, rows, hcall, hpart⟩ := createOrDedupe_ticketsOf hfresh hsees
  obtain ⟨t', rows', hcall', hpart'⟩ := createOrDedupe_ticketsOf hfresh' hsees
  rw [h.tickets, hpart'] at hpart
  obtain ⟨rfl, hrows⟩ := Prod.mk.inj (Except.ok.inj hpart)
  simp only [fileReport, hcall, hcall']
  exact ⟨⟨hrows.symm, h.hits⟩, rfl⟩

theorem sameService_fileReport {fields : Fields} {draw : Draw}
    (hids : (s.tickets.map Ticket.id).Nodup) (hunseen : seesSource Q fields.source = false)
    (reply : Ticket → α) : SameService Q (fileReport s fields draw reply).1 s := by
  unfold fileReport
  rcases hcall : createOrDedupe s.tickets fields draw with exc | ⟨t, rows⟩
  · exact SameService.refl Q s
  · exact ⟨createOrDedupe_unseen hids hcall hunseen, fun _ _ => rfl⟩

end

theorem seesKey_append {p : Part} {start : Str} (h : p.keyPrefix = some start)
    (Q : Part → Bool) (x : Str) : SeesKey Q (start ++ x) ↔ Q p = true :=
  seesKey_iff h (List.prefix_append start x) Q

theorem seesKey_address (Q : Part → Bool) (x : Str) :
    SeesKey Q ("fwd:ip:" ++ x) ↔ Q .forward = true :=
  seesKey_iff (p := .forward) rfl (forwardKey_ip x) Q

theorem seesKey_install (Q : Part → Bool) (x : Str) :
    SeesKey Q ("fwd:install:" ++ x) ↔ Q .forward = true :=
  seesKey_iff (p := .forward) rfl (forwardKey_install x) Q

/-! ### Intakes -/

theorem alikeParts_receiveLimited {Q : Part → Bool} {D : Deployment} {s s' : Service}
    (h : SameService Q s s') {a : Arrival}
    (hfresh : a.ticket.ticketId ∉ s.tickets.map Ticket.id)
    (hfresh' : a.ticket.ticketId ∉ s'.tickets.map Ticket.id) {p : Part} {start : Str}
    (hstart : p.keyPrefix = some start) (fields : Fields)
    (hsource : p.source = some fields.source) (hQ : Q p = true) :
    AlikeParts Q (receiveLimited D s a start fields) (receiveLimited D s' a start fields) := by
  apply alikeParts_limited h ((seesKey_append hstart Q _).mpr hQ)
  intro hits hits' h
  exact alikeParts_fileReport h hfresh hfresh' (by rw [seesSource_eq hsource, hQ]) _

theorem sameService_receiveLimited {Q : Part → Bool} {D : Deployment} {s : Service}
    {a : Arrival} (hids : (s.tickets.map Ticket.id).Nodup) {p : Part} {start : Str}
    (hstart : p.keyPrefix = some start) (fields : Fields)
    (hsource : p.source = some fields.source) (hQ : Q p = false) :
    SameService Q (receiveLimited D s a start fields).1 s := by
  apply sameService_limited (mt (seesKey_append hstart Q _).mp (by simp [hQ]))
  intro hits
  exact sameService_fileReport (s := { s with hits := hits }) hids
    (by rw [seesSource_eq hsource, hQ]) _

section

variable (F : Type) [PyFloat F] [Interpreter] {Q : Part → Bool}

theorem alikeParts_receiveForwarded (D : Deployment) {s s' : Service}
    (h : SameService Q s s') {a : Arrival}
    (hfresh : a.ticket.ticketId ∉ s.tickets.map Ticket.id)
    (hfresh' : a.ticket.ticketId ∉ s'.tickets.map Ticket.id) (hQ : Q .forward = true)
    (report : ForwardedReport) :
    AlikeParts Q (receiveForwarded F D s a report) (receiveForwarded F D s' a report) := by
  unfold receiveForwarded
  rcases requireForwardAuth D.settings a.request with failure | _
  · exact ⟨h, rfl⟩
  · apply alikeParts_limited h ((seesKey_address Q _).mpr hQ)
    intro hits hits' h
    apply alikeParts_limited h ((seesKey_install Q _).mpr hQ)
    intro hits hits' h
    simp only
    rcases verifiedLicense F D report a.unixTime with _ | ⟨tier, licenseIdHash⟩
    · exact ⟨h, rfl⟩
    · apply alikeParts_fileReport h hfresh hfresh'
      exact (seesSource_eq (p := .forward) rfl Q).trans hQ

theorem sameService_receiveForwarded (D : Deployment) {s : Service} {a : Arrival}
    (hids : (s.tickets.map Ticket.id).Nodup) (hQ : Q .forward = false)
    (report : ForwardedReport) :
    SameService Q (receiveForwarded F D s a report).1 s := by
  unfold receiveForwarded
  rcases requireForwardAuth D.settings a.request with failure | _
  · exact SameService.refl Q s
  · apply sameService_limited (mt (seesKey_address Q _).mp (by simp [hQ]))
    intro hits
    apply sameService_limited (s := { s with hits := hits })
      (mt (seesKey_install Q _).mp (by simp [hQ]))
    intro hits
    simp only
    rcases verifiedLicense F D report a.unixTime with _ | ⟨tier, licenseIdHash⟩
    · exact SameService.refl Q _
    · apply sameService_fileReport (s := { s with hits := hits }) hids
      exact (seesSource_eq (p := .forward) rfl Q).trans hQ

/-- A request that concerns a part of `Q` is answered from what is kept for it. -/
theorem alikeParts_serve (D : Deployment) {s s' : Service} (h : SameService Q s s')
    {e : Intake} (hfresh : e.ticketId ∉ s.tickets.map Ticket.id)
    (hfresh' : e.ticketId ∉ s'.tickets.map Ticket.id)
    (he : (e.part D.settings).any Q = true) :
    AlikeParts Q (serve F D s e) (serve F D s' e) := by
  rcases e with ⟨a, report | report | report⟩
  · have hQ : Q .forward = true := by
      simp only [Intake.part, behind] at he
      split at he
      · exact he
      · cases he
    obtain ⟨hservice, hanswer⟩ :=
      alikeParts_receiveForwarded F D h hfresh hfresh' hQ report
    exact ⟨hservice, congrArg (Except.map Reply.forward) hanswer⟩
  · obtain ⟨hservice, hanswer⟩ := alikeParts_receiveLimited (D := D) (p := .web) h hfresh
      hfresh' rfl (webFields report) rfl he
    exact ⟨hservice, congrArg (Except.map Reply.intake) hanswer⟩
  · have hQ : Q .email = true := by
      simp only [Intake.part, behind] at he
      split at he
      · exact he
      · cases he
    simp only [serve, receiveEmail]
    rcases requireEmailAuth D.settings a.request with failure | _
    · exact ⟨h, rfl⟩
    · obtain ⟨hservice, hanswer⟩ := alikeParts_receiveLimited (D := D) (p := .email) h hfresh
        hfresh' rfl (emailFields report) rfl hQ
      exact ⟨hservice, congrArg (Except.map Reply.intake) hanswer⟩

/-- Any other request leaves it alone. -/
theorem sameService_serve (D : Deployment) {s : Service} {e : Intake}
    (hids : (s.tickets.map Ticket.id).Nodup) (he : (e.part D.settings).any Q = false) :
    SameService Q (serve F D s e).1 s := by
  rcases e with ⟨a, report | report | report⟩
  · simp only [serve]
    by_cases hQ : Q .forward = true
    · rcases hgate : requireForwardAuth D.settings a.request with failure | _
      · unfold receiveForwarded
        rw [hgate]
        exact SameService.refl Q s
      · have hpart : Intake.part D.settings ⟨a, .forward report⟩ = some .forward := by
          simp [Intake.part, behind, hgate, Except.isOk, Except.toBool]
        rw [hpart] at he
        exact absurd hQ (by simpa using he)
    · exact sameService_receiveForwarded F D hids (Bool.eq_false_iff.mpr hQ) report
  · exact sameService_receiveLimited (D := D) (p := .web) hids rfl
      (webFields report) rfl he
  · simp only [serve, receiveEmail]
    rcases hgate : requireEmailAuth D.settings a.request with failure | _
    · exact SameService.refl Q s
    · have hpart : Intake.part D.settings ⟨a, .email report⟩ = some .email := by
        simp [Intake.part, behind, hgate, Except.isOk, Except.toBool]
      rw [hpart] at he
      exact sameService_receiveLimited (D := D) (p := .email) hids rfl
        (emailFields report) rfl he

end

end NetplexSupport
