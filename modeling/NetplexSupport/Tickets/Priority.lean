/-
The place of a report in the triage queue.  A merge scores the open ticket with
its own severity and tier; those of the report that is merged are not looked at.
-/
import NetplexSupport.Tickets.Evidence
import NetplexSupport.Tickets.Sequential

namespace NetplexSupport

open Py

/-! ### Reached stores -/

/-- The primary key is one, and every ticket counts a report. -/
structure Counted (tickets : List Ticket) : Prop where
  ids : (tickets.map Ticket.id).Nodup
  positive : ∀ t ∈ tickets, 1 ≤ t.occurrences

theorem Filing.counted {tickets rows : List Ticket} {fields : Fields} {draw : Draw}
    {t : Ticket} (h : Filing tickets fields draw t rows) (hcount : fields.occurrences = 1)
    (hcounted : Counted tickets) : Counted rows where
  ids := h.nodup hcounted.ids
  positive := by
    intro t' ht'
    rcases h.row ht' with ⟨old, hold, rfl | rfl⟩ | ⟨-, rfl⟩
    · exact hcounted.positive t' hold
    · have hpositive := hcounted.positive old hold
      change 1 ≤ old.occurrences + 1
      omega
    · exact hcount.ge

section

variable (F : Type) [PyFloat F] [Interpreter]

theorem Files.occurrences {D : Deployment} {e : Intake} {fields : Fields}
    (h : Files F D e fields) : fields.occurrences = 1 := by
  rcases e with ⟨a, report | report | report⟩
  · obtain ⟨_, _, _, rfl⟩ := h
    rfl
  · obtain rfl : fields = webFields report := h
    rfl
  · obtain rfl : fields = emailFields report := h
    rfl

theorem counted_after (hits : Hits) (events : List (Deployment × Intake)) :
    Counted (Transition.after (intakeStep F) ⟨[], hits⟩ events).tickets := by
  let Inv : Service → List (Deployment × Intake) → Prop := fun s _ => Counted s.tickets
  have hstep : ∀ s e rest, Inv s (e :: rest) → Inv (intakeStep F s e).1 rest := by
    intro s e _ hcounted
    rcases serve_tickets F e.1 s e.2 with hsame | ⟨fields, t, hfields, hcall⟩
    · change Counted (serve F e.1 s e.2).1.tickets
      rw [hsame]
      exact hcounted
    · exact (filing_of_createOrDedupe hcounted.ids hcall).counted (hfields.occurrences F)
        hcounted
  have hempty : Inv ⟨[], hits⟩ (events ++ []) := ⟨List.nodup_nil, by simp⟩
  exact Transition.inv_after hstep [] hempty

/-! ### The score of the report and the score of its ticket -/

/-- The ticket an accepted report is answered with has at least the score of the
report counted once, with the tier its token proves. -/
def TriagedByWeight (D : Deployment) (s : Service) (a : Arrival) (report : ForwardedReport) :
    Prop :=
  ∀ tier licenseIdHash answer,
    verifiedLicense F D report a.unixTime = .ok (tier, licenseIdHash) →
    (receiveForwarded F D s a report).2 = .ok answer →
    ∃ t ∈ (receiveForwarded F D s a report).1.tickets, t.id = answer.ticketId ∧
      t.priorityScore = answer.priorityScore ∧
      priorityScore report.severity 1 tier ≤ t.priorityScore

/-- The open ticket the report finds, if it finds one, weighs at least as much
with one report more as the report alone. -/
def OpenTicketWeighs (D : Deployment) (s : Service) (a : Arrival) (report : ForwardedReport) :
    Prop :=
  ∀ tier licenseIdHash existing,
    verifiedLicense F D report a.unixTime = .ok (tier, licenseIdHash) →
    mergesInto s.tickets report = some existing →
    severityFactor report.severity * tierFactor tier ≤
      severityFactor existing.severity * (existing.occurrences + 1) *
        tierFactor existing.reporterTier

omit F [PyFloat F] [Interpreter] in
theorem priorityScore_one (severity tier : Str) :
    priorityScore severity 1 tier = severityFactor severity * tierFactor tier := by
  rw [priorityScore_eq le_rfl, mul_one]

omit F [PyFloat F] [Interpreter] in
theorem priorityScore_bumped {t : Ticket} (hpositive : 1 ≤ t.occurrences) (draw : Draw) :
    (bumped t draw).priorityScore =
      severityFactor t.severity * (t.occurrences + 1) * tierFactor t.reporterTier :=
  priorityScore_eq (by omega)

/-- What an accepted report did to the table decides how it is triaged. -/
theorem triagedByWeight_of_filing {D : Deployment} {s : Service} {a : Arrival}
    {report : ForwardedReport} {t : Ticket} {tier : Str} {licenseIdHash : Option Str}
    (hlicense : verifiedLicense F D report a.unixTime = .ok (tier, licenseIdHash))
    (hok : (receiveForwarded F D s a report).2 = .ok (forwardReply t))
    (hids : ((receiveForwarded F D s a report).1.tickets.map Ticket.id).Nodup)
    (ht : t ∈ (receiveForwarded F D s a report).1.tickets) :
    TriagedByWeight F D s a report ↔
      priorityScore report.severity 1 tier ≤ t.priorityScore := by
  constructor
  · intro h
    obtain ⟨t', ht', hid, -, hscore⟩ := h tier licenseIdHash _ hlicense hok
    rwa [List.inj_on_of_nodup_map hids ht' ht hid] at hscore
  · intro hscore tier' licenseIdHash' answer hlicense' hok'
    obtain ⟨rfl, rfl⟩ := Prod.mk.inj (Except.ok.inj (hlicense.symm.trans hlicense'))
    obtain rfl := Except.ok.inj (hok.symm.trans hok')
    exact ⟨t, ht, rfl, rfl, hscore⟩

/-- In every reached store an accepted report is triaged by at least its own
weight exactly when it finds no open ticket, or one that weighs as much. -/
theorem triaged_by_weight_iff (hits : Hits) (events : List (Deployment × Intake))
    {D : Deployment} {a : Arrival} {report : ForwardedReport} {answer : ForwardReply}
    (hok : (receiveForwarded F D (Transition.after (intakeStep F) ⟨[], hits⟩ events) a
      report).2 = .ok answer) :
    TriagedByWeight F D (Transition.after (intakeStep F) ⟨[], hits⟩ events) a report ↔
      OpenTicketWeighs F D (Transition.after (intakeStep F) ⟨[], hits⟩ events) a report := by
  have hcounted := counted_after F hits events
  generalize Transition.after (intakeStep F) ⟨[], hits⟩ events = s at hok hcounted ⊢
  obtain ⟨fields, t, ⟨tier, licenseIdHash, hlicense, rfl⟩, hfiling, rfl⟩ :=
    filing_of_accepted F (e := ⟨a, report⟩) hcounted.ids hok
  rw [triagedByWeight_of_filing F hlicense hok (hfiling.nodup hcounted.ids) hfiling.mem,
    priorityScore_one]
  have hcondition : OpenTicketWeighs F D s a report ↔
      ∀ existing, mergesInto s.tickets report = some existing →
        severityFactor report.severity * tierFactor tier ≤
          severityFactor existing.severity * (existing.occurrences + 1) *
            tierFactor existing.reporterTier := by
    constructor
    · exact fun h existing => h tier licenseIdHash existing hlicense
    · intro h tier' licenseIdHash' existing hlicense'
      obtain ⟨rfl, rfl⟩ := Prod.mk.inj (Except.ok.inj (hlicense.symm.trans hlicense'))
      exact h existing
  rw [hcondition, mergesInto_eq _ _ tier licenseIdHash]
  generalize (serveForward F D s ⟨a, report⟩).1.tickets = rows at hfiling
  rcases hfiling with @⟨pre, post, existing, htickets, hexisting⟩ | ⟨hnone, hfresh⟩
  · have hmem : existing ∈ s.tickets := htickets ▸ by simp
    rw [priorityScore_bumped (hcounted.positive existing hmem), hexisting]
    constructor
    · rintro h _ ⟨⟩
      exact h
    · exact fun h => h existing rfl
  · rw [hnone]
    refine iff_of_true ?_ fun _ hsome => (Option.some_ne_none _ hsome.symm).elim
    exact (priorityScore_one report.severity tier).symm.le

end

section

attribute [local instance] FloatView.asFloat Interpreter.ascii

/-- An idea with the fingerprint of a later crash. -/
def ideaRun : List (Deployment × Intake) :=
  [(fleet, ⟨fleetArrival 0 "SUP-1",
    .forward { title := "a", fingerprint := some "f", severity := "s5_idea" }⟩)]

def laterReport (severity : Str) : ForwardedReport :=
  { title := "b", fingerprint := some "f", severity := severity }

/-- Another idea is triaged by its weight. -/
theorem triaged_by_weight_idea :
    let s := Transition.after (intakeStep FloatView) emptyTable ideaRun
    TriagedByWeight FloatView fleet s (fleetArrival 1 "SUP-2") (laterReport "s5_idea") ↔
      OpenTicketWeighs FloatView fleet s (fleetArrival 1 "SUP-2") (laterReport "s5_idea") := by
  have hok : (receiveForwarded FloatView fleet
      (Transition.after (intakeStep FloatView) emptyTable ideaRun) (fleetArrival 1 "SUP-2")
      (laterReport "s5_idea")).2 = .ok ⟨"SUP-1", 2, 2, "crash", none⟩ := by decide +kernel
  exact triaged_by_weight_iff FloatView _ ideaRun hok

/-- The crash is accepted with a score of 2, where a crash of its own scores 16. -/
theorem triaged_by_weight_crash :
    ¬ TriagedByWeight FloatView fleet
      (Transition.after (intakeStep FloatView) emptyTable ideaRun) (fleetArrival 1 "SUP-2")
      (laterReport "s1_crash") := by
  intro h
  obtain ⟨t, -, -, hscore, hle⟩ := h "associate" none ⟨"SUP-1", 2, 2, "crash", none⟩ rfl
    (by decide +kernel)
  rw [hscore] at hle
  revert hle
  decide +kernel

end

end NetplexSupport
