/-
What becomes of the evidence a forwarded report carries.  The attachment refs
and the bundle are written when a ticket is created and never again, so a
report that is merged into a ticket leaves nothing of its own behind.
-/
import NetplexSupport.Json.Canonical
import NetplexSupport.Tickets.Filing

namespace NetplexSupport

open Py

/-! ### The columns -/

/-- The columns evidence is kept in, with the key of the row. -/
def Ticket.evidence (t : Ticket) : Str × Option Str × Option Str :=
  (t.id, t.attachments, t.diagnosticJson)

/-- No row loses its evidence. -/
theorem Filing.evidence_prefix {tickets rows : List Ticket} {fields : Fields} {draw : Draw}
    {t : Ticket} (h : Filing tickets fields draw t rows) :
    tickets.map Ticket.evidence <+: rows.map Ticket.evidence := by
  rcases h with ⟨rfl, _⟩ | ⟨_, _⟩
  · simp [Ticket.evidence, bumped, bump]
  · rw [List.map_append]
    exact List.prefix_append _ _

/-- The ticket of an answer is in the table. -/
theorem Filing.mem {tickets rows : List Ticket} {fields : Fields} {draw : Draw}
    {t : Ticket} (h : Filing tickets fields draw t rows) : t ∈ rows := by
  rcases h with ⟨_, _⟩ | ⟨_, _⟩
  · simp
  · simp

/-- The ticket a forwarded report merges into: neither its tier nor its licence
takes part. -/
def mergesInto (tickets : List Ticket) (report : ForwardedReport) : Option Ticket :=
  existingFor tickets (forwardFields report "associate" none)

theorem mergesInto_eq (tickets : List Ticket) (report : ForwardedReport) (tier : Str)
    (licenseIdHash : Option Str) :
    mergesInto tickets report =
      existingFor tickets (forwardFields report tier licenseIdHash) := rfl

theorem listOfStr_strings (F : Type) (refs : List Str) :
    listOfStr (.arr (refs.map (Json.str (F := F)))) = .ok refs := by
  induction refs with
  | nil => rfl
  | cons ref refs ih =>
      simp only [listOfStr] at ih ⊢
      rw [List.map_cons, List.mapM_cons, ih]
      rfl

section

variable (F : Type) [PyFloat F] [Interpreter]

/-! ### The refs of a new ticket -/

/-- The refs of a report are read back from its ticket, split surrogate pairs joined. -/
theorem attachmentRefs_of_json {t : Ticket} {refs : List Str}
    (ht : t.attachments = attachmentsJson refs) :
    t.attachmentRefs F = .ok (.arr ((refs.map Str.rejoin).map .str)) := by
  by_cases hempty : refs = []
  · simp [Ticket.attachmentRefs, ht, attachmentsJson, hempty]
  · have hne : dumps {} (.arr (refs.map (Json.str (F := F)))) ≠ [] := by
      cases refs with
      | nil => exact absurd rfl hempty
      | cons ref refs => simp [dumps, Json.render]
    have htext := dumps_strings FloatView.asFloat ‹PyFloat F› (o := {}) rfl refs
    have hloads := tryLoads_dumps_strings (F := F) refs
    simp [Ticket.attachmentRefs, ht, attachmentsJson, hempty, htext, hne, hloads, Except.map,
      Function.comp_def]

/-! ### What a ticket shows -/

/-- The detail endpoint has a bundle to return. -/
def Ticket.ReturnsBundle (t : Ticket) : Prop :=
  ∃ bundle, t.diagnosticBundle F = .ok bundle ∧ bundle ≠ .null

/-- A ticket shows a report's evidence: every ref in its view, and a bundle when
the report carries one. -/
def Ticket.Shows (t : Ticket) (report : ForwardedReport) : Prop :=
  ∃ view, TicketView.of F t = .ok view ∧
    (∀ ref ∈ report.attachmentRefs, ref ∈ view.attachmentRefs) ∧
    (truthy report.diagnosticBundle = true →
      view.hasDiagnosticBundle = true ∧ t.ReturnsBundle F)

theorem TicketView.of_eq_ok_iff {t : Ticket} {view : TicketView} :
    TicketView.of F t = .ok view ↔ ∃ json refs, t.attachmentRefs F = .ok json ∧
      listOfStr json = .ok refs ∧
      view =
        { id := t.id, kind := t.kind, status := t.status, severity := t.severity,
          title := t.title, occurrences := t.occurrences, reporterTier := t.reporterTier,
          priorityScore := some t.priorityScore, fixedInVersion := t.fixedInVersion,
          source := t.source, originLocalId := t.originLocalId,
          hasDiagnosticBundle := truthy t.diagnosticJson, attachmentRefs := refs } := by
  unfold TicketView.of
  rw [bind_eq_ok]
  constructor
  · rintro ⟨json, hjson, h⟩
    obtain ⟨refs, hrefs, hview⟩ := bind_eq_ok.mp h
    exact ⟨json, refs, hjson, hrefs, (Except.ok.inj hview).symm⟩
  · rintro ⟨json, refs, hjson, hrefs, rfl⟩
    exact ⟨json, hjson, bind_eq_ok.mpr ⟨refs, hrefs, rfl⟩⟩

/-- What a ticket shows depends on its evidence alone. -/
theorem Ticket.shows_iff {t : Ticket} {report : ForwardedReport} :
    t.Shows F report ↔ ∃ json refs, t.attachmentRefs F = .ok json ∧
      listOfStr json = .ok refs ∧ (∀ ref ∈ report.attachmentRefs, ref ∈ refs) ∧
      (truthy report.diagnosticBundle = true →
        truthy t.diagnosticJson = true ∧ t.ReturnsBundle F) := by
  constructor
  · rintro ⟨view, hview, hrefs, hbundle⟩
    obtain ⟨json, refs, hjson, hlist, rfl⟩ := (TicketView.of_eq_ok_iff F).mp hview
    exact ⟨json, refs, hjson, hlist, hrefs, hbundle⟩
  · rintro ⟨json, refs, hjson, hlist, hrefs, hbundle⟩
    exact ⟨_, (TicketView.of_eq_ok_iff F).mpr ⟨json, refs, hjson, hlist, rfl⟩, hrefs, hbundle⟩

theorem Ticket.Shows.congr {t t' : Ticket} {report : ForwardedReport}
    (h : t.Shows F report) (hsame : t'.evidence = t.evidence) : t'.Shows F report := by
  simp only [Ticket.evidence, Prod.mk.injEq] at hsame
  rcases hsame with ⟨_, hattachments, hdiagnostic⟩
  rw [Ticket.shows_iff] at h ⊢
  simpa only [Ticket.attachmentRefs, Ticket.ReturnsBundle, Ticket.diagnosticBundle,
    hattachments, hdiagnostic] using h

/-- A report whose evidence comes back as it was sent: no ref has a split surrogate
pair, and the bundle, should it be a JSON text, is neither null nor nested too deep. -/
structure ComesBack (report : ForwardedReport) : Prop where
  refs : ∀ ref ∈ report.attachmentRefs, ref.joined = true
  bundle : ∀ bundle ∈ report.diagnosticBundle, ∃ value : Option (Json F),
    tryLoads bundle = .ok value ∧ value ≠ some .null

omit [Interpreter] in
theorem rejoin_subset_iff {refs : List Str} :
    (∀ ref ∈ refs, ref ∈ refs.map Str.rejoin) ↔ ∀ ref ∈ refs, ref.joined = true := by
  constructor
  · intro h ref href
    obtain ⟨ref', _, rfl⟩ := List.mem_map.mp (h ref href)
    exact ref'.joined_rejoin
  · intro h ref href
    exact List.mem_map.mpr ⟨ref, href, Str.rejoin_of_joined (h ref href)⟩

/-- A new ticket shows its report's evidence exactly when it comes back. -/
theorem shows_newTicket_iff {report : ForwardedReport} {tier : Str}
    {licenseIdHash : Option Str} {draw : Draw} :
    (newTicket (forwardFields report tier licenseIdHash) draw).Shows F report ↔
      ComesBack F report := by
  have hattachments : (newTicket (forwardFields report tier licenseIdHash) draw).attachments =
      attachmentsJson report.attachmentRefs := rfl
  have hjson := attachmentRefs_of_json F hattachments
  have hlist := listOfStr_strings F (report.attachmentRefs.map Str.rejoin)
  have hbundle : (truthy report.diagnosticBundle = true →
      truthy report.diagnosticBundle = true ∧
        (newTicket (forwardFields report tier licenseIdHash) draw).ReturnsBundle F) ↔
      ∀ bundle ∈ report.diagnosticBundle, ∃ value : Option (Json F),
        tryLoads bundle = .ok value ∧ value ≠ some .null := by
    have hdiagnostic : (newTicket (forwardFields report tier
        licenseIdHash) draw).diagnosticJson = report.diagnosticBundle := rfl
    rw [Ticket.ReturnsBundle, Ticket.diagnosticBundle, hdiagnostic]
    rcases report.diagnosticBundle with _ | bundle
    · simp [truthy]
    · by_cases hempty : bundle = []
      · simp [truthy, hempty]
      · rcases hparsed : tryLoads (F := F) bundle with exc | _ | value
        · simp [truthy, hempty, hparsed, Except.map]
        · simp [truthy, hempty, hparsed, Except.map]
        · simp [truthy, hempty, hparsed, Except.map]
  rw [Ticket.shows_iff]
  constructor
  · rintro ⟨json, refs, hjson', hlist', hrefs, hshown⟩
    obtain rfl := Except.ok.inj (hjson.symm.trans hjson')
    obtain rfl := Except.ok.inj (hlist.symm.trans hlist')
    exact ⟨rejoin_subset_iff.mp hrefs, hbundle.mp hshown⟩
  · rintro ⟨hrefs, hshown⟩
    exact ⟨_, _, hjson, hlist, rejoin_subset_iff.mpr hrefs, hbundle.mpr hshown⟩

/-! ### Runs -/

/-- The ticket of a response shows the evidence of its report, to the public
endpoint and to the admin one. -/
def EvidenceShown (tickets : List Ticket) (report : ForwardedReport) (ticketId : Str) : Prop :=
  ∃ view, getTicketRoute F tickets ticketId = .ok view ∧
    (∀ ref ∈ report.attachmentRefs, ref ∈ view.attachmentRefs) ∧
    (truthy report.diagnosticBundle = true → view.hasDiagnosticBundle = true ∧
      ∃ detail, getTicketDiagnostic F tickets ticketId = .ok detail ∧
        detail.diagnosticBundle ≠ .null)

/-- From its acceptance on, every request's evidence is shown. -/
def EvidenceKept (s : Service) (events : List (Deployment × Forward)) : Prop :=
  ∀ before e later rest, events = before ++ e :: (later ++ rest) →
    ∀ answer, (forwardStep F (Transition.after (forwardStep F) s before) e).2 = .ok answer →
      EvidenceShown F (Transition.after (forwardStep F) s (before ++ e :: later)).tickets
        e.2.report answer.ticketId

/-- A report that merges brings nothing that the open ticket does not show, and the
evidence of one that creates its ticket comes back. -/
def NothingNew (s : Service) (events : List (Deployment × Forward)) : Prop :=
  ∀ before e rest, events = before ++ e :: rest →
    match mergesInto (Transition.after (forwardStep F) s before).tickets e.2.report with
    | some existing => existing.Shows F e.2.report
    | none => ComesBack F e.2.report

/-- The detail of a ticket is its bundle and its refs. -/
theorem getTicketDiagnostic_eq_ok {tickets : List Ticket} {t : Ticket}
    (hfound : getTicket tickets t.id = some t) {detail : DiagnosticView F} :
    getTicketDiagnostic F tickets t.id = .ok detail ↔ ∃ bundle refs,
      t.diagnosticBundle F = .ok bundle ∧ t.attachmentRefs F = .ok refs ∧
        detail = ⟨t.id, bundle, refs⟩ := by
  rw [getTicketDiagnostic, hfound]
  simp only [raising_eq_ok]
  constructor
  · intro h
    obtain ⟨bundle, hbundle, h⟩ := bind_eq_ok.mp h
    obtain ⟨refs, hrefs, h⟩ := bind_eq_ok.mp h
    exact ⟨bundle, refs, hbundle, hrefs, (Except.ok.inj h).symm⟩
  · rintro ⟨bundle, refs, hbundle, hrefs, rfl⟩
    exact bind_eq_ok.mpr ⟨bundle, hbundle, bind_eq_ok.mpr ⟨refs, hrefs, rfl⟩⟩

/-- The endpoints show what the ticket shows. -/
theorem evidenceShown_iff {tickets : List Ticket} (hids : (tickets.map Ticket.id).Nodup)
    {t : Ticket} (ht : t ∈ tickets) {report : ForwardedReport} :
    EvidenceShown F tickets report t.id ↔ t.Shows F report := by
  have hfound := (getTicket_eq_some_iff hids).mpr ⟨ht, rfl⟩
  rw [EvidenceShown, Ticket.Shows, getTicketRoute, hfound]
  simp only [raising_eq_ok, getTicketDiagnostic_eq_ok F hfound]
  constructor
  · rintro ⟨view, hview, hrefs, hshown⟩
    refine ⟨view, hview, hrefs, fun hcarried => ?_⟩
    obtain ⟨hflag, _, ⟨bundle, _, hbundle, _, rfl⟩, hne⟩ := hshown hcarried
    exact ⟨hflag, bundle, hbundle, hne⟩
  · rintro ⟨view, hview, hrefs, hshown⟩
    refine ⟨view, hview, hrefs, fun hcarried => ?_⟩
    obtain ⟨hflag, bundle, hbundle, hne⟩ := hshown hcarried
    obtain ⟨json, _, hjson, _⟩ := (TicketView.of_eq_ok_iff F).mp hview
    exact ⟨hflag, _, ⟨bundle, json, hbundle, hjson, rfl⟩, hne⟩

/-- The filed ticket shows its report's evidence under the condition. -/
theorem Filing.shows_iff {tickets rows : List Ticket} {report : ForwardedReport}
    {tier : Str} {licenseIdHash : Option Str} {draw : Draw} {t : Ticket}
    (h : Filing tickets (forwardFields report tier licenseIdHash) draw t rows) :
    t.Shows F report ↔
      match mergesInto tickets report with
      | some existing => existing.Shows F report
      | none => ComesBack F report := by
  rw [mergesInto_eq tickets report tier licenseIdHash]
  rcases h with @⟨pre, post, existing, rfl, hexisting⟩ | ⟨hnone, _⟩
  · rw [hexisting]
    exact ⟨fun h => h.congr F rfl, fun h => h.congr F rfl⟩
  · rw [hnone]
    exact shows_newTicket_iff F

/-- No row loses its evidence later on. -/
theorem evidence_after {s : Service} {later rest : List (Deployment × Forward)}
    (hids : (s.tickets.map Ticket.id).Nodup) (haccepted : Accepted F s (later ++ rest)) :
    s.tickets.map Ticket.evidence <+:
      (Transition.after (forwardStep F) s later).tickets.map Ticket.evidence := by
  have hkeep := inv_accepted F (fun tickets _ =>
    s.tickets.map Ticket.evidence <+: tickets.map Ticket.evidence)
    (fun h _ hfiling => h.trans hfiling.evidence_prefix) hids haccepted
    (List.prefix_refl _)
  exact hkeep.2.2

/-- In a run of accepted requests, every report's evidence is shown for good exactly
when no merged report brings anything new and what new tickets are given comes back. -/
theorem evidence_kept_iff {s : Service} {events : List (Deployment × Forward)}
    (hids : (s.tickets.map Ticket.id).Nodup) (haccepted : Accepted F s events) :
    EvidenceKept F s events ↔ NothingNew F s events := by
  constructor
  · rintro hkept before e rest rfl
    obtain ⟨fields, t, ⟨_, _, _, rfl⟩, hfiling, hok⟩ := filing_at F hids haccepted
    have hshown := hkept before e [] rest rfl _ hok
    rw [List.append_cons] at haccepted
    have hnodup := (accepted_after F hids haccepted).1
    have hshows := (evidenceShown_iff F hnodup hfiling.mem).mp hshown
    exact (hfiling.shows_iff F).mp hshows
  · rintro hnew before e later rest rfl answer hanswer
    obtain ⟨fields, t, ⟨_, _, _, rfl⟩, hfiling, hok⟩ := filing_at F hids haccepted
    obtain rfl := Except.ok.inj (hok.symm.trans hanswer)
    have hshows := (hfiling.shows_iff F).mpr (hnew before e (later ++ rest) rfl)
    -- The row stands in every later table with the evidence it was written with.
    rw [List.append_cons, ← List.append_assoc] at haccepted
    have hnodup := (accepted_after F hids haccepted).1
    rw [List.append_assoc] at haccepted
    obtain ⟨hnodup', haccepted'⟩ := accepted_after F hids haccepted
    have hstays := evidence_after F hnodup' haccepted'
    rw [← Transition.after_append] at hstays
    obtain ⟨t', ht', hsame⟩ :=
      List.mem_map.mp (hstays.subset (List.mem_map_of_mem hfiling.mem))
    have hid : t'.id = (forwardReply t).ticketId := congrArg Prod.fst hsame
    rw [List.append_cons, ← hid]
    exact (evidenceShown_iff F hnodup ht').mpr (hshows.congr F hsame)

end

section

attribute [local instance] FloatView.asFloat Interpreter.ascii

/-- A crash with a screenshot and a bundle, and the same crash with nothing. -/
def firstEvidence : List (Deployment × Forward) :=
  [boxForwards 0 "SUP-1"
      { title := "a", fingerprint := some "f", attachmentRefs := ["shot"],
        diagnosticBundle := some "cpu" },
    boxForwards 1 "SUP-2" { title := "a", fingerprint := some "f" }]

theorem evidence_kept_iff_firstEvidence :
    EvidenceKept FloatView emptyTable firstEvidence ↔
      NothingNew FloatView emptyTable firstEvidence :=
  evidence_kept_iff FloatView (by decide +kernel) (by decide +kernel)

/-- The same two reports in the other order. -/
def secondEvidence : List (Deployment × Forward) :=
  [boxForwards 0 "SUP-1" { title := "a", fingerprint := some "f" },
    boxForwards 1 "SUP-2"
      { title := "a", fingerprint := some "f", attachmentRefs := ["shot"],
        diagnosticBundle := some "cpu" }]

/-- Both are accepted, and the ticket both are answered with shows neither the
screenshot nor a bundle. -/
theorem evidence_lost_secondEvidence :
    Accepted FloatView emptyTable secondEvidence ∧
      ¬ EvidenceKept FloatView emptyTable secondEvidence := by
  refine ⟨by decide +kernel, fun hkept => ?_⟩
  obtain ⟨view, hview, hrefs, _⟩ := hkept [secondEvidence.head (by decide)]
    secondEvidence[1] [] [] rfl ⟨"SUP-1", 2, 16, "crash", none⟩ (by decide +kernel)
  have hshot : Str.ofString "shot" ∈ view.attachmentRefs := hrefs _ List.mem_cons_self
  have hnone : (getTicketRoute FloatView (Transition.after (forwardStep FloatView) emptyTable
      secondEvidence).tickets "SUP-1").toOption.map TicketView.attachmentRefs = some [] := by
    decide +kernel
  have hempty : some view.attachmentRefs = some [] :=
    (congrArg (fun answer => answer.toOption.map TicketView.attachmentRefs) hview).symm.trans
      hnone
  rw [Option.some.inj hempty] at hshot
  cases hshot

end

end NetplexSupport
