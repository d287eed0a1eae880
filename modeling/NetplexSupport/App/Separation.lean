/-
The parts of the application are separate.  Whatever set of parts one looks at,
the calls that concern the others, the calls refused at a gate and the reads of
the whole ticket table can be deleted from a run: the answers to the remaining
calls stay the same, and so does what the application keeps for those parts.
-/
import NetplexSupport.App.Parts
import NetplexSupport.Transition.Component

namespace NetplexSupport

open Py

/-! ### Calls and their parts -/

/-- The part a call reads or writes.  A box-local id names a forwarded report. -/
def Call.part {F : Type} (settings : Settings) : Call F → Option Part
  | .intake e => e.part settings
  | .byOrigin request _ => behind (requireAdmin settings request) .forward
  | .verify .. => some .verify
  | .register request .. => behind (requireAdmin settings request) .licences
  | .registered request _ => behind (requireAdmin settings request) .licences
  | .manifest _ => some .releases
  | .upload request .. => behind (requireAdmin settings request) .releases
  | _ => none

/-- The settings in force after a call, and whether it concerns a part of `Q`. -/
def concerns {F : Type} (Q : Part → Bool) (settings : Settings) :
    Call F → Settings × Bool
  | .restart settings => (settings, true)
  | c => (settings, (c.part settings).any Q)

/-- The random id a call may spend. -/
def Call.ticketIds {F : Type} : Call F → List Str
  | .intake e => [e.arrival.ticket.ticketId]
  | _ => []

/-- Two applications that keep the same for the parts of `Q`. -/
structure SameParts (Q : Part → Bool) (s s' : App) : Prop where
  settings : s.settings = s'.settings
  service : SameService Q s.service s'.service
  releases : Q .releases = true → s.releases = s'.releases
  licenses : Q .licences = true → s.licenses = s'.licenses

theorem SameParts.trans {Q : Part → Bool} {s₁ s₂ s₃ : App} (h : SameParts Q s₁ s₂)
    (h' : SameParts Q s₂ s₃) : SameParts Q s₁ s₃ where
  settings := h.settings.trans h'.settings
  service := h.service.trans h'.service
  releases hQ := (h.releases hQ).trans (h'.releases hQ)
  licenses hQ := (h.licenses hQ).trans (h'.licenses hQ)

/-! ### Calls -/

/-- Only forwarded reports carry a box-local id. -/
def FromBoxes (tickets : List Ticket) : Prop :=
  ∀ t ∈ tickets, t.originLocalId ≠ none → t.source = Str.ofString "forward"

/-- A lookup by a box-local id is answered from the forward tickets. -/
theorem getTicketByOriginLocalId_ticketsOf {Q : Part → Bool} {tickets : List Ticket}
    (h : FromBoxes tickets) (hQ : Q .forward = true) (originLocalId : Str) :
    getTicketByOriginLocalId (ticketsOf Q tickets) originLocalId =
      getTicketByOriginLocalId tickets originLocalId := by
  rw [getTicketByOriginLocalId, getTicketByOriginLocalId, ticketsOf, List.filter_filter]
  congr 1
  apply List.filter_congr
  intro t ht
  rw [Bool.and_eq_left_iff_imp, decide_eq_true_eq]
  intro horigin
  have hsource := h t ht (by rw [horigin]; exact Option.some_ne_none _)
  rw [hsource, seesSource_eq (p := .forward) rfl Q, hQ]

section

variable {F : Type} [PyFloat F] [Interpreter] {Q : Part → Bool}

theorem fromBoxes_serve (D : Deployment) {s : Service} {e : Intake}
    (hids : (s.tickets.map Ticket.id).Nodup) (h : FromBoxes s.tickets) :
    FromBoxes (serve F D s e).1.tickets := by
  rcases serve_tickets F D s e with hsame | ⟨fields, t, hfiles, hcall⟩
  · rw [hsame]
    exact h
  · have hfields : fields.originLocalId ≠ none → fields.source = Str.ofString "forward" := by
      rcases e with ⟨a, report | report | report⟩
      · obtain ⟨_, _, _, rfl⟩ := hfiles
        exact fun _ => rfl
      · obtain rfl := hfiles
        exact fun hnone => absurd rfl hnone
      · obtain rfl := hfiles
        exact fun hnone => absurd rfl hnone
    intro t' ht'
    rcases (filing_of_createOrDedupe hids hcall).row ht' with
      ⟨old, hold, rfl | rfl⟩ | ⟨_, rfl⟩
    · exact h _ hold
    · exact h old hold
    · exact hfields

/-- What a call needs of the table, and leaves of it for the calls to come. -/
structure Orderly (s : App) (calls : List (Call F)) : Prop where
  ids : (s.service.tickets.map Ticket.id ++ calls.flatMap Call.ticketIds).Nodup
  boxes : FromBoxes s.service.tickets

omit [PyFloat F] [Interpreter] in
theorem Orderly.nodup {s : App} {calls : List (Call F)} (h : Orderly s calls) :
    (s.service.tickets.map Ticket.id).Nodup := (List.nodup_append'.mp h.ids).1

omit [PyFloat F] [Interpreter] in
theorem Orderly.fresh {s : App} {e : Intake} {calls : List (Call F)}
    (h : Orderly s (.intake e :: calls)) : e.ticketId ∉ s.service.tickets.map Ticket.id :=
  fun hmem => (List.nodup_append'.mp h.ids).2.2 hmem List.mem_cons_self

omit [PyFloat F] [Interpreter] in
theorem Orderly.skip {s : App} {c : Call F} {calls : List (Call F)}
    (h : Orderly s (c :: calls)) : Orderly s calls := by
  refine ⟨h.ids.sublist (List.Sublist.append_left ?_ _), h.boxes⟩
  rw [List.flatMap_cons]
  exact List.sublist_append_right _ _

theorem Orderly.serve {host : Host} {s : App} {c : Call F} {calls : List (Call F)}
    (h : Orderly s (c :: calls)) : Orderly (App.serve host s c).1 calls := by
  cases c with
  | intake e =>
      exact ⟨nodup_serve F (host.deploy s.settings) h.ids,
        fromBoxes_serve (host.deploy s.settings) h.nodup h.boxes⟩
  | _ => exact ⟨h.skip.ids, h.boxes⟩

theorem Orderly.after {host : Host} {s : App} {calls rest : List (Call F)}
    (h : Orderly s (calls ++ rest)) : Orderly (Transition.after (App.serve host) s calls) rest :=
  Transition.inv_after (fun _ _ _ h => Orderly.serve h) rest h

/-- At the end of a run. -/
theorem Orderly.whole {host : Host} {s : App} {calls : List (Call F)} (h : Orderly s calls) :
    Orderly (F := F) (Transition.after (App.serve host) s calls) [] :=
  Orderly.after ((List.append_nil calls).symm ▸ h)

omit [PyFloat F] [Interpreter] in
/-- A table without tickets. -/
theorem orderly_of_empty {s : App} (hempty : s.service.tickets = []) {calls : List (Call F)}
    (hids : (calls.flatMap Call.ticketIds).Nodup) : Orderly s calls := by
  constructor
  · rw [hempty]
    exact hids
  · intro t ht
    rw [hempty] at ht
    cases ht

omit [PyFloat F] [Interpreter] in
theorem sees_of_behind {gate : Except Failure Unit} {p : Part}
    (h : (behind gate p).any Q = true) : Q p = true := by
  unfold behind at h
  split at h
  · exact h
  · cases h

omit [PyFloat F] [Interpreter] in
theorem refused_of_behind {gate : Except Failure Unit} {p : Part}
    (h : (behind gate p).any Q = false) (hQ : Q p = true) :
    ∃ failure, gate = .error failure := by
  rcases gate with failure | _
  · exact ⟨failure, rfl⟩
  · have hopen : (behind (.ok ()) p).any Q = Q p := rfl
    rw [hopen, hQ] at h
    cases h

theorem hits_verifyLicense (C : Crypto) (ip : IpAddress) (settings : Settings) (hits : Hits)
    (request : Request) (token : Str) (monotonic now : Int) :
    (verifyLicense (F := F) C ip settings hits request token monotonic now).1 =
      (rateOk hits ("license-verify:" ++ clientIp ip settings request)
        (max settings.licenseVerifyRatePerMin 1) monotonic).2 := by
  unfold verifyLicense
  simp only
  split
  · rfl
  · rfl

/-- The public verification reads its own bucket. -/
theorem verifyLicense_congr (C : Crypto) (ip : IpAddress) (settings : Settings)
    {hits hits' : Hits} (request : Request) (token : Str) (monotonic now : Int)
    (h : hits ("license-verify:" ++ clientIp ip settings request) =
      hits' ("license-verify:" ++ clientIp ip settings request)) :
    (∀ key, hits key = hits' key →
      (verifyLicense (F := F) C ip settings hits request token monotonic now).1 key =
        (verifyLicense (F := F) C ip settings hits' request token monotonic now).1 key) ∧
      (verifyLicense (F := F) C ip settings hits request token monotonic now).2 =
        (verifyLicense (F := F) C ip settings hits' request token monotonic now).2 := by
  obtain ⟨hok, hsame⟩ := rateOk_congr h (max settings.licenseVerifyRatePerMin 1) monotonic
  constructor
  · intro key hkey
    rw [hits_verifyLicense, hits_verifyLicense]
    by_cases heq : key = "license-verify:" ++ clientIp ip settings request
    · rw [heq]
      exact hsame
    · rw [rateOk_other _ heq, rateOk_other _ heq, hkey]
  · unfold verifyLicense
    simp only [hok]
    split
    · rfl
    · rfl

/-- A call that concerns no part of `Q` leaves what is kept for them. -/
theorem sameParts_hidden (host : Host) {s : App} {c : Call F} {calls : List (Call F)}
    (h : Orderly s (c :: calls)) (hc : (concerns Q s.settings c).2 = false) :
    SameParts Q (App.serve host s c).1 s := by
  have hrefl : SameParts Q s s := ⟨rfl, SameService.refl Q _, fun _ => rfl, fun _ => rfl⟩
  cases c with
  | restart settings => cases hc
  | intake e =>
      exact ⟨rfl, sameService_serve F (host.deploy s.settings) h.nodup hc, fun _ => rfl,
        fun _ => rfl⟩
  | verify request token tick now =>
      have hQ : Q .verify = false := hc
      refine ⟨rfl, ⟨rfl, fun key hkey => ?_⟩, fun _ => rfl, fun _ => rfl⟩
      have hne : key ≠ "license-verify:" ++ clientIp host.ip s.settings request := by
        rintro rfl
        rw [seesKey_append (p := .verify) rfl, hQ] at hkey
        exact Bool.false_ne_true hkey
      have hhits : (App.serve host s (.verify (F := F) request token tick now)).1.service.hits =
          (rateOk s.service.hits ("license-verify:" ++ clientIp host.ip s.settings request)
            (max s.settings.licenseVerifyRatePerMin 1) tick).2 := hits_verifyLicense ..
      rw [hhits]
      exact rateOk_other _ hne _ _
  | register request token now draw =>
      refine ⟨rfl, SameService.refl Q _, fun _ => rfl, fun hQ => ?_⟩
      obtain ⟨failure, hgate⟩ := refused_of_behind hc hQ
      have hkeep : (App.serve host s (.register (F := F) request token now draw)).1.licenses =
          (orKeep s.licenses (postRegister F host.crypto host.backend s.settings request
            s.licenses token now draw)).1 := rfl
      rw [hkeep, postRegister, hgate]
      rfl
  | upload request body draw =>
      refine ⟨rfl, SameService.refl Q _, fun hQ => ?_, fun _ => rfl⟩
      obtain ⟨failure, hgate⟩ := refused_of_behind hc hQ
      have hkeep : (App.serve host s (.upload request body draw)).1.releases =
          (uploadStep host.crypto host.backend s.releases
            ⟨s.settings, request, body, draw⟩).1 := rfl
      rw [hkeep, uploadStep, hgate]
      rfl
  | _ => exact hrefl

/-- A call that concerns a part of `Q` is answered from what is kept for it. -/
theorem sameParts_visible (host : Host) {s s' : App} {c : Call F} {calls : List (Call F)}
    (h : SameParts Q s s') (ho : Orderly s (c :: calls)) (ho' : Orderly s' (c :: calls))
    (hc : (concerns Q s.settings c).2 = true) :
    SameParts Q (App.serve host s c).1 (App.serve host s' c).1 ∧
      (App.serve host s c).2 = (App.serve host s' c).2 := by
  obtain ⟨settings, service, releases, licenses⟩ := s
  obtain ⟨settings', service', releases', licenses'⟩ := s'
  obtain ⟨rfl, hservice, hreleases, hlicenses⟩ := h
  simp only at hservice hreleases hlicenses hc
  cases c with
  | restart settings' =>
      exact ⟨⟨rfl, ⟨hservice.tickets, fun _ _ => rfl⟩, hreleases, hlicenses⟩, rfl⟩
  | intake e =>
      obtain ⟨hafter, hanswer⟩ := alikeParts_serve F (host.deploy settings) hservice ho.fresh
        ho'.fresh hc
      exact ⟨⟨rfl, hafter, hreleases, hlicenses⟩, congrArg (Except.map Answer.filed) hanswer⟩
  | byOrigin request originLocalId =>
      have hQ : Q .forward = true := sees_of_behind hc
      have hfind : getTicketByOriginLocalId service.tickets originLocalId =
          getTicketByOriginLocalId service'.tickets originLocalId := by
        rw [← getTicketByOriginLocalId_ticketsOf ho.boxes hQ, hservice.tickets,
          getTicketByOriginLocalId_ticketsOf ho'.boxes hQ]
      refine ⟨⟨rfl, hservice, hreleases, hlicenses⟩, ?_⟩
      have hroute : getTicketByOriginRoute F service.tickets originLocalId =
          getTicketByOriginRoute F service'.tickets originLocalId := by
        rw [getTicketByOriginRoute, getTicketByOriginRoute, hfind]
      exact congrArg (fun r => admin settings request (r.map Answer.ticket)) hroute
  | verify request token tick now =>
      have hQ : Q .verify = true := hc
      have hkey := hservice.hits ("license-verify:" ++ clientIp host.ip settings request)
        ((seesKey_append (p := .verify) rfl Q _).mpr hQ)
      obtain ⟨hhits, hanswer⟩ := verifyLicense_congr (F := F) host.crypto host.ip settings
        request token tick now hkey
      exact ⟨⟨rfl, ⟨hservice.tickets, fun key hsees => hhits key (hservice.hits key hsees)⟩,
        hreleases, hlicenses⟩, congrArg (Except.map Answer.verified) hanswer⟩
  | register request token now draw =>
      obtain rfl := hlicenses (sees_of_behind hc)
      exact ⟨⟨rfl, hservice, hreleases, fun _ => rfl⟩, rfl⟩
  | registered request customerRef =>
      obtain rfl := hlicenses (sees_of_behind hc)
      exact ⟨⟨rfl, hservice, hreleases, hlicenses⟩, rfl⟩
  | manifest channel =>
      obtain rfl := hreleases hc
      exact ⟨⟨rfl, hservice, hreleases, hlicenses⟩, rfl⟩
  | upload request body draw =>
      obtain rfl := hreleases (sees_of_behind hc)
      exact ⟨⟨rfl, hservice, fun _ => rfl, hlicenses⟩, rfl⟩
  | _ => cases hc

/-! ### Runs -/

/-- The calls of a run that concern a part of `Q`, and the restarts. -/
def concerning (Q : Part → Bool) (settings : Settings) (calls : List (Call F)) :
    List (Call F) :=
  Transition.selected (concerns Q) id settings calls

/-- The parts are separate.  In every run, the answers to the calls that concern
a part of `Q` are those of the run in which only these calls are made, and what
the application keeps for these parts is the same at the end: the tickets of
their sources, the buckets of their limiter keys and their tables. -/
theorem parts_separate (Q : Part → Bool) (host : Host) {start : App}
    {calls : List (Call F)} (hstart : Orderly start calls) :
    Transition.watched (concerns Q) (App.serve host) start.settings start calls =
        Transition.answers (App.serve host) start (concerning Q start.settings calls) ∧
      SameParts Q (Transition.after (App.serve host) start calls)
        (Transition.after (App.serve host) start (concerning Q start.settings calls)) := by
  let R : Settings → App → App → List (Call F) → Prop := fun settings s s' calls =>
    settings = s.settings ∧ SameParts Q s s' ∧ Orderly s calls ∧ Orderly s' calls
  have hsettings : ∀ (s : App) (c : Call F),
      (concerns Q s.settings c).1 = (App.serve host s c).1.settings := by
    intro s c
    cases c <;> rfl
  have hhidden : ∀ w s s' (c : Call F) calls, (concerns Q w c).2 = false →
      R w s s' (c :: calls) → R (concerns Q w c).1 (App.serve host s c).1 s' calls := by
    rintro w s s' c calls hc ⟨rfl, hsame, ho, ho'⟩
    have hkeep := sameParts_hidden host ho hc
    exact ⟨hsettings s c, hkeep.trans hsame, ho.serve, ho'.skip⟩
  have hvisible : ∀ w s s' (c : Call F) calls, (concerns Q w c).2 = true →
      R w s s' (c :: calls) →
      R (concerns Q w c).1 (App.serve host s c).1 (App.serve host s' c).1 calls ∧
        (App.serve host s c).2 = (App.serve host s' c).2 := by
    rintro w s s' c calls hc ⟨rfl, hsame, ho, ho'⟩
    obtain ⟨hafter, hanswer⟩ := sameParts_visible host hsame ho ho' hc
    exact ⟨⟨hsettings s c, hafter, ho.serve, ho'.serve⟩, hanswer⟩
  have hrefl : R start.settings start start calls :=
    ⟨rfl, ⟨rfl, SameService.refl Q _, fun _ => rfl, fun _ => rfl⟩, hstart, hstart⟩
  obtain ⟨⟨_, hsame, _⟩, hanswers⟩ := Transition.unwinding_watched hhidden hvisible hrefl
  exact ⟨hanswers, hsame⟩

end

section

attribute [local instance] FloatView.asFloat Interpreter.ascii

def fleetHost : Host := ⟨recordedKey.crypto, fleet.ip, Backend.sqlite⟩

/-- A box may forward once a minute, and the operator's token is `ops`. -/
def fleetSettings : Settings where
  forwardIntakeTokens := "fleet"
  adminApiTokens := "ops"
  intakeRatePerMin := 1

def operatorRequest : Request := { authorization := some (asciiBytes "Bearer ops") }

/-- A box forwards a crash.  Meanwhile a visitor sends a report of the same
fingerprint, tries a licence, and tries the operator's surface. -/
def besiegedCalls : List (Call FloatView) :=
  [.intake ⟨fleetArrival 0 "SUP-1", .web { title := "mine", fingerprint := some "f" }⟩,
    .intake ⟨fleetArrival 1 "SUP-2",
      .forward { title := "crash", fingerprint := some "f", originLocalId := some "NPX-1" }⟩,
    .verify {} "stolen" 2 1700000000,
    .register {} "stolen" 1700000000 ⟨1, 3⟩,
    .byOrigin operatorRequest "NPX-1"]

/-- Every part but the public ones. -/
def guarded (p : Part) : Bool := decide (p ≠ .web ∧ p ≠ .verify)

/-- The visitor's calls might as well not have been made. -/
theorem parts_separate_besieged :
    (Transition.watched (concerns guarded) (App.serve fleetHost) fleetSettings
        (App.fresh fleetSettings) besiegedCalls).map Except.isOk = [true, true] ∧
      (concerning guarded fleetSettings besiegedCalls).length = 2 ∧
      SameParts guarded
        (Transition.after (App.serve fleetHost) (App.fresh fleetSettings) besiegedCalls)
        (Transition.after (App.serve fleetHost) (App.fresh fleetSettings)
          (concerning guarded fleetSettings besiegedCalls)) := by
  have hstart : Orderly (App.fresh fleetSettings) besiegedCalls :=
    orderly_of_empty rfl (by decide +kernel)
  obtain ⟨hanswers, hsame⟩ := parts_separate guarded fleetHost hstart
  refine ⟨?_, by decide +kernel, hsame⟩
  change Transition.watched (concerns guarded) (App.serve fleetHost) fleetSettings
    (App.fresh fleetSettings) besiegedCalls = _ at hanswers
  rw [hanswers]
  decide +kernel

end

end NetplexSupport
