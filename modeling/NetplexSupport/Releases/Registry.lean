/-
The release registry over runs of uploads: the table is append-only, and the
manifest served for a channel is the last one accepted for it, in another
serialisation than the one that was signed.
-/
import NetplexSupport.Crypto.Acceptance
import NetplexSupport.Routers.Releases
import NetplexSupport.Transition.Journal

namespace NetplexSupport

open Py

section

variable {F : Type} [PyFloat F] [Interpreter]

/-! ### One upload -/

/-- The row of an accepted manifest. -/
def releaseRow (req : UploadRequest F) (channel kid : Str) (draw : RowDraw) :
    ReleaseManifest where
  id := draw.id
  channel := channel
  version := ((dictGet req.manifest "version").getD (.str "")).pyStr
  keyId := kid
  manifestJson := dumps storedOpts (.obj req.manifest)
  uploadedAt := draw.stamp

/-- The upload names a known channel, verifies under the trust store in force,
and this is its row. -/
def Publishes (C : Crypto) (e : Upload F) (row : ReleaseManifest) : Prop :=
  ∃ (trust : TrustStore F) (channel kid : Str), channel ∈ channels ∧
    dictGet e.body.manifest "channel" = some (.str channel) ∧
    signingTrustStore C e.settings = .ok trust ∧
    verifyManifest C e.body.manifest trust = .ok (true, kid) ∧
    row = releaseRow e.body channel kid e.draw

omit [PyFloat F] [Interpreter] in
theorem knownChannel_eq_some {j : Json F} {channel : Str}
    (h : knownChannel j = .ok (some channel)) : j = .str channel ∧ channel ∈ channels := by
  cases j with
  | str c =>
      by_cases hc : c ∈ channels
      · simp only [knownChannel, hc, if_true, Except.ok.injEq, Option.some.injEq] at h
        exact ⟨congrArg _ h, h ▸ hc⟩
      · simp [knownChannel, hc] at h
  | null | bool | int | float | arr | obj => simp [knownChannel, Json.hashError] at h

/-- A manifest that is stored names a known channel and verifies. -/
theorem uploadManifest_eq_ok {C : Crypto} {B : Backend} {settings : Settings}
    {rows rows' : List ReleaseManifest} {req : UploadRequest F} {draw : RowDraw}
    {answer : UploadResult}
    (h : uploadManifest C B settings rows req draw = .ok (answer, rows')) :
    ∃ (trust : TrustStore F) (channel kid : Str), channel ∈ channels ∧
      dictGet req.manifest "channel" = some (.str channel) ∧
      signingTrustStore C settings = .ok trust ∧
      verifyManifest C req.manifest trust = .ok (true, kid) ∧
      rows' = rows ++ [releaseRow req channel kid draw] := by
  unfold uploadManifest at h
  obtain ⟨known, hknown, h⟩ := bind_eq_ok.mp h
  rw [raising_eq_ok] at hknown
  rcases known with _ | channel
  · cases h
  obtain ⟨⟨ok, kid⟩, hverify, h⟩ := bind_eq_ok.mp h
  rw [raising_eq_ok] at hverify
  obtain ⟨trust, htrust, hverify⟩ := bind_eq_ok.mp hverify
  rcases ok with _ | _
  · cases h
  simp only [Bool.not_true, Bool.false_eq_true, if_false] at h
  obtain ⟨stored, hstored, h⟩ := bind_eq_ok.mp h
  rw [raising_eq_ok, storeReleaseManifest_eq_ok] at hstored
  obtain ⟨_, rfl⟩ := Prod.mk.inj (Except.ok.inj h)
  obtain ⟨hchannel, hmem⟩ := knownChannel_eq_some hknown
  refine ⟨trust, channel, kid, hmem, ?_, htrust, hverify, hstored.2⟩
  rcases hget : dictGet req.manifest "channel" with _ | j
  · rw [hget] at hchannel
    cases hchannel
  · rw [hget, Option.getD_some] at hchannel
    rw [hchannel]

/-- An accepted upload writes its row behind the others; a rejected one writes
nothing. -/
theorem uploadStep_journal (C : Crypto) (B : Backend) :
    Transition.Journal (uploadStep (F := F) C B) (Publishes C) := by
  intro rows e
  rcases orKeep_cases rows (do
    requireAdmin e.settings e.request
    uploadManifest C B e.settings rows e.body e.draw) with
    ⟨answer, rows', hupload, hstep⟩ | ⟨failure, hstep⟩
  · obtain ⟨_, _, hstore⟩ := bind_eq_ok.mp hupload
    obtain ⟨trust, channel, kid, hmem, hchannel, htrust, hverify, rfl⟩ :=
      uploadManifest_eq_ok hstore
    exact Or.inl ⟨_, answer, ⟨trust, channel, kid, hmem, hchannel, htrust, hverify, rfl⟩,
      hstep⟩
  · exact Or.inr ⟨failure, hstep⟩

/-! ### What is served -/

/-- The upload's own `channel` field. -/
def Upload.ofChannel (channel : Str) (e : Upload F) : Bool :=
  ((dictGet e.body.manifest "channel").getD .null).isStr channel

theorem ofChannel_iff {C : Crypto} {e : Upload F} {row : ReleaseManifest}
    (h : Publishes C e row) (channel : Str) :
    e.ofChannel channel = true ↔ decide (row.channel = channel) = true := by
  obtain ⟨trust, c, kid, _, hchannel, _, _, rfl⟩ := h
  rw [Upload.ofChannel, hchannel, Option.getD_some, Json.isStr_iff, decide_eq_true_eq]
  exact Json.str.injEq c channel ▸ Iff.rfl

/-- The stored text loads as the manifest, and still verifies. -/
theorem loads_releaseRow {C : Crypto} {e : Upload F} {row : ReleaseManifest}
    (h : Publishes C e row) :
    ∃ (trust : TrustStore F) (members : Members F),
      loads row.manifestJson = some (.obj members) ∧
      (Json.obj members).Same (.obj e.body.manifest) ∧
      signingTrustStore C e.settings = .ok trust ∧
      verifyManifest C members trust = .ok (true, row.keyId) := by
  obtain ⟨trust, channel, kid, _, _, htrust, hverify, rfl⟩ := h
  obtain ⟨hkeyed, hjoined⟩ := e.body.loaded
  have hlawful : storedOpts.Lawful := ⟨⟨[], rfl, by simp⟩, ⟨[], rfl, by simp⟩⟩
  have hreadable : storedOpts.Readable (.obj e.body.manifest) := hjoined
  refine ⟨trust, sortedMembers e.body.manifest, ?_, ?_, htrust,
    verifyManifest_sortedMembers hkeyed hverify⟩
  · rw [← Json.sortKeys_obj]
    exact loads_dumps_sorted hlawful rfl hkeyed hreadable
  · rw [← Json.sortKeys_obj]
    exact Json.same_sortKeys hkeyed

/-- Every run of uploads, accepted or not: an accepted one appends one row and
nothing else happens to the table, and a channel serves the manifest of its
last accepted upload, which verifies under the store that accepted it, or 404
when it has none. -/
theorem releases_run {C : Crypto} {B : Backend} {events : List (Upload F)}
    (hids : (Transition.after (uploadStep C B) [] events).Pairwise
      fun a b => a.id < b.id) :
    (∀ past e rest, events = past ++ e :: rest →
      let rows := Transition.after (uploadStep C B) [] past
      (∃ row answer, Publishes C e row ∧
        uploadStep C B rows e = (rows ++ [row], .ok answer)) ∨
      ∃ failure, uploadStep C B rows e = (rows, .error failure)) ∧
    ∀ channel ∈ channels,
      let rows := Transition.after (uploadStep C B) [] events
      let last := ((Transition.accepted (uploadStep C B) [] events).filter
        (Upload.ofChannel channel)).getLast?
      (∀ e, last = some e →
        ∃ (row : ReleaseManifest) (trust : TrustStore F) (members : Members F),
          latestReleaseManifest rows channel = some row ∧
          getManifest rows channel = .ok (.obj members) ∧
          (Json.obj members).Same (.obj e.body.manifest) ∧
          signingTrustStore C e.settings = .ok trust ∧
          verifyManifest C members trust = .ok (true, row.keyId)) ∧
      (last = none → ∃ detail, getManifest (F := F) rows channel =
        .error (.http 404 detail)) := by
  have hjournal := uploadStep_journal (F := F) C B
  constructor
  · intro past e rest _
    exact hjournal _ e
  · intro channel hchannel rows last
    have hlast := hjournal.lastBy hids (q := Upload.ofChannel channel)
      fun e row hrow => ofChannel_iff hrow channel
    change Option.Rel _ last (latestReleaseManifest rows channel) at hlast
    rw [getManifest, if_neg (not_not.mpr hchannel)]
    generalize latestReleaseManifest rows channel = latest at hlast ⊢
    generalize last = last' at hlast ⊢
    rcases hlast with ⟨hpublishes⟩ | _
    · refine ⟨fun e he => ?_, nofun⟩
      obtain rfl := Option.some.inj he
      obtain ⟨trust, members, hloads, hsame, htrust, hverify⟩ := loads_releaseRow hpublishes
      refine ⟨_, trust, members, rfl, ?_, hsame, htrust, hverify⟩
      simp only [hloads]
    · constructor
      · intro e he
        cases he
      · exact fun _ => ⟨_, rfl⟩

end

section

attribute [local instance] FloatView.asFloat Interpreter.ascii

def releaseSettings : Settings where
  signingTrustStoreJson := recordedTrustJson
  adminApiTokens := "ops"

def adminRequest : Request := { authorization := some (asciiBytes "Bearer ops") }

/-- An unsigned manifest is rejected, then the recorded one is accepted. -/
def recordedUploads : List (Upload FloatView) :=
  [⟨releaseSettings, adminRequest,
      ⟨[("channel", .str "stable")], by decide +kernel, by decide +kernel⟩, ⟨1, 10⟩⟩,
    ⟨releaseSettings, adminRequest,
      ⟨recordedManifest, by decide +kernel, by decide +kernel⟩, ⟨2, 20⟩⟩]

def recordedRows : List ReleaseManifest :=
  Transition.after (uploadStep recordedKey.crypto Backend.sqlite) [] recordedUploads

/-- The recorded manifest is served for its channel. -/
theorem releases_run_recorded :
    ∃ (e : Upload FloatView) (row : ReleaseManifest) (trust : TrustStore FloatView)
      (members : Members FloatView), latestReleaseManifest recordedRows "stable" = some row ∧
      getManifest recordedRows "stable" = .ok (.obj members) ∧
      (Json.obj members).Same (.obj e.body.manifest) ∧
      signingTrustStore recordedKey.crypto e.settings = .ok trust ∧
      verifyManifest recordedKey.crypto members trust = .ok (true, row.keyId) := by
  obtain ⟨hids, hsome⟩ : (recordedRows.Pairwise fun a b => a.id < b.id) ∧
      ((Transition.accepted (uploadStep recordedKey.crypto Backend.sqlite) []
        recordedUploads).filter (Upload.ofChannel "stable")).getLast?.isSome = true := by
    decide +kernel
  obtain ⟨e, he⟩ := Option.isSome_iff_exists.mp hsome
  have h := (releases_run (C := recordedKey.crypto) (B := Backend.sqlite) hids).2 "stable"
    (by decide)
  exact ⟨e, h.1 e he⟩

end

end NetplexSupport
