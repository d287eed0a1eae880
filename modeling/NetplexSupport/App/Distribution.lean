/-
From the signing machine to a box.  A key pair is generated offline, its public part
is configured on the server, a manifest is signed and uploaded; whatever is called
from then on, the channel serves a manifest that every box which holds the key
accepts, until another manifest of the channel is accepted.
-/
import NetplexSupport.App.Provenance
import NetplexSupport.Releases.Upload
import NetplexSupport.Tools.SignRelease

namespace NetplexSupport

open Py

section

variable {F : Type} [PyFloat F] [Interpreter]

/-! ### The channel serves what was uploaded -/

omit [Interpreter] in
/-- The latest row of a channel, behind which no other row of it stands. -/
theorem latestReleaseManifest_of_last {old new : List ReleaseManifest} {row : ReleaseManifest}
    (hids : (old ++ row :: new).Pairwise fun a b => a.id < b.id)
    (hnew : ∀ row' ∈ new, row'.channel ≠ row.channel) :
    latestReleaseManifest (old ++ row :: new) row.channel = some row := by
  have hnone : new.filter (fun row' => decide (row'.channel = row.channel)) = [] := by
    rw [List.filter_eq_nil_iff]
    intro row' hrow'
    simpa using hnew row' hrow'
  rw [latestReleaseManifest, Sql.lastBy_eq_getLast? (hids.sublist List.filter_sublist)]
  simp [List.filter_append, hnone]

/-- What was stored for a manifest is served as that manifest with its members
sorted. -/
theorem getManifest_of_last {old new : List ReleaseManifest} {req : UploadRequest F}
    {channel kid : Str} {draw : RowDraw} (hchannel : channel ∈ channels)
    (hids : (old ++ releaseRow req channel kid draw :: new).Pairwise fun a b => a.id < b.id)
    (hnew : ∀ row ∈ new, row.channel ≠ channel) :
    getManifest (old ++ releaseRow req channel kid draw :: new) channel =
      .ok (.obj (sortedMembers req.manifest)) := by
  have hlawful : storedOpts.Lawful := ⟨⟨[], rfl, by simp⟩, ⟨[], rfl, by simp⟩⟩
  have hreadable : storedOpts.Readable (.obj req.manifest) := req.loaded.2
  have hlatest : latestReleaseManifest (old ++ releaseRow req channel kid draw :: new) channel =
      some (releaseRow req channel kid draw) := latestReleaseManifest_of_last hids hnew
  have hloads : loads (releaseRow req channel kid draw).manifestJson =
      some (.obj (sortedMembers req.manifest)) := by
    rw [← Json.sortKeys_obj]
    exact loads_dumps_sorted hlawful rfl req.loaded.1 hreadable
  rw [getManifest, if_neg (not_not.mpr hchannel), hlatest]
  simp only [hloads]

/-- A signed manifest of a known channel is accepted when its row fits. -/
theorem uploadStep_accepts {C : Crypto} {B : Backend} {rows : List ReleaseManifest}
    {e : Upload F} {trust : TrustStore F} {channel kid : Str}
    (hadmin : requireAdmin e.settings e.request = .ok ()) (hchannel : channel ∈ channels)
    (hget : dictGet e.body.manifest "channel" = some (.str channel))
    (htrust : signingTrustStore C e.settings = .ok trust)
    (hverify : verifyManifest C e.body.manifest trust = .ok (true, kid))
    (hfits : (releaseRow e.body channel kid e.draw).fits B = true) :
    uploadStep C B rows e = (rows ++ [releaseRow e.body channel kid e.draw],
      .ok { accepted := true, channel := channel,
            version := (releaseRow e.body channel kid e.draw).version, keyId := kid }) := by
  have hknown : knownChannel e.channel = .ok (some channel) := by
    rw [Upload.channel, hget, Option.getD_some]
    exact knownChannel_of_mem hchannel
  have hstore : storeReleaseManifest B rows (releaseRow e.body channel kid e.draw) =
      .ok (rows ++ [releaseRow e.body channel kid e.draw]) :=
    storeReleaseManifest_eq_ok.mpr ⟨hfits, rfl⟩
  rw [uploadStep_admin hadmin, uploadManifest_known htrust hknown, hverify]
  simp only [raising, Except.mapError, bind, Except.bind, hstore]
  rfl

/-! ### The whole way -/

/-- From key generation to a box.  The server is given the public key of a generated
pair, a manifest of a known channel is signed with its seed, and an operator uploads
the file: the upload is accepted, and in every run from then on in which no other
upload of the channel is accepted, the channel serves the manifest, signed, and every
box that holds the key accepts it. -/
theorem release_delivered (host : Host) {K : SigningKey} {seed : Bytes}
    (hK : SignsFor host.crypto K seed) (hseed : seed.length = 32)
    (hpub : K.verifyKey seed ≠ []) {name outPath : Str} {manifest : Members F}
    (hloaded : (Json.obj manifest).Loaded) {channel : Str} (hchannel : channel ∈ channels)
    (hget : dictGet manifest "channel" = some (.str channel)) {release : SignedRelease}
    (hrelease : signRelease host.crypto K (genKeypair F host.crypto K name seed).keyFile
      outPath manifest = .ok release)
    (start : App) (past later : List (Call F)) (request : Request) {body : UploadRequest F}
    (hbody : loads release.file = some (.obj body.manifest)) (draw : RowDraw) :
    let s := Transition.after (App.serve host) start past
    let kid := keyIdFor host.crypto (K.verifyKey seed)
    let s' := (App.serve host s (.upload request body draw)).1
    TrustsPair F host.crypto (genKeypair F host.crypto K name seed)
      s.settings.signingTrustStoreJson s.settings.signingPublicKey →
    requireAdmin s.settings request = .ok () →
    (releaseRow body channel kid draw).fits host.backend = true →
    (Transition.after (App.serve host) s' later).releases.Pairwise (fun a b => a.id < b.id) →
    (∀ e ∈ Transition.emitted (App.serve host) (answeredUploads host) s' later,
      e.ofChannel channel = false) →
    (App.serve host s (.upload request body draw)).2.isOk = true ∧
      ∃ served : Members F,
        (App.serve host (Transition.after (App.serve host) s' later) (.manifest channel)).2 =
          .ok (.manifest (.obj served)) ∧
        (Json.obj (payload served)).Same (.obj (payload manifest)) ∧
        ∀ box : TrustStore F, box.Holds kid (K.verifyKey seed) →
          verifyManifest host.crypto served box = .ok (true, kid) := by
  intro s kid s' htrusts hadmin hfits hids hlater
  obtain ⟨signed, hsigned, hfile, _, hsame⟩ :=
    signRelease_spec (readSeed_keyFile host.crypto K name seed) hseed hloaded hrelease
  obtain rfl : signed = body.manifest :=
    Json.obj.inj (Option.some.inj (hfile.symm.trans hbody))
  obtain ⟨trust, htrust, hholds⟩ := htrusts.holds hpub
  have hbodyChannel : dictGet body.manifest "channel" = some (.str channel) := by
    rw [dictGet_signClaims hsigned (by decide), dictGet_payload manifest (by decide)]
    exact hget
  have hverify := verifyManifest_signClaims hK hsigned hholds
  have hstep : uploadStep host.crypto host.backend s.releases
      ⟨s.settings, request, body, draw⟩ =
        (s.releases ++ [releaseRow body channel kid draw],
          .ok { accepted := true, channel := channel,
                version := (releaseRow body channel kid draw).version, keyId := kid }) :=
    uploadStep_accepts hadmin hchannel hbodyChannel htrust hverify hfits
  have hrow : s'.releases = s.releases ++ [releaseRow body channel kid draw] :=
    congrArg Prod.fst hstep
  obtain ⟨new, hnew, hpublished⟩ :=
    Transition.ledger_after (releases_serve (F := F) host) s' later
  have hafter : (Transition.after (App.serve host) s' later).releases =
      s.releases ++ releaseRow body channel kid draw :: new := by
    rw [hnew, hrow, List.append_assoc, List.singleton_append]
  have hothers : ∀ row ∈ new, row.channel ≠ channel := by
    intro row hmem heq
    obtain ⟨e, he, hwrites⟩ := exists_mem_of_forall₂ hpublished hmem
    have hno := hlater e he
    rw [(ofChannel_iff hwrites.2 channel).mpr (decide_eq_true heq)] at hno
    cases hno
  refine ⟨?_, sortedMembers body.manifest, ?_, ?_, fun box hbox => ?_⟩
  · have hanswer : (App.serve host s (.upload request body draw)).2 =
        (uploadStep host.crypto host.backend s.releases ⟨s.settings, request, body, draw⟩).2.map
          .uploaded := rfl
    rw [hanswer, hstep]
    rfl
  · rw [hafter] at hids
    have hserved := getManifest_of_last (F := F) hchannel hids hothers
    rw [← hafter] at hserved
    exact congrArg (Except.map Answer.manifest) hserved
  · obtain ⟨message, hmessage, _⟩ := signClaims_eq_ok.mp hsigned
    rw [canonicalBytes, payload_payload, ← canonicalBytes] at hmessage
    have hbytes : canonicalBytes (sortedMembers body.manifest) = .ok message := by
      rw [canonicalBytes_sortedMembers body.loaded.1, canonicalBytes, hsame, ← canonicalBytes]
      exact hmessage
    have hsorted : (Json.obj (sortedMembers body.manifest)).Keyed := by
      rw [← Json.sortKeys_obj]
      exact Json.keyed_sortKeys body.loaded.1
    exact same_of_canonicalBytes hsorted hloaded.1 hbytes hmessage
  · exact verifyManifest_sortedMembers body.loaded.1
      (verifyManifest_signClaims hK hsigned hbox)

end

section

attribute [local instance] FloatView.asFloat Interpreter.ascii

/-- The server has the content of the `.pub` file. -/
def pairSettings : Settings where
  signingPublicKey := b64e (recordedKey.signingKey.verifyKey recordedKey.seed)
  adminApiTokens := "ops"

/-- The process is restarted without its keys, and the manifest is still served. -/
theorem release_delivered_stable :
    ∃ (release : SignedRelease) (body : UploadRequest FloatView) (served : Members FloatView),
      signRelease recordedKey.crypto recordedKey.signingKey
          (genKeypair FloatView recordedKey.crypto recordedKey.signingKey "netplex-signing"
            recordedKey.seed).keyFile "signed-manifest.json" stableManifest = .ok release ∧
        loads release.file = some (.obj body.manifest) ∧
        (App.serve fleetHost (Transition.after (App.serve fleetHost) (App.fresh pairSettings)
          [.upload operatorRequest body ⟨1, 0⟩, .restart {}]) (.manifest "stable")).2 =
          .ok (.manifest (.obj served)) ∧
        (Json.obj (payload served)).Same (.obj (payload stableManifest)) := by
  have hrun : (signRelease recordedKey.crypto recordedKey.signingKey
      (genKeypair FloatView recordedKey.crypto recordedKey.signingKey "netplex-signing"
        recordedKey.seed).keyFile "signed-manifest.json" stableManifest >>= fun _ => .ok ()) =
      .ok () := by decide +kernel
  obtain ⟨release, hrelease, _⟩ := bind_eq_ok.mp hrun
  have hseed : recordedKey.seed.length = 32 := by decide +kernel
  have hloaded : (Json.obj stableManifest).Loaded := ⟨by decide +kernel, by decide +kernel⟩
  obtain ⟨signed, _, hfile, hsigned, _⟩ := signRelease_spec
    (readSeed_keyFile (F := FloatView) _ _ _ _) hseed hloaded hrelease
  let body : UploadRequest FloatView := ⟨signed, hsigned⟩
  let start : App := App.fresh pairSettings
  let uploaded : App := (App.serve fleetHost start (.upload operatorRequest body ⟨1, 0⟩)).1
  have hrows : uploaded.releases.length ≤ 1 := by
    rcases uploadStep_published fleetHost [] ⟨pairSettings, operatorRequest, body, ⟨1, 0⟩⟩ with
      ⟨row, answer, _, hstep⟩ | ⟨failure, hstep⟩
    · exact (congrArg (fun r => r.1.length) hstep).le
    · exact (congrArg (fun r => r.1.length) hstep).le.trans (Nat.zero_le 1)
  have hids : (Transition.after (App.serve (F := FloatView) fleetHost) uploaded
      [.restart {}]).releases.Pairwise fun a b => a.id < b.id := by
    have hsame : (Transition.after (App.serve (F := FloatView) fleetHost) uploaded
        [.restart {}]).releases = uploaded.releases := rfl
    rw [hsame]
    rcases hlist : uploaded.releases with _ | ⟨row, _ | ⟨row', rest⟩⟩
    · exact List.Pairwise.nil
    · exact List.pairwise_singleton _ _
    · rw [hlist, List.length_cons, List.length_cons] at hrows
      omega
  obtain ⟨_, served, hserved, hpayload, _⟩ :=
    release_delivered fleetHost recordedKey_signsFor hseed (by decide +kernel) hloaded
      (by decide : Str.ofString "stable" ∈ channels) rfl hrelease start [] [.restart {}]
      operatorRequest hfile ⟨1, 0⟩ (.single (by decide +kernel) (strip_line _).symm)
      (by decide +kernel) rfl hids (by simp [Transition.emitted, answeredUploads])
  exact ⟨release, body, served, hrelease, hfile, hserved, hpayload⟩

end

end NetplexSupport
