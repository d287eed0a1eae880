/-
How one upload ends.  The channel is looked up in a set and the key id in a dict
before anything is verified, and a list or a dict can be looked up in neither;
every other manifest is stored or rejected, if the database can hold its row.
-/
import NetplexSupport.Licensing.Hostile
import NetplexSupport.Releases.Registry

namespace NetplexSupport

open Py

section

variable {F : Type} [PyFloat F] [Interpreter]

omit [PyFloat F] [Interpreter] in
/-- `manifest.get("channel")`. -/
def Upload.channel (e : Upload F) : Json F := (dictGet e.body.manifest "channel").getD .null

omit [PyFloat F] [Interpreter] in
theorem knownChannel_isOk_iff {j : Json F} :
    (∃ known, knownChannel j = .ok known) ↔ j.hashError = none := by
  cases j with
  | str c => exact ⟨fun _ => rfl, fun _ => ⟨_, rfl⟩⟩
  | arr items => simp [knownChannel, Json.hashError]
  | obj members => simp [knownChannel, Json.hashError]
  | null | bool | int | float => exact ⟨fun _ => rfl, fun _ => ⟨none, rfl⟩⟩

omit [PyFloat F] [Interpreter] in
theorem knownChannel_of_mem {c : Str} (hc : c ∈ channels) :
    knownChannel (.str c : Json F) = .ok (some c) := by
  simp only [knownChannel, if_pos hc]

omit [PyFloat F] [Interpreter] in
theorem dictGet_of_channel {e : Upload F} {c : Str} (h : e.channel = .str c) :
    dictGet e.body.manifest "channel" = some (.str c) := by
  unfold Upload.channel at h
  rcases hget : dictGet e.body.manifest "channel" with _ | j
  · rw [hget] at h
    cases h
  · rw [hget, Option.getD_some] at h
    rw [h]

/-! ### The branches of the handler -/

theorem uploadManifest_raises {C : Crypto} {B : Backend} {rows : List ReleaseManifest}
    {e : Upload F} {exc : Exc} (h : knownChannel e.channel = .error exc) :
    uploadManifest C B e.settings rows e.body e.draw = .error (.raised exc) := by
  unfold Upload.channel at h
  simp only [uploadManifest, h]
  rfl

theorem uploadManifest_unknown {C : Crypto} {B : Backend} {rows : List ReleaseManifest}
    {e : Upload F} (h : knownChannel e.channel = .ok none) :
    ∃ detail, uploadManifest C B e.settings rows e.body e.draw =
      .error (.http 400 detail) := by
  unfold Upload.channel at h
  simp only [uploadManifest, h]
  exact ⟨_, rfl⟩

section

variable {C : Crypto} {B : Backend} {rows : List ReleaseManifest} {e : Upload F}
  {trust : TrustStore F} {c : Str}

/-- Behind the channel check, the answer of `verify_manifest` decides. -/
theorem uploadManifest_known (hstore : signingTrustStore C e.settings = .ok trust)
    (h : knownChannel e.channel = .ok (some c)) :
    uploadManifest C B e.settings rows e.body e.draw =
      (raising (verifyManifest C e.body.manifest trust) >>= fun answer =>
        if !answer.1 then .error (.http 400 ("signature rejected: " ++ answer.2))
        else (raising (storeReleaseManifest B rows (releaseRow e.body c answer.2 e.draw))).map
          fun stored => ({ accepted := true, channel := c,
                           version := ((dictGet e.body.manifest "version").getD (.str "")).pyStr,
                           keyId := answer.2 }, stored)) := by
  have hverify : (do verifyManifest C e.body.manifest (← signingTrustStore C e.settings)) =
      verifyManifest C e.body.manifest trust := by
    rw [hstore]
    rfl
  unfold Upload.channel at h
  simp only [uploadManifest, h, hverify]
  rcases verifyManifest C e.body.manifest trust with exc | ⟨ok, reason⟩
  · rfl
  · cases ok with
    | false => rfl
    | true =>
        simp only [raising, Except.mapError, bind, Except.bind, Bool.not_true,
          Bool.false_eq_true, if_false, releaseRow]
        cases storeReleaseManifest B rows _ with
        | error exc => rfl
        | ok stored => rfl

end

/-! ### Uploads that end cleanly -/

/-- The row and the answer of an accepted upload carry the channel, the version
and the key id of the manifest, and the manifest verifies under that key id. -/
structure AcceptedUpload (C : Crypto) (e : Upload F) (row : ReleaseManifest)
    (answer : UploadResult) : Prop where
  channel : dictGet e.body.manifest "channel" = some (.str row.channel)
  version : row.version = ((dictGet e.body.manifest "version").getD (.str "")).pyStr
  keyId : ∃ sigblock, dictGet e.body.manifest "signature" = some (.obj sigblock) ∧
    dictGet sigblock "key_id" = some (.str row.keyId)
  verified : ∃ trust, signingTrustStore C e.settings = .ok trust ∧
    verifyManifest C e.body.manifest trust = .ok (true, row.keyId)
  answered : answer = { accepted := true, channel := row.channel, version := row.version,
                        keyId := row.keyId }

/-- The upload appends its row and is accepted, or it is answered with 400 and
nothing is written. -/
def CleanUpload (C : Crypto) (B : Backend) (rows : List ReleaseManifest) (e : Upload F) :
    Prop :=
  (∃ row answer, uploadStep C B rows e = (rows ++ [row], .ok answer) ∧
    AcceptedUpload C e row answer) ∨
  ∃ detail, uploadStep C B rows e = (rows, .error (.http 400 detail))

/-- Nothing the upload looks up is a list or a dict, and its row fits. -/
structure UploadReadable (C : Crypto) (B : Backend) (e : Upload F) : Prop where
  channel : e.channel.hashError = none
  keyId : (∃ c ∈ channels, e.channel = .str c) →
    ∀ kid ∈ lookedUp C e.body.manifest, kid.hashError = none
  fits : ∀ row, Publishes C e row → row.fits B = true

theorem uploadStep_admin {C : Crypto} {B : Backend} {rows : List ReleaseManifest}
    {e : Upload F} (hadmin : requireAdmin e.settings e.request = .ok ()) :
    uploadStep C B rows e =
      orKeep rows (uploadManifest C B e.settings rows e.body e.draw) := by
  rw [uploadStep, hadmin]
  rfl

theorem not_clean_of_raised {C : Crypto} {B : Backend} {rows : List ReleaseManifest}
    {e : Upload F} {exc : Exc} (h : uploadStep C B rows e = (rows, .error (.raised exc))) :
    ¬ CleanUpload C B rows e := by
  rintro (⟨row, answer, hstep, -⟩ | ⟨detail, hstep⟩)
  · exact nomatch (Prod.mk.inj (h.symm.trans hstep)).2
  · exact nomatch (Prod.mk.inj (h.symm.trans hstep)).2

section

variable {C : Crypto} {B : Backend} {rows : List ReleaseManifest} {e : Upload F}
  {trust : TrustStore F}

theorem accepted_releaseRow (hstore : signingTrustStore C e.settings = .ok trust) {c kid : Str}
    (hchannel : e.channel = .str c)
    (hverify : verifyManifest C e.body.manifest trust = .ok (true, kid)) :
    AcceptedUpload C e (releaseRow e.body c kid e.draw)
      { accepted := true, channel := c,
        version := ((dictGet e.body.manifest "version").getD (.str "")).pyStr,
        keyId := kid } where
  channel := dictGet_of_channel hchannel
  version := rfl
  keyId := by
    obtain ⟨sigblock, pub, hsignature, hnames, hholds, -⟩ := verifyManifest_eq_true_iff.mp hverify
    exact ⟨sigblock, hsignature, dictGet_keyId (fromKeys_of_settings hstore) hnames hholds⟩
  verified := ⟨trust, hstore, hverify⟩
  answered := rfl

/-- Behind the channel check, an upload ends cleanly exactly when the key id can
be looked up and the row fits. -/
theorem clean_of_known (hadmin : requireAdmin e.settings e.request = .ok ())
    (hstore : signingTrustStore C e.settings = .ok trust) {c : Str} (hc : c ∈ channels)
    (hchannel : e.channel = .str c) :
    CleanUpload C B rows e ↔
      (∀ kid ∈ lookedUp C e.body.manifest, kid.hashError = none) ∧
        ∀ row, Publishes C e row → row.fits B = true := by
  have hstep : uploadStep C B rows e = _ := uploadStep_admin hadmin
  rw [uploadManifest_known hstore (hchannel ▸ knownChannel_of_mem hc)] at hstep
  rw [← verifyManifest_ok_iff (fromKeys_of_settings hstore)]
  rcases hverify : verifyManifest C e.body.manifest trust with exc | ⟨ok, kid⟩
  · rw [hverify] at hstep
    exact iff_of_false (not_clean_of_raised hstep) (by simp)
  rw [hverify] at hstep
  have hpublishes : ∀ row, Publishes C e row ↔
      ok = true ∧ row = releaseRow e.body c kid e.draw := by
    intro row
    constructor
    · rintro ⟨trust', c', kid', -, hchannel', hstore', hverify', rfl⟩
      obtain rfl := Except.ok.inj (hstore.symm.trans hstore')
      obtain ⟨rfl, rfl⟩ := Prod.mk.inj (Except.ok.inj (hverify.symm.trans hverify'))
      obtain rfl : c = c' := by
        simpa [dictGet_of_channel hchannel] using hchannel'
      exact ⟨rfl, rfl⟩
    · rintro ⟨rfl, rfl⟩
      exact ⟨trust, c, kid, hc, dictGet_of_channel hchannel, hstore, hverify, rfl⟩
  cases ok with
  | false => exact iff_of_true (Or.inr ⟨_, hstep⟩) ⟨⟨_, rfl⟩, fun row h => by simp_all⟩
  | true =>
      change _ = orKeep rows
        ((raising (storeReleaseManifest B rows (releaseRow e.body c kid e.draw))).map _) at hstep
      by_cases hfits : (releaseRow e.body c kid e.draw).fits B = true
      · have hstored := storeReleaseManifest_eq_ok.mpr
          ⟨hfits, (rfl : rows ++ [releaseRow e.body c kid e.draw] = _)⟩
        rw [hstored] at hstep
        refine iff_of_true (Or.inl ⟨_, _, hstep, accepted_releaseRow hstore hchannel hverify⟩)
          ⟨⟨_, rfl⟩, fun row h => ?_⟩
        obtain ⟨-, rfl⟩ := (hpublishes row).mp h
        exact hfits
      · have hstored : storeReleaseManifest B rows (releaseRow e.body c kid e.draw) =
            .error dataError := if_neg hfits
        rw [hstored] at hstep
        exact iff_of_false (not_clean_of_raised hstep)
          fun h => hfits (h.2 _ ((hpublishes _).mpr ⟨rfl, rfl⟩))

end

/-- An administrator's upload ends cleanly exactly when its channel is no list
and no dict, nor is the key id that is then looked up, and its row fits. -/
theorem clean_upload_iff {C : Crypto} {B : Backend} {rows : List ReleaseManifest}
    {e : Upload F} {trust : TrustStore F}
    (hadmin : requireAdmin e.settings e.request = .ok ())
    (hstore : signingTrustStore C e.settings = .ok trust) :
    CleanUpload C B rows e ↔ UploadReadable C B e := by
  have hstep : uploadStep C B rows e = _ := uploadStep_admin hadmin
  rcases hknown : knownChannel e.channel with exc | _ | c
  · rw [uploadManifest_raises hknown] at hstep
    refine iff_of_false (not_clean_of_raised hstep) fun h => ?_
    obtain ⟨known, hok⟩ := knownChannel_isOk_iff.mpr h.channel
    rw [hknown] at hok
    cases hok
  · obtain ⟨detail, hupload⟩ : ∃ detail, uploadManifest C B e.settings rows e.body e.draw =
        .error (.http 400 detail) := uploadManifest_unknown hknown
    rw [hupload] at hstep
    have hnone : ¬ ∃ c ∈ channels, e.channel = .str c := by
      rintro ⟨c, hc, hchannel⟩
      rw [hchannel, knownChannel_of_mem hc] at hknown
      cases hknown
    refine iff_of_true (Or.inr ⟨detail, hstep⟩)
      ⟨knownChannel_isOk_iff.mp ⟨_, hknown⟩, fun h => absurd h hnone, ?_⟩
    rintro row ⟨-, c, -, hc, hchannel, -⟩
    exact absurd ⟨c, hc, by rw [Upload.channel, hchannel]; rfl⟩ hnone
  · obtain ⟨hchannel, hc⟩ := knownChannel_eq_some hknown
    rw [clean_of_known hadmin hstore hc hchannel]
    constructor
    · rintro ⟨hkid, hfits⟩
      exact ⟨knownChannel_isOk_iff.mp ⟨_, hknown⟩, fun _ => hkid, hfits⟩
    · intro h
      exact ⟨h.keyId ⟨c, hc, hchannel⟩, h.fits⟩

end

section

attribute [local instance] FloatView.asFloat Interpreter.ascii

theorem loaded_recordedManifest : (Json.obj recordedManifest).Loaded :=
  ⟨by decide +kernel, by decide +kernel⟩

/-- An administrator uploads the recorded manifest. -/
def recordedUpload : Upload FloatView where
  settings := releaseSettings
  request := adminRequest
  body := ⟨recordedManifest, loaded_recordedManifest⟩
  draw := ⟨2, 20⟩

/-- The recorded manifest, on a database that does not enforce its widths. -/
theorem clean_upload_recorded :
    CleanUpload recordedKey.crypto Backend.sqlite [] recordedUpload := by
  have hrun : (requireAdmin recordedUpload.settings recordedUpload.request >>= fun _ =>
      raising (signingTrustStore (F := FloatView) recordedKey.crypto recordedUpload.settings)
        >>= fun _ => .ok ()) = .ok () := by decide +kernel
  obtain ⟨_, hadmin, hrun⟩ := bind_eq_ok.mp hrun
  obtain ⟨trust, hstore, -⟩ := bind_eq_ok.mp hrun
  have hchannel : recordedUpload.channel.hashError = none := by decide +kernel
  have hlooked : (lookedUp recordedKey.crypto recordedUpload.body.manifest).all
      (fun kid => decide (kid.hashError = none)) = true := by decide +kernel
  rw [Option.all_eq_true] at hlooked
  apply (clean_upload_iff (e := recordedUpload) hadmin (raising_eq_ok.mp hstore)).mpr
  exact ⟨hchannel, fun _ kid hkid => of_decide_eq_true (hlooked kid hkid), fun row _ => rfl⟩

/-- A manifest whose channel is a list. -/
def listedChannel : Upload FloatView where
  settings := releaseSettings
  request := adminRequest
  body := ⟨[("channel", .arr [])], by decide +kernel, by decide +kernel⟩
  draw := ⟨1, 10⟩

/-- The membership test raises, and the upload is neither accepted nor rejected. -/
theorem clean_upload_listed :
    requireAdmin listedChannel.settings listedChannel.request = .ok () ∧
      (signingTrustStore (F := FloatView) recordedKey.crypto listedChannel.settings).isOk ∧
      ¬ CleanUpload recordedKey.crypto Backend.sqlite [] listedChannel := by
  have hraised : uploadStep recordedKey.crypto Backend.sqlite [] listedChannel =
      ([], .error (.raised ⟨.typeError, "unhashable type: 'list'"⟩)) := by
    rw [uploadStep_admin (by decide +kernel), uploadManifest_raises rfl]
    rfl
  exact ⟨by decide +kernel, by decide +kernel, not_clean_of_raised hraised⟩

end

end NetplexSupport
