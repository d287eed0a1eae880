/-
Keys that no document names.  Listing a key, withdrawing it or giving it another status
is seen by the calls that present a document with its id, and by no others: two servers
whose trust stores differ in such keys alone give the same answers and store the same.
-/
import NetplexSupport.App.Reports
import NetplexSupport.App.Revocation
import NetplexSupport.Crypto.Settings

namespace NetplexSupport

open Py

/-! ### Stores that agree -/

section

variable {F : Type} {C : Crypto} {changed : Str → Bool}

variable (C changed) in
/-- The entries of a list that are not filed under a changed id. -/
def unchangedKeys (keys : List (Json F)) : List (Json F) :=
  keys.filter fun k => (listedKey k).all fun pub => !changed (keyIdFor C pub)

variable (changed) in
/-- The same entry is held under every id that did not change. -/
def AgreeOff (d e : Dict (TrustEntry F)) : Prop :=
  ∀ kid, changed kid = false → dictGet d kid = dictGet e kid

theorem AgreeOff.set {d e : Dict (TrustEntry F)} (h : AgreeOff changed d e) (kid : Str)
    (entry : TrustEntry F) : AgreeOff changed (dictSet d kid entry) (dictSet e kid entry) := by
  intro kid' hkid
  rw [dictGet_dictSet, dictGet_dictSet, h kid' hkid]

theorem AgreeOff.skip {d e : Dict (TrustEntry F)} (h : AgreeOff changed d e) {kid : Str}
    (hkid : changed kid = true) (entry : TrustEntry F) :
    AgreeOff changed (dictSet d kid entry) e := by
  intro kid' hkid'
  have hne : kid' ≠ kid := by
    rintro rfl
    exact absurd (hkid.symm.trans hkid') (by decide)
  rw [dictGet_dictSet, if_neg hne, h kid' hkid']

variable (changed) in
/-- Two stores are not built, for the same reason, or they agree. -/
def SameStores (x y : Except Exc (TrustStore F)) : Prop :=
  (∃ exc, x = .error exc ∧ y = .error exc) ∨
    ∃ a b, x = .ok a ∧ y = .ok b ∧ AgreeOff changed a.entries b.entries

variable [Interpreter]

variable (C) in
/-- The loop of `from_keys`. -/
def fileKeys (keys : List (Json F)) (out : Dict (TrustEntry F)) :
    Except Exc (Dict (TrustEntry F)) :=
  keys.foldlM (fun out k => do
    let e ← entryOf C k
    pure (dictSet out e.1 e.2)) out

theorem fromKeys_eq_fileKeys (keys : List (Json F)) :
    TrustStore.fromKeys C keys = (fileKeys C keys []).map TrustStore.mk := rfl

/-- Without the entries of the changed ids the loop ends alike, in dicts that agree. -/
theorem fileKeys_unchanged (keys : List (Json F)) {d e : Dict (TrustEntry F)}
    (h : AgreeOff changed d e) :
    (∃ exc, fileKeys C keys d = .error exc ∧
      fileKeys C (unchangedKeys C changed keys) e = .error exc) ∨
    ∃ d' e', fileKeys C keys d = .ok d' ∧
      fileKeys C (unchangedKeys C changed keys) e = .ok e' ∧ AgreeOff changed d' e' := by
  induction keys generalizing d e with
  | nil => exact Or.inr ⟨d, e, rfl, rfl, h⟩
  | cons k keys ih =>
      have hrun : ∀ (rest : List (Json F)) (out : Dict (TrustEntry F)),
          fileKeys C (k :: rest) out = entryOf C k >>= fun entry =>
            fileKeys C rest (dictSet out entry.1 entry.2) := fun rest out => by
        rw [fileKeys, List.foldlM_cons, bind_assoc]
        rfl
      rcases hentry : entryOf C k with exc | ⟨kid, entry⟩
      · -- An entry that cannot be read has no id, and stays.
        have hkept : unchangedKeys C changed (k :: keys) =
            k :: unchangedKeys C changed keys := by
          refine List.filter_cons_of_pos ?_
          rcases hlisted : listedKey k with _ | pub
          · rfl
          · obtain ⟨e, he⟩ := entryOf_isOk_iff.mpr
              (wellFormedKey_iff.mpr ⟨pub, _, configures_of_listedKey hlisted⟩)
            cases hentry.symm.trans he
        refine Or.inl ⟨exc, ?_, ?_⟩
        · rw [hrun, hentry]
          rfl
        · rw [hkept, hrun, hentry]
          rfl
      · obtain ⟨pub, hconfigures, -, rfl⟩ := entryOf_eq_ok hentry
        have hnext : fileKeys C (k :: keys) d =
            fileKeys C keys (dictSet d (keyIdFor C pub) entry) := by
          rw [hrun, hentry]
          rfl
        rw [hnext]
        by_cases hchanged : changed (keyIdFor C pub) = true
        · have hdropped : unchangedKeys C changed (k :: keys) =
              unchangedKeys C changed keys :=
            List.filter_cons_of_neg (by simp [hconfigures.listedKey, hchanged])
          rw [hdropped]
          exact ih (h.skip hchanged entry)
        · have hkept : unchangedKeys C changed (k :: keys) =
              k :: unchangedKeys C changed keys :=
            List.filter_cons_of_pos (by simp [hconfigures.listedKey, hchanged])
          rw [hkept, hrun, hentry]
          exact ih (h.set (keyIdFor C pub) entry)

theorem sameStores_of_unchanged {keys keys' : List (Json F)}
    (h : unchangedKeys C changed keys = unchangedKeys C changed keys') :
    SameStores changed (TrustStore.fromKeys C keys) (TrustStore.fromKeys C keys') := by
  have hself : AgreeOff (F := F) changed [] [] := fun _ _ => rfl
  have hfirst := fileKeys_unchanged (C := C) keys hself
  have hsecond := fileKeys_unchanged (C := C) keys' hself
  rw [fromKeys_eq_fileKeys, fromKeys_eq_fileKeys]
  rw [← h] at hsecond
  rcases hfirst with ⟨exc, hkeys, hexc⟩ | ⟨d, e, hkeys, he, hagree⟩
  · rcases hsecond with ⟨exc', hkeys', hexc'⟩ | ⟨_, _, _, he', _⟩
    · obtain rfl := Except.error.inj (hexc.symm.trans hexc')
      rw [hkeys, hkeys']
      exact Or.inl ⟨exc, rfl, rfl⟩
    · cases hexc.symm.trans he'
  · rcases hsecond with ⟨_, _, hexc'⟩ | ⟨d', e', hkeys', he', hagree'⟩
    · cases he.symm.trans hexc'
    · obtain rfl := Except.ok.inj (he.symm.trans he')
      rw [hkeys, hkeys']
      exact Or.inr ⟨⟨d⟩, ⟨d'⟩, rfl, rfl, fun kid hkid =>
        (hagree kid hkid).trans (hagree' kid hkid).symm⟩

/-! ### Documents that name no changed key -/

/-- The signature block of the manifest names the key. -/
def ManifestNames (manifest : Members F) (kid : Str) : Prop :=
  ∃ sigblock, dictGet manifest "signature" = some (.obj sigblock) ∧ NamesKey sigblock kid

variable [PyFloat F]

omit [Interpreter] [PyFloat F] in
theorem TrustStore.entry_agree {a b : TrustStore F} (h : AgreeOff changed a.entries b.entries)
    {j : Json F} (hj : ∀ kid, j = .str kid → changed kid = false) : a.entry j = b.entry j := by
  cases j with
  | str kid => exact congrArg Except.ok (h kid (hj kid rfl))
  | null | bool | int | float | arr | obj => rfl

omit [PyFloat F] [Interpreter] in
theorem namesAlg {sigblock : Members F}
    (h : ((dictGet sigblock "alg").getD .null).isStr ALG = true) :
    dictGet sigblock "alg" = some (.str ALG) := by
  rcases hget : dictGet sigblock "alg" with _ | j
  · rw [hget] at h
    cases h
  · rw [hget] at h
    exact congrArg some (Json.isStr_iff.mp h)

theorem verifyManifest_agree {a b : TrustStore F} (h : AgreeOff changed a.entries b.entries)
    {manifest : Members F} (hnames : ∀ kid, ManifestNames manifest kid → changed kid = false) :
    verifyManifest C manifest a = verifyManifest C manifest b := by
  unfold verifyManifest
  rcases C.VerifyKey with _ | VerifyKey
  · rfl
  · rcases hsignature : dictGet manifest "signature" with _ | j
    · rfl
    · cases j with
      | obj sigblock =>
          simp only
          by_cases halg : ((dictGet sigblock "alg").getD .null).isStr ALG = true
          · have hentry := TrustStore.entry_agree h
              (j := (dictGet sigblock "key_id").getD (.str "")) fun kid hkid =>
                hnames kid ⟨sigblock, hsignature, namesAlg halg, hkid⟩
            simp only [TrustStore.statusOf, TrustStore.publicKey, hentry]
          · simp [halg]
      | null | bool | int | float | str | arr => rfl

omit [Interpreter] in
theorem unchanged_of_loads {token : Str} {claims : Members F}
    (hloads : loads token = some (.obj claims))
    (hnames : ∀ kid, NamesSigner F token kid → changed kid = false) :
    ∀ kid, ManifestNames claims kid → changed kid = false := by
  rintro kid ⟨sigblock, hsignature, hname⟩
  exact hnames kid ⟨claims, sigblock, hloads, hsignature, hname⟩

theorem verifyToken_agree {a b : TrustStore F} (h : AgreeOff changed a.entries b.entries)
    {token : Str} (hnames : ∀ kid, NamesSigner F token kid → changed kid = false) (now : Int) :
    verifyToken C token a now = verifyToken C token b now := by
  unfold verifyToken
  rcases hloads : loads (F := F) token with _ | j
  · rfl
  · cases j with
    | obj claims =>
        simp only
        rw [verifyManifest_agree h (unchanged_of_loads hloads hnames)]
    | null | bool | int | float | str | arr => rfl

end

section

variable {F : Type} [PyFloat F] [Interpreter]

/-! ### Two servers -/

variable (F) in
/-- A trust list that raises does so in both settings alike. -/
def SameFault (trustStoreJson trustStoreJson' : Str) : Prop :=
  ∀ exc, tryLoads (F := F) (Str.strip trustStoreJson) = .error exc ↔
    tryLoads (F := F) (Str.strip trustStoreJson') = .error exc

variable (F) in
/-- The settings differ in their trust lists alone, and there in entries of changed
ids. -/
structure Retrusted (C : Crypto) (changed : Str → Bool) (settings settings' : Settings) :
    Prop where
  rest : settings' = { settings with
    licensePublicKey := settings'.licensePublicKey
    signingPublicKey := settings'.signingPublicKey
    licenseTrustStoreJson := settings'.licenseTrustStoreJson
    signingTrustStoreJson := settings'.signingTrustStoreJson }
  signing : unchangedKeys (F := F) C changed
      (selectedKeys settings.signingTrustStoreJson settings.signingPublicKey) =
    unchangedKeys C changed
      (selectedKeys settings'.signingTrustStoreJson settings'.signingPublicKey)
  signingFault : SameFault F settings.signingTrustStoreJson settings'.signingTrustStoreJson
  license : unchangedKeys (F := F) C changed
      (selectedKeys settings.licenseTrustStoreJson settings.licensePublicKey) =
    unchangedKeys C changed
      (selectedKeys settings'.licenseTrustStoreJson settings'.licensePublicKey)
  licenseFault : SameFault F settings.licenseTrustStoreJson settings'.licenseTrustStoreJson

variable {C : Crypto} {changed : Str → Bool} {settings settings' : Settings}

/-- Settings whose lists differ in entries of changed ids build stores that agree. -/
theorem sameStores_of_settings {trustStoreJson singlePublicKey trustStoreJson'
    singlePublicKey' : Str} (hfault : SameFault F trustStoreJson trustStoreJson')
    (hkeys : unchangedKeys (F := F) C changed (selectedKeys trustStoreJson singlePublicKey) =
      unchangedKeys C changed (selectedKeys trustStoreJson' singlePublicKey')) :
    SameStores (F := F) changed (trustStoreFromSettings C trustStoreJson singlePublicKey)
      (trustStoreFromSettings C trustStoreJson' singlePublicKey') := by
  rw [trustStoreFromSettings_eq, trustStoreFromSettings_eq]
  rcases hparsed : tryLoads (F := F) (Str.strip trustStoreJson) with exc | parsed
  · rw [(hfault exc).mp hparsed]
    exact Or.inl ⟨exc, rfl, rfl⟩
  · rcases hparsed' : tryLoads (F := F) (Str.strip trustStoreJson') with exc | parsed'
    · cases hparsed.symm.trans ((hfault exc).mpr hparsed')
    · exact sameStores_of_unchanged hkeys

theorem Retrusted.signingStores (h : Retrusted F C changed settings settings') :
    SameStores (F := F) changed (signingTrustStore C settings)
      (signingTrustStore C settings') :=
  sameStores_of_settings h.signingFault h.signing

theorem Retrusted.licenseStores (h : Retrusted F C changed settings settings') :
    SameStores (F := F) changed (licenseTrustStore C settings)
      (licenseTrustStore C settings') :=
  sameStores_of_settings h.licenseFault h.license

/-- Everything but the trust lists is read alike. -/
theorem Retrusted.requireAdmin (h : Retrusted F C changed settings settings')
    (request : Request) : requireAdmin settings' request = requireAdmin settings request := by
  rw [h.rest]
  rfl

/-- The call presents a document with the key's id. -/
def Call.Names (c : Call F) (kid : Str) : Prop :=
  match c with
  | .upload _ body _ => ManifestNames body.manifest kid
  | .verify _ token _ _ => NamesSigner F token kid
  | .register _ token _ _ => NamesSigner F token kid
  | .intake ⟨_, .forward report⟩ =>
      ∃ token, report.licenseToken = some token ∧ NamesSigner F token kid
  | _ => False

theorem uploadManifest_retrusted (h : Retrusted F C changed settings settings')
    (B : Backend) (rows : List ReleaseManifest) {body : UploadRequest F}
    (hnames : ∀ kid, ManifestNames body.manifest kid → changed kid = false) (draw : RowDraw) :
    uploadManifest C B settings' rows body draw = uploadManifest C B settings rows body draw := by
  have hverify : (do verifyManifest C body.manifest (← signingTrustStore (F := F) C settings')) =
      (do verifyManifest C body.manifest (← signingTrustStore (F := F) C settings)) := by
    rcases h.signingStores with ⟨exc, hstore, hstore'⟩ | ⟨a, b, hstore, hstore', hagree⟩
    · rw [hstore, hstore']
    · rw [hstore, hstore']
      exact (verifyManifest_agree hagree hnames).symm
  simp only [uploadManifest, hverify]

theorem registerLicense_retrusted (h : Retrusted F C changed settings settings')
    (B : Backend) (rows : List LicenseToken) {token : Str}
    (hnames : ∀ kid, NamesSigner F token kid → changed kid = false) (now : Int)
    (draw : RowDraw) :
    registerLicense F C B settings' rows token now draw =
      registerLicense F C B settings rows token now draw := by
  unfold registerLicense
  rcases h.licenseStores with ⟨exc, hstore, hstore'⟩ | ⟨a, b, hstore, hstore', hagree⟩
  · rw [hstore, hstore']
  · rw [hstore, hstore']
    simp only [raising, Except.mapError, bind, Except.bind]
    rcases hloads : loads (F := F) token with _ | j
    · rfl
    · cases j with
      | obj claims =>
          simp only
          rw [verifyToken_agree hagree hnames,
            verifyManifest_agree hagree (unchanged_of_loads hloads hnames)]
      | null | bool | int | float | str | arr => rfl

theorem verifyLicense_retrusted (h : Retrusted F C changed settings settings')
    (ip : IpAddress) (hits : Hits) (request : Request) {token : Str}
    (hnames : ∀ kid, NamesSigner F token kid → changed kid = false) (tick now : Int) :
    verifyLicense (F := F) C ip settings' hits request token tick now =
      verifyLicense C ip settings hits request token tick now := by
  have hverify : (do verifyToken C token (← licenseTrustStore (F := F) C settings') now) =
      (do verifyToken C token (← licenseTrustStore (F := F) C settings) now) := by
    rcases h.licenseStores with ⟨exc, hstore, hstore'⟩ | ⟨a, b, hstore, hstore', hagree⟩
    · rw [hstore, hstore']
    · rw [hstore, hstore']
      exact (verifyToken_agree hagree hnames now).symm
  unfold verifyLicense
  rw [hverify, h.rest]
  rfl

theorem verifiedLicense_retrusted (h : Retrusted F C changed settings settings')
    (ip : IpAddress) {report : ForwardedReport} (hnames : ∀ kid, ∀ token,
      report.licenseToken = some token → NamesSigner F token kid → changed kid = false)
    (now : Int) :
    verifiedLicense F ⟨C, ip, settings'⟩ report now =
      verifiedLicense F ⟨C, ip, settings⟩ report now := by
  unfold verifiedLicense
  rcases htoken : report.licenseToken with _ | token
  · rfl
  · simp only
    rcases h.licenseStores with ⟨exc, hstore, hstore'⟩ | ⟨a, b, hstore, hstore', hagree⟩
    · rw [hstore, hstore']
    · rw [hstore, hstore']
      simp only [bind, Except.bind,
        verifyToken_agree hagree (fun kid => hnames kid token htoken) now]

theorem serve_intake_retrusted (h : Retrusted F C changed settings settings')
    (ip : IpAddress) (s : Service) {e : Intake}
    (hnames : ∀ kid, (Call.intake (F := F) e).Names kid → changed kid = false) :
    NetplexSupport.serve F ⟨C, ip, settings'⟩ s e =
      NetplexSupport.serve F ⟨C, ip, settings⟩ s e := by
  rcases e with ⟨a, report | report | report⟩
  · have hlicense := verifiedLicense_retrusted h ip
      (fun kid token htoken hname => hnames kid ⟨token, htoken, hname⟩) a.unixTime
    unfold NetplexSupport.serve receiveForwarded
    simp only [hlicense]
    rw [h.rest]
    rfl
  · unfold NetplexSupport.serve
    rw [h.rest]
    rfl
  · unfold NetplexSupport.serve
    rw [h.rest]
    rfl

/-! ### Runs -/

theorem Retrusted.refl (C : Crypto) (changed : Str → Bool) (settings : Settings) :
    Retrusted F C changed settings settings :=
  ⟨rfl, rfl, fun _ => Iff.rfl, rfl, fun _ => Iff.rfl⟩

variable (F) in
/-- Two servers over equal tables and limiters, with settings that differ in entries of
changed ids alone. -/
def TrustApart (C : Crypto) (changed : Str → Bool) (s s' : App) : Prop :=
  ∃ settings', Retrusted F C changed s.settings settings' ∧
    s' = { s with settings := settings' }

theorem serve_trustApart (host : Host) {s s' : App}
    (h : TrustApart F host.crypto changed s s') {c : Call F}
    (hnames : ∀ kid, c.Names kid → changed kid = false) :
    TrustApart F host.crypto changed (App.serve host s c).1 (App.serve host s' c).1 ∧
      (App.serve host s c).2 = (App.serve host s' c).2 := by
  obtain ⟨settings', h, rfl⟩ := h
  cases c with
  | restart settings => exact ⟨⟨settings, .refl _ _ _, rfl⟩, rfl⟩
  | intake e =>
      have hserve := serve_intake_retrusted h host.ip s.service hnames
      simp only [App.serve, Host.deploy, hserve]
      exact ⟨⟨settings', h, rfl⟩, trivial⟩
  | upload request body draw =>
      have hupload := uploadManifest_retrusted h host.backend s.releases hnames draw
      simp only [App.serve, uploadStep, h.requireAdmin, hupload]
      exact ⟨⟨settings', h, rfl⟩, trivial⟩
  | register request token now draw =>
      have hregister := registerLicense_retrusted h host.backend s.licenses hnames now draw
      simp only [App.serve, postRegister, h.requireAdmin, hregister]
      exact ⟨⟨settings', h, rfl⟩, trivial⟩
  | verify request token tick now =>
      have hverify := verifyLicense_retrusted h host.ip s.service.hits request hnames tick now
      simp only [App.serve, hverify]
      exact ⟨⟨settings', h, rfl⟩, trivial⟩
  | _ =>
      refine ⟨⟨settings', h, rfl⟩, ?_⟩
      rw [h.rest]
      rfl

/-- A change of keys is invisible where nobody presents what they signed.  Two servers
that were restarted over the same tables, with trust lists that differ in the entries of
some key ids, answer every run of calls alike in which no document names such a key, and
leave the same tables and the same limiter. -/
theorem rotation_invisible (host : Host) (s : App)
    (hsettings : Retrusted F host.crypto changed settings settings') {calls : List (Call F)}
    (hcalls : ∀ c ∈ calls, ∀ kid, c.Names kid → changed kid = false) :
    let t := (App.serve (F := F) host s (.restart settings)).1
    let t' := (App.serve (F := F) host s (.restart settings')).1
    Transition.answers (App.serve host) t calls = Transition.answers (App.serve host) t' calls ∧
      (Transition.after (App.serve host) t' calls).service =
        (Transition.after (App.serve host) t calls).service ∧
      (Transition.after (App.serve host) t' calls).releases =
        (Transition.after (App.serve host) t calls).releases ∧
      (Transition.after (App.serve host) t' calls).licenses =
        (Transition.after (App.serve host) t calls).licenses := by
  intro t t'
  have hstep : ∀ (s s' : App) (c c' : Call F),
      (c = c' ∧ ∀ kid, c.Names kid → changed kid = false) →
      TrustApart F host.crypto changed s s' →
      TrustApart F host.crypto changed (App.serve host s c).1 (App.serve host s' c').1 ∧
        (App.serve host s c).2 = (App.serve host s' c').2 := by
    rintro s s' c c' ⟨rfl, hnames⟩ hapart
    exact serve_trustApart host hapart hnames
  have hmatch : List.Forall₂ (fun c c' : Call F =>
      c = c' ∧ ∀ kid, c.Names kid → changed kid = false) calls calls :=
    List.forall₂_same.mpr fun c hc => ⟨rfl, hcalls c hc⟩
  obtain ⟨⟨settings'', -, hafter⟩, hanswers⟩ :=
    @Transition.lockstep _ _ _ _ (App.serve (F := F) host) _ id _ hstep t t' calls calls
      ⟨settings', hsettings, rfl⟩ hmatch
  rw [List.map_id, List.map_id] at hanswers
  rw [hafter]
  exact ⟨hanswers, rfl, rfl, rfl⟩

end

section

attribute [local instance] FloatView.asFloat Interpreter.ascii

/-- A server that takes the boxes' reports and lists the recorded key. -/
def listingSettings : Settings := { fleetSettings with signingTrustStoreJson := recordedTrustJson }

/-- A manifest that names a key nobody has listed. -/
def strangeManifest : Members FloatView :=
  [("channel", .str "stable"),
    ("signature", .obj [("alg", .str ALG), ("key_id", .str "feedfeedfeedfeed")])]

/-- A box reads its channel and reports crashes, and a manifest is refused. -/
def strangeCalls : List (Call FloatView) :=
  .manifest "stable" ::
    .upload operatorRequest ⟨strangeManifest, by decide +kernel, by decide +kernel⟩ ⟨1, 10⟩ ::
    crashCalls

/-- They go alike on a server that has just lost its only signing key. -/
theorem rotation_invisible_withdrawn :
    Transition.answers (App.serve (F := FloatView) fleetHost)
        (App.serve (F := FloatView) fleetHost (App.fresh fleetSettings)
          (.restart listingSettings)).1 strangeCalls =
      Transition.answers (App.serve fleetHost)
        (App.serve (F := FloatView) fleetHost (App.fresh fleetSettings)
          (.restart fleetSettings)).1 strangeCalls := by
  have hlisted : (selectedKeys (F := FloatView) recordedTrustJson []).all (fun k =>
      !(listedKey k).all fun pub => !decide (keyIdFor recordedKey.crypto pub = recordedKeyId)) =
        true := by
    decide +kernel
  have hsigning : unchangedKeys recordedKey.crypto (fun kid => decide (kid = recordedKeyId))
      (selectedKeys (F := FloatView) recordedTrustJson []) = [] := by
    rw [unchangedKeys, List.filter_eq_nil_iff]
    intro k hk
    simpa using List.all_eq_true.mp hlisted k hk
  have hfault : SameFault FloatView recordedTrustJson [] := by
    have hread : (tryLoads (F := FloatView) (Str.strip recordedTrustJson)).toBool = true ∧
        (tryLoads (F := FloatView) (Str.strip [])).toBool = true := by
      decide +kernel
    intro exc
    constructor
    · intro h
      rw [h] at hread
      cases hread.1
    · intro h
      rw [h] at hread
      cases hread.2
  have hsettings : Retrusted FloatView fleetHost.crypto (fun kid => decide (kid = recordedKeyId))
      listingSettings fleetSettings :=
    ⟨rfl, hsigning, hfault, rfl, fun _ => Iff.rfl⟩
  have hcalls : ∀ c ∈ strangeCalls, ∀ kid, c.Names kid → decide (kid = recordedKeyId) = false := by
    intro c hc kid hnames
    simp only [strangeCalls, crashCalls, List.mem_cons, List.not_mem_nil, or_false] at hc
    rcases hc with rfl | rfl | rfl | rfl | rfl
    · cases hnames
    · obtain ⟨sigblock, hsignature, -, hkid⟩ := hnames
      obtain rfl := Json.obj.inj (Option.some.inj hsignature)
      obtain rfl := Json.str.inj hkid
      decide
    · cases hnames
    · obtain ⟨_, hnone, -⟩ := hnames
      cases hnone
    · obtain ⟨_, hnone, -⟩ := hnames
      cases hnone
  exact (rotation_invisible fleetHost (App.fresh fleetSettings) hsettings hcalls).1

end

end NetplexSupport
