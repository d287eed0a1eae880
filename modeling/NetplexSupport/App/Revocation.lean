/-
What becomes of a key that the server accepts no longer.  Once it has been restarted
without the key nothing is stored or granted on the strength of its signatures; what
was stored before stays where it is, and a manifest is served until its channel gets
another.
-/
import NetplexSupport.App.Provenance
import NetplexSupport.Crypto.Revocation
import NetplexSupport.Licensing.Minted
import NetplexSupport.Tickets.Tiers

namespace NetplexSupport

open Py

section

variable {F : Type} [PyFloat F] [Interpreter]

/-! ### A key that is accepted no longer -/

variable (F) in
/-- Of the listed keys with this id, if there are any, the last is neither `active`
nor `next`. -/
def Withdrawn (C : Crypto) (trustStoreJson singlePublicKey kid : Str) : Prop :=
  ∀ (pre : List (Json F)) (k : Json F) (post : List (Json F)),
    selectedKeys trustStoreJson singlePublicKey = pre ++ k :: post → FiledUnder C k kid →
    (∀ k' ∈ post, ¬ FiledUnder C k' kid) → ¬ Accepting (listedStatus k)

theorem Withdrawn.rejects {C : Crypto} {trustStoreJson singlePublicKey kid : Str}
    (h : Withdrawn F C trustStoreJson singlePublicKey kid) {trust : TrustStore F}
    (htrust : trustStoreFromSettings C trustStoreJson singlePublicKey = .ok trust)
    (manifest : Members F) : verifyManifest C manifest trust ≠ .ok (true, kid) := by
  replace htrust := fromKeys_of_settings htrust
  intro hverify
  obtain ⟨pre, k, post, hkeys, ⟨pub, status, hconfigures, hkid, haccepting, _⟩, hlast⟩ :=
    (verifyManifest_fromKeys_iff htrust).mp hverify
  obtain ⟨hpub, rfl⟩ := hconfigures
  exact h pre k post hkeys ⟨pub, _, ⟨hpub, rfl⟩, hkid⟩ hlast haccepting

variable (F) in
/-- The token is an object whose signature names this key. -/
def NamesSigner (token kid : Str) : Prop :=
  ∃ claims sigblock : Members F, loads token = some (.obj claims) ∧
    dictGet claims "signature" = some (.obj sigblock) ∧ NamesKey sigblock kid

theorem verifyToken_withdrawn {C : Crypto} {settings : Settings} {kid token : Str}
    (h : Withdrawn F C settings.licenseTrustStoreJson settings.licensePublicKey kid)
    (hnames : NamesSigner F token kid) {trust : TrustStore F}
    (htrust : licenseTrustStore C settings = .ok trust) {now : Int} {result : VerifyResult F}
    (hresult : verifyToken C token trust now = .ok result) : result.valid = false := by
  by_contra hvalid
  rw [Bool.not_eq_false] at hvalid
  obtain ⟨claims, kid', _, hgood, _⟩ := verifyToken_valid_iff.mp ⟨hresult, hvalid⟩
  obtain ⟨claims', sigblock, hloads, hsignature, hname⟩ := hnames
  obtain rfl : claims = claims' := Json.obj.inj (Option.some.inj (hgood.loads.symm.trans hloads))
  obtain ⟨sigblock', _, hsignature', hname', _⟩ := verifyManifest_eq_true_iff.mp hgood.verified
  obtain rfl : sigblock' = sigblock :=
    Json.obj.inj (Option.some.inj (hsignature'.symm.trans hsignature))
  obtain rfl : kid' = kid := Json.str.inj (hname'.2.symm.trans hname.2)
  exact h.rejects htrust claims hgood.verified

theorem verifyLicense_eq_ok {C : Crypto} {ip : IpAddress} {settings : Settings} {hits : Hits}
    {request : Request} {token : Str} {tick now : Int} {result : VerifyResult F}
    (h : (verifyLicense C ip settings hits request token tick now).2 = .ok result) :
    ∃ trust : TrustStore F, licenseTrustStore C settings = .ok trust ∧
      verifyToken C token trust now = .ok result := by
  simp only [verifyLicense] at h
  split at h
  · cases h
  · exact bind_eq_ok.mp (raising_eq_ok.mp h)

/-- A report that comes with such a token is filed at the floor. -/
theorem verifiedLicense_withdrawn {D : Deployment} {report : ForwardedReport}
    {kid token : Str}
    (h : Withdrawn F D.crypto D.settings.licenseTrustStoreJson D.settings.licensePublicKey kid)
    (hnames : NamesSigner F token kid) (hreport : report.licenseToken = some token)
    {now : Int} {tier : Str} {licenseIdHash : Option Str}
    (hlicense : verifiedLicense F D report now = .ok (tier, licenseIdHash)) :
    tier = Str.ofString "associate" ∧ licenseIdHash = none := by
  have hne : token ≠ [] := by
    rintro rfl
    obtain ⟨_, _, hloads, _⟩ := hnames
    cases hloads
  simp only [verifiedLicense, hreport, if_neg hne] at hlicense
  obtain ⟨trust, htrust, hlicense⟩ := bind_eq_ok.mp hlicense
  obtain ⟨result, hresult, hlicense⟩ := bind_eq_ok.mp hlicense
  rw [if_neg (by simp [verifyToken_withdrawn h hnames htrust hresult])] at hlicense
  obtain ⟨rfl, rfl⟩ := Prod.mk.inj (Except.ok.inj hlicense)
  exact ⟨rfl, rfl⟩

/-- A minted licence names the key it was minted with. -/
theorem namesSigner_minted {C : Crypto} {K : SigningKey} {seed : Bytes}
    {args : MintArgs} {token : Str} {claims signed : Members F}
    (hm : Minted C K seed args token claims signed) {w : Str}
    (hw : ∀ c ∈ w, isJsonSpace c = true) :
    NamesSigner F (token ++ w) (keyIdFor C (K.verifyKey seed)) := by
  obtain ⟨message, _, hsigned⟩ := signClaims_eq_ok.mp hm.signs
  refine ⟨signed, signatureBlock C K seed message, hm.text ▸ loads_fileText hm.keyed hw, ?_,
    rfl, rfl⟩
  rw [hsigned, dictGet_dictSet, if_pos rfl]

/-! ### Runs -/

/-- An upload of a run was made with the settings of the run. -/
theorem settings_of_answeredUploads (host : Host) (s : App) {calls : List (Call F)}
    (hcalls : ∀ c ∈ calls, c.isRestart = false) {e : Upload F}
    (he : e ∈ Transition.emitted (App.serve host) (answeredUploads host) s calls) :
    e.settings = s.settings := by
  obtain ⟨past, c, rest, rfl, hcall⟩ := Transition.mem_emitted.mp he
  have hpast := settings_after host s fun c hc => hcalls c (List.mem_append_left _ hc)
  cases c with
  | upload request body draw =>
      simp only [answeredUploads] at hcall
      split at hcall
      · rw [List.mem_singleton.mp hcall]
        exact hpast
      · cases hcall
  | _ => cases hcall

theorem settings_of_answeredRegistrations (host : Host) (s : App) {calls : List (Call F)}
    (hcalls : ∀ c ∈ calls, c.isRestart = false) {e : Request × Registration}
    (he : e ∈ Transition.emitted (App.serve host) (answeredRegistrations host) s calls) :
    e.2.settings = s.settings := by
  obtain ⟨past, c, rest, rfl, hcall⟩ := Transition.mem_emitted.mp he
  have hpast := settings_after host s fun c hc => hcalls c (List.mem_append_left _ hc)
  cases c with
  | register request token now draw =>
      simp only [answeredRegistrations] at hcall
      split at hcall
      · rw [List.mem_singleton.mp hcall]
        exact hpast
      · cases hcall
  | _ => cases hcall

/-- Rows of other channels do not change what a channel serves. -/
theorem getManifest_append {rows new : List ReleaseManifest} {channel : Str}
    (hnew : ∀ row ∈ new, row.channel ≠ channel) :
    getManifest (F := F) (rows ++ new) channel = getManifest rows channel := by
  have hnone : new.filter (fun row => decide (row.channel = channel)) = [] := by
    rw [List.filter_eq_nil_iff]
    intro row hrow
    simpa using hnew row hrow
  have hlatest : latestReleaseManifest (rows ++ new) channel =
      latestReleaseManifest rows channel := by
    rw [latestReleaseManifest, List.filter_append, hnone, List.append_nil]
    rfl
  rw [getManifest, hlatest]
  rfl

/-- No row of a key that the signing store accepts no longer is added, and what a
channel serves stays until it gets another manifest. -/
theorem releases_withdrawn (host : Host) (s : App) {later : List (Call F)}
    (hlater : ∀ c ∈ later, c.isRestart = false) {kid : Str}
    (h : Withdrawn F host.crypto s.settings.signingTrustStoreJson s.settings.signingPublicKey
      kid) :
    let t := Transition.after (App.serve host) s later
    ∃ rows, t.releases = s.releases ++ rows ∧ (∀ row ∈ rows, row.keyId ≠ kid) ∧
      ∀ channel, (∀ row ∈ rows, row.channel ≠ channel) →
        (App.serve (F := F) host t (.manifest channel)).2 =
          (App.serve host s (.manifest channel)).2 := by
  intro t
  obtain ⟨rows, hrows, hpublished⟩ :=
    Transition.ledger_after (releases_serve (F := F) host) s later
  refine ⟨rows, hrows, fun row hrow hkid => ?_, fun channel hchannel => ?_⟩
  · obtain ⟨e, he, _, trust, channel, kid', _, _, htrust, hverify, rfl⟩ :=
      exists_mem_of_forall₂ hpublished hrow
    obtain rfl : kid' = kid := hkid
    rw [signingTrustStore, settings_of_answeredUploads host s hlater he] at htrust
    exact h.rejects htrust e.body.manifest hverify
  · have hserved : getManifest (F := F) (s.releases ++ rows) channel =
        getManifest s.releases channel := getManifest_append hchannel
    rw [← hrows] at hserved
    exact congrArg (Except.map Answer.manifest) hserved

/-- No row of a key that the licence store accepts no longer is added. -/
theorem licenses_withdrawn (host : Host) (s : App) {later : List (Call F)}
    (hlater : ∀ c ∈ later, c.isRestart = false) {kid : Str}
    (h : Withdrawn F host.crypto s.settings.licenseTrustStoreJson s.settings.licensePublicKey
      kid) :
    ∃ rows, (Transition.after (App.serve host) s later).licenses = s.licenses ++ rows ∧
      ∀ row ∈ rows, row.keyId ≠ kid := by
  obtain ⟨rows, hrows, hlicensed⟩ :=
    Transition.ledger_after (licenses_serve (F := F) host) s later
  refine ⟨rows, hrows, fun row hrow hkid => ?_⟩
  obtain ⟨e, he, _, _, ⟨trust, claims, kid', expiry, htrust, hgood, rfl⟩, _⟩ :=
    exists_mem_of_forall₂ hlicensed hrow
  obtain rfl : kid' = kid := hkid
  rw [licenseTrustStore, settings_of_answeredRegistrations host s hlater he] at htrust
  exact h.rejects htrust claims hgood.verified

/-- Revocation takes effect.  After a restart whose settings accept a key no longer,
and until the next one, no manifest and no licence is stored that the key signed; no
licence that names the key is called valid, and reports that come with it are refused
or filed at the floor.  What had been stored stays, and a manifest is served until its
channel gets another. -/
theorem revocation_effective (host : Host) (s : App) (settings : Settings)
    {later : List (Call F)} (hlater : ∀ c ∈ later, c.isRestart = false) (kid : Str) :
    let s' := (App.serve (F := F) host s (.restart settings)).1
    let t := Transition.after (App.serve host) s' later
    (Withdrawn F host.crypto settings.signingTrustStoreJson settings.signingPublicKey kid →
      ∃ rows, t.releases = s.releases ++ rows ∧ (∀ row ∈ rows, row.keyId ≠ kid) ∧
        ∀ channel, (∀ row ∈ rows, row.channel ≠ channel) →
          (App.serve (F := F) host t (.manifest channel)).2 =
            (App.serve host s (.manifest channel)).2) ∧
    (Withdrawn F host.crypto settings.licenseTrustStoreJson settings.licensePublicKey kid →
      (∃ rows, t.licenses = s.licenses ++ rows ∧ ∀ row ∈ rows, row.keyId ≠ kid) ∧
      ∀ token, NamesSigner F token kid →
        (∀ request tick now result,
          (App.serve (F := F) host t (.verify request token tick now)).2 =
            .ok (.verified result) → result.valid = false) ∧
        ∀ (a : Arrival) (report : ForwardedReport), report.licenseToken = some token →
          let tickets :=
            (App.serve (F := F) host t (.intake ⟨a, .forward report⟩)).1.service.tickets
          tickets = t.service.tickets ∨
            ∃ ticket, createOrDedupe t.service.tickets (forwardFields report "associate" none)
              a.ticket = .ok (ticket, tickets)) := by
  intro s' t
  have hsettings : t.settings = settings := settings_after host s' hlater
  refine ⟨fun h => releases_withdrawn host s' hlater h, fun h =>
    ⟨licenses_withdrawn host s' hlater h, fun token hnames => ⟨?_, ?_⟩⟩⟩
  · intro request tick now result hanswer
    have hverify : (verifyLicense host.crypto host.ip t.settings t.service.hits request token
        tick now).2 = .ok result := by
      rcases hrun : (verifyLicense (F := F) host.crypto host.ip t.settings t.service.hits
          request token tick now).2 with failure | result'
      · simp only [App.serve, hrun] at hanswer
        cases hanswer
      · simp only [App.serve, hrun] at hanswer
        exact congrArg Except.ok (Answer.verified.inj (Except.ok.inj hanswer))
    obtain ⟨trust, htrust, hresult⟩ := verifyLicense_eq_ok hverify
    rw [hsettings] at htrust
    exact verifyToken_withdrawn h hnames htrust hresult
  · intro a report hreport tickets
    rcases serve_tickets F (host.deploy t.settings) t.service ⟨a, .forward report⟩ with
      hsame | ⟨fields, ticket, ⟨tier, licenseIdHash, hlicense, hfields⟩, hcall⟩
    · exact Or.inl hsame
    · rw [hsettings] at hlicense
      obtain ⟨rfl, rfl⟩ := verifiedLicense_withdrawn (D := host.deploy settings) h hnames
        hreport hlicense
      rw [hfields] at hcall
      exact Or.inr ⟨ticket, hcall⟩

end

section

attribute [local instance] FloatView.asFloat Interpreter.ascii

/-- A trust-store setting that lists the recorded key as revoked. -/
def revokedTrustJson : Str :=
  "[\x7b\"public_key\": \"A6EHv/POEL4dcN0Y50vAmWfk1jCbpQ1fHdyGZBJVMbg=\", " ++
    "\"status\": \"revoked\"\x7d]"

theorem withdrawn_revoked (kid : Str) :
    Withdrawn FloatView recordedKey.crypto revokedTrustJson [] kid := by
  intro pre k post hkeys _ _
  have hall : (selectedKeys (F := FloatView) revokedTrustJson []).all
      (fun k => (listedStatus k).isStr "revoked") = true := by decide +kernel
  have hstatus : listedStatus k = .str "revoked" := by
    have hk : k ∈ selectedKeys (F := FloatView) revokedTrustJson [] := by simp [hkeys]
    exact (Json.isStr_iff ..).mp (List.all_eq_true.mp hall k hk)
  rw [hstatus]
  exact not_accepting_revoked

/-- A licence is registered, the key is revoked, and the licence is tried again. -/
theorem revocation_effective_team :
    ∃ token, teamToken 1 = .ok token ∧
      let s := (App.serve (F := FloatView) fleetHost (App.fresh licenceSettings)
        (.register operatorRequest token 1700000000 ⟨1, 10⟩)).1
      let t := Transition.after (App.serve (F := FloatView) fleetHost)
        (App.serve (F := FloatView) fleetHost s
          (.restart { licenseTrustStoreJson := revokedTrustJson, adminApiTokens := "ops" })).1
        [.register operatorRequest token 1700000000 ⟨2, 20⟩]
      (∃ rows, t.licenses = s.licenses ++ rows ∧
        ∀ row ∈ rows, row.keyId ≠ keyIdFor recordedKey.crypto
          (recordedKey.signingKey.verifyKey recordedKey.seed)) ∧
      ∀ request tick now (result : VerifyResult FloatView),
        (App.serve fleetHost t (.verify request token tick now)).2 = .ok (.verified result) →
          result.valid = false := by
  have hrun : (teamToken 1 >>= fun _ => .ok ()) = .ok () := by decide +kernel
  obtain ⟨token, htoken, _⟩ := bind_eq_ok.mp hrun
  refine ⟨token, htoken, ?_⟩
  intro s t
  obtain ⟨claims, signed, hm⟩ := mintToken_minted (F := FloatView) recordedSeed htoken
  have hnames := namesSigner_minted hm (w := []) (by simp)
  rw [List.append_nil] at hnames
  have hlater : ∀ c ∈ [Call.register (F := FloatView) operatorRequest token 1700000000
      ⟨2, 20⟩], c.isRestart = false := by simp [Call.isRestart]
  obtain ⟨_, hlicences⟩ := revocation_effective fleetHost s
    { licenseTrustStoreJson := revokedTrustJson, adminApiTokens := "ops" } hlater
    (keyIdFor recordedKey.crypto (recordedKey.signingKey.verifyKey recordedKey.seed))
  obtain ⟨hrows, htokens⟩ := hlicences (withdrawn_revoked _)
  exact ⟨hrows, (htokens token hnames).1⟩

end

end NetplexSupport
