/-
Licences, revocation lists and integrity manifests are signed with one key over
one format.  The licence routes tell them apart only by an expiry that has
passed: `VALID_TIERS` is never consulted.
-/
import NetplexSupport.Licensing.Verification
import NetplexSupport.Tools.OfflineSigner

namespace NetplexSupport

open Py

section

variable {F : Type}

/-- The claims name a tier of `VALID_TIERS`. -/
def IsLicence (claims : Members F) : Prop :=
  ∃ tier ∈ validTiers, dictGet claims "tier" = some (.str tier)

variable [PyFloat F] [Interpreter]

variable (F) in
/-- Some licence route takes the token for a licence: it is reported valid,
registered, or hashed into a forwarded ticket. -/
def TakenForLicence (D : Deployment) (B : Backend) (rows : List LicenseToken)
    (draw : RowDraw) (now : Int) (token : Str) : Prop :=
  (∃ (trust : TrustStore F) (result : VerifyResult F),
    licenseTrustStore D.crypto D.settings = .ok trust ∧
      verifyToken D.crypto token trust now = .ok result ∧ result.valid = true) ∨
  (∃ answer, registerLicense F D.crypto B D.settings rows token now draw = .ok answer) ∨
  ∃ report tier hash, report.licenseToken = some token ∧
    verifiedLicense F D report now = .ok (tier, some hash)

theorem verifiedLicense_some {D : Deployment} {report : ForwardedReport} {now : Int}
    {tier hash : Str} (h : verifiedLicense F D report now = .ok (tier, some hash)) :
    ∃ (token : Str) (trust : TrustStore F) (result : VerifyResult F),
      report.licenseToken = some token ∧
      licenseTrustStore D.crypto D.settings = .ok trust ∧
      verifyToken D.crypto token trust now = .ok result ∧ result.valid = true := by
  unfold verifiedLicense at h
  split at h
  · cases h
  rename_i token htoken
  split at h
  · cases h
  obtain ⟨trust, htrust, h⟩ := bind_eq_ok.mp h
  obtain ⟨result, hresult, h⟩ := bind_eq_ok.mp h
  refine ⟨token, trust, result, htoken, htrust, hresult, ?_⟩
  by_cases hvalid : result.valid = true
  · exact hvalid
  · simp [hvalid, pure, Except.pure] at h

/-- The three routes ask `_verify_token` alone. -/
theorem takenForLicence_iff {D : Deployment} {trust : TrustStore F}
    (htrust : licenseTrustStore D.crypto D.settings = .ok trust) {B : Backend}
    {rows : List LicenseToken} {draw : RowDraw} {now : Int} {token : Str} :
    TakenForLicence F D B rows draw now token ↔
      ∃ claims kid e, ValidToken D.crypto trust token now claims kid e := by
  have hvalid : ∀ (trust' : TrustStore F) (result : VerifyResult F),
      licenseTrustStore D.crypto D.settings = .ok trust' →
      verifyToken D.crypto token trust' now = .ok result → result.valid = true →
      ∃ claims kid e, ValidToken D.crypto trust token now claims kid e := by
    intro trust' result htrust' hresult hvalid
    obtain rfl : trust' = trust := Except.ok.inj (htrust'.symm.trans htrust)
    obtain ⟨claims, kid, e, hgood, _⟩ := verifyToken_valid_iff.mp ⟨hresult, hvalid⟩
    exact ⟨claims, kid, e, hgood⟩
  constructor
  · rintro (⟨trust', result, htrust', hresult, hok⟩ | ⟨⟨answer, rows'⟩, hregister⟩ |
      ⟨report, tier, hash, htoken, hforward⟩)
    · exact hvalid trust' result htrust' hresult hok
    · obtain ⟨trust', claims, kid, e, htrust', hgood, _⟩ :=
        registerLicense_eq_ok_iff.mp hregister
      obtain rfl : trust' = trust := Except.ok.inj (htrust'.symm.trans htrust)
      exact ⟨claims, kid, e, hgood⟩
    · obtain ⟨token', trust', result, htoken', htrust', hresult, hok⟩ :=
        verifiedLicense_some hforward
      obtain rfl : token' = token := Option.some.inj (htoken'.symm.trans htoken)
      exact hvalid trust' result htrust' hresult hok
  · rintro ⟨claims, kid, e, hgood⟩
    obtain ⟨hresult, hok⟩ := verifyToken_valid_iff.mpr ⟨claims, kid, e, hgood, rfl⟩
    exact Or.inl ⟨trust, _, htrust, hresult, hok⟩

/-! ### Revocation lists and integrity manifests -/

/-- A file of the offline machine that names no expiry is a valid token of every
store that holds its key, whatever else it says. -/
theorem validToken_fileText {C : Crypto} {K : SigningKey} {seed : Bytes}
    (hK : SignsFor C K seed) {trust : TrustStore F}
    (hholds : trust.Holds (keyIdFor C (K.verifyKey seed)) (K.verifyKey seed))
    {claims signed : Members F} (hsigned : signClaims C K seed claims = .ok signed)
    (hkeyed : (Json.obj claims).Keyed) (hexpires : dictGet claims "expires_at" = none)
    (now : Int) :
    ValidToken C trust (fileText signed) now signed (keyIdFor C (K.verifyKey seed))
      none where
  loads := loads_fileText (keyed_signClaims hsigned hkeyed)
    (by simp [Str.ofString, isJsonSpace])
  verified := verifyManifest_signClaims hK hsigned hholds
  unexpired := by
    refine Or.inl ⟨?_, rfl⟩
    rw [dictGet_signClaims hsigned (by decide), hexpires]
    rfl

/-- An object that verifies is taken for a licence only if it is one, exactly
when it is one or has expired. -/
theorem licence_or_expired_iff {D : Deployment} {trust : TrustStore F}
    (htrust : licenseTrustStore D.crypto D.settings = .ok trust) {B : Backend}
    {rows : List LicenseToken} {draw : RowDraw} {now : Int} {token : Str}
    {claims : Members F} {kid : Str} (hloads : loads token = some (.obj claims))
    (hmanifest : verifyManifest D.crypto claims trust = .ok (true, kid)) :
    (TakenForLicence F D B rows draw now token → IsLicence claims) ↔
      IsLicence claims ∨ ∀ e, ¬ Unexpired claims now e := by
  rw [takenForLicence_iff htrust]
  constructor
  · intro h
    by_cases hunexpired : ∃ e, Unexpired claims now e
    · obtain ⟨e, he⟩ := hunexpired
      exact Or.inl (h ⟨claims, kid, e, hloads, hmanifest, he⟩)
    · exact Or.inr (not_exists.mp hunexpired)
  · rintro (hlicence | hexpired) ⟨claims', kid', e, hgood⟩
    · exact hlicence
    · obtain rfl : claims' = claims := by simpa using hgood.loads.symm.trans hloads
      exact absurd hgood.unexpired (hexpired e)

/-- A signed file that names no expiry is taken for a licence. -/
theorem takenForLicence_file {D : Deployment} {trust : TrustStore F}
    (htrust : licenseTrustStore D.crypto D.settings = .ok trust) {K : SigningKey}
    {keyText : Str} {seed : Bytes} (hseed : readSeed keyText = .ok seed)
    (hK : SignsFor D.crypto K seed)
    (hholds : trust.Holds (keyIdFor D.crypto (K.verifyKey seed)) (K.verifyKey seed))
    {claims : Members F} {file : Str} (hkeyed : (Json.obj claims).Keyed)
    (hexpires : dictGet claims "expires_at" = none)
    (hsign : signToFile D.crypto K keyText claims = .ok file) (B : Backend)
    (rows : List LicenseToken) (draw : RowDraw) (now : Int) :
    TakenForLicence F D B rows draw now file := by
  obtain ⟨signed, hsigned, rfl⟩ := signToFile_eq_ok hseed hsign
  rw [takenForLicence_iff htrust]
  exact ⟨signed, _, none, validToken_fileText hK hholds hsigned hkeyed hexpires now⟩

/-- Of the objects signed by a trusted key exactly those count as licences that
name no expiry or one still ahead, so the claim that they are licences holds of
an object exactly when its tier is valid or it has expired; revocation lists
and integrity manifests always count. -/
theorem licences_only_iff {D : Deployment} {trust : TrustStore F}
    (htrust : licenseTrustStore D.crypto D.settings = .ok trust) (B : Backend)
    (rows : List LicenseToken) (draw : RowDraw) (now : Int) :
    (∀ token claims kid, loads token = some (.obj claims) →
      verifyManifest D.crypto claims trust = .ok (true, kid) →
      ((TakenForLicence F D B rows draw now token → IsLicence claims) ↔
        IsLicence claims ∨ ∀ e, ¬ Unexpired claims now e)) ∧
    ∀ (K : SigningKey) (keyText : Str) (seed : Bytes), readSeed keyText = .ok seed →
      SignsFor D.crypto K seed →
      trust.Holds (keyIdFor D.crypto (K.verifyKey seed)) (K.verifyKey seed) →
      (∀ revoke revokeFile issued crl,
        mintCrl F D.crypto K keyText revoke revokeFile issued = .ok crl →
        TakenForLicence F D B rows draw now crl) ∧
      ∀ shared manifest, signIntegrity F D.crypto K keyText shared = .ok manifest →
        TakenForLicence F D B rows draw now manifest := by
  refine ⟨fun token claims kid => licence_or_expired_iff htrust, ?_⟩
  intro K keyText seed hseed hK hholds
  constructor
  · intro revoke revokeFile issued crl hcrl
    unfold mintCrl at hcrl
    simp only at hcrl
    split at hcrl
    · cases hcrl
    · exact takenForLicence_file htrust hseed hK hholds (keyed_crlClaims _ issued) rfl hcrl
        B rows draw now
  · intro shared manifest hmanifest
    obtain ⟨files, hfiles, hsign⟩ := bind_eq_ok.mp hmanifest
    exact takenForLicence_file htrust hseed hK hholds
      (keyed_integrityClaims (keyed_kernelFiles hfiles)) rfl hsign B rows draw now

end

section

attribute [local instance] FloatView.asFloat Interpreter.ascii

/-- A server that trusts the recorded key. -/
def licenceServer : Deployment where
  crypto := recordedKey.crypto
  ip := ⟨Unit, Unit, fun _ => none, fun _ => none, fun _ _ => false⟩
  settings := { licenseTrustStoreJson := recordedTrustJson }

/-- `mint_crl.py --revoke lic-1`, signed with the recorded key. -/
def mintedCrl : Except Exc Str :=
  mintCrl FloatView recordedKey.crypto recordedKey.signingKey recordedSeedText ["lic-1"] []
    1700000000

theorem mintedCrl_run :
    ∃ (crl : Str) (trust : TrustStore FloatView) (claims : Members FloatView) (kid : Str)
      (e : Option Int), mintedCrl = .ok crl ∧
      licenseTrustStore licenceServer.crypto licenceServer.settings = .ok trust ∧
      ValidToken licenceServer.crypto trust crl 1800000000 claims kid e ∧
      dictGet claims "tier" = none := by
  have hrun : (mintedCrl >>= fun crl =>
      licenseTrustStore (F := FloatView) licenceServer.crypto licenceServer.settings >>=
        fun trust => verifyToken licenceServer.crypto crl trust 1800000000 >>=
          fun result => .ok (result.valid,
            (loads (F := FloatView) crl).all fun j => (j.get? "tier").isNone)) =
      .ok (true, true) := by decide +kernel
  obtain ⟨crl, hcrl, hrun⟩ := bind_eq_ok.mp hrun
  obtain ⟨trust, htrust, hrun⟩ := bind_eq_ok.mp hrun
  obtain ⟨result, hresult, hrun⟩ := bind_eq_ok.mp hrun
  obtain ⟨hvalid, htier⟩ := Prod.mk.inj (Except.ok.inj hrun)
  obtain ⟨claims, kid, e, hgood, _⟩ := verifyToken_valid_iff.mp ⟨hresult, hvalid⟩
  refine ⟨crl, trust, claims, kid, e, hcrl, htrust, hgood, ?_⟩
  simpa [hgood.loads, Json.get?] using htier

/-- The revocation list of `lic-1` counts as a licence. -/
theorem licences_only_crl :
    ∃ (crl : Str) (trust : TrustStore FloatView) (claims : Members FloatView) (kid : Str),
      mintedCrl = .ok crl ∧
      licenseTrustStore licenceServer.crypto licenceServer.settings = .ok trust ∧
      loads crl = some (.obj claims) ∧
      verifyManifest licenceServer.crypto claims trust = .ok (true, kid) ∧
      TakenForLicence FloatView licenceServer Backend.postgres [] ⟨1, 0⟩ 1800000000 crl ∧
      ¬ IsLicence claims := by
  obtain ⟨crl, trust, claims, kid, e, hcrl, htrust, hgood, htier⟩ := mintedCrl_run
  refine ⟨crl, trust, claims, kid, hcrl, htrust, hgood.loads, hgood.verified,
    (takenForLicence_iff htrust).mpr ⟨claims, kid, e, hgood⟩, ?_⟩
  rintro ⟨tier, _, hlicence⟩
  rw [htier] at hlicence
  cases hlicence

/-- For the same list: it counts, and so the claim would need a valid tier or an
expiry that has passed. -/
theorem licences_only_iff_crl :
    ∃ (crl : Str) (claims : Members FloatView), mintedCrl = .ok crl ∧
      loads crl = some (.obj claims) ∧
      TakenForLicence FloatView licenceServer Backend.postgres [] ⟨1, 0⟩ 1800000000 crl ∧
      ((TakenForLicence FloatView licenceServer Backend.postgres [] ⟨1, 0⟩ 1800000000 crl →
        IsLicence claims) ↔
        IsLicence claims ∨ ∀ e, ¬ Unexpired claims 1800000000 e) := by
  obtain ⟨crl, trust, claims, kid, e, hcrl, htrust, hgood, _⟩ := mintedCrl_run
  have h := licences_only_iff htrust Backend.postgres [] ⟨1, 0⟩ 1800000000
  obtain ⟨trust', htrust', hholds⟩ := recordedTrust
  obtain rfl : trust' = trust := Except.ok.inj (htrust'.symm.trans htrust)
  have hseed : readSeed recordedSeedText = .ok recordedKey.seed := by decide +kernel
  have hkey := h.2 recordedKey.signingKey recordedSeedText recordedKey.seed hseed
    recordedKey_signsFor hholds
  exact ⟨crl, claims, hcrl, hgood.loads, hkey.1 _ _ _ _ hcrl,
    h.1 crl claims kid hgood.loads hgood.verified⟩

end

end NetplexSupport
