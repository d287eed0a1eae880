/-
Which licences `tools/mint_license.py` mints.  The policy guard looks at the arguments;
what matters is what a box reads in the signed token, so the guard is stated there: a
token is locked to a machine only where the policy lets it be.
-/
import NetplexSupport.Tools.MintLicense

namespace NetplexSupport

open Py

section

variable [Interpreter]

/-! ### The guard -/

/-- A licence may be locked to a machine: its tier is lockable, and an architect's
never expires. -/
def MintArgs.Permitted (args : MintArgs) : Prop :=
  args.bound = true → args.loweredTier ∈ lockable ∧
    (args.loweredTier = "architect" → args.validity = .perpetual)

instance (args : MintArgs) : Decidable args.Permitted :=
  inferInstanceAs (Decidable (_ → _))

theorem lockPolicy_eq_ok {args : MintArgs} : lockPolicy args = .ok () ↔ args.Permitted := by
  unfold lockPolicy
  dsimp only
  by_cases hbound : args.bound = true
  · rw [if_pos hbound]
    by_cases htier : args.loweredTier ∉ lockable
    · rw [if_pos htier]
      exact iff_of_false nofun fun h => htier (h hbound).1
    · rw [if_neg htier]
      by_cases hexpires : args.loweredTier = "architect" ∧ args.validity ≠ .perpetual
      · rw [if_pos hexpires]
        exact iff_of_false nofun fun h => hexpires.2 ((h hbound).2 hexpires.1)
      · rw [if_neg hexpires]
        refine iff_of_true rfl fun _ => ⟨not_not.mp htier, fun harchitect => ?_⟩
        by_contra hvalidity
        exact hexpires ⟨harchitect, hvalidity⟩
  · rw [if_neg hbound]
    exact iff_of_true rfl fun h => absurd h hbound

/-! ### The claims -/

omit [Interpreter] in
theorem exists_licenseIdOf (C : Crypto) (args : MintArgs) :
    ∃ licenseId, licenseIdOf C args = .ok licenseId ∧ Str.WellFormed licenseId := by
  have hbuyer := encodeUtf8_ok (Str.wellFormed_ofString args.buyerId)
  have hdefault : ∀ data, Str.WellFormed (Str.ofString "lic-" ++
      (hexdigest (C.sha256 data)).take 8) := by
    intro data
    rw [Str.wellFormed_append]
    refine ⟨Str.wellFormed_ofString _, fun c hc => ?_⟩
    obtain ⟨b, _, hc⟩ := List.mem_flatMap.mp (List.mem_of_mem_take hc)
    exact wellFormed_hexPad _ _ c hc
  refine ⟨_, bind_eq_ok.mpr ⟨_, hbuyer, rfl⟩, ?_⟩
  rcases args.licenseId with _ | s
  · exact hdefault _
  · by_cases hs : s = ""
    · simp only [hs, if_true]
      exact hdefault _
    · simp only [hs, if_false]
      exact Str.wellFormed_ofString s

variable {F : Type}

/-- A box reads that the licence is locked to a machine. -/
def Locked (claims : Members F) : Prop :=
  (∃ machine, dictGet claims "fingerprint" = some (.str machine) ∧ machine ≠ [] ∧
    machine ≠ Str.ofString "any") ∧ dictGet claims "allow_floating" = none

theorem locked_mintClaims_iff (args : MintArgs) (entitlements : Members F) (licenseId : Str) :
    Locked (mintClaims args entitlements licenseId) ↔ args.bound = true := by
  have hmachine : dictGet (mintClaims args entitlements licenseId) "fingerprint" =
      some (.str (Str.ofString args.machine)) := by
    rw [dictGet_mintClaims _ _ _ (by decide)]
    rfl
  have hfloating : dictGet (mintClaims args entitlements licenseId) "allow_floating" =
      if args.allowFloating then some (.bool true) else none := by
    unfold mintClaims
    rcases args.allowFloating with _ | _
    · rfl
    · simp only [if_true]
      rw [dictGet_dictSet, if_pos rfl]
  have hempty : Str.ofString args.machine = [] ↔ args.machine = "" := by simp [Str.ofString]
  have hany : Str.ofString args.machine = Str.ofString "any" ↔ args.machine = "any" :=
    Str.ofString_inj _ _
  rw [Locked, hmachine, hfloating]
  simp [MintArgs.bound, hempty, hany]

theorem mintClaims_append (args : MintArgs) (entitlements : Members F) (licenseId : Str) :
    mintClaims args entitlements licenseId = baseClaims args entitlements licenseId ++
      if args.allowFloating then [(Str.ofString "allow_floating", .bool true)] else [] := by
  unfold mintClaims
  rcases args.allowFloating with _ | _
  · exact (List.append_nil _).symm
  · exact dictSet_new _ _ _ (by simp only [baseClaims, List.map_cons, List.map_nil]; decide)

theorem payload_mintClaims (args : MintArgs) (entitlements : Members F) (licenseId : Str) :
    payload (mintClaims args entitlements licenseId) = mintClaims args entitlements licenseId := by
  have hbase : ∀ m ∈ baseClaims args entitlements licenseId, m.1 ≠ Str.ofString "signature" := by
    simp only [baseClaims, List.forall_mem_cons]
    exact ⟨by decide, by decide, by decide, by decide, by decide, by decide, by decide, by decide,
      by simp⟩
  rw [payload, List.filter_eq_self, mintClaims_append, List.forall_mem_append]
  refine ⟨fun m hm => bne_iff_ne.mpr (hbase m hm), ?_⟩
  rcases args.allowFloating with _ | _
  · simp
  · simp only [if_true, List.forall_mem_singleton]
    decide

/-- All but the entitlements are texts of the command line, digits and digests. -/
theorem encodable_mintClaims {args : MintArgs} {entitlements : Members F} {licenseId : Str}
    (hlicense : Str.WellFormed licenseId) :
    (Json.obj (payload (mintClaims args entitlements licenseId))).Strings Str.encodable ↔
      (Json.obj entitlements).Strings Str.encodable := by
  have htext : ∀ text : String, Str.encodable (Str.ofString text) = true := fun text =>
    decide_eq_true (Str.wellFormed_ofString text)
  have hfloating : (Json.obj (F := F) (if args.allowFloating then
      [(Str.ofString "allow_floating", .bool true)] else [])).Strings Str.encodable := by
    rw [Json.strings_obj]
    rcases args.allowFloating with _ | _
    · simp
    · simp only [if_true, List.forall_mem_singleton]
      exact ⟨htext _, rfl⟩
  rw [Json.strings_obj] at hfloating
  rw [payload_mintClaims, mintClaims_append, Json.strings_obj, List.forall_mem_append,
    List.forall_mem_append, and_iff_left hfloating.1, and_iff_left hfloating.2]
  simp only [baseClaims, List.forall_mem_cons, Json.strings_str]
  constructor
  · rintro ⟨_, _, hentitlements, _⟩
    exact hentitlements
  · intro hentitlements
    refine ⟨⟨htext _, htext _, htext _, htext _, htext _, htext _, htext _, htext _, by simp⟩,
      htext _, hentitlements, htext _, htext _, decide_eq_true hlicense, htext _, rfl, ?_, by simp⟩
    rcases args.expiresAt with _ | e
    · rfl
    · rfl

/-! ### The tokens -/

variable [PyFloat F]

/-- A token is minted where the policy permits it, from entitlements that can be signed. -/
theorem exists_mintToken_iff {C : Crypto} {K : SigningKey} {keyText : Str} {seed : Bytes}
    (hread : readSeed keyText = .ok seed) (hseed : seed.length = 32) {args : MintArgs} :
    (∃ token, mintToken F C K keyText args = .ok token) ↔
      args.Permitted ∧ ∃ entitlements : Members F,
        loadEntitlements args.entitlements = .ok entitlements ∧
          (Json.obj entitlements).Strings Str.encodable := by
  obtain ⟨licenseId, hlicense, hwell⟩ := exists_licenseIdOf C args
  simp only [mintToken_eq_ok hread hlicense, lockPolicy_eq_ok]
  constructor
  · rintro ⟨_, _, hpermitted, entitlements, signed, hentitlements, hsigned, _⟩
    obtain ⟨message, hmessage, _⟩ := signClaims_eq_ok.mp hsigned
    exact ⟨hpermitted, entitlements, hentitlements, (encodable_mintClaims hwell).mp
      ((wellFormed_canonical _).mp (encodeUtf8_eq_ok_iff.mp hmessage).1)⟩
  · rintro ⟨hpermitted, entitlements, hentitlements, hstrings⟩
    obtain ⟨message, hmessage⟩ := canonicalBytes_ok ((encodable_mintClaims hwell).mpr hstrings)
    exact ⟨_, hseed, hpermitted, entitlements, _, hentitlements,
      signClaims_eq_ok.mpr ⟨message, hmessage, rfl⟩, rfl⟩

/-- Which licences are minted, and which of them are locked.  A token is minted exactly
when the policy permits the arguments and the entitlements are an object of JSON whose
texts can be encoded.  It is read back as signed claims with these entitlements that
verify under every store that holds the key; and a box finds it locked to a machine
exactly when the arguments ask for that, and then its tier is lockable, and it never
expires if it is an architect's. -/
theorem policy_kept {C : Crypto} {K : SigningKey} {keyText : Str} {seed : Bytes}
    (hread : readSeed keyText = .ok seed) (hseed : seed.length = 32) (hK : SignsFor C K seed)
    (args : MintArgs) :
    ((∃ token, mintToken F C K keyText args = .ok token) ↔
      args.Permitted ∧ ∃ entitlements : Members F,
        loadEntitlements args.entitlements = .ok entitlements ∧
          (Json.obj entitlements).Strings Str.encodable) ∧
    ∀ token, mintToken F C K keyText args = .ok token →
      ∃ signed entitlements : Members F, loads token = some (.obj signed) ∧
        loadEntitlements args.entitlements = .ok entitlements ∧
        dictGet signed "entitlements" = some (.obj entitlements) ∧
        (∀ trust : TrustStore F,
          trust.Holds (keyIdFor C (K.verifyKey seed)) (K.verifyKey seed) →
          verifyManifest C signed trust = .ok (true, keyIdFor C (K.verifyKey seed))) ∧
        (Locked signed ↔ args.bound = true) ∧
        (Locked signed → ∃ tier ∈ lockable, dictGet signed "tier" = some (.str tier) ∧
          (tier = "architect" → dictGet signed "expires_at" = some .null)) := by
  refine ⟨exists_mintToken_iff hread hseed, fun token hmint => ?_⟩
  obtain ⟨licenseId, hlicense, -⟩ := exists_licenseIdOf C args
  obtain ⟨-, hpolicy, entitlements, signed, hentitlements, hsigned, rfl⟩ :=
    (mintToken_eq_ok hread hlicense).mp hmint
  have hkeyed := keyed_signClaims hsigned
    (keyed_mintClaims args (keyed_loadEntitlements hentitlements) licenseId)
  have hloads : loads (dumps fileOpts (.obj signed)) = some (.obj signed) := by
    have h := loads_fileText hkeyed (w := []) (by simp)
    rwa [List.append_nil] at h
  have hclaim : ∀ {key : Str}, key ≠ Str.ofString "signature" →
      dictGet signed key = dictGet (mintClaims args entitlements licenseId) key :=
    dictGet_signClaims hsigned
  have hbase : ∀ {key : Str}, key ≠ Str.ofString "signature" →
      key ≠ Str.ofString "allow_floating" →
      dictGet signed key = dictGet (baseClaims args entitlements licenseId) key :=
    fun hsignature hfloating => (hclaim hsignature).trans (dictGet_mintClaims _ _ _ hfloating)
  have hlocked : Locked signed ↔ args.bound = true := by
    rw [← locked_mintClaims_iff args entitlements licenseId, Locked, Locked,
      hclaim (by decide), hclaim (by decide)]
  refine ⟨signed, entitlements, hloads, hentitlements, ?_,
    fun trust hholds => verifyManifest_signClaims hK hsigned hholds, hlocked, fun h => ?_⟩
  · rw [hbase (by decide) (by decide)]
    rfl
  · obtain ⟨htier, hexpires⟩ := lockPolicy_eq_ok.mp hpolicy (hlocked.mp h)
    refine ⟨args.loweredTier, htier, ?_, fun harchitect => ?_⟩
    · rw [hbase (by decide) (by decide)]
      rfl
    · have hnever : args.expiresAt = none := by rw [MintArgs.expiresAt, hexpires harchitect]
      rw [hbase (by decide) (by decide), baseClaims, hnever]
      rfl

end

section

attribute [local instance] FloatView.asFloat Interpreter.ascii

/-- An enterprise licence for one machine. -/
def lockedLicence (tier : String) : MintArgs where
  tier := tier
  buyerId := "acme"
  licenseId := some "lic-1"
  machine := "fp-1"
  validity := .perpetual
  now := 1700000000

/-- The recorded key with its signature of the enterprise licence. -/
def lockedKey : SignatureTable where
  seed := recordedKey.seed
  publicKey := recordedKey.publicKey
  digests := recordedKey.digests
  known := [(piecesBytes ["\x7b\"buyer_id\":\"acme\",", "\"customer_ref\":\"acme\",",
      "\"entitlements\":\x7b\x7d,", "\"expires_at\":null,", "\"fingerprint\":\"fp-1\",",
      "\"issued_at\":1700000000,", "\"license_id\":\"lic-1\",", "\"tier\":\"enterprise\"\x7d"],
    piecesBase64 ["nlqlK0WPSAg0eQRtFiAiwmMwiOCibUtOJH", "kPHS2GkaGAozqkmPGbL9rBAqEt9MBbjoQg",
      "IRNY9m4nxdS6eOY2BA=="])]
  publicKey_length := recordedKey.publicKey_length
  known_length := by decide +kernel
  known_nodup := by decide +kernel

/-- An enterprise licence is locked, and a team licence is not minted so. -/
theorem policy_kept_enterprise :
    (∃ (token : Str) (signed : Members FloatView),
      mintToken FloatView lockedKey.crypto lockedKey.signingKey recordedSeedText
        (lockedLicence "Enterprise") = .ok token ∧
      loads token = some (.obj signed) ∧ Locked signed) ∧
    ¬ ∃ token, mintToken FloatView lockedKey.crypto lockedKey.signingKey recordedSeedText
      (lockedLicence "Team") = .ok token := by
  have hread : readSeed recordedSeedText = .ok lockedKey.seed := by decide +kernel
  have hkept := policy_kept (F := FloatView) hread (by decide +kernel) lockedKey.verifies_sign_iff
  obtain ⟨hminted, hlocked⟩ := hkept (lockedLicence "Enterprise")
  have hpermitted : (lockedLicence "Enterprise").Permitted := by decide +kernel
  have hbound : (lockedLicence "Enterprise").bound = true := by decide +kernel
  obtain ⟨token, htoken⟩ := hminted.mpr ⟨hpermitted, [], rfl, rfl⟩
  obtain ⟨signed, _, hloads, _, _, _, hiff, _⟩ := hlocked token htoken
  refine ⟨⟨token, signed, htoken, hloads, hiff.mpr hbound⟩, fun hteam => ?_⟩
  have hrefused : ¬ (lockedLicence "Team").Permitted := by decide +kernel
  exact hrefused ((hkept (lockedLicence "Team")).1.mp hteam).1

end

end NetplexSupport
