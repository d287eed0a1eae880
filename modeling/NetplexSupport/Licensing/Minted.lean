/-
Licences from the offline tool at the server: they verify until they expire and
only as they were minted, and registration adds limits of its own.
-/
import NetplexSupport.Licensing.Registry
import NetplexSupport.Tools.MintLicense

namespace NetplexSupport

open Py

section

variable {F : Type} [PyFloat F] [Interpreter]

variable {C : Crypto} {K : SigningKey} {seed : Bytes} {args : MintArgs} {token : Str}
  {claims signed : Members F} {trust : TrustStore F}

/-! ### Verification -/

theorem claimedTier_minted (hm : Minted C K seed args token claims signed) :
    claimedTier signed = args.loweredTier := by
  rw [claimedTier, hm.tier]
  rfl

theorem claimedCustomer_minted (hm : Minted C K seed args token claims signed) :
    claimedCustomer signed = args.customer := by
  rw [claimedCustomer, hm.customer]
  rfl

theorem unexpired_minted (hm : Minted C K seed args token claims signed) {now : Int}
    {expiry : Option Int} :
    Unexpired signed now expiry ↔
      expiry = args.expiresAt ∧ ∀ e, args.expiresAt = some e → now ≤ e := by
  rw [Unexpired, hm.expires]
  rcases args.expiresAt with _ | e
  · simp [Json.toInt]
  · simp [Json.toInt, and_comm]

/-- With spaces behind it or not, the token says what was minted, and it is valid
until it expires. -/
theorem validToken_minted_iff (hK : SignsFor C K seed)
    (hholds : trust.Holds (keyIdFor C (K.verifyKey seed)) (K.verifyKey seed))
    (hm : Minted C K seed args token claims signed) {w : Str}
    (hw : ∀ c ∈ w, isJsonSpace c = true) {now : Int} {claims' : Members F} {kid : Str}
    {expiry : Option Int} :
    ValidToken C trust (token ++ w) now claims' kid expiry ↔
      claims' = signed ∧ kid = keyIdFor C (K.verifyKey seed) ∧ expiry = args.expiresAt ∧
        ∀ e, args.expiresAt = some e → now ≤ e := by
  have hloads : loads (token ++ w) = some (.obj signed) :=
    hm.text ▸ loads_fileText hm.keyed hw
  have hverify := verifyManifest_signClaims hK hm.signs hholds
  constructor
  · rintro ⟨hloads', hverify', hunexpired⟩
    obtain rfl : claims' = signed := by simpa using hloads'.symm.trans hloads
    obtain rfl : kid = keyIdFor C (K.verifyKey seed) := by
      simpa using hverify'.symm.trans hverify
    exact ⟨rfl, rfl, (unexpired_minted hm).mp hunexpired⟩
  · rintro ⟨rfl, rfl, hexpiry⟩
    exact ⟨hloads, hverify, (unexpired_minted hm).mpr hexpiry⟩

theorem verifyToken_minted (hK : SignsFor C K seed)
    (hholds : trust.Holds (keyIdFor C (K.verifyKey seed)) (K.verifyKey seed))
    (hm : Minted C K seed args token claims signed) {w : Str}
    (hw : ∀ c ∈ w, isJsonSpace c = true) (now : Int) :
    ∃ result : VerifyResult F, verifyToken C (token ++ w) trust now = .ok result ∧
      (result.valid = true ↔ ∀ e, args.expiresAt = some e → now ≤ e) ∧
      result.tier = args.loweredTier ∧ result.expiresAt = args.expiresAt := by
  by_cases hunexpired : ∀ e, args.expiresAt = some e → now ≤ e
  · have hvalid := (validToken_minted_iff hK hholds hm hw).mpr ⟨rfl, rfl, rfl, hunexpired⟩
    obtain ⟨hresult, hok⟩ := verifyToken_valid_iff.mpr ⟨_, _, _, hvalid, rfl⟩
    exact ⟨_, hresult, iff_of_true hok hunexpired, claimedTier_minted hm, rfl⟩
  · -- The claims name an expiry that has passed, and it is still reported.
    push Not at hunexpired
    obtain ⟨e, he, hpast⟩ := hunexpired
    have hloads : loads (token ++ w) = some (.obj signed) :=
      hm.text ▸ loads_fileText hm.keyed hw
    have hexpires : dictGet signed "expires_at" = some (.int e) := by
      rw [hm.expires, he]
    refine ⟨{ valid := false, tier := args.loweredTier, expiresAt := some e,
              reason := "expired" }, ?_, ?_, rfl, he.symm⟩
    · unfold verifyToken
      simp only [hloads]
      rw [bind_eq_ok]
      refine ⟨(true, keyIdFor C (K.verifyKey seed)),
        verifyManifest_signClaims hK hm.signs hholds, ?_⟩
      simp only [Bool.not_true, Bool.false_eq_true, if_false, hexpires, Option.getD_some]
      rw [bind_eq_ok]
      refine ⟨e, rfl, ?_⟩
      rw [if_pos hpast, ← claimedTier_minted hm]
      rfl
    · refine iff_of_false (by simp) ?_
      exact fun h => absurd (h e he) (not_le.mpr hpast)

/-- Mint and server agree on every licence: with its newline or without, the
token is valid exactly until it expires, with the tier and the expiry that were
minted, and no object that keeps its signature and says something else
verifies. -/
theorem minted_verifies {C : Crypto} {K : SigningKey} {keyText : Str} {seed : Bytes}
    (hseed : readSeed keyText = .ok seed) (hK : SignsFor C K seed) {trust : TrustStore F}
    (hholds : trust.Holds (keyIdFor C (K.verifyKey seed)) (K.verifyKey seed))
    {args : MintArgs} {file : Str} (hmint : mintLicense F C K keyText args = .ok file) :
    ∃ (token : Str) (signed block : Members F), file = token ++ "\n" ∧
      loads token = some (.obj signed) ∧
      dictGet signed "signature" = some (.obj block) ∧
      (∀ text ∈ [token, file], ∀ now, ∃ result : VerifyResult F,
        verifyToken C text trust now = .ok result ∧
        (result.valid = true ↔ ∀ e, args.expiresAt = some e → now ≤ e) ∧
        result.tier = args.loweredTier ∧ result.expiresAt = args.expiresAt) ∧
      ∀ other block' : Members F, (Json.obj other).Keyed →
        dictGet other "signature" = some (.obj block') →
        (Json.obj block').Same (.obj block) →
        ¬ (Json.obj (payload other)).Same (.obj (payload signed)) →
        ∀ kid, verifyManifest C other trust ≠ .ok (true, kid) := by
  obtain ⟨token, htoken, hfile⟩ := bind_eq_ok.mp hmint
  obtain rfl := (Except.ok.inj hfile).symm
  obtain ⟨claims, signed, hm⟩ := mintToken_minted (F := F) hseed htoken
  obtain ⟨message, _, hsigned⟩ := signClaims_eq_ok.mp hm.signs
  have hblock : dictGet signed "signature" =
      some (.obj (signatureBlock C K seed message)) := by
    rw [hsigned, dictGet_dictSet, if_pos rfl]
  have hbare : token = token ++ [] := (List.append_nil token).symm
  refine ⟨token, signed, _, rfl, ?_, hblock, ?_, ?_⟩
  · rw [hbare, hm.text]
    exact loads_fileText hm.keyed (by simp)
  · rw [List.forall_mem_cons, List.forall_mem_singleton]
    constructor
    · rw [hbare]
      exact verifyToken_minted hK hholds hm (by simp)
    · exact verifyToken_minted hK hholds hm (by simp [Str.ofString, isJsonSpace])
  · intro other block' hother hblock' hsame hdiffers kid hverify
    exact hdiffers (same_of_verifyManifest hK hm.signs hm.keyed hholds hother hblock hblock'
      hsame hverify)

end

section

attribute [local instance] FloatView.asFloat Interpreter.ascii

theorem recordedSeed : readSeed recordedSeedText = .ok recordedKey.seed := by decide +kernel

/-- A day's licence verifies in its last second, file and all. -/
theorem minted_verifies_team :
    ∃ (token : Str) (trust : TrustStore FloatView) (result : VerifyResult FloatView),
      mintLicense FloatView recordedKey.crypto recordedKey.signingKey recordedSeedText
        (teamLicence 1) = .ok (token ++ "\n") ∧
      licenseTrustStore recordedKey.crypto licenceSettings = .ok trust ∧
      verifyToken recordedKey.crypto (token ++ "\n") trust 1700086400 = .ok result ∧
      result.valid = true ∧ result.tier = Str.ofString "team" ∧
      result.expiresAt = some 1700086400 := by
  have hrun : (teamToken 1 >>= fun _ => .ok ()) = .ok () := by decide +kernel
  obtain ⟨token, htoken, _⟩ := bind_eq_ok.mp hrun
  obtain ⟨trust, htrust, hholds⟩ := recordedTrust
  have hmint : mintLicense FloatView recordedKey.crypto recordedKey.signingKey
      recordedSeedText (teamLicence 1) = .ok (token ++ "\n") :=
    bind_eq_ok.mpr ⟨token, htoken, rfl⟩
  obtain ⟨_, _, _, _, _, _, hverify, _⟩ :=
    minted_verifies recordedSeed recordedKey_signsFor hholds hmint
  obtain ⟨result, hresult, hvalid, htier, hexpires⟩ :=
    hverify (token ++ "\n") (by simp) 1700086400
  refine ⟨token, trust, result, hmint, htrust, hresult, hvalid.mpr ?_,
    htier.trans (by decide +kernel), hexpires⟩
  intro e he
  obtain rfl := Option.some.inj he
  decide

end

/-! ### Registration -/

section

variable {F : Type} [PyFloat F] [Interpreter]

variable {C : Crypto} {K : SigningKey} {seed : Bytes} {args : MintArgs} {token : Str}
  {claims signed : Members F} {trust : TrustStore F}

/-- What registering the text of a licence and looking it up asks for, beyond a
valid token: the cap of the request, the columns of the row and the route. -/
structure Registrable (C : Crypto) (K : SigningKey) (seed : Bytes) (B : Backend)
    (args : MintArgs) (text : Str) : Prop where
  short : text.length ≤ tokenMaxLength
  customer : B.string 256 args.customer = true
  keyId : B.string 32 (keyIdFor C (K.verifyKey seed)) = true
  tier : B.string 32 args.loweredTier = true
  expires : args.expiresAt.all B.integer = true
  text : B.text text = true
  named : args.customer ≠ ""
  segment : '/' ∉ args.customer.toList

instance (C : Crypto) (K : SigningKey) (seed : Bytes) (B : Backend) (args : MintArgs)
    (text : Str) : Decidable (Registrable C K seed B args text) :=
  decidable_of_iff
    (text.length ≤ tokenMaxLength ∧ B.string 256 args.customer = true ∧
      B.string 32 (keyIdFor C (K.verifyKey seed)) = true ∧
      B.string 32 args.loweredTier = true ∧ args.expiresAt.all B.integer = true ∧
      B.text text = true ∧ args.customer ≠ "" ∧ '/' ∉ args.customer.toList)
    ⟨fun ⟨h₁, h₂, h₃, h₄, h₅, h₆, h₇, h₈⟩ => ⟨h₁, h₂, h₃, h₄, h₅, h₆, h₇, h₈⟩,
      fun ⟨h₁, h₂, h₃, h₄, h₅, h₆, h₇, h₈⟩ => ⟨h₁, h₂, h₃, h₄, h₅, h₆, h₇, h₈⟩⟩

/-- The text was registered, and a lookup of its customer returns it. -/
def RegisteredAndFound (F : Type) [PyFloat F] (C : Crypto) (B : Backend)
    (settings : Settings) (request : Request) (rows : List LicenseToken) (args : MintArgs)
    (text : Str) (now : Int) (draw : RowDraw) : Prop :=
  ∃ answer rows' view,
    postRegister F C B settings request rows text now draw = .ok (answer, rows') ∧
    getRegistered settings request rows' args.customer = .ok view ∧
    view.token = text ∧ view.tier = args.loweredTier ∧ view.expiresAt = args.expiresAt

/-- The row of a licence. -/
abbrev mintedRow (C : Crypto) (K : SigningKey) (seed : Bytes) (args : MintArgs)
    (signed : Members F) (text : Str) (draw : RowDraw) : LicenseToken :=
  licenseRow signed (keyIdFor C (K.verifyKey seed)) args.expiresAt text draw

theorem fits_mintedRow (hm : Minted C K seed args token claims signed) (B : Backend)
    (text : Str) (draw : RowDraw) :
    (mintedRow C K seed args signed text draw).fits B = true ↔
      B.string 256 args.customer = true ∧
        B.string 32 (keyIdFor C (K.verifyKey seed)) = true ∧
        B.string 32 args.loweredTier = true ∧ args.expiresAt.all B.integer = true ∧
        B.text text = true := by
  simp only [LicenseToken.fits, licenseRow, claimedTier_minted hm,
    claimedCustomer_minted hm, Bool.and_eq_true, and_assoc]

theorem postRegister_minted (hK : SignsFor C K seed) {settings : Settings}
    (htrust : licenseTrustStore C settings = .ok trust)
    (hholds : trust.Holds (keyIdFor C (K.verifyKey seed)) (K.verifyKey seed))
    (hm : Minted C K seed args token claims signed) {w : Str}
    (hw : ∀ c ∈ w, isJsonSpace c = true) {now : Int}
    (hunexpired : ∀ e, args.expiresAt = some e → now ≤ e) {request : Request}
    (hadmin : requireAdmin settings request = .ok ()) (B : Backend)
    (rows : List LicenseToken) (draw : RowDraw) {rows' : List LicenseToken}
    {answer : RegisterResult} :
    postRegister F C B settings request rows (token ++ w) now draw = .ok (answer, rows') ↔
      (token ++ w).length ≤ tokenMaxLength ∧
      (mintedRow C K seed args signed (token ++ w) draw).fits B = true ∧
      answer = registered signed (keyIdFor C (K.verifyKey seed)) args.expiresAt ∧
      rows' = rows ++ [mintedRow C K seed args signed (token ++ w) draw] := by
  rw [postRegister, bind_eq_ok]
  constructor
  · rintro ⟨_, _, h⟩
    split at h
    · cases h
    · rename_i hshort
      obtain ⟨trust', claims', kid, expiry, htrust', hvalid, hfits, hanswer, hrows⟩ :=
        registerLicense_eq_ok_iff.mp h
      obtain rfl : trust' = trust := Except.ok.inj (htrust'.symm.trans htrust)
      obtain ⟨rfl, rfl, rfl, _⟩ := (validToken_minted_iff hK hholds hm hw).mp hvalid
      exact ⟨not_lt.mp hshort, hfits, hanswer, hrows⟩
  · rintro ⟨hshort, hfits, hanswer, hrows⟩
    refine ⟨(), hadmin, ?_⟩
    rw [if_neg (not_lt.mpr hshort)]
    exact registerLicense_eq_ok_iff.mpr ⟨trust, signed, _, _, htrust,
      (validToken_minted_iff hK hholds hm hw).mpr ⟨rfl, rfl, rfl, hunexpired⟩, hfits,
      hanswer, hrows⟩

omit [PyFloat F] [Interpreter] in
theorem ofString_eq_nil {s : String} : Str.ofString s = [] ↔ s = "" := by
  simp [Str.ofString]

omit [PyFloat F] [Interpreter] in
theorem ch_mem_ofString {c : Char} {s : String} : ch c ∈ Str.ofString s ↔ c ∈ s.toList := by
  simp [Str.ofString]

/-- A licence that is not refused and has not expired can be registered and
looked up exactly when it is `Registrable`. -/
theorem minted_registers_iff {C : Crypto} {K : SigningKey} {keyText : Str} {seed : Bytes}
    (hseed : readSeed keyText = .ok seed) (hK : SignsFor C K seed) {settings : Settings}
    {trust : TrustStore F} (htrust : licenseTrustStore C settings = .ok trust)
    (hholds : trust.Holds (keyIdFor C (K.verifyKey seed)) (K.verifyKey seed))
    {args : MintArgs} {token : Str} (hmint : mintToken F C K keyText args = .ok token)
    {now : Int} (hunexpired : ∀ e, args.expiresAt = some e → now ≤ e) {request : Request}
    (hadmin : requireAdmin settings request = .ok ()) (B : Backend)
    {rows : List LicenseToken} {draw : RowDraw}
    (hids : (rows.map LicenseToken.id ++ [draw.id]).Pairwise (· < ·)) {text : Str}
    (htext : text ∈ [token, token ++ Str.ofString "\n"]) :
    RegisteredAndFound F C B settings request rows args text now draw ↔
      Registrable C K seed B args text := by
  obtain ⟨claims, signed, hm⟩ := mintToken_minted (F := F) hseed hmint
  obtain ⟨w, hw, rfl⟩ : ∃ w, (∀ c ∈ w, isJsonSpace c = true) ∧ text = token ++ w := by
    rcases List.mem_cons.mp htext with rfl | htext
    · exact ⟨[], by simp, by simp⟩
    · exact ⟨_, by simp [Str.ofString, isJsonSpace], List.mem_singleton.mp htext⟩
  constructor
  · rintro ⟨answer, rows', view, hregister, hfound, _⟩
    obtain ⟨hshort, hfits, _⟩ :=
      (postRegister_minted hK htrust hholds hm hw hunexpired hadmin B rows draw).mp
        hregister
    obtain ⟨hcustomer, hkeyId, htier, hexpires, htext⟩ :=
      (fits_mintedRow hm B _ draw).mp hfits
    unfold getRegistered at hfound
    split at hfound
    · cases hfound
    · rename_i hroute
      rw [not_or, ofString_eq_nil, ch_mem_ofString] at hroute
      exact ⟨hshort, hcustomer, hkeyId, htier, hexpires, htext, hroute.1, hroute.2⟩
  · rintro ⟨hshort, hcustomer, hkeyId, htier, hexpires, htext, hnamed, hsegment⟩
    have hfits := (fits_mintedRow hm B (token ++ w) draw).mpr
      ⟨hcustomer, hkeyId, htier, hexpires, htext⟩
    have hregister :=
      (postRegister_minted hK htrust hholds hm hw hunexpired hadmin B rows draw).mpr
        ⟨hshort, hfits, rfl, rfl⟩
    let row := mintedRow C K seed args signed (token ++ w) draw
    have hfound : getRegisteredLicense (rows ++ [row]) row.customerRef =
        .ok (registeredView row) := getRegisteredLicense_new hids
    refine ⟨_, _, registeredView row, hregister, ?_, rfl, claimedTier_minted hm, rfl⟩
    have hroute : ¬ (Str.ofString args.customer = [] ∨
        ch '/' ∈ Str.ofString args.customer) := by
      rw [not_or, ofString_eq_nil, ch_mem_ofString]
      exact ⟨hnamed, hsegment⟩
    rw [getRegistered, if_neg hroute, bind_eq_ok]
    refine ⟨(), hadmin, ?_⟩
    rw [← claimedCustomer_minted hm]
    exact hfound

end

section

attribute [local instance] FloatView.asFloat Interpreter.ascii

def opsRequest : Request := { authorization := some (asciiBytes "Bearer ops") }

/-- A day's licence is registered and found. -/
theorem minted_registers_team :
    ∃ token, teamToken 1 = .ok token ∧
      RegisteredAndFound FloatView recordedKey.crypto Backend.postgres licenceSettings
        opsRequest [] (teamLicence 1) token 1700000000 ⟨1, 0⟩ := by
  have hrun : (teamToken 1 >>= fun token => .ok (decide (Registrable recordedKey.crypto
      recordedKey.signingKey recordedKey.seed Backend.postgres (teamLicence 1) token))) =
      .ok true := by decide +kernel
  obtain ⟨token, htoken, hregistrable⟩ := bind_eq_ok.mp hrun
  obtain ⟨trust, htrust, hholds⟩ := recordedTrust
  have hserver : licenseTrustStore recordedKey.crypto licenceSettings = .ok trust := htrust
  have hadmin : requireAdmin licenceSettings opsRequest = .ok () := by decide +kernel
  have hunexpired : ∀ e, (teamLicence 1).expiresAt = some e → 1700000000 ≤ e := by
    intro e he
    obtain rfl := Option.some.inj he
    decide
  have hids : (([] : List LicenseToken).map LicenseToken.id ++ [1]).Pairwise (· < ·) := by
    simp
  refine ⟨token, htoken, ?_⟩
  exact (minted_registers_iff recordedSeed recordedKey_signsFor hserver hholds htoken
    hunexpired hadmin Backend.postgres hids List.mem_cons_self).mpr
    (of_decide_eq_true (Except.ok.inj hregistrable))

/-- A licence of a hundred years is minted and verifies, but Postgres cannot
hold its expiry. -/
theorem minted_registers_century :
    ∃ (token : Str) (trust : TrustStore FloatView), teamToken 36500 = .ok token ∧
      licenseTrustStore recordedKey.crypto licenceSettings = .ok trust ∧
      trust.Holds (keyIdFor recordedKey.crypto
        (recordedKey.signingKey.verifyKey recordedKey.seed))
        (recordedKey.signingKey.verifyKey recordedKey.seed) ∧
      (teamLicence 36500).expiresAt = some 4853600000 ∧
      requireAdmin licenceSettings opsRequest = .ok () ∧
      ¬ RegisteredAndFound FloatView recordedKey.crypto Backend.postgres licenceSettings
        opsRequest [] (teamLicence 36500) token 1700000000 ⟨1, 0⟩ := by
  have hrun : (teamToken 36500 >>= fun token => .ok (postRegister FloatView
      recordedKey.crypto Backend.postgres licenceSettings opsRequest [] token 1700000000
      ⟨1, 0⟩).toOption.isNone) = .ok true := by decide +kernel
  obtain ⟨token, htoken, hnone⟩ := bind_eq_ok.mp hrun
  obtain ⟨trust, htrust, hholds⟩ := recordedTrust
  refine ⟨token, trust, htoken, htrust, hholds, by decide +kernel, by decide +kernel, ?_⟩
  rintro ⟨answer, rows', view, hregister, _⟩
  rw [hregister] at hnone
  cases hnone

end

end NetplexSupport
