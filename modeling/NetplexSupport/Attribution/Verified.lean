/-
What the leak tool calls verified.  `_verify` tries every pinned key where
`verify_manifest` looks one up by its id; which keys are pinned depends on the
`type` of the very object that is verified.
-/
import NetplexSupport.Crypto.Acceptance
import NetplexSupport.Tools.AttributeLeak

namespace NetplexSupport

open Py

/-- No empty signature verifies: those of Ed25519 have 64 bytes. -/
def RejectsEmpty (C : Crypto) : Prop := ∀ pub message, ¬ C.Verifies pub message []

theorem SignatureTable.rejectsEmpty (T : SignatureTable) : RejectsEmpty T.crypto := by
  intro pub message h
  obtain ⟨-, hsig⟩ := T.crypto_verifies_iff.mp h
  unfold SignatureTable.sign at hsig
  rcases hknown : T.known.lookup message with _ | sig
  · rw [hknown] at hsig
    cases hsig
  · have hlength := T.known_length _ (SignatureTable.mem_of_lookup hknown)
    rw [hknown, Option.getD_some] at hsig
    rw [← hsig] at hlength
    cases hlength

section

variable {F : Type} [PyFloat F] [FloatEq F] {C : Crypto} {claims : Members F}

/-! ### Signatures -/

/-- The object's `signature.sig` verifies over its canonical bytes under
`pub`. -/
def SignedWith (C : Crypto) (claims : Members F) (pub : Bytes) : Prop :=
  ∃ sigblock, dictGet claims "signature" = some (.obj sigblock) ∧
    SignatureVerifies C claims sigblock pub

/-- It does so under one of the keys. -/
def SignedUnder (C : Crypto) (keys : List Str) (claims : Members F) : Prop :=
  ∃ text ∈ keys, ∃ pub, b64decodeText text = .ok pub ∧ SignedWith C claims pub

omit [PyFloat F] [FloatEq F] in
theorem b64decodeText_eq_ok {s : Str} {bytes : Bytes} :
    b64decodeText s = .ok bytes ↔ b64d (.str s : Json F) = .ok bytes := by
  simp only [b64decodeText, b64d, bind_eq_ok]
  rcases encodeAscii s with exc | ascii
  · simp
  · simp

omit [PyFloat F] in
/-- The value `_verify` decodes is the `sig` of the signature block, when it
decodes to a signature at all. -/
theorem sigOf_eq_ok {sig : Json F} {signature : Bytes} (hsig : sigOf claims = .ok sig)
    (hdecode : b64decodeValue sig = .ok signature) (hne : signature ≠ []) :
    ∃ sigblock text, dictGet claims "signature" = some (.obj sigblock) ∧
      dictGet sigblock "sig" = some (.str text) ∧ b64d (.str text : Json F) = .ok signature := by
  have hempty : sig ≠ .str "" := by
    rintro rfl
    exact hne (Except.ok.inj hdecode).symm
  unfold sigOf at hsig
  by_cases htruthy : (claimOf claims "signature").truthy = true
  · rw [Json.or, if_pos htruthy] at hsig
    rcases hget : dictGet claims "signature" with _ | j
    · rw [claimOf, hget] at htruthy
      cases htruthy
    · rw [claimOf, hget, Option.getD_some] at hsig
      cases j with
      | obj sigblock =>
          obtain rfl := Except.ok.inj hsig
          rcases hblock : dictGet sigblock "sig" with _ | j
          · rw [hblock] at hempty
            exact absurd rfl hempty
          · rw [hblock, Option.getD_some] at hdecode
            cases j with
            | str text => exact ⟨sigblock, text, rfl, hblock, b64decodeText_eq_ok.mp hdecode⟩
            | null | bool | int | float | arr | obj => exact nomatch hdecode
      | null | bool | int | float | str | arr => exact nomatch hsig
  · rw [Json.or, if_neg htruthy] at hsig
    exact absurd (Except.ok.inj hsig).symm hempty

omit [PyFloat F] in
theorem sigOf_of_block {sigblock : Members F} {text : Str}
    (hsignature : dictGet claims "signature" = some (.obj sigblock))
    (hsig : dictGet sigblock "sig" = some (.str text)) : sigOf claims = .ok (.str text) := by
  have htruthy : (Json.obj sigblock).truthy = true := by
    rcases sigblock with _ | ⟨m, sigblock⟩
    · cases hsig
    · rfl
  rw [sigOf, claimOf, hsignature, Option.getD_some, Json.or, if_pos htruthy]
  simp only [hsig, Option.getD_some]

/-- One turn of the loop in `_verify` ends it exactly when the key can be decoded
and the object is signed with it. -/
theorem checkPinned_eq_ok (hempty : RejectsEmpty C)
    {VerifyKey : Bytes → Except Exc (Bytes → Bytes → Except Exc Unit)}
    (hC : C.VerifyKey = some VerifyKey) {sig : Json F} (hsig : sigOf claims = .ok sig)
    {text : Str} {pub : Bytes} :
    checkPinned VerifyKey claims sig text = .ok pub ↔
      b64decodeText text = .ok pub ∧ SignedWith C claims pub := by
  simp only [checkPinned, bind_eq_ok]
  constructor
  · rintro ⟨pub', hpub, key, hkey, signature, hsignature, message, hmessage, _, hverify, h⟩
    obtain rfl := Except.ok.inj h
    have hverifies : C.Verifies pub' message signature := ⟨VerifyKey, key, hC, hkey, hverify⟩
    have hne : signature ≠ [] := by
      rintro rfl
      exact hempty _ _ hverifies
    obtain ⟨sigblock, text', hblock, htext, hdecode⟩ := sigOf_eq_ok hsig hsignature hne
    exact ⟨hpub, sigblock, hblock, text', signature, message, htext, hdecode, hmessage,
      hverifies⟩
  · rintro ⟨hpub, sigblock, hblock, text', signature, message, htext, hdecode, hmessage,
      construct, key, hC', hkey, hverify⟩
    obtain rfl := Option.some.inj (hC.symm.trans hC')
    obtain rfl := Except.ok.inj (hsig.symm.trans (sigOf_of_block hblock htext))
    exact ⟨pub, hpub, key, hkey, signature, b64decodeText_eq_ok.mpr hdecode, message, hmessage,
      (), hverify, rfl⟩

/-- A good answer of `_verify` names a pinned key the object is signed with; a
bad one says that there is none. -/
theorem verifyPinned_eq_ok (hempty : RejectsEmpty C) {keys : List Str} {ok : Bool} {why : Str}
    (h : verifyPinned C claims keys = .ok (ok, why)) :
    (ok = true ↔ SignedUnder C keys claims) ∧
      (ok = true → ∃ text ∈ keys, ∃ pub, b64decodeText text = .ok pub ∧
        SignedWith C claims pub ∧ why = keyIdFor C pub) := by
  unfold verifyPinned at h
  rcases hC : C.VerifyKey with _ | VerifyKey
  · rw [hC] at h
    obtain ⟨rfl, -⟩ := Prod.mk.inj (Except.ok.inj h)
    refine ⟨⟨nofun, ?_⟩, nofun⟩
    rintro ⟨-, -, pub, -, -, -, -, -, -, -, -, -, construct, -, hC', -⟩
    rw [hC] at hC'
    cases hC'
  · simp only [hC] at h
    obtain ⟨sig, hsig, h⟩ := bind_eq_ok.mp h
    have hcheck : ∀ text pub, checkPinned VerifyKey claims sig text = .ok pub ↔ _ :=
      fun _ _ => checkPinned_eq_ok hempty hC hsig
    rcases hfound : keys.findSome? fun pub =>
      (checkPinned VerifyKey claims sig pub).toOption with _ | pub
    · rw [hfound] at h
      obtain ⟨rfl, -⟩ := Prod.mk.inj (Except.ok.inj h)
      refine ⟨⟨nofun, ?_⟩, nofun⟩
      rintro ⟨text, htext, pub, hsigned⟩
      have hnone := List.findSome?_eq_none_iff.mp hfound text htext
      rw [(hcheck text pub).mpr hsigned] at hnone
      cases hnone
    · rw [hfound] at h
      obtain ⟨rfl, rfl⟩ := Prod.mk.inj (Except.ok.inj h)
      obtain ⟨text, htext, hpinned⟩ := List.exists_of_findSome?_eq_some hfound
      have hok : checkPinned VerifyKey claims sig text = .ok pub := by
        rcases hresult : checkPinned VerifyKey claims sig text with exc | pub'
        · rw [hresult] at hpinned
          cases hpinned
        · rw [hresult] at hpinned
          exact congrArg Except.ok (Option.some.inj hpinned)
      obtain ⟨hpub, hsigned⟩ := (hcheck text pub).mp hok
      exact ⟨iff_of_true rfl ⟨text, htext, pub, hpub, hsigned⟩,
        fun _ => ⟨text, htext, pub, hpub, hsigned, rfl⟩⟩

/-- `_verify` returns for an object whose signature block has a text for its
`sig`. -/
theorem verifyPinned_returns {sigblock : Members F} {text : Str}
    (hsignature : dictGet claims "signature" = some (.obj sigblock))
    (hsig : dictGet sigblock "sig" = some (.str text)) (keys : List Str) :
    ∃ answer, verifyPinned C claims keys = .ok answer := by
  unfold verifyPinned
  rcases C.VerifyKey with _ | VerifyKey
  · exact ⟨_, rfl⟩
  · simp only [bind_eq_ok, sigOf_of_block hsignature hsig, Except.ok.injEq, exists_eq_left']
    rcases keys.findSome? _ with _ | pub
    · exact ⟨_, rfl⟩
    · exact ⟨_, rfl⟩

/-! ### The branches of `_attribute` -/

/-- The keys an object is checked against. -/
def kindKeys (stampTrust : List Str) (claims : Members F) : List Str :=
  if (claimOf claims "type").isStr STAMP_TYPE then stampTrust ++ STAMP_TRUST else TRUST

/-- The customer a stamp carries itself. -/
def ownCustomer (claims : Members F) : Json F :=
  (claimOf claims "customer_ref").or (claimOf claims "buyer_id")

variable {stampTrust : List Str} {ledger : Ledger F} {token : Str} {leak : Leak F}

/-- An attribution is the bare refusal, or that of the branch of its kind. -/
theorem attributeToken_cases (h : attributeToken C stampTrust ledger token = .ok leak) :
    (loads (F := F) token = none ∧ leak = .notJson) ∨
      ∃ claims, loads token = some (.obj claims) ∧
        (((claimOf claims "type").isStr STAMP_TYPE = true ∧ ∃ record,
            attributeStamp C stampTrust ledger claims = .ok record ∧ leak = .stamp record) ∨
          ((claimOf claims "type").isStr STAMP_TYPE = false ∧ ∃ record,
            attributeLicense C claims = .ok record ∧ leak = .license record)) := by
  unfold attributeToken at h
  rcases hloads : (loads token : Option (Json F)) with _ | j
  · rw [hloads] at h
    exact Or.inl ⟨rfl, (Except.ok.inj h).symm⟩
  · rw [hloads] at h
    cases j with
    | obj claims =>
        refine Or.inr ⟨claims, rfl, ?_⟩
        simp only at h
        cases htype : (claimOf claims "type").isStr STAMP_TYPE with
        | true =>
            rw [htype, if_pos rfl] at h
            rcases hstamp : attributeStamp C stampTrust ledger claims with exc | record
            · rw [hstamp] at h
              cases h
            · rw [hstamp] at h
              exact Or.inl ⟨rfl, record, rfl, (Except.ok.inj h).symm⟩
        | false =>
            rw [htype, if_neg Bool.false_ne_true] at h
            rcases hlicense : attributeLicense C claims with exc | record
            · rw [hlicense] at h
              cases h
            · rw [hlicense] at h
              exact Or.inr ⟨rfl, record, rfl, (Except.ok.inj h).symm⟩
    | null | bool | int | float | str | arr => exact nomatch h

/-- The row of the ledger is asked for after a good signature alone, and only for
a stamp that carries no customer. -/
theorem attributeStamp_eq_ok {record : StampRecord F}
    (h : attributeStamp C stampTrust ledger claims = .ok record) :
    ∃ ok why, verifyPinned C claims (stampTrust ++ STAMP_TRUST) = .ok (ok, why) ∧
      record.ok = ok ∧
      (record.resolvedViaLedger = true → ok = true ∧ (ownCustomer claims).truthy = false) ∧
      ((ok && !(ownCustomer claims).truthy) = false →
        ∀ ledger', attributeStamp C stampTrust ledger' claims = .ok record) := by
  unfold attributeStamp at h ⊢
  obtain ⟨⟨ok, why⟩, hverify, h⟩ := bind_eq_ok.mp h
  refine ⟨ok, why, hverify, ?_⟩
  rw [hverify]
  by_cases hused : (ok && !(ownCustomer claims).truthy) = true
  · obtain ⟨rfl, hown⟩ := (Bool.and_eq_true _ _).mp hused
    have hok : record.ok = true := by
      simp only at h
      split at h
      · obtain ⟨row, -, h⟩ := bind_eq_ok.mp h
        rw [← Except.ok.inj h]
      · obtain ⟨row, -, h⟩ := bind_eq_ok.mp h
        rw [← Except.ok.inj h]
    refine ⟨hok, fun _ => ⟨rfl, by simpa using hown⟩, fun hunused => ?_⟩
    rw [hused] at hunused
    cases hunused
  · have hskip : ∀ l : Ledger F, (ok && (claimOf claims "download_id").truthy &&
        !((claimOf claims "customer_ref").or (claimOf claims "buyer_id")).truthy &&
        !List.isEmpty l) = false := by
      intro l
      rw [Bool.not_eq_true, Bool.and_eq_false_iff] at hused
      rcases hused with rfl | hown
      · rfl
      · rw [ownCustomer] at hown
        rw [hown, Bool.and_false, Bool.false_and]
    simp only [hskip, Bool.false_eq_true, if_false] at h
    obtain ⟨_, hrow, h⟩ := bind_eq_ok.mp h
    obtain rfl := Except.ok.inj hrow
    obtain rfl := Except.ok.inj h
    refine ⟨rfl, nofun, fun _ ledger' => ?_⟩
    refine bind_eq_ok.mpr ⟨(ok, why), rfl, ?_⟩
    simp only [hskip, Bool.false_eq_true, if_false]
    rfl

/-! ### Verified before it is named -/

/-- An attribution is good exactly when the object is signed under a key of its
kind; the ledger answers for a good stamp without a customer only; and an object
that no licence key signed is no good licence. -/
structure AttributionSound (C : Crypto) (stampTrust : List Str) (ledger : Ledger F)
    (token : Str) (leak : Leak F) : Prop where
  ok : leak.ok = true ↔ ∃ claims : Members F, loads token = some (.obj claims) ∧
    SignedUnder C (kindKeys stampTrust claims) claims
  resolved : ∀ record, leak = .stamp record → record.resolvedViaLedger = true →
    record.ok = true ∧ ∃ claims : Members F, loads token = some (.obj claims) ∧
      (ownCustomer claims).truthy = false
  unused : ∀ claims : Members F, loads token = some (.obj claims) →
    ((leak.ok && !(ownCustomer claims).truthy) = false ∨ ∃ record, leak = .license record) →
    ∀ ledger', attributeToken C stampTrust ledger' token = .ok leak
  licence : ∀ claims : Members F, loads token = some (.obj claims) → ¬ SignedUnder C TRUST claims →
    ∀ record, leak = .license record → record.ok = false

theorem attributeLicense_eq_ok {record : LicenseRecord F}
    (h : attributeLicense C claims = .ok record) :
    ∃ ok why, verifyPinned C claims TRUST = .ok (ok, why) ∧ record.ok = ok ∧
      record.signatureKeyId = if ok then some why else none := by
  obtain ⟨⟨ok, why⟩, hverify, h⟩ := bind_eq_ok.mp h
  obtain rfl := Except.ok.inj h
  exact ⟨ok, why, hverify, rfl, rfl⟩

theorem attributeToken_stamp (hloads : loads token = some (.obj claims))
    (htype : (claimOf claims "type").isStr STAMP_TYPE = true) {record : StampRecord F}
    (h : attributeStamp C stampTrust ledger claims = .ok record) :
    attributeToken C stampTrust ledger token = .ok (.stamp record) := by
  unfold attributeToken
  simp only [hloads, htype, if_true, h]
  rfl

theorem attributeToken_license (hloads : loads token = some (.obj claims))
    (htype : (claimOf claims "type").isStr STAMP_TYPE = false) {record : LicenseRecord F}
    (h : attributeLicense C claims = .ok record) :
    attributeToken C stampTrust ledger token = .ok (.license record) := by
  unfold attributeToken
  simp only [hloads, htype, Bool.false_eq_true, if_false, h]
  rfl

theorem attributionSound_stamp (hempty : RejectsEmpty C)
    (hloads : loads token = some (.obj claims))
    (htype : (claimOf claims "type").isStr STAMP_TYPE = true) {record : StampRecord F}
    (h : attributeStamp C stampTrust ledger claims = .ok record) :
    AttributionSound C stampTrust ledger token (.stamp record) := by
  obtain ⟨ok, why, hverify, hok, hresolved, hunused⟩ := attributeStamp_eq_ok h
  have hsigned := (verifyPinned_eq_ok hempty hverify).1
  have hkeys : kindKeys stampTrust claims = stampTrust ++ STAMP_TRUST := by
    rw [kindKeys, htype, if_pos rfl]
  constructor
  · change record.ok = true ↔ _
    rw [hok, hsigned, ← hkeys]
    constructor
    · exact fun hsigned => ⟨claims, hloads, hsigned⟩
    · rintro ⟨claims', hloads', hsigned'⟩
      obtain rfl := Json.obj.inj (Option.some.inj (hloads.symm.trans hloads'))
      exact hsigned'
  · rintro _ ⟨⟩ hvia
    obtain ⟨htrue, hown⟩ := hresolved hvia
    exact ⟨hok.trans htrue, claims, hloads, hown⟩
  · rintro claims' hloads' (hnone | ⟨_, ⟨⟩⟩) ledger'
    obtain rfl := Json.obj.inj (Option.some.inj (hloads.symm.trans hloads'))
    change (record.ok && _) = false at hnone
    rw [hok] at hnone
    exact attributeToken_stamp hloads htype (hunused hnone ledger')
  · rintro _ _ _ _ ⟨⟩

theorem attributionSound_license (hempty : RejectsEmpty C)
    (hloads : loads token = some (.obj claims))
    (htype : (claimOf claims "type").isStr STAMP_TYPE = false) {record : LicenseRecord F}
    (h : attributeLicense C claims = .ok record) :
    AttributionSound C stampTrust ledger token (.license record) := by
  obtain ⟨ok, why, hverify, hok, -⟩ := attributeLicense_eq_ok h
  have hsigned := (verifyPinned_eq_ok hempty hverify).1
  have hkeys : kindKeys stampTrust claims = TRUST := by
    rw [kindKeys, htype, if_neg Bool.false_ne_true]
  constructor
  · change record.ok = true ↔ _
    rw [hok, hsigned, ← hkeys]
    constructor
    · exact fun hsigned => ⟨claims, hloads, hsigned⟩
    · rintro ⟨claims', hloads', hsigned'⟩
      obtain rfl := Json.obj.inj (Option.some.inj (hloads.symm.trans hloads'))
      exact hsigned'
  · rintro _ ⟨⟩
  · intro _ _ _ ledger'
    exact attributeToken_license hloads htype h
  · rintro claims' hloads' hunsigned _ ⟨⟩
    obtain rfl := Json.obj.inj (Option.some.inj (hloads.symm.trans hloads'))
    rw [hok, ← Bool.not_eq_true, hsigned]
    exact hunsigned

theorem attributionSound (hempty : RejectsEmpty C)
    (h : attributeToken C stampTrust ledger token = .ok leak) :
    AttributionSound C stampTrust ledger token leak := by
  rcases attributeToken_cases h with ⟨hloads, rfl⟩ | ⟨claims, hloads,
    ⟨htype, record, hrecord, rfl⟩ | ⟨htype, record, hrecord, rfl⟩⟩
  · constructor
    · refine iff_of_false nofun ?_
      rintro ⟨claims, hclaims, -⟩
      rw [hloads] at hclaims
      cases hclaims
    · rintro _ ⟨⟩
    · intro claims hclaims
      rw [hloads] at hclaims
      cases hclaims
    · rintro _ _ _ _ ⟨⟩
  · exact attributionSound_stamp hempty hloads htype hrecord
  · exact attributionSound_license hempty hloads htype hrecord

/-! ### The server and the tool -/

/-- The library of the tool accepts what that of the server accepts, and both
digest alike. -/
structure Covers (S C : Crypto) : Prop where
  sha256 : C.sha256 = S.sha256
  verifies : ∀ pub message sig, S.Verifies pub message sig → C.Verifies pub message sig

/-- A signature verifies under at most one of the keys. -/
def OneSigner (C : Crypto) (keys : List Str) : Prop :=
  ∀ text ∈ keys, ∀ text' ∈ keys, ∀ pub pub' message sig, b64decodeText text = .ok pub →
    b64decodeText text' = .ok pub' → C.Verifies pub message sig →
      C.Verifies pub' message sig → pub = pub'

theorem SignatureTable.oneSigner (T : SignatureTable) (keys : List Str) :
    OneSigner T.crypto keys := by
  intro text _ text' _ pub pub' message sig _ _ h h'
  rw [(T.crypto_verifies_iff.mp h).1, (T.crypto_verifies_iff.mp h').1]

omit [FloatEq F] in
/-- An object has one message and one signature. -/
theorem SignedWith.same {pub pub' : Bytes} (h : SignedWith C claims pub)
    (h' : SignedWith C claims pub') :
    ∃ message sig, C.Verifies pub message sig ∧ C.Verifies pub' message sig := by
  obtain ⟨sigblock, hblock, text, sig, message, htext, hsig, hmessage, hverifies⟩ := h
  obtain ⟨sigblock', hblock', text', sig', message', htext', hsig', hmessage', hverifies'⟩ := h'
  obtain rfl := Json.obj.inj (Option.some.inj (hblock.symm.trans hblock'))
  obtain rfl := Json.str.inj (Option.some.inj (htext.symm.trans htext'))
  obtain rfl := Except.ok.inj (hsig.symm.trans hsig')
  obtain rfl := Except.ok.inj (hmessage.symm.trans hmessage')
  exact ⟨message, sig, hverifies, hverifies'⟩

variable [Interpreter]

/-- A licence that `verify_manifest` accepts under pinned keys is attributed to
the key id it was accepted under. -/
theorem attributeLicense_of_verifyManifest {S : Crypto} (hempty : RejectsEmpty C)
    (hcovers : Covers S C) (hone : OneSigner C TRUST) {keys : List (Json F)}
    (hpinned : ∀ k ∈ keys, ∃ text ∈ TRUST, k.get? "public_key" = some (.str text))
    {trust : TrustStore F} (hstore : TrustStore.fromKeys S keys = .ok trust) {kid : Str}
    (hverify : verifyManifest S claims trust = .ok (true, kid)) :
    ∃ record, attributeLicense C claims = .ok record ∧ record.ok = true ∧
      record.signatureKeyId = some kid := by
  obtain ⟨sigblock, pub, hblock, -, hholds, sigText, sig, message, htext, hsig, hmessage,
    hverifies⟩ := verifyManifest_eq_true_iff.mp hverify
  obtain ⟨k, hk, _, ⟨⟨text, hget, hpub⟩, -⟩, hkid, -⟩ := configures_of_holds hstore hholds
  obtain ⟨text', htrust, hget'⟩ := hpinned k hk
  obtain rfl := Json.str.inj (Option.some.inj (hget.symm.trans hget'))
  have hsigned : SignedWith C claims pub := ⟨sigblock, hblock, sigText, sig, message, htext,
    hsig, hmessage, hcovers.verifies _ _ _ hverifies⟩
  obtain ⟨⟨ok, why⟩, hanswer⟩ := verifyPinned_returns (C := C) hblock htext TRUST
  obtain ⟨hok, hnamed⟩ := verifyPinned_eq_ok hempty hanswer
  obtain rfl : ok = true :=
    hok.mpr ⟨text, htrust, pub, b64decodeText_eq_ok.mpr hpub, hsigned⟩
  obtain ⟨text', htrust', pub', hpub', hsigned', rfl⟩ := hnamed rfl
  obtain ⟨message', sig', hverifies, hverifies'⟩ := hsigned.same hsigned'
  obtain rfl := hone text htrust text' htrust' pub pub' message' sig'
    (b64decodeText_eq_ok.mpr hpub) hpub' hverifies hverifies'
  refine ⟨_, bind_eq_ok.mpr ⟨_, hanswer, rfl⟩, rfl, ?_⟩
  rw [← hkid, keyIdFor, keyIdFor, hcovers.sha256]
  rfl

/-- Whenever `_attribute` returns it has verified before it names, and every
licence that the server accepts under the pinned keys it calls good, with the
same key id. -/
theorem attribution_verified (hempty : RejectsEmpty C) (stampTrust : List Str)
    (ledger : Ledger F) (token : Str) :
    (∀ leak, attributeToken C stampTrust ledger token = .ok leak →
      AttributionSound C stampTrust ledger token leak) ∧
    ∀ (S : Crypto) (keys : List (Json F)) (trust : TrustStore F) (claims : Members F)
      (kid : Str), Covers S C → OneSigner C TRUST →
      (∀ k ∈ keys, ∃ text ∈ TRUST, k.get? "public_key" = some (.str text)) →
      TrustStore.fromKeys S keys = .ok trust → loads token = some (.obj claims) →
      (claimOf claims "type").isStr STAMP_TYPE = false →
      verifyManifest S claims trust = .ok (true, kid) →
      ∃ record, attributeToken C stampTrust ledger token = .ok (.license record) ∧
        record.ok = true ∧ record.signatureKeyId = some kid := by
  refine ⟨fun leak => attributionSound hempty, ?_⟩
  intro S keys trust claims kid hcovers hone hpinned hstore hloads htype hverify
  obtain ⟨record, hrecord, hok, hkid⟩ :=
    attributeLicense_of_verifyManifest hempty hcovers hone hpinned hstore hverify
  exact ⟨record, attributeToken_license hloads htype hrecord, hok, hkid⟩

end

section

attribute [local instance] FloatView.asFloat FloatView.asFloatEq Interpreter.ascii

/-- The recorded key with the signature of a stamp that says nothing but its
type. -/
def typeKey : SignatureTable where
  seed := recordedKey.seed
  publicKey := recordedKey.publicKey
  digests := recordedKey.digests
  known := [(piecesBytes ["\x7b\"type\":\"netplex-", "download-stamp\"\x7d"],
    piecesBase64 ["R+4nI3DF3Sv3FlcYQvhJ", "A3/kjpYTOtvl47Xu5xee", "zRAbUMLWbgFlVCaqGd8a",
      "JQifotGUeL+P9AaIQxbw", "wWsfAQ=="])]
  publicKey_length := recordedKey.publicKey_length
  known_length := by decide +kernel
  known_nodup := by decide +kernel

def typeStamp : Str := piecesText
  ["\x7b\"type\":\"netplex-", "download-stamp\",\"", "signature\":\x7b\"sig\":",
    "\"R+4nI3DF3Sv3FlcYQvhJ", "A3/kjpYTOtvl47Xu5xee", "zRAbUMLWbgFlVCaqGd8a",
    "JQifotGUeL+P9AaIQxbw", "wWsfAQ==\"\x7d\x7d"]

/-- The first key of `TRUST`, with a seed in place of the one nobody knows. -/
def pinnedKey : SignatureTable where
  seed := base64Bytes recordedSeedText
  publicKey := base64Bytes "jJCebPG7chTyVdNLQ7eCYPqbvjiuWwEahm1ozQyz4pE="
  digests := [(base64Bytes "jJCebPG7chTyVdNLQ7eCYPqbvjiuWwEahm1ozQyz4pE=",
    ⟨base64Bytes "SB45sswPK5grzugtr07VXhzbEeKbQeUIvMe4qka99Bs=", by decide +kernel⟩)]
  known := []
  publicKey_length := by decide +kernel
  known_length := by simp
  known_nodup := by simp

/-- That key as an entry of a server's list, and what a licence under it says. -/
def pinnedEntry : Json FloatView :=
  .obj [("public_key", .str (b64e pinnedKey.publicKey)), ("status", .str "active")]

def pinnedClaims : Members FloatView := [("buyer_id", .str "acme"), ("license_id", .str "lic-1")]

/-- A good stamp when the key is passed for the stamps, and a licence that server
and tool accept under the same pinned key. -/
theorem attribution_verified_both :
    (∃ leak : Leak FloatView, leak.ok = true ∧
      AttributionSound typeKey.crypto [b64e typeKey.publicKey] [] typeStamp leak) ∧
    ∃ (signed : Members FloatView) (trust : TrustStore FloatView) (kid : Str)
      (record : LicenseRecord FloatView),
      TrustStore.fromKeys pinnedKey.crypto [pinnedEntry] = .ok trust ∧
      verifyManifest pinnedKey.crypto signed trust = .ok (true, kid) ∧
      attributeToken pinnedKey.crypto [] [] (fileText signed) = .ok (.license record) ∧
      record.ok = true ∧ record.signatureKeyId = some kid := by
  constructor
  · have hrun : (attributeToken (F := FloatView) typeKey.crypto [b64e typeKey.publicKey] []
        typeStamp >>= fun leak => .ok leak.ok) = .ok true := by decide +kernel
    obtain ⟨leak, hleak, hok⟩ := bind_eq_ok.mp hrun
    exact ⟨leak, Except.ok.inj hok,
      (attribution_verified typeKey.rejectsEmpty _ _ _).1 leak hleak⟩
  · have hrun : (do
        let trust ← TrustStore.fromKeys pinnedKey.crypto [pinnedEntry]
        let signed ← signClaims pinnedKey.crypto pinnedKey.signingKey pinnedKey.seed pinnedClaims
        let answer ← verifyManifest pinnedKey.crypto signed trust
        pure answer.1) = Except.ok (ε := Exc) true := by decide +kernel
    obtain ⟨trust, htrust, hrun⟩ := bind_eq_ok.mp hrun
    obtain ⟨signed, hsigned, hrun⟩ := bind_eq_ok.mp hrun
    obtain ⟨⟨_, kid⟩, hverify, haccepted⟩ := bind_eq_ok.mp hrun
    obtain rfl := Except.ok.inj haccepted
    have hkeyed : (Json.obj pinnedClaims).Keyed := by decide +kernel
    have hloads : loads (fileText signed) = some (.obj signed) :=
      loads_fileText (keyed_signClaims hsigned hkeyed) (by simp [Str.ofString, isJsonSpace])
    have htype : (claimOf signed "type").isStr STAMP_TYPE = false := by
      rw [claimOf, dictGet_signClaims hsigned (by decide)]
      rfl
    have hpinned : ∀ k ∈ [pinnedEntry], ∃ text ∈ TRUST,
        k.get? "public_key" = some (.str text) := by
      intro k hk
      obtain rfl := List.mem_singleton.mp hk
      exact ⟨b64e pinnedKey.publicKey, by decide +kernel, rfl⟩
    obtain ⟨record, hrecord, hok, hkid⟩ :=
      (attribution_verified pinnedKey.rejectsEmpty [] [] _).2 pinnedKey.crypto [pinnedEntry]
        trust signed kid ⟨rfl, fun _ _ _ h => h⟩ (pinnedKey.oneSigner TRUST) hpinned htrust
        hloads htype hverify
    exact ⟨signed, trust, kid, record, htrust, hverify, hrecord, hok, hkid⟩

end

end NetplexSupport
