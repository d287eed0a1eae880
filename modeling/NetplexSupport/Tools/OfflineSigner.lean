/-
The tools of the offline signing machine: what `mint_license.py`, `mint_crl.py`
and `sign_integrity.py` share, and the last two.  All three sign with the
licence key over the same canonical bytes.
-/
import NetplexSupport.Crypto.Acceptance
import NetplexSupport.Json.Ascii

namespace NetplexSupport

open Py

variable {F : Type}

/-! ### Keys and files -/

/-- `base64.b64decode` of a `str`. -/
def b64decodeText (s : Str) : Except Exc Bytes :=
  match encodeAscii s with
  | .ok bytes => b64decode bytes
  | .error _ => .error ⟨.valueError, "string argument should contain only ASCII characters"⟩

/-- `base64.b64decode(open(args.key).read().strip())`. -/
def readSeed (keyText : Str) : Except Exc Bytes := b64decodeText (Str.strip keyText)

/-- `Ed25519PrivateKey.from_private_bytes`. -/
def fromPrivateBytes (seed : Bytes) : Except Exc Bytes :=
  if seed.length = 32 then .ok seed
  else .error ⟨.valueError, "An Ed25519 private key is 32 bytes long"⟩

/-- `separators=(",", ":"), ensure_ascii=False`. -/
def fileOpts : DumpOpts := { itemSep := ",", keySep := ":", ensureAscii := false }

section

variable [PyFloat F]

/-- The `signature` member over a message. -/
def signatureBlock (C : Crypto) (K : SigningKey) (seed message : Bytes) : Members F :=
  [("alg", .str "ed25519"), ("key_id", .str (keyIdFor C (K.verifyKey seed))),
    ("sig", .str (b64e (K.sign seed message)))]

/-- `claims["signature"] = …`, over the canonical bytes of the claims. -/
def signClaims (C : Crypto) (K : SigningKey) (seed : Bytes) (claims : Members F) :
    Except Exc (Members F) := do
  let message ← canonicalBytes claims
  pure (dictSet claims "signature" (.obj (signatureBlock C K seed message)))

/-- The line a tool writes to its output file. -/
def fileText (signed : Members F) : Str := dumps fileOpts (.obj signed) ++ "\n"

/-- The end of a tool: load the key, sign the claims and write the file. -/
def signToFile (C : Crypto) (K : SigningKey) (keyText : Str) (claims : Members F) :
    Except Exc Str := do
  let seed ← fromPrivateBytes (← readSeed keyText)
  pure (fileText (← signClaims C K seed claims))

/-! ### `mint_crl.py` -/

/-- The license ids of a `--revoke-file`. -/
def revokeLines (lines : List Str) : List Str :=
  (lines.filter fun ln => Str.strip ln ≠ [] ∧ ¬ (Str.ofString "#").isPrefixOf ln).map
    Str.strip

/-- `sorted(set(revoked))`. -/
def sortedSet (revoked : List Str) : List Str := revoked.dedup.insertionSort (· ≤ ·)

/-- The revocation list before it is signed. -/
def crlClaims (revoked : List Str) (now : Int) : Members F :=
  [("type", .str "crl"), ("revoked", .arr (revoked.map .str)), ("issued_at", .int now)]

variable (F) in
/-- `main` of `mint_crl.py`: the text of the file it writes. -/
def mintCrl (C : Crypto) (K : SigningKey) (keyText : Str) (revoke revokeFile : List Str)
    (now : Int) : Except Exc Str := do
  let revoked := sortedSet (revoke ++ revokeLines revokeFile)
  if revoked = [] then
    .error ⟨.systemExit, "refusing to mint an empty CRL - pass --revoke / --revoke-file"⟩
  else signToFile (F := F) C K keyText (crlClaims revoked now)

/-! ### `sign_integrity.py` -/

def kernelModules : List Str := ["license_verify", "entitlements", "integrity"]

/-- The built module is preferred to its source. -/
def kernelFile (shared : Str → Option Bytes) (base : Str) : Except Exc (Str × Bytes) :=
  let name := if (shared (base ++ ".so")).isSome then base ++ ".so" else base ++ ".py"
  match shared name with
  | some content => .ok (name, content)
  | none => .error ⟨.osError, "[Errno 2] No such file or directory"⟩

/-- The integrity manifest before it is signed. -/
def integrityClaims (files : Members F) : Members F :=
  [("type", .str "integrity"), ("files", .obj files)]

variable (F) in
/-- `main` of `sign_integrity.py`: the text of the file it writes. -/
def signIntegrity (C : Crypto) (K : SigningKey) (keyText : Str)
    (shared : Str → Option Bytes) : Except Exc Str := do
  let files ← kernelModules.foldlM (fun files base => do
    let (name, content) ← kernelFile shared base
    pure (dictSet files name (.str (hexdigest (C.sha256 content))))) ([] : Members F)
  signToFile C K keyText (integrityClaims files)

/-! ### What they sign -/

omit [PyFloat F] in
theorem keyed_crlClaims (revoked : List Str) (now : Int) :
    (Json.obj (crlClaims (F := F) revoked now)).Keyed := by
  have hrevoked : (Json.arr (F := F) (revoked.map .str)).Keyed := by
    rw [Json.keyed_arr, List.forall_mem_map]
    exact fun _ _ => rfl
  rw [Json.keyed_obj]
  simp only [crlClaims, List.forall_mem_cons]
  exact ⟨by simp, rfl, hrevoked, rfl, by simp⟩

omit [PyFloat F] in
theorem keyed_kernelFiles {C : Crypto} {shared : Str → Option Bytes} {files : Members F}
    (h : kernelModules.foldlM (fun files base => do
      let (name, content) ← kernelFile shared base
      pure (dictSet files name (.str (hexdigest (C.sha256 content))))) ([] : Members F) =
        .ok files) : (Json.obj files).Keyed := by
  have hempty : (Json.obj ([] : Members F)).Keyed := rfl
  refine foldlM_inv (P := fun files => (Json.obj files).Keyed) ?_ hempty h
  intro files base files' hfiles hstep
  obtain ⟨⟨name, content⟩, _, hstep⟩ := bind_eq_ok.mp hstep
  obtain rfl := Except.ok.inj hstep
  rw [Json.keyed_obj] at hfiles ⊢
  refine ⟨dictSet_keys_nodup _ _ hfiles.1, fun m hm => ?_⟩
  rcases mem_dictSet hm with rfl | hm
  · rfl
  · exact hfiles.2 m hm

omit [PyFloat F] in
theorem keyed_integrityClaims {files : Members F} (h : (Json.obj files).Keyed) :
    (Json.obj (integrityClaims files)).Keyed := by
  rw [Json.keyed_obj]
  simp only [integrityClaims, List.forall_mem_cons]
  exact ⟨by simp, rfl, h, by simp⟩

/-! ### What is signed verifies -/

/-- A signature made with the seed verifies under its public key on exactly the
bytes that were signed. -/
def SignsFor (C : Crypto) (K : SigningKey) (seed : Bytes) : Prop :=
  ∀ message message', C.Verifies (K.verifyKey seed) message' (K.sign seed message) ↔
    message' = message

omit [PyFloat F] in
theorem b64d_b64e (bs : Bytes) : b64d (.str (b64e bs) : Json F) = .ok bs := by
  simp only [b64d, bind_eq_ok]
  exact ⟨b64encode bs, encodeAscii_b64e bs, b64decode_b64encode bs⟩

omit [PyFloat F] in
theorem payload_dictSet (claims : Members F) (block : Json F) :
    payload (dictSet claims "signature" block) = payload claims := by
  induction claims with
  | nil => rfl
  | cons m claims ih =>
      by_cases hm : m.1 = Str.ofString "signature"
      · simp [dictSet, payload, hm]
      · simp only [dictSet, hm, if_false]
        simp only [payload, List.filter_cons] at ih ⊢
        rw [ih]

theorem canonicalBytes_dictSet (claims : Members F) (block : Json F) :
    canonicalBytes (dictSet claims "signature" block) = canonicalBytes claims := by
  rw [canonicalBytes, payload_dictSet, canonicalBytes]

theorem signClaims_eq_ok {C : Crypto} {K : SigningKey} {seed : Bytes}
    {claims signed : Members F} :
    signClaims C K seed claims = .ok signed ↔ ∃ message,
      canonicalBytes claims = .ok message ∧
        signed = dictSet claims "signature" (.obj (signatureBlock C K seed message)) := by
  simp only [signClaims, bind_eq_ok]
  constructor
  · rintro ⟨message, hmessage, h⟩
    exact ⟨message, hmessage, (Except.ok.inj h).symm⟩
  · rintro ⟨message, hmessage, rfl⟩
    exact ⟨message, hmessage, rfl⟩

theorem signToFile_eq_ok {C : Crypto} {K : SigningKey} {keyText : Str} {seed : Bytes}
    (hseed : readSeed keyText = .ok seed) {claims : Members F} {file : Str}
    (h : signToFile C K keyText claims = .ok file) :
    ∃ signed, signClaims C K seed claims = .ok signed ∧ file = fileText signed := by
  obtain ⟨bytes, hbytes, hrest⟩ := bind_eq_ok.mp h
  obtain ⟨seed', hprivate, hfile⟩ := bind_eq_ok.mp hrest
  obtain ⟨signed, hsigned, hwritten⟩ := bind_eq_ok.mp hfile
  have hseed' : seed' = seed := by
    unfold fromPrivateBytes at hprivate
    split at hprivate
    · rw [← Except.ok.inj hprivate]
      exact Except.ok.inj (hbytes.symm.trans hseed)
    · cases hprivate
  exact ⟨signed, hseed' ▸ hsigned, (Except.ok.inj hwritten).symm⟩

theorem signToFile_ok {C : Crypto} {K : SigningKey} {keyText : Str} {seed : Bytes}
    (hread : readSeed keyText = .ok seed) (hseed : seed.length = 32) {claims signed : Members F}
    (h : signClaims C K seed claims = .ok signed) :
    signToFile C K keyText claims = .ok (fileText signed) := by
  have hprivate : fromPrivateBytes seed = .ok seed := if_pos hseed
  simp only [signToFile, hread, hprivate, h, bind, Except.bind]
  rfl

/-- The members that are not the block are those of the claims. -/
theorem dictGet_signClaims {C : Crypto} {K : SigningKey} {seed : Bytes}
    {claims signed : Members F} (h : signClaims C K seed claims = .ok signed) {key : Str}
    (hkey : key ≠ Str.ofString "signature") : dictGet signed key = dictGet claims key := by
  obtain ⟨message, _, rfl⟩ := signClaims_eq_ok.mp h
  rw [dictGet_dictSet, if_neg hkey]

theorem keyed_signClaims {C : Crypto} {K : SigningKey} {seed : Bytes}
    {claims signed : Members F} (h : signClaims C K seed claims = .ok signed)
    (hclaims : (Json.obj claims).Keyed) : (Json.obj signed).Keyed := by
  obtain ⟨message, _, rfl⟩ := signClaims_eq_ok.mp h
  rw [Json.keyed_obj] at hclaims ⊢
  refine ⟨dictSet_keys_nodup _ _ hclaims.1, fun m hm => ?_⟩
  rcases mem_dictSet hm with rfl | hm
  · rw [Json.keyed_obj]
    refine ⟨by simp [signatureBlock], ?_⟩
    simp [signatureBlock, Json.Keyed, Json.all]
  · exact hclaims.2 m hm

omit [PyFloat F] in
theorem strings_signatureBlock_of {p : Str → Bool}
    (hp : ∀ s, Str.WellFormed s → p s = true) {C : Crypto} {K : SigningKey} {seed : Bytes}
    (message : Bytes) :
    (Json.obj (signatureBlock (F := F) C K seed message)).Strings p := by
  have hkeyId : Str.WellFormed (keyIdFor C (K.verifyKey seed)) := by
    intro c hc
    obtain ⟨b, _, hc⟩ := List.mem_flatMap.mp (List.mem_of_mem_take hc)
    exact wellFormed_hexPad _ _ c hc
  have hsig : Str.WellFormed (b64e (K.sign seed message)) := by
    have hascii : Str.Ascii (b64e (K.sign seed message)) := fun c hc =>
      of_decide_eq_true (b64e_ascii _ c hc)
    exact hascii.wellFormed
  have hkey : ∀ key : String, p (Str.ofString key) = true := fun key =>
    hp _ (Str.wellFormed_ofString key)
  rw [Json.strings_obj]
  simp only [signatureBlock, List.forall_mem_cons, Json.strings_str]
  exact ⟨⟨hkey _, hkey _, hkey _, by simp⟩, hkey _, hp _ hkeyId, hp _ hsig, by simp⟩

omit [PyFloat F] in
theorem strings_signatureBlock {C : Crypto} {K : SigningKey} {seed : Bytes}
    (message : Bytes) :
    (Json.obj (signatureBlock (F := F) C K seed message)).Strings Str.joined :=
  strings_signatureBlock_of (fun _ hs => hs.joined) message

/-- What was signed can be written as UTF-8. -/
theorem encodable_signClaims {C : Crypto} {K : SigningKey} {seed : Bytes}
    {claims signed : Members F} (h : signClaims C K seed claims = .ok signed)
    (hkeyed : (Json.obj signed).Keyed) : (Json.obj signed).Strings Str.encodable := by
  obtain ⟨message, hmessage, rfl⟩ := signClaims_eq_ok.mp h
  have hpayload := Json.strings_obj.mp
    ((wellFormed_canonical _).mp (encodeUtf8_eq_ok_iff.mp hmessage).1)
  have hmember : ∀ m ∈ dictSet claims "signature" (.obj (signatureBlock C K seed message)),
      m.1.encodable = true ∧ m.2.Strings Str.encodable := by
    intro m hm
    by_cases hsignature : m.1 = Str.ofString "signature"
    · have hblock := (dictGet_eq_some_iff (Json.keyed_obj.mp hkeyed).1).mpr hm
      rw [dictGet_dictSet, if_pos hsignature] at hblock
      rw [← Option.some.inj hblock, hsignature]
      exact ⟨decide_eq_true (Str.wellFormed_ofString "signature"),
        strings_signatureBlock_of (fun _ hs => decide_eq_true hs) message⟩
    · have hclaim : m ∈ payload claims := by
        rcases mem_dictSet hm with rfl | hm
        · exact absurd rfl hsignature
        · exact List.mem_filter.mpr ⟨hm, by simpa using hsignature⟩
      exact ⟨hpayload.1 m hclaim, hpayload.2 m hclaim⟩
  rw [Json.strings_obj]
  exact ⟨fun m hm => (hmember m hm).1, fun m hm => (hmember m hm).2⟩

/-- What a tool signs is accepted by every store that holds its key. -/
theorem verifyManifest_signClaims [Interpreter] {C : Crypto} {K : SigningKey}
    {seed : Bytes} (hK : SignsFor C K seed) {claims signed : Members F}
    (h : signClaims C K seed claims = .ok signed) {trust : TrustStore F}
    (hholds : trust.Holds (keyIdFor C (K.verifyKey seed)) (K.verifyKey seed)) :
    verifyManifest C signed trust = .ok (true, keyIdFor C (K.verifyKey seed)) := by
  obtain ⟨message, hmessage, rfl⟩ := signClaims_eq_ok.mp h
  rw [verifyManifest_eq_true_iff]
  refine ⟨signatureBlock C K seed message, K.verifyKey seed, ?_, ⟨?_, ?_⟩, hholds, ?_⟩
  · rw [dictGet_dictSet, if_pos rfl]
  · simp [signatureBlock, dictGet_cons, ALG]
  · simp [signatureBlock, dictGet_cons]
  · refine ⟨b64e (K.sign seed message), K.sign seed message, message, ?_, b64d_b64e _, ?_,
      (hK message message).mpr rfl⟩
    · simp [signatureBlock, dictGet_cons]
    · exact (canonicalBytes_dictSet claims _).trans hmessage

omit [PyFloat F] in
/-- Equal objects agree on the members that are strings. -/
theorem dictGet_str_of_same {a b : Members F} (ha : (Json.obj a).Keyed)
    (hb : (Json.obj b).Keyed) (hsame : (Json.obj a).Same (.obj b)) (key text : Str) :
    dictGet a key = some (.str text) ↔ dictGet b key = some (.str text) := by
  have hsorted : (dictGet a key).map Json.sortKeys = (dictGet b key).map Json.sortKeys := by
    rw [← dictGet_sortedMembers (Json.keyed_obj.mp ha).1,
      ← dictGet_sortedMembers (Json.keyed_obj.mp hb).1]
    have h := Json.sortKeys_eq_of_same ha hb hsame
    rw [Json.sortKeys_obj, Json.sortKeys_obj, Json.obj.injEq] at h
    rw [h]
  have hstr : ∀ value : Option (Json F),
      value.map Json.sortKeys = some (.str text) ↔ value = some (.str text) := by
    intro value
    rcases value with _ | j
    · simp
    · cases j <;> simp [Json.sortKeys]
  rw [← hstr, hsorted, hstr]

/-- An object that keeps the block of a signed one and verifies is the same
value outside it. -/
theorem same_of_verifyManifest [Interpreter] {C : Crypto} {K : SigningKey} {seed : Bytes}
    (hK : SignsFor C K seed) {claims signed : Members F}
    (h : signClaims C K seed claims = .ok signed) (hsigned : (Json.obj signed).Keyed)
    {trust : TrustStore F}
    (hholds : trust.Holds (keyIdFor C (K.verifyKey seed)) (K.verifyKey seed))
    {other block block' : Members F} (hother : (Json.obj other).Keyed)
    (hblock : dictGet signed "signature" = some (.obj block))
    (hblock' : dictGet other "signature" = some (.obj block'))
    (hsame : (Json.obj block').Same (.obj block)) {kid : Str}
    (hverify : verifyManifest C other trust = .ok (true, kid)) :
    (Json.obj (payload other)).Same (.obj (payload signed)) := by
  obtain ⟨message, hmessage, rfl⟩ := signClaims_eq_ok.mp h
  rw [dictGet_dictSet, if_pos rfl, Option.some.injEq, Json.obj.injEq] at hblock
  obtain ⟨sigblock, pub, hsigblock, ⟨_, hkid⟩, ⟨e, hentry, hpub, _⟩, text, sig, message',
    hsig, hbytes, hmessage', hverifies⟩ := verifyManifest_eq_true_iff.mp hverify
  obtain rfl : sigblock = block' := by simpa using hsigblock.symm.trans hblock'
  have hkeyed : (Json.obj sigblock).Keyed :=
    (Json.keyed_obj.mp hother).2 _ (mem_of_dictGet hblock')
  have hkeyedBlock : (Json.obj block).Keyed := by
    have hget : dictGet (dictSet claims "signature"
        (.obj (signatureBlock C K seed message))) "signature" = some (.obj block) := by
      rw [dictGet_dictSet, if_pos rfl, hblock]
    exact (Json.keyed_obj.mp hsigned).2 _ (mem_of_dictGet hget)
  have hmember := dictGet_str_of_same hkeyed hkeyedBlock hsame
  -- The block still names the signer's key and carries its signature.
  have hkey : dictGet sigblock "key_id" = some (.str (keyIdFor C (K.verifyKey seed))) := by
    rw [hmember, ← hblock]
    simp [signatureBlock, dictGet_cons]
  have hsig' : dictGet sigblock "sig" = some (.str (b64e (K.sign seed message))) := by
    rw [hmember, ← hblock]
    simp [signatureBlock, dictGet_cons]
  rw [hkey, Option.getD_some, Json.str.injEq] at hkid
  obtain ⟨e', hentry', hpub', _⟩ := hholds
  obtain rfl : e' = e := by
    rw [hkid] at hentry'
    exact Option.some.inj (hentry'.symm.trans hentry)
  obtain rfl : K.verifyKey seed = pub := Except.ok.inj (hpub'.symm.trans hpub)
  obtain rfl : text = b64e (K.sign seed message) := by simpa using hsig.symm.trans hsig'
  obtain rfl : K.sign seed message = sig :=
    Except.ok.inj ((b64d_b64e (F := F) _).symm.trans hbytes)
  obtain rfl := (hK message message').mp hverifies
  exact same_of_canonicalBytes hother hsigned hmessage'
    ((canonicalBytes_dictSet claims _).trans hmessage)

theorem loads_fileText {signed : Members F} (hkeyed : (Json.obj signed).Keyed) {w : Str}
    (hw : ∀ c ∈ w, isJsonSpace c = true) :
    loads (dumps fileOpts (.obj signed) ++ w) = some (.obj signed) := by
  have hlawful : fileOpts.Lawful := ⟨⟨[], rfl, by simp⟩, ⟨[], rfl, by simp⟩⟩
  exact loads_dumps hlawful rfl hkeyed (DumpOpts.readable_of_ensureAscii_false rfl _) hw

end

section

attribute [local instance] FloatView.asFloat Interpreter.ascii

/-- The recorded key pair signs as the tools assume. -/
theorem recordedKey_signsFor :
    SignsFor recordedKey.crypto recordedKey.signingKey recordedKey.seed :=
  recordedKey.verifies_sign_iff

/-- The recorded setting builds a store that holds the recorded key. -/
theorem recordedTrust : ∃ trust : TrustStore FloatView,
    trustStoreFromSettings recordedKey.crypto recordedTrustJson [] = .ok trust ∧
      trust.Holds (keyIdFor recordedKey.crypto
        (recordedKey.signingKey.verifyKey recordedKey.seed))
        (recordedKey.signingKey.verifyKey recordedKey.seed) := by
  have hrun : (trustStoreFromSettings recordedKey.crypto recordedTrustJson [] >>=
      fun trust : TrustStore FloatView => .ok (decide (trust.Holds
        (keyIdFor recordedKey.crypto
          (recordedKey.signingKey.verifyKey recordedKey.seed))
        (recordedKey.signingKey.verifyKey recordedKey.seed)))) =
      Except.ok true := by decide +kernel
  obtain ⟨trust, htrust, hholds⟩ := bind_eq_ok.mp hrun
  exact ⟨trust, htrust, of_decide_eq_true (Except.ok.inj hholds)⟩

end

end NetplexSupport
