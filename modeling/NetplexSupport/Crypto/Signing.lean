/-
`app/crypto/signing.py`: canonical bytes, signing, the trust store and the
verification of a signed manifest.  Ed25519 and SHA-256 are parameters.
-/
import NetplexSupport.Json.Canonical
import NetplexSupport.Json.Limits
import NetplexSupport.Python.Base64

namespace NetplexSupport

open Py

variable {F : Type}

/-- A SHA-256 digest. -/
structure Digest where
  bytes : Bytes
  length_eq : bytes.length = 32

/-- The libraries the module calls.  `VerifyKey` is `None` when PyNaCl cannot be
imported; `VerifyKey(pub)` may raise, and so may `.verify(message, sig)`. -/
structure Crypto where
  sha256 : Bytes → Digest
  VerifyKey : Option (Bytes → Except Exc (Bytes → Bytes → Except Exc Unit))

/-- Ed25519 accepts `sig` over `message` under `pub`. -/
def Crypto.Verifies (C : Crypto) (pub message sig : Bytes) : Prop :=
  ∃ construct verify, C.VerifyKey = some construct ∧ construct pub = .ok verify ∧
    verify message sig = .ok ()

/-- The offline signing primitive: a seed's public key and its signatures. -/
structure SigningKey where
  verifyKey : Bytes → Bytes
  sign : Bytes → Bytes → Bytes

def ALG : Str := "ed25519"

/-! ### Encodings -/

/-- `_b64e`. -/
def b64e (bs : Bytes) : Str := decodeLatin1 (b64encode bs)

/-- Letters, digits and `+`, `/` and `=`: ASCII without a quote, a backslash or a
brace. -/
theorem b64e_plain (bs : Bytes) : ∀ c ∈ b64e bs, 43 ≤ c.val ∧ c.val < 123 ∧ c.val ≠ 92 := by
  intro c hc
  obtain ⟨b, hb, rfl⟩ := List.mem_map.mp hc
  have hplain : 43 ≤ b.toNat ∧ b.toNat < 123 ∧ b.toNat ≠ 92 :=
    b64encode_forall (p := fun b => 43 ≤ b.toNat ∧ b.toNat < 123 ∧ b.toNat ≠ 92)
      (by decide) (by decide) bs b hb
  rw [Fin.val_ofNat, Nat.mod_eq_of_lt (by omega)]
  exact hplain

theorem b64e_ascii (bs : Bytes) : ∀ c ∈ b64e bs, isAscii c = true := by
  intro c hc
  have hplain := b64e_plain bs c hc
  simp only [isAscii, decide_eq_true_eq]
  omega

theorem length_b64e (bs : Bytes) : (b64e bs).length = 4 * ((bs.length + 2) / 3) := by
  rw [b64e, decodeLatin1, List.length_map, b64encode_length]

theorem encodeAscii_b64e (bs : Bytes) : encodeAscii (b64e bs) = .ok (b64encode bs) := by
  rw [encodeAscii, if_pos (List.all_eq_true.mpr (b64e_ascii bs))]
  congr 1
  rw [b64e, decodeLatin1, List.map_map]
  conv_rhs => rw [← List.map_id (b64encode bs)]
  apply List.map_congr_left
  intro b hb
  have hlt := b64encode_ascii bs b hb
  have hval : b.toNat % 0x110000 = b.toNat := Nat.mod_eq_of_lt (by omega)
  simp [hval]

/-- `_b64d`, which raises on anything but base64 text. -/
def b64d (s : Json F) : Except Exc Bytes :=
  match s with
  | .str s => do b64decode (← encodeAscii s)
  | j => .error ⟨.attributeError, "'" ++ j.typeName ++ "' object has no attribute 'encode'"⟩

def hexdigest (d : Digest) : Str := d.bytes.flatMap fun b => hexPad 2 b.toNat

/-- `key_id_for`: the first 16 hex digits of the key's SHA-256. -/
def keyIdFor (C : Crypto) (publicKey : Bytes) : Str :=
  (hexdigest (C.sha256 publicKey)).take 16

section

variable [PyFloat F]

/-- Sorted keys, no whitespace, non-ASCII kept. -/
def canonicalOpts : DumpOpts :=
  { itemSep := ",", keySep := ":", ensureAscii := false, sortKeys := true }

/-- The manifest minus its `signature`. -/
def payload (manifest : Members F) : Members F :=
  manifest.filter fun m => m.1 != Str.ofString "signature"

/-- `canonical_bytes`. -/
def canonicalBytes (manifest : Members F) : Except Exc Bytes :=
  encodeUtf8 (dumps canonicalOpts (.obj (payload manifest)))

/-- `sign_manifest`, where PyNaCl is available. -/
def signManifest (C : Crypto) (K : SigningKey) (manifest : Members F)
    (privateKey : Bytes) (keyId : Option Str) : Except Exc (Members F) := do
  let kid := match keyId with
    | some k => if k = [] then keyIdFor C (K.verifyKey privateKey) else k
    | none => keyIdFor C (K.verifyKey privateKey)
  let out := payload manifest
  let bytes ← canonicalBytes out
  let sig := K.sign privateKey bytes
  pure (dictSet out "signature"
    (.obj [("alg", .str ALG), ("key_id", .str kid), ("sig", .str (b64e sig))]))

end

/-! ### The trust store -/

structure TrustEntry (F : Type) where
  publicKey : Json F
  status : Json F

/-- `TrustStore`: entries by key id. -/
structure TrustStore (F : Type) where
  entries : Dict (TrustEntry F)

variable [Interpreter]

/-- One turn of the loop in `from_keys`: the key id and the entry of a key. -/
def entryOf (C : Crypto) (k : Json F) : Except Exc (Str × TrustEntry F) := do
  let publicKey ← k.item "public_key"
  let pub ← b64d publicKey
  pure (keyIdFor C pub, ⟨publicKey, (k.get? "status").getD (.str "active")⟩)

/-- `TrustStore.from_keys`. -/
def TrustStore.fromKeys (C : Crypto) (keys : List (Json F)) :
    Except Exc (TrustStore F) := do
  let out ← keys.foldlM (fun out k => do
    let (kid, entry) ← entryOf C k
    pure (dictSet out kid entry)) ([] : Dict (TrustEntry F))
  pure ⟨out⟩

omit [Interpreter] in
/-- `self._e.get(key_id)`: a list or a dict cannot be looked up, and no value
but a string is a key. -/
def TrustStore.entry (trust : TrustStore F) (keyId : Json F) :
    Except Exc (Option (TrustEntry F)) :=
  match keyId with
  | .str kid => .ok (dictGet trust.entries kid)
  | j =>
      match j.hashError with
      | some exc => .error exc
      | none => .ok none

/-- `status_of`, with `None` as JSON `null`. -/
def TrustStore.statusOf (trust : TrustStore F) (keyId : Json F) :
    Except Exc (Json F) := do
  match ← trust.entry keyId with
  | some e => pure e.status
  | none => pure .null

/-- `public_key`. -/
def TrustStore.publicKey (trust : TrustStore F) (keyId : Json F) :
    Except Exc (Option Bytes) := do
  match ← trust.entry keyId with
  | some e => pure (some (← b64d e.publicKey))
  | none => pure none

variable [PyFloat F]

/-- `trust_store_from_settings`. -/
def trustStoreFromSettings (C : Crypto) (trustStoreJson singlePublicKey : Str) :
    Except Exc (TrustStore F) :=
  let raw := Str.strip trustStoreJson
  if raw ≠ [] then do
    match (← tryLoads raw).getD (.arr []) with
    | .arr keys => TrustStore.fromKeys C keys
    | _ => TrustStore.fromKeys C []
  else if singlePublicKey ≠ [] then
    TrustStore.fromKeys C
      [.obj [("public_key", .str singlePublicKey), ("status", .str "active")]]
  else TrustStore.fromKeys C []

/-! ### Verification -/

/-- The body of the `try`: `VerifyKey(pub).verify(canonical_bytes(manifest),
_b64d(sigblock["sig"]))`. -/
def checkSignature
    (VerifyKey : Bytes → Except Exc (Bytes → Bytes → Except Exc Unit))
    (pub : Option Bytes) (manifest sigblock : Members F) : Except Exc Unit := do
  let key ← match pub with
    | some pub => VerifyKey pub
    | none => .error ⟨.typeError, "VerifyKey must be created from 32 bytes"⟩
  let message ← canonicalBytes manifest
  let sig ← b64d (← (Json.obj sigblock).item "sig")
  key message sig

/-- `verify_manifest`.  An error is an exception the function lets through. -/
def verifyManifest (C : Crypto) (manifest : Members F) (trust : TrustStore F) :
    Except Exc (Bool × Str) :=
  match C.VerifyKey with
  | none => .ok (false, "crypto-unavailable")
  | some VerifyKey =>
      match dictGet manifest "signature" with
      | some (.obj sigblock) =>
          let alg := (dictGet sigblock "alg").getD .null
          if !alg.isStr ALG then .ok (false, "bad-alg:" ++ alg.pyStr)
          else do
            let kid := (dictGet sigblock "key_id").getD (.str "")
            let status ← trust.statusOf kid
            match status with
            | .null => pure (false, "unknown-key")
            | status =>
                if status.isStr "revoked" then pure (false, "revoked-key")
                else if !(status.isStr "active" || status.isStr "next") then
                  pure (false, "bad-status:" ++ status.pyStr)
                else do
                  let pub ← trust.publicKey kid
                  match checkSignature VerifyKey pub manifest sigblock with
                  | .ok () => pure (true, kid.pyStr)
                  | .error exc =>
                      if exc.kind = .badSignature then pure (false, "bad-signature")
                      else pure (false, "verify-error:" ++ exc.text)
      | _ => .ok (false, "no-signature")

end NetplexSupport
