/-
Ed25519 and SHA-256 as a table of known values: one key pair, the digests and
the signatures recorded for it.  Outside the table the digest is zero and the
signature of a message is the message itself behind a mark, so that a
signature still belongs to exactly one message.
-/
import NetplexSupport.Crypto.Signing

namespace NetplexSupport

open Py

structure SignatureTable where
  seed : Bytes
  publicKey : Bytes
  digests : List (Bytes × Digest)
  /-- Messages with their signatures. -/
  known : List (Bytes × Bytes)
  publicKey_length : publicKey.length = 32
  known_length : ∀ e ∈ known, e.2.length = 64
  known_nodup : (known.map Prod.snd).Nodup

namespace SignatureTable

def zeroDigest : Digest := ⟨List.replicate 32 0, by simp⟩

def sign (T : SignatureTable) (message : Bytes) : Bytes :=
  (T.known.lookup message).getD (List.replicate 65 0 ++ message)

def crypto (T : SignatureTable) : Crypto where
  sha256 data := (T.digests.lookup data).getD zeroDigest
  VerifyKey := some fun pub =>
    if pub.length = 32 then
      .ok fun message sig =>
        if pub = T.publicKey ∧ sig = T.sign message then .ok ()
        else .error ⟨.badSignature, "Signature was forged or corrupt"⟩
    else .error ⟨.valueError, "The key must be exactly 32 bytes long"⟩

def signingKey (T : SignatureTable) : SigningKey where
  verifyKey seed := if seed = T.seed then T.publicKey else []
  sign seed message := if seed = T.seed then T.sign message else []

theorem mem_of_lookup {α β : Type} [BEq α] [LawfulBEq α] {l : List (α × β)} {a : α} {b : β}
    (h : l.lookup a = some b) : (a, b) ∈ l := by
  induction l with
  | nil => cases h
  | cons e l ih =>
      obtain ⟨x, y⟩ := e
      rw [List.lookup_cons] at h
      split at h
      · rename_i hx
        rw [beq_iff_eq.mp hx, Option.some.inj h]
        exact List.mem_cons_self
      · exact List.mem_cons_of_mem _ (ih h)

/-- A signature belongs to one message. -/
theorem sign_inj (T : SignatureTable) {m₁ m₂ : Bytes} :
    T.sign m₁ = T.sign m₂ ↔ m₁ = m₂ := by
  refine ⟨fun h => ?_, congrArg T.sign⟩
  unfold sign at h
  cases h₁ : T.known.lookup m₁ with
  | some s₁ =>
      have hmem₁ := mem_of_lookup h₁
      cases h₂ : T.known.lookup m₂ with
      | some s₂ =>
          have hmem₂ := mem_of_lookup h₂
          rw [h₁, h₂] at h
          exact congrArg Prod.fst (List.inj_on_of_nodup_map T.known_nodup hmem₁ hmem₂ h)
      | none =>
          rw [h₁, h₂] at h
          have hlength := congrArg List.length h
          have hknown := T.known_length _ hmem₁
          simp at hlength hknown
          omega
  | none =>
      cases h₂ : T.known.lookup m₂ with
      | some s₂ =>
          rw [h₁, h₂] at h
          have hlength := congrArg List.length h
          have hknown := T.known_length _ (mem_of_lookup h₂)
          simp at hlength hknown
          omega
      | none =>
          rw [h₁, h₂] at h
          exact List.append_cancel_left h

theorem crypto_verifies_iff (T : SignatureTable) {pub message sig : Bytes} :
    T.crypto.Verifies pub message sig ↔ pub = T.publicKey ∧ sig = T.sign message := by
  constructor
  · rintro ⟨construct, verify, hC, hpub, hverify⟩
    obtain rfl := Option.some.inj hC
    simp only at hpub
    split at hpub
    · obtain rfl := Except.ok.inj hpub
      simp only at hverify
      split at hverify
      · assumption
      · cases hverify
    · cases hpub
  · rintro ⟨rfl, rfl⟩
    refine ⟨_, fun m s => if T.publicKey = T.publicKey ∧ s = T.sign m then .ok ()
      else .error ⟨.badSignature, "Signature was forged or corrupt"⟩, rfl, ?_, by simp⟩
    simp [T.publicKey_length]

/-- The tabulated signatures verify under the public key on exactly the message
they were made for. -/
theorem verifies_sign_iff (T : SignatureTable) (message message' : Bytes) :
    T.crypto.Verifies (T.signingKey.verifyKey T.seed) message'
      (T.signingKey.sign T.seed message) ↔ message' = message := by
  simp [crypto_verifies_iff, signingKey, sign_inj, eq_comm]

end SignatureTable

/-! ### A recorded key pair -/

/-- The bytes of an ASCII text. -/
def asciiBytes (s : String) : Bytes := s.toList.map fun c => UInt8.ofNat c.toNat

/-- The bytes of a base64 text, or none. -/
def base64Bytes (s : String) : Bytes := ((b64decode (asciiBytes s)).toOption).getD []

/-- The bytes of an ASCII text that is cut into pieces. -/
def piecesBytes (pieces : List String) : Bytes := pieces.flatMap asciiBytes

/-- The bytes of a base64 text in pieces, or none. -/
def piecesBase64 (pieces : List String) : Bytes :=
  ((b64decode (piecesBytes pieces)).toOption).getD []

/-- A text that is cut into short pieces, which evaluate faster. -/
def piecesText (pieces : List String) : Str := pieces.flatMap Str.ofString

/-- The seed `00 01 … 1f`, as its key file holds it. -/
def recordedSeedText : String := "AAECAwQFBgcICQoLDA0ODxAREhMUFRYXGBkaGxwdHh8="

/-- The seed, its public key and the signatures it made. -/
def recordedKey : SignatureTable where
  seed := base64Bytes recordedSeedText
  publicKey := base64Bytes "A6EHv/POEL4dcN0Y50vAmWfk1jCbpQ1fHdyGZBJVMbg="
  digests := [(base64Bytes "A6EHv/POEL4dcN0Y50vAmWfk1jCbpQ1fHdyGZBJVMbg=",
    ⟨base64Bytes "Vkdap1RjR0wChd9dvyvKtz2mUTWIOem3dIGy6rEHcIw=", by decide +kernel⟩)]
  known :=
    [(asciiBytes "\x7b\"channel\":\"stable\",\"version\":\"1.0\"\x7d",
      base64Bytes ("UhnCnsTX2hI3F2l1R/9d72wNr81Wuc3pOzx+a89Cjn0/+nlT2FXFKhPZXSiPQFYiHrpt9nY8Oc" ++
        "yAY/G6LUusAA==")),
    (asciiBytes ("\x7b\"issued_at\":1700000000,\"revoked\":[\"lic-1\"]," ++
        "\"type\":\"crl\"\x7d"),
      base64Bytes ("5EqyB1m/fBieUYWch8VoZK3P+HyQy91X67BYsXswJumUP12fi/A5C9+6KgRdd6cT9wac/Y/" ++
        "SjsVFBn3IT2bHCg==")),
    (asciiBytes ("\x7b\"buyer_id\":\"acme\",\"customer_ref\":\"acme\",\"entitlements\":\x7b\x7d," ++
        "\"expires_at\":1700086400,\"fingerprint\":\"any\",\"issued_at\":1700000000," ++
        "\"license_id\":\"lic-1\",\"tier\":\"team\"\x7d"),
      base64Bytes ("eNbFft6cZ3YtKgzQp5c7R7hTDk9vi2YCoxzvC/dsAz4ognZVqwSO3l7QEg2zA3rw2Rf4pn" ++
        "dBJavDh2lhOjqnBQ==")),
    (asciiBytes ("\x7b\"buyer_id\":\"acme\",\"customer_ref\":\"acme\",\"entitlements\":\x7b\x7d," ++
        "\"expires_at\":4853600000,\"fingerprint\":\"any\",\"issued_at\":1700000000," ++
        "\"license_id\":\"lic-1\",\"tier\":\"team\"\x7d"),
      base64Bytes ("Tn8zNUk45KWP99XtIyZ9uNeDwFO0zO7kRG6GkHR2HfFUsa6CDrbvQ9fOvvG36iiv9qtYf4" ++
        "jCm7sME5ql7weiBg=="))]
  publicKey_length := by decide +kernel
  known_length := by decide +kernel
  known_nodup := by decide +kernel

/-- The recorded key's id. -/
def recordedKeyId : Str := "56475aa75463474c"

/-- A trust-store setting that lists the recorded key as the next one. -/
def recordedTrustJson : Str :=
  "[\x7b\"public_key\": \"A6EHv/POEL4dcN0Y50vAmWfk1jCbpQ1fHdyGZBJVMbg=\", " ++
    "\"status\": \"next\"\x7d]"

/-- A release manifest signed with the recorded key. -/
def recordedManifest : Members FloatView :=
  [("channel", .str "stable"), ("version", .str "1.0"),
    ("signature", .obj [("alg", .str ALG), ("key_id", .str recordedKeyId),
      ("sig", .str ("UhnCnsTX2hI3F2l1R/9d72wNr81Wuc3pOzx+a89Cjn0/+nlT2FXFKhPZXSiPQFYiHrpt" ++
        "9nY8OcyAY/G6LUusAA=="))])]

end NetplexSupport
