/-
`tools/attribute_leak.py`: attribution of a leaked licence token or download
stamp, and the scan of a directory tree for them.
-/
import NetplexSupport.Python.Regex
import NetplexSupport.Python.Utf8
import NetplexSupport.Tools.MintLicense

namespace NetplexSupport

open Py

/-! ### Trust -/

/-- The pinned licence keys. -/
def TRUST : List Str :=
  ["jJCebPG7chTyVdNLQ7eCYPqbvjiuWwEahm1ozQyz4pE=",
    "ZiZR7Qz12/KFTkQfcpvN7m4e9uG9HY7skqCRN3KyrPU="]

/-- The pinned download-stamp keys. -/
def STAMP_TRUST : List Str := ["8irQIlrwhR5/1JmDqI9SFD/XJBLUt3mX5BvoNZLHS9s="]

def STAMP_TYPE : Str := "netplex-download-stamp"

/-- `claims.get(key)`. -/
def claimOf {F : Type} (claims : Members F) (key : Str) : Json F :=
  (dictGet claims key).getD .null

section

variable {F : Type} [PyFloat F] [FloatEq F]

/-- `base64.b64decode` of a JSON value. -/
def b64decodeValue : Json F → Except Exc Bytes
  | .str s => b64decodeText s
  | j => .error ⟨.typeError,
      "argument should be a bytes-like object or ASCII string, not '" ++ j.typeName ++ "'"⟩

/-- `(claims.get("signature") or {}).get("sig", "")`. -/
def sigOf (claims : Members F) : Except Exc (Json F) :=
  match (claimOf claims "signature").or (.obj []) with
  | .obj block => .ok ((dictGet block "sig").getD (.str ""))
  | j => .error ⟨.attributeError, "'" ++ j.typeName ++ "' object has no attribute 'get'"⟩

/-- The body of the `try` in `_verify`: the key's bytes when the signature is
good. -/
def checkPinned
    (VerifyKey : Bytes → Except Exc (Bytes → Bytes → Except Exc Unit))
    (claims : Members F) (sig : Json F) (pubB64 : Str) : Except Exc Bytes := do
  let pub ← b64decodeText pubB64
  let key ← VerifyKey pub
  let signature ← b64decodeValue sig
  let message ← canonicalBytes claims
  key message signature
  pure pub

/-- `_verify`. -/
def verifyPinned (C : Crypto) (claims : Members F) (trustKeys : List Str) :
    Except Exc (Bool × Str) :=
  match C.VerifyKey with
  | none => .ok (false, "crypto-unavailable")
  | some VerifyKey => do
      let sig ← sigOf claims
      match trustKeys.findSome? fun pub => (checkPinned VerifyKey claims sig pub).toOption with
      | some pub => pure (true, keyIdFor C pub)
      | none =>
          pure (false, if trustKeys ≠ [] then "no-trusted-key" else "no-stamp-key-configured")

/-! ### Attribution -/

structure StampRecord (F : Type) where
  ok : Bool
  signatureKeyId : Option Str
  reason : Option Str
  customerRef : Json F
  downloadId : Json F
  tier : Json F
  package : Json F
  version : Json F
  issuedAt : Json F
  resolvedViaLedger : Bool

structure LicenseRecord (F : Type) where
  ok : Bool
  signatureKeyId : Option Str
  reason : Option Str
  buyerId : Json F
  licenseId : Json F
  tier : Json F
  issuedAt : Json F
  expiresAt : Json F

/-- What `_attribute` returns: `notJson` is the bare refusal, without a kind. -/
inductive Leak (F : Type) where
  | notJson
  | stamp (record : StampRecord F)
  | license (record : LicenseRecord F)

/-- A downloads ledger: rows by download id. -/
abbrev Ledger (F : Type) := List (Json F × Members F)

/-- `ledger[dl]` where it is there. -/
def ledgerRow (ledger : Ledger F) (dl : Json F) : Except Exc (Option (Members F)) :=
  match dl.hashError with
  | some exc => .error exc
  | none => .ok ((ledger.find? fun row => row.1.keyEq dl).map Prod.snd)

/-- The download-stamp branch of `_attribute`. -/
def attributeStamp (C : Crypto) (stampTrust : List Str) (ledger : Ledger F)
    (claims : Members F) : Except Exc (StampRecord F) := do
  let (ok, why) ← verifyPinned C claims (stampTrust ++ STAMP_TRUST)
  let embedded := (claimOf claims "customer_ref").or (claimOf claims "buyer_id")
  let dl := claimOf claims "download_id"
  let row ← if ok && dl.truthy && !embedded.truthy && !ledger.isEmpty then
      ledgerRow ledger dl
    else pure none
  pure
    { ok := ok
      signatureKeyId := if ok then some why else none
      reason := if ok then none else some why
      customerRef := if embedded.truthy then embedded
        else (row.map fun row => claimOf row "customer_ref").getD .null
      downloadId := dl
      tier := claimOf claims "tier"
      package := claimOf claims "package"
      version := claimOf claims "version"
      issuedAt := claimOf claims "issued_at"
      resolvedViaLedger := row.isSome }

/-- The licence-token branch of `_attribute`. -/
def attributeLicense (C : Crypto) (claims : Members F) : Except Exc (LicenseRecord F) := do
  let (ok, why) ← verifyPinned C claims TRUST
  pure
    { ok := ok
      signatureKeyId := if ok then some why else none
      reason := if ok then none else some why
      buyerId := (claimOf claims "buyer_id").or (claimOf claims "customer_ref")
      licenseId := (claimOf claims "license_id").or (claimOf claims "jti")
      tier := claimOf claims "tier"
      issuedAt := claimOf claims "issued_at"
      expiresAt := claimOf claims "expires_at" }

/-- `_attribute`. -/
def attributeToken (C : Crypto) (stampTrust : List Str) (ledger : Ledger F) (token : Str) :
    Except Exc (Leak F) :=
  match loads token with
  | none => .ok .notJson
  | some (.obj claims) =>
      if (claimOf claims "type").isStr STAMP_TYPE then
        (attributeStamp C stampTrust ledger claims).map .stamp
      else (attributeLicense C claims).map .license
  | some j => .error ⟨.attributeError, "'" ++ j.typeName ++ "' object has no attribute 'get'"⟩

/-! ### The ledger -/

/-- `out[id] = row`: an id that is there keeps its place. -/
def ledgerSet (ledger : Ledger F) (id : Json F) (row : Members F) : Ledger F :=
  if ledger.any fun entry => entry.1.keyEq id then
    ledger.map fun entry => if entry.1.keyEq id then (entry.1, row) else entry
  else ledger ++ [(id, row)]

/-- One turn of the loop over the lines: a blank line, one that is not JSON and a
row without an id are passed over, and anything but an object has no `get`. -/
def loadRow (ledger : Ledger F) (line : Str) : Except Exc (Ledger F) :=
  if Str.strip line = [] then .ok ledger
  else
    match loads (Str.strip line) with
    | none => .ok ledger
    | some (.obj row) =>
        let id := claimOf row "download_id"
        if id.truthy then
          match id.hashError with
          | some exc => .error exc
          | none => .ok (ledgerSet ledger id row)
        else .ok ledger
    | some j => .error ⟨.attributeError, "'" ++ j.typeName ++ "' object has no attribute 'get'"⟩

/-- The loop: an exception ends it and is swallowed. -/
def loadRows (ledger : Ledger F) : List Str → Ledger F
  | [] => ledger
  | line :: lines =>
      match loadRow ledger line with
      | .ok ledger => loadRows ledger lines
      | .error _ => ledger

variable (F) in
/-- `_load_ledger` of a file's text, or of no file. -/
def loadLedger (file : Option Str) : Ledger F :=
  match file with
  | some text => loadRows [] (Str.split (ch '\n') (universalNewlines text))
  | none => []

/-! ### The scan -/

/-- `[^{}]` of a byte. -/
def notBrace (b : UInt8) : Bool := b ≠ 123 && b ≠ 125

/-- `\s` of a byte. -/
def isSpaceByte (b : UInt8) : Bool := b = 32 || (9 ≤ b && b ≤ 13)

/-- `[^{}]*"signature"\s*:\s*`. -/
def outerPattern : List (Regex.Item UInt8) :=
  .many notBrace :: Regex.literal (asciiBytes "\"signature\"") ++
    [.many isSpaceByte, .one (· = 58), .many isSpaceByte]

/-- `[^{}]*"alg"\s*:\s*"ed25519"[^{}]*`. -/
def innerPattern : List (Regex.Item UInt8) :=
  .many notBrace :: Regex.literal (asciiBytes "\"alg\"") ++
    [.many isSpaceByte, .one (· = 58), .many isSpaceByte] ++
    Regex.literal (asciiBytes "\"ed25519\"") ++ [.many notBrace]

/-- `pat`. -/
def leakPattern : List (Regex.Item UInt8) :=
  [.one (· = 123)] ++ (outerPattern ++ ([.one (· = 123)] ++ (innerPattern ++
    ([.one (· = 125)] ++ ([.many notBrace] ++ [.one (· = 125)])))))

def readLimit : Nat := 2000000

/-- A file of the tree, in the order of `os.walk`: its path, and its content
unless it cannot be read. -/
abbrev LeakFile := Str × Option Bytes

/-- The matches in a file. -/
def leakBlobs (file : LeakFile) : List Bytes :=
  match file.2 with
  | some content => Regex.finditer leakPattern (content.take readLimit)
  | none => []

/-- The attribution of one match; `none` is an exception, after which the loop
goes on. -/
def leakOf (C : Crypto) (stampTrust : List Str) (ledger : Ledger F) (blob : Bytes) :
    Option (Leak F) :=
  (decodeUtf8 blob).bind fun text => (attributeToken C stampTrust ledger text).toOption

/-- The attributed matches of a tree, with the paths they were found at. -/
def leaksOf (C : Crypto) (stampTrust : List Str) (ledger : Ledger F)
    (tree : List LeakFile) : List (Str × Leak F) :=
  tree.flatMap fun file =>
    (leakBlobs file).filterMap fun blob =>
      (leakOf C stampTrust ledger blob).map fun leak => (file.1, leak)

def Leak.kind : Leak F → Option Str
  | .notJson => none
  | .stamp _ => some "download-stamp"
  | .license _ => some "license-token"

/-- `res.get("download_id") or res.get("license_id") or "?"`. -/
def Leak.ident : Leak F → Json F
  | .notJson => .str "?"
  | .stamp record => record.downloadId.or (.str "?")
  | .license record => record.licenseId.or (.str "?")

def Leak.signatureKeyId : Leak F → Option Str
  | .notJson => none
  | .stamp record => record.signatureKeyId
  | .license record => record.signatureKeyId

def Leak.ok : Leak F → Bool
  | .notJson => false
  | .stamp record => record.ok
  | .license record => record.ok

/-- Two attributions have the same key in `by_id`. -/
def Leak.sameKey (a b : Leak F) : Bool :=
  a.kind = b.kind && a.ident.keyEq b.ident && a.signatureKeyId = b.signatureKeyId &&
    a.ok = b.ok

structure LeakHit (F : Type) where
  leak : Leak F
  copies : Nat
  artifacts : List Str

/-- One turn of the loop: the first attribution of a key stays, later ones are
counted with it.  A list or a dict for an id raises. -/
def recordLeak (byId : List (LeakHit F)) (found : Str × Leak F) :
    Except Exc (List (LeakHit F)) :=
  match found.2.ident.hashError with
  | some exc => .error exc
  | none => .ok (
      if byId.any fun hit => hit.leak.sameKey found.2 then
        byId.map fun hit =>
          if hit.leak.sameKey found.2 then
            { hit with copies := hit.copies + 1, artifacts := hit.artifacts ++ [found.1] }
          else hit
      else byId ++ [⟨found.2, 1, [found.1]⟩])

/-- `_scan`. -/
def scanTree (C : Crypto) (stampTrust : List Str) (ledger : Ledger F)
    (tree : List LeakFile) : Except Exc (List (LeakHit F)) :=
  (leaksOf C stampTrust ledger tree).foldlM recordLeak []

end

end NetplexSupport
