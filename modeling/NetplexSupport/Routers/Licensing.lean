/-
`app/routers/licensing.py`: verification of a licence token, and the registry
of tokens that were signed offline.
-/
import NetplexSupport.Auth
import NetplexSupport.Crypto.Signing
import NetplexSupport.Models.Registry
import NetplexSupport.RateLimit

namespace NetplexSupport

open Py

variable {F : Type}

def validTiers : List Str :=
  ["associate", "professional", "architect", "team", "enterprise", "class", "master"]

/-- `max_length` of a token in a request. -/
def tokenMaxLength : Nat := 4096

structure VerifyResult (F : Type) where
  valid : Bool
  tier : Str := ""
  expiresAt : Option Int := none
  entitlements : Members F := []
  reason : Str := ""

section

variable [PyFloat F] [Interpreter]

/-- `_trust_store` of the licensing routes. -/
def licenseTrustStore (C : Crypto) (settings : Settings) : Except Exc (TrustStore F) :=
  trustStoreFromSettings C settings.licenseTrustStoreJson settings.licensePublicKey

/-- `_verify_token`, at the time `int(time.time())`.  Every route caps the token at 4096
characters, where `json.loads` meets none of its limits. -/
def verifyToken (C : Crypto) (token : Str) (trust : TrustStore F) (now : Int) :
    Except Exc (VerifyResult F) :=
  match loads token with
  | some (.obj claims) => do
      let (ok, why) ← verifyManifest C claims trust
      if !ok then pure { valid := false, reason := why }
      else
        let tier := ((dictGet claims "tier").getD (.str "")).pyStr
        match (dictGet claims "expires_at").getD .null with
        | .null => pure { valid := true, tier := tier }
        | expiresAt => do
            let e ← expiresAt.toInt
            if e < now then
              pure { valid := false, tier := tier, expiresAt := some e, reason := "expired" }
            else pure { valid := true, tier := tier, expiresAt := some e }
  | _ => pure { valid := false, reason := "malformed-token" }

/-- `POST /verify`, with the clock of the rate limiter. -/
def verifyLicense (C : Crypto) (ip : IpAddress) (settings : Settings) (hits : Hits)
    (request : Request) (token : Str) (monotonic now : Int) :
    Hits × Except Failure (VerifyResult F) :=
  let limit := max settings.licenseVerifyRatePerMin 1
  let (ok, hits) :=
    rateOk hits ("license-verify:" ++ clientIp ip settings request) limit monotonic
  if !ok then (hits, .error (.http 429 "rate limit exceeded - slow down"))
  else (hits, raising (do verifyToken C token (← licenseTrustStore C settings) now))

structure RegisterResult where
  accepted : Bool
  customerRef : Str := ""
  tier : Str := ""
  keyId : Str := ""
  expiresAt : Option Int := none

/-- What the database draws for a row: its id and the default of its
timestamp. -/
structure RowDraw where
  id : Int
  stamp : Time

variable (F) in
/-- `register_license`, behind the admin gate: the answer, and the table. -/
def registerLicense (C : Crypto) (B : Backend) (settings : Settings)
    (rows : List LicenseToken) (token : Str) (now : Int) (draw : RowDraw) :
    Except Failure (RegisterResult × List LicenseToken) := do
  let trust : TrustStore F ← raising (licenseTrustStore C settings)
  match loads token with
  | none => .error (.http 400 "malformed token: not valid JSON")
  | some (.obj claims) => do
      let (ok, keyIdOrReason) ← raising (verifyManifest C claims trust)
      if !ok then .error (.http 400 ("signature rejected: " ++ keyIdOrReason))
      else do
        let result ← raising (verifyToken C token trust now)
        if !result.valid then .error (.http 400 ("token rejected: " ++ result.reason))
        else do
          let customerRef := ((dictGet claims "customer_ref").getD (.str "")).pyStr
          let rows ← raising (storeLicenseToken B rows
            { id := draw.id, customerRef := customerRef, keyId := keyIdOrReason,
              tier := result.tier, expiresAt := result.expiresAt, tokenJson := token,
              registeredAt := draw.stamp })
          pure ({ accepted := true, customerRef := customerRef, tier := result.tier,
                  keyId := keyIdOrReason, expiresAt := result.expiresAt }, rows)
  | some _ => .error (.http 400 "malformed token: not a JSON object")

variable (F) in
/-- `POST /register`: the admin gate, the cap on the body and the handler. -/
def postRegister (C : Crypto) (B : Backend) (settings : Settings) (request : Request)
    (rows : List LicenseToken) (token : Str) (now : Int) (draw : RowDraw) :
    Except Failure (RegisterResult × List LicenseToken) := do
  requireAdmin settings request
  if tokenMaxLength < token.length then
    .error (.http 422 "String should have at most 4096 characters")
  else registerLicense F C B settings rows token now draw

/-- One call of `register_license`: the settings and the second it runs in, the
token, and what the database draws for its row. -/
structure Registration where
  settings : Settings
  now : Int
  token : Str
  draw : RowDraw

variable (F) in
/-- The table after one call. -/
def registerStep (C : Crypto) (B : Backend) (rows : List LicenseToken) (e : Registration) :
    List LicenseToken × Except Failure RegisterResult :=
  orKeep rows (registerLicense F C B e.settings rows e.token e.now e.draw)

end

structure RegisteredView where
  customerRef : Str
  tier : Str
  keyId : Str
  expiresAt : Option Int
  token : Str
deriving DecidableEq

/-- `get_registered_license`, behind the admin gate. -/
def getRegisteredLicense (rows : List LicenseToken) (customerRef : Str) :
    Except Failure RegisteredView :=
  match latestLicenseTokenFor rows customerRef with
  | none => .error (.http 404 "no registered license for that customer_ref")
  | some row => .ok
      { customerRef := row.customerRef, tier := row.tier, keyId := row.keyId,
        expiresAt := row.expiresAt, token := row.tokenJson }

/-- `GET /registered/{customer_ref}`: the route takes one path segment, behind
the admin gate. -/
def getRegistered (settings : Settings) (request : Request) (rows : List LicenseToken)
    (customerRef : Str) : Except Failure RegisteredView :=
  if customerRef = [] ∨ ch '/' ∈ customerRef then .error (.http 404 "Not Found")
  else do
    requireAdmin settings request
    getRegisteredLicense rows customerRef

end NetplexSupport
