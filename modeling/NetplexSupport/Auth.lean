/-
`app/auth.py`: the bearer gates and the client address behind trusted proxies.
Address parsing and network membership come from the `ipaddress` module, which
is a parameter.
-/
import NetplexSupport.Config

namespace NetplexSupport

open Py

/-- How a handler ends when it does not answer: an `HTTPException`, or any
other exception. -/
inductive Failure where
  | http (status : Nat) (detail : Str)
  | raised (exc : Exc)
deriving DecidableEq

/-- Let an exception through. -/
def raising {α : Type} (x : Except Exc α) : Except Failure α := x.mapError .raised

@[simp] theorem raising_eq_ok {α : Type} {x : Except Exc α} {a : α} :
    raising x = .ok a ↔ x = .ok a := by
  rcases x with exc | b
  · simp [raising, Except.mapError]
  · simp [raising, Except.mapError]

/-- A handler that fails leaves its table as it was. -/
def orKeep {α σ : Type} (s : σ) (r : Except Failure (α × σ)) : σ × Except Failure α :=
  match r with
  | .ok (answer, s') => (s', .ok answer)
  | .error failure => (s, .error failure)

theorem orKeep_cases {α σ : Type} (s : σ) (r : Except Failure (α × σ)) :
    (∃ answer s', r = .ok (answer, s') ∧ orKeep s r = (s', .ok answer)) ∨
      ∃ failure, orKeep s r = (s, .error failure) := by
  rcases r with failure | ⟨answer, s'⟩
  · exact Or.inr ⟨failure, rfl⟩
  · exact Or.inl ⟨answer, s', rfl, rfl⟩

/-- What the gates and the address resolution read of a request: two headers,
as bytes, and the socket peer. -/
structure Request where
  authorization : Option Bytes := none
  xForwardedFor : Option Bytes := none
  client : Option Str := none

/-- `request.headers.get(name, "")`: header values are decoded as Latin-1. -/
def headerText (value : Option Bytes) : Str := decodeLatin1 (value.getD [])

/-! ### Bearer gates -/

/-- The stripped, non-empty parts of a comma-separated list. -/
def listed (csv : Str) : List Str :=
  ((Str.split (ch ',') csv).map Str.strip).filter fun t => t ≠ []

/-- The bearer token a request presents, or the empty string. -/
def presentedToken (request : Request) : Str :=
  let auth := headerText request.authorization
  if (Str.ofString "bearer ").isPrefixOf (Str.lowerLatin1 auth) then
    Str.strip (auth.drop 7)
  else []

/-- `hmac.compare_digest` of two `str` arguments. -/
def compareDigest (a b : Str) : Except Exc Bool :=
  if a.all isAscii && b.all isAscii then .ok (decide (a = b))
  else .error ⟨.typeError, "comparing strings with non-ASCII characters is not supported"⟩

/-- `any(hmac.compare_digest(presented, t) for t in configured)`. -/
def anyDigest (presented : Str) : List Str → Except Exc Bool
  | [] => .ok false
  | t :: configured => do
      if ← compareDigest presented t then pure true else anyDigest presented configured

/-- The gate of every privileged surface: closed when no token is configured,
open to a request that presents one of the configured tokens. -/
def bearerGate (request : Request) (tokensCsv unconfigured invalid : Str) :
    Except Failure Unit :=
  let configured := listed tokensCsv
  let presented := presentedToken request
  if configured = [] then .error (.http 503 unconfigured)
  else if presented = [] then .error (.http 401 invalid)
  else do
    if ← raising (anyDigest presented configured) then pure ()
    else .error (.http 401 invalid)

/-- `_require_bearer`. -/
def requireBearer (request : Request) (tokensCsv what : Str) : Except Failure Unit :=
  bearerGate request tokensCsv (what ++ " is not configured on this server")
    ("invalid or missing " ++ what ++ " token")

/-- `require_admin`. -/
def requireAdmin (settings : Settings) (request : Request) : Except Failure Unit :=
  requireBearer request settings.adminApiTokens "admin API"

/-! ### The client address -/

/-- `ipaddress`: `none` is a `ValueError`. -/
structure IpAddress where
  Network : Type
  Address : Type
  ipNetwork : Str → Option Network
  ipAddress : Str → Option Address
  contains : Network → Address → Bool

/-- An entry of `TRUSTED_PROXIES`: the literal `*`, or a network. -/
inductive ProxyEntry (ip : IpAddress) where
  | anyone
  | network (n : ip.Network)

/-- `_trusted_proxies`: garbage is ignored. -/
def trustedProxies (ip : IpAddress) (settings : Settings) : List (ProxyEntry ip) :=
  (listed settings.trustedProxies).filterMap fun tok =>
    if tok = Str.ofString "*" then some .anyone
    else (ip.ipNetwork tok).map .network

/-- `_peer_is_trusted`. -/
def peerIsTrusted (ip : IpAddress) (settings : Settings) (peer : Str) : Bool :=
  let nets := trustedProxies ip settings
  if nets.any fun | .anyone => true | .network _ => false then true
  else
    match ip.ipAddress peer with
    | none => false
    | some address =>
        nets.any fun | .anyone => false | .network n => ip.contains n address

/-- `client_ip`: behind a trusted peer, the rightmost hop that is not trusted. -/
def clientIp (ip : IpAddress) (settings : Settings) (request : Request) : Str :=
  let peer := request.client.getD []
  let orUnknown := if peer = [] then Str.ofString "unknown" else peer
  if !peerIsTrusted ip settings peer then orUnknown
  else
    let hops := listed (headerText request.xForwardedFor)
    (hops.reverse.find? fun hop => !peerIsTrusted ip settings hop).getD orUnknown

end NetplexSupport
