/-
`app/routers/releases.py`: upload of a manifest that was signed offline, and
the latest manifest of a channel.
-/
import NetplexSupport.Auth
import NetplexSupport.Crypto.Signing
import NetplexSupport.Json.Loaded
import NetplexSupport.Models.Registry
import NetplexSupport.Routers.Licensing

namespace NetplexSupport

open Py

variable {F : Type}

def channels : List Str := ["canary", "beta", "stable", "lts"]

/-- `sorted(CHANNELS)`, as an f-string prints it. -/
def channelsText : Str := "['beta', 'canary', 'lts', 'stable']"

/-- `UploadRequest`: a JSON object as the body parser returns it. -/
structure UploadRequest (F : Type) where
  manifest : Members F
  loaded : (Json.obj manifest).Loaded

structure UploadResult where
  accepted : Bool
  channel : Str := ""
  version : Str := ""
  keyId : Str := ""

/-- `sort_keys=True, separators=(",", ":")`: non-ASCII is escaped. -/
def storedOpts : DumpOpts := { itemSep := ",", keySep := ":", sortKeys := true }

section

variable [PyFloat F] [Interpreter]

/-- `_trust_store` of the release routes. -/
def signingTrustStore (C : Crypto) (settings : Settings) : Except Exc (TrustStore F) :=
  trustStoreFromSettings C settings.signingTrustStoreJson settings.signingPublicKey

/-- `get_manifest`: the JSON value the route returns. -/
def getManifest (rows : List ReleaseManifest) (channel : Str) : Except Failure (Json F) :=
  if channel ∉ channels then
    .error (.http 404 ("unknown channel: " ++ Str.repr channel ++ " (expected one of " ++
      channelsText ++ ")"))
  else
    match latestReleaseManifest rows channel with
    | none => .error (.http 404 ("no manifest has been published for channel " ++
        Str.repr channel ++ " yet"))
    | some row =>
        match loads row.manifestJson with
        | some value => .ok value
        | none => .error (.raised ⟨.valueError, "JSONDecodeError"⟩)

/-- `channel not in CHANNELS`, which raises on a list or a dict. -/
def knownChannel (channel : Json F) : Except Exc (Option Str) :=
  match channel with
  | .str c => .ok (if c ∈ channels then some c else none)
  | j =>
      match j.hashError with
      | some exc => .error exc
      | none => .ok none

/-- `upload_manifest`, behind the admin gate: the answer, and the table. -/
def uploadManifest (C : Crypto) (B : Backend) (settings : Settings)
    (rows : List ReleaseManifest) (req : UploadRequest F) (draw : RowDraw) :
    Except Failure (UploadResult × List ReleaseManifest) := do
  let manifest := req.manifest
  let channel := (dictGet manifest "channel").getD .null
  match ← raising (knownChannel channel) with
  | none => .error (.http 400 ("manifest.channel must be one of " ++ channelsText ++
      ", got " ++ channel.pyRepr))
  | some channel => do
      let (ok, reason) ← raising (do
        verifyManifest C manifest (← signingTrustStore C settings))
      if !ok then .error (.http 400 ("signature rejected: " ++ reason))
      else do
        let version := ((dictGet manifest "version").getD (.str "")).pyStr
        let rows ← raising (storeReleaseManifest B rows
          { id := draw.id, channel := channel, version := version, keyId := reason,
            manifestJson := dumps storedOpts (.obj manifest), uploadedAt := draw.stamp })
        pure ({ accepted := true, channel := channel, version := version,
                keyId := reason }, rows)

/-- One `POST /upload`: the request, the settings in force when it arrives and
what the database draws for its row. -/
structure Upload (F : Type) where
  settings : Settings
  request : Request
  body : UploadRequest F
  draw : RowDraw

/-- `POST /upload` with its admin gate. -/
def uploadStep (C : Crypto) (B : Backend) (rows : List ReleaseManifest) (e : Upload F) :
    List ReleaseManifest × Except Failure UploadResult :=
  orKeep rows do
    requireAdmin e.settings e.request
    uploadManifest C B e.settings rows e.body e.draw

end

end NetplexSupport
