/-
`app/models.py`, the two append-only tables: signed release manifests and
registered licence tokens.  The database hands out the row ids.
-/
import NetplexSupport.Models.Tickets

namespace NetplexSupport

open Py

/-- What the columns of a database can hold; an insert of anything else
fails. -/
structure Backend where
  /-- An `Integer` column. -/
  integer : Int → Bool
  /-- A `String(width)` column. -/
  string : Nat → Str → Bool
  /-- A `Text` column. -/
  text : Str → Bool

/-- A database that holds every integer and every string. -/
def Backend.unbounded : Backend := ⟨fun _ => true, fun _ _ => true, fun _ => true⟩

/-- SQLite: 64-bit integers, and widths that are not enforced. -/
def Backend.sqlite : Backend where
  integer i := decide (-2 ^ 63 ≤ i ∧ i < 2 ^ 63)
  string _ _ := true
  text _ := true

/-- Postgres: 32-bit integers, enforced widths, and no NUL in a text. -/
def Backend.postgres : Backend where
  integer i := decide (-2 ^ 31 ≤ i ∧ i < 2 ^ 31)
  string width s := decide (s.length ≤ width) && s.all fun c => c.val ≠ 0
  text s := s.all fun c => c.val ≠ 0

def dataError : Exc := ⟨.databaseError, "value out of range for its column"⟩

/-! ### Release manifests -/

/-- A row of `release_manifests`. -/
structure ReleaseManifest where
  id : Int
  channel : Str
  version : Str
  keyId : Str
  manifestJson : Str
  uploadedAt : Time
deriving DecidableEq

def ReleaseManifest.fits (B : Backend) (row : ReleaseManifest) : Bool :=
  B.string 32 row.channel && B.string 64 row.version && B.string 32 row.keyId &&
    B.text row.manifestJson

/-- `store_release_manifest`. -/
def storeReleaseManifest (B : Backend) (rows : List ReleaseManifest)
    (row : ReleaseManifest) : Except Exc (List ReleaseManifest) :=
  if row.fits B then .ok (rows ++ [row]) else .error dataError

theorem storeReleaseManifest_eq_ok {B : Backend} {rows rows' : List ReleaseManifest}
    {row : ReleaseManifest} :
    storeReleaseManifest B rows row = .ok rows' ↔
      row.fits B = true ∧ rows' = rows ++ [row] := by
  unfold storeReleaseManifest
  by_cases hfits : row.fits B = true
  · simp [hfits, eq_comm]
  · simp [hfits]

/-- `latest_release_manifest`. -/
def latestReleaseManifest (rows : List ReleaseManifest) (channel : Str) :
    Option ReleaseManifest :=
  Sql.lastBy ReleaseManifest.id (rows.filter fun row => row.channel = channel)

/-! ### Licence tokens -/

/-- A row of `license_tokens`. -/
structure LicenseToken where
  id : Int
  customerRef : Str
  keyId : Str
  tier : Str
  expiresAt : Option Int
  tokenJson : Str
  registeredAt : Time
deriving DecidableEq

def LicenseToken.fits (B : Backend) (row : LicenseToken) : Bool :=
  B.string 256 row.customerRef && B.string 32 row.keyId && B.string 32 row.tier &&
    row.expiresAt.all B.integer && B.text row.tokenJson

/-- `store_license_token`. -/
def storeLicenseToken (B : Backend) (rows : List LicenseToken) (row : LicenseToken) :
    Except Exc (List LicenseToken) :=
  if row.fits B then .ok (rows ++ [row]) else .error dataError

theorem storeLicenseToken_eq_ok {B : Backend} {rows rows' : List LicenseToken}
    {row : LicenseToken} :
    storeLicenseToken B rows row = .ok rows' ↔
      row.fits B = true ∧ rows' = rows ++ [row] := by
  unfold storeLicenseToken
  by_cases hfits : row.fits B = true
  · simp [hfits, eq_comm]
  · simp [hfits]

/-- `latest_license_token_for`. -/
def latestLicenseTokenFor (rows : List LicenseToken) (customerRef : Str) :
    Option LicenseToken :=
  Sql.lastBy LicenseToken.id (rows.filter fun row => row.customerRef = customerRef)

end NetplexSupport
