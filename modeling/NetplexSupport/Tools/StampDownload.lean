/-
`tools/stamp_download.py`: a signed stamp for every download, written at several
places of the package tree, and the ledger that says whose download it was.
-/
import NetplexSupport.Json.Indent
import NetplexSupport.Tools.AttributeLeak

namespace NetplexSupport

open Py

/-! ### The clock -/

/-- `%0{width}d`. -/
def decPad : Nat → Nat → Str
  | 0, _ => []
  | width + 1, n => decPad width (n / 10) ++ [digitChar (Fin.ofNat 10 n)]

/-- A UTC clock reading, to the second. -/
structure Instant where
  year : Nat
  month : Nat
  day : Nat
  hour : Nat
  minute : Nat
  second : Nat
  year_le : year ≤ 9999
  month_le : month ≤ 12
  day_le : day ≤ 31
  hour_le : hour ≤ 23
  minute_le : minute ≤ 59
  second_le : second ≤ 59

/-- `_now_iso` at a clock reading. -/
def Instant.isoformat (t : Instant) : Str :=
  decPad 4 t.year ++ "-" ++ decPad 2 t.month ++ "-" ++ decPad 2 t.day ++ "T" ++
    decPad 2 t.hour ++ ":" ++ decPad 2 t.minute ++ ":" ++ decPad 2 t.second ++ "+00:00"

/-! ### Package trees -/

/-- A path below the root of a tree, as a walk of the tree spells it. -/
structure SitePath where
  text : Str
  normal : ∀ name ∈ Str.split (ch '/') text, name ≠ [] ∧ name ≠ "." ∧ name ≠ ".."
deriving DecidableEq

/-- The files of a package tree, by their paths. -/
abbrev PackageTree := Dict Bytes

/-- `_DEFAULT_SITES`. -/
def DEFAULT_SITES : List SitePath :=
  [⟨"install-stamp.json", by decide⟩, ⟨".netplex/build.json", by decide⟩,
    ⟨"share/netplex/.provenance", by decide⟩, ⟨"assets/.build-constant.json", by decide⟩]

/-- The second path is a directory on the way to the first. -/
def liesBelow (path dir : Str) : Bool := (dir ++ "/").isPrefixOf path

/-- Make the directories of a site and write the file.  A file may be in the way
of a directory, or a directory of the file. -/
def writeSite (tree : PackageTree) (blob : Bytes) (site : SitePath) : Except Exc PackageTree :=
  if tree.any fun file => liesBelow site.text file.1 then
    .error ⟨.osError, "[Errno 20] Not a directory"⟩
  else if tree.any fun file => liesBelow file.1 site.text then
    .error ⟨.osError, "[Errno 21] Is a directory"⟩
  else .ok (dictSet tree site.text blob)

/-- The loop of `_write_sites`: what is written before an exception stays. -/
def writeSites (blob : Bytes) (tree : PackageTree) :
    List SitePath → PackageTree × Except Exc (List SitePath)
  | [] => (tree, .ok [])
  | site :: sites =>
      match writeSite tree blob site with
      | .error exc => (tree, .error exc)
      | .ok tree =>
          let (tree, written) := writeSites blob tree sites
          (tree, written.map (site :: ·))

/-! ### The stamp -/

/-- The arguments of `stamp_artifact` without the key, the random id it draws and
the clock it reads. -/
structure StampArgs where
  artifactRoot : Str
  customer : Str
  tier : Str
  package : Str
  version : Str
  downloadId : Option Str := none
  sites : Option (List SitePath) := none
  ledgerPath : Option Str := none
  embedCustomer : Bool := true
  uuid : Str
  now : Instant

/-- `download_id or f"dl_{uuid.uuid4().hex}"`. -/
def StampArgs.dlId (args : StampArgs) : Str :=
  match args.downloadId with
  | some id => if id = [] then "dl_" ++ args.uuid else id
  | none => "dl_" ++ args.uuid

/-- `sites or _DEFAULT_SITES`. -/
def StampArgs.places (args : StampArgs) : List SitePath :=
  match args.sites with
  | some sites => if sites = [] then DEFAULT_SITES else sites
  | none => DEFAULT_SITES

section

variable {F : Type} [PyFloat F]

/-- `_sign`. -/
def signStamp (C : Crypto) (K : SigningKey) (manifest : Members F) (seed : Bytes) :
    Except Exc (Members F) := do
  let seed ← fromPrivateBytes seed
  signClaims C K seed (payload manifest)

/-- The stamp before it is signed. -/
def stampClaims (args : StampArgs) : Members F :=
  let stamp : Members F :=
    [("type", .str STAMP_TYPE), ("download_id", .str args.dlId), ("tier", .str args.tier),
      ("package", .str args.package), ("version", .str args.version),
      ("issued_at", .str args.now.isoformat)]
  if args.embedCustomer then dictSet stamp "customer_ref" (.str args.customer) else stamp

/-- The row of the ledger, which always names the customer. -/
def stampRow (args : StampArgs) : Members F :=
  [("download_id", .str args.dlId), ("customer_ref", .str args.customer),
    ("tier", .str args.tier), ("package", .str args.package), ("version", .str args.version),
    ("issued_at", .str args.now.isoformat)]

def rowOpts : DumpOpts := { sortKeys := true }

/-- The line `_append_ledger` writes. -/
def rowLine (row : Members F) : Str := dumps rowOpts (.obj row) ++ "\n"

/-! ### Stamping -/

/-- What the tool finds on the disk: the package trees by their roots, and the
texts of the ledgers by their paths. -/
structure Disk where
  packages : Dict PackageTree
  ledgers : Dict Str

/-- The text of a ledger, empty where there is none. -/
def Disk.ledger (disk : Disk) (path : Str) : Str := (dictGet disk.ledgers path).getD []

def Disk.setPackage (disk : Disk) (root : Str) (tree : PackageTree) : Disk :=
  { disk with packages := dictSet disk.packages root tree }

@[simp] theorem Disk.setPackage_packages (disk : Disk) (root : Str) (tree : PackageTree) :
    (disk.setPackage root tree).packages = dictSet disk.packages root tree := rfl

@[simp] theorem Disk.setPackage_ledger (disk : Disk) (root : Str) (tree : PackageTree)
    (path : Str) : (disk.setPackage root tree).ledger path = disk.ledger path := rfl

/-- `_append_ledger`. -/
def appendLedger (disk : Disk) (path : Str) (row : Members F) : Disk :=
  { disk with ledgers := dictSet disk.ledgers path (disk.ledger path ++ rowLine row) }

@[simp] theorem appendLedger_packages (disk : Disk) (path : Str) (row : Members F) :
    (appendLedger disk path row).packages = disk.packages := rfl

@[simp] theorem appendLedger_ledger (disk : Disk) (path : Str) (row : Members F) :
    (appendLedger disk path row).ledger path = disk.ledger path ++ rowLine row := by
  simp only [appendLedger, Disk.ledger, dictGet_dictSet, if_true, Option.getD_some]

variable (F) in
/-- `if ledger_path: _append_ledger(…)`. -/
def recordStamp (disk : Disk) (args : StampArgs) : Disk :=
  match args.ledgerPath with
  | some path => if path = [] then disk else appendLedger disk path (stampRow (F := F) args)
  | none => disk

@[simp] theorem recordStamp_packages (disk : Disk) (args : StampArgs) :
    (recordStamp F disk args).packages = disk.packages := by
  unfold recordStamp
  split
  · split
    · rfl
    · rfl
  · rfl

/-- What `stamp_artifact` returns. -/
structure Stamped (F : Type) where
  downloadId : Str
  keyId : Str
  sites : List SitePath
  stamp : Members F

/-- The signed stamp and the bytes written at every site. -/
def signedBlob (C : Crypto) (K : SigningKey) (seed : Bytes) (args : StampArgs) :
    Except Exc (Members F × Bytes) := do
  let signed ← signStamp C K (stampClaims args) seed
  let blob ← encodeUtf8 (dumpsIndent 2 (.obj signed))
  pure (signed, blob)

/-- The part of `stamp_artifact` that works on the package tree. -/
def stampTree (C : Crypto) (K : SigningKey) (seed : Bytes) (tree : PackageTree)
    (args : StampArgs) : PackageTree × Except Exc (Stamped F) :=
  match signedBlob C K seed args with
  | .error exc => (tree, .error exc)
  | .ok (signed, blob) =>
      let (tree, written) := writeSites blob tree args.places
      (tree, written.map fun written =>
        ⟨args.dlId, keyIdFor C (K.verifyKey seed), written, signed⟩)

/-- `stamp_artifact`: the disk it leaves and what it returns. -/
def stampArtifact (C : Crypto) (K : SigningKey) (seed : Bytes) (disk : Disk)
    (args : StampArgs) : Disk × Except Exc (Stamped F) :=
  match dictGet disk.packages args.artifactRoot with
  | none =>
      (disk, .error ⟨.osError, "artifact root is not a directory: " ++ args.artifactRoot⟩)
  | some tree =>
      let written := stampTree C K seed tree args
      let disk := disk.setPackage args.artifactRoot written.1
      match written.2 with
      | .error exc => (disk, .error exc)
      | .ok stamped => (recordStamp F disk args, .ok stamped)

/-- A call does nothing to a missing tree, stops with an exception, or returns
and records the stamp. -/
theorem stampArtifact_cases (C : Crypto) (K : SigningKey) (seed : Bytes) (disk : Disk)
    (args : StampArgs) :
    (dictGet disk.packages args.artifactRoot = none ∧
      stampArtifact (F := F) C K seed disk args = (disk, .error ⟨.osError,
        "artifact root is not a directory: " ++ args.artifactRoot⟩)) ∨
    ∃ tree, dictGet disk.packages args.artifactRoot = some tree ∧
      ((∃ exc, (stampTree (F := F) C K seed tree args).2 = .error exc ∧
        stampArtifact (F := F) C K seed disk args = (disk.setPackage args.artifactRoot
          (stampTree (F := F) C K seed tree args).1, .error exc)) ∨
      ∃ stamped, (stampTree (F := F) C K seed tree args).2 = .ok stamped ∧
        stampArtifact C K seed disk args = (recordStamp F (disk.setPackage args.artifactRoot
          (stampTree (F := F) C K seed tree args).1) args, .ok stamped)) := by
  unfold stampArtifact
  rcases dictGet disk.packages args.artifactRoot with _ | tree
  · exact Or.inl ⟨rfl, rfl⟩
  · refine Or.inr ⟨tree, rfl, ?_⟩
    rcases hresult : (stampTree (F := F) C K seed tree args).2 with exc | stamped
    · exact Or.inl ⟨exc, rfl, by simp only [hresult]⟩
    · exact Or.inr ⟨stamped, rfl, by simp only [hresult]⟩

end

end NetplexSupport
