/-
`tools/concurrency_report.py`: the check-in ledger and the ranked list of
licences with more machines than seats.
-/
import NetplexSupport.Tools.AttributeLeak

namespace NetplexSupport

open Py

/-! ### The ladder -/

/-- `_DEFAULT_SEATS`. -/
def DEFAULT_SEATS : Dict Int :=
  [("free", 1), ("associate", 1), ("pro", 2), ("professional", 2), ("architect", 2),
    ("team", 0), ("classroom", 0), ("class", 0), ("enterprise", 0), ("master", 0)]

inductive Severity where
  | ok
  | notify
  | review
  | escalate
deriving DecidableEq, Repr

/-- `_severity`. -/
def severity (distinct seats : Int) : Severity :=
  if seats = 0 then .ok
  else if distinct ≤ seats then .ok
  else if distinct ≤ seats + 2 then .notify
  else if distinct ≤ max (seats * 5) 9 then .review
  else .escalate

/-- `order.get(severity, 9)`. -/
def Severity.order : Severity → Nat
  | .escalate => 0
  | .review => 1
  | .notify => 2
  | .ok => 9

section

variable {F : Type} [PyFloat F] [FloatEq F]

section

variable [Interpreter]

/-- `_DEFAULT_SEATS.get(tier.lower(), 1)`: a text with a surrogate keeps it, and is
not in the table. -/
def defaultSeats (tier : Str) : Int :=
  if Str.WellFormed tier then
    (dictGet DEFAULT_SEATS (Interpreter.lower (String.ofList (tier.map CodePoint.toChar)))).getD 1
  else 1

/-- `_seat_allowance`: a truth value is an integer too. -/
def seatAllowance (tier explicit : Json F) : Except Exc (Json F) :=
  if explicit.asInt.any (0 ≤ ·) then .ok explicit
  else
    match tier.or (.str "") with
    | .str tier => .ok (.int (defaultSeats tier))
    | j => .error ⟨.attributeError, "'" ++ j.typeName ++ "' object has no attribute 'lower'"⟩

end

/-! ### Grouping -/

/-- The check-ins of one licence. -/
structure Group (F : Type) where
  fps : List (Json F)
  instances : List (Json F)
  ips : List (Json F)
  tier : Json F
  seats : Json F

/-- What the `defaultdict` makes. -/
def Group.empty : Group F where
  fps := []
  instances := []
  ips := []
  tier := .str ""
  seats := .null

/-- `if r.get(field): values.add(r[field])`, for a set as the list of its
elements. -/
def addField (values : List (Json F)) (r : Members F) (field : Str) :
    Except Exc (List (Json F)) :=
  let value := claimOf r field
  if value.truthy then
    match value.hashError with
    | some exc => .error exc
    | none => .ok (if values.any (·.keyEq value) then values else values ++ [value])
  else .ok values

/-- One check-in of the licence. -/
def Group.checkIn (g : Group F) (r : Members F) : Except Exc (Group F) := do
  let fps ← addField g.fps r "fingerprint"
  let instances ← addField g.instances r "instance_id"
  let ips ← addField g.ips r "ip_prefix"
  pure
    { fps := fps
      instances := instances
      ips := ips
      tier := (claimOf r "tier").or g.tier
      seats := match g.seats with
        | .null => claimOf r "seats"
        | seats => seats }

/-- `by_lic`. -/
abbrev Groups (F : Type) := List (Json F × Group F)

/-- `by_lic[lid]`, made where it is missing. -/
def Groups.at (byLic : Groups F) (lid : Json F) : Group F :=
  ((byLic.find? fun entry => entry.1.keyEq lid).map Prod.snd).getD Group.empty

/-- The group in its place, or behind the others. -/
def Groups.put (byLic : Groups F) (lid : Json F) (g : Group F) : Groups F :=
  if byLic.any fun entry => entry.1.keyEq lid then
    byLic.map fun entry => if entry.1.keyEq lid then (entry.1, g) else entry
  else byLic ++ [(lid, g)]

/-- `cutoff is not None and isinstance(ts, int) and ts < cutoff`. -/
def beforeCutoff (cutoff : Option Int) (ts : Json F) : Bool :=
  cutoff.any fun cutoff => ts.asInt.any (· < cutoff)

/-- One turn of the loop over the records. -/
def groupRecord (cutoff : Option Int) (byLic : Groups F) (r : Json F) :
    Except Exc (Groups F) :=
  match r with
  | .obj r =>
      let lid := claimOf r "license_id"
      if !lid.truthy then .ok byLic
      else if beforeCutoff cutoff (claimOf r "ts") then .ok byLic
      else
        match lid.hashError with
        | some exc => .error exc
        | none => do
            let g ← (byLic.at lid).checkIn r
            pure (byLic.put lid g)
  | j => .error ⟨.attributeError, "'" ++ j.typeName ++ "' object has no attribute 'get'"⟩

/-- `None if now is None else now - window_days * 86400`. -/
def cutoffOf (windowDays : Int) (now : Option Int) : Option Int :=
  now.map fun now => now - windowDays * 86400

/-! ### The report -/

structure SeatRow (F : Type) where
  licenseId : Json F
  tier : Json F
  seatAllowance : Json F
  distinctMachines : Nat
  distinctInstances : Nat
  distinctIpPrefixes : Nat
  severity : Severity
  action : Str

def SOFT_ACTION : Str := "soft/human-review only - never auto-revoke"

/-- The row of one licence, unless it is ok. -/
def seatRow [Interpreter] (entry : Json F × Group F) : Except Exc (Option (SeatRow F)) := do
  let seats ← seatAllowance entry.2.tier entry.2.seats
  let distinct := entry.2.fps.length
  let sev := severity distinct (seats.asInt.getD 0)
  if sev = .ok then pure none
  else pure (some
    { licenseId := entry.1
      tier := entry.2.tier
      seatAllowance := seats
      distinctMachines := distinct
      distinctInstances := entry.2.instances.length
      distinctIpPrefixes := entry.2.ips.length
      severity := sev
      action := SOFT_ACTION })

/-- The order of the rows' sort keys. -/
def SeatRow.before (a b : SeatRow F) : Prop :=
  a.severity.order < b.severity.order ∨
    a.severity.order = b.severity.order ∧ b.distinctMachines ≤ a.distinctMachines

instance : DecidableRel (SeatRow.before (F := F)) := fun a b =>
  inferInstanceAs (Decidable (a.severity.order < b.severity.order ∨
    a.severity.order = b.severity.order ∧ b.distinctMachines ≤ a.distinctMachines))

/-- `analyze`. -/
def analyze [Interpreter] (records : List (Json F)) (windowDays : Int) (now : Option Int) :
    Except Exc (List (SeatRow F)) := do
  let byLic ← records.foldlM (groupRecord (cutoffOf windowDays now)) []
  let out ← byLic.mapM seatRow
  pure (out.reduceOption.insertionSort SeatRow.before)

/-! ### The ledger -/

/-- The lines of a file. -/
def fileLines (text : Str) : List Str := Str.split (ch '\n') (universalNewlines text)

/-- What `_load` keeps of a line. -/
def loadLine (line : Str) : Option (Json F) :=
  if Str.strip line = [] then none else loads (Str.strip line)

/-- `_load` of a file's text. -/
def loadRecords (text : Str) : List (Json F) := (fileLines text).filterMap loadLine

end

end NetplexSupport
