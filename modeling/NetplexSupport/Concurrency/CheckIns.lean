/-
Typed check-ins: records whose ids and tier are texts, and the groups and rows
the report makes of them.
-/
import NetplexSupport.Python.GroupBy
import NetplexSupport.Tools.ConcurrencyReport
import Mathlib.Data.List.ReduceOption

namespace NetplexSupport

open Py

section

variable {F : Type}

/-! ### Check-ins -/

/-- A text, or nothing. -/
def isText : Json F → Bool
  | .null => true
  | .str _ => true
  | _ => false

/-- The text of a field, empty where there is none. -/
def textOf (r : Members F) (field : Str) : Str :=
  match claimOf r field with
  | .str s => s
  | _ => []

/-- The fields that identify a check-in, and its tier. -/
def checkInFields : List Str :=
  ["license_id", "fingerprint", "instance_id", "ip_prefix", "tier"]

/-- A check-in whose ids and tier are texts, where they are there. -/
structure CheckIn (F : Type) where
  row : Members F
  typed : ∀ field ∈ checkInFields, isText (claimOf row field) = true

def CheckIn.json (c : CheckIn F) : Json F := .obj c.row

def CheckIn.licence (c : CheckIn F) : Str := textOf c.row "license_id"

def CheckIn.tier (c : CheckIn F) : Str := textOf c.row "tier"

def CheckIn.seats (c : CheckIn F) : Json F := claimOf c.row "seats"

theorem claimOf_of_isText {r : Members F} {field : Str}
    (h : isText (claimOf r field) = true) :
    claimOf r field = .null ∧ textOf r field = [] ∨ claimOf r field = .str (textOf r field) := by
  unfold textOf
  cases hclaim : claimOf r field with
  | null => exact Or.inl ⟨rfl, rfl⟩
  | str s => exact Or.inr rfl
  | bool | int | float | arr | obj =>
      rw [hclaim] at h
      cases h

theorem CheckIn.claim (c : CheckIn F) {field : Str} (hfield : field ∈ checkInFields) :
    claimOf c.row field = .null ∧ textOf c.row field = [] ∨
      claimOf c.row field = .str (textOf c.row field) :=
  claimOf_of_isText (c.typed field hfield)

theorem CheckIn.claim_of_text (c : CheckIn F) {field : Str} (hfield : field ∈ checkInFields)
    (h : textOf c.row field ≠ []) : claimOf c.row field = .str (textOf c.row field) := by
  rcases c.claim hfield with ⟨_, htext⟩ | hclaim
  · exact absurd htext h
  · exact hclaim

variable [FloatEq F]

theorem CheckIn.truthy_iff (c : CheckIn F) {field : Str} (hfield : field ∈ checkInFields) :
    (claimOf c.row field).truthy = true ↔ textOf c.row field ≠ [] := by
  rcases c.claim hfield with ⟨hclaim, htext⟩ | hclaim
  · rw [hclaim, htext]
    simp [Json.truthy]
  · rw [hclaim, Json.truthy, decide_eq_true_eq]

omit [FloatEq F] in
/-- The check-in is not before the cutoff. -/
def CheckIn.inWindow (cutoff : Option Int) (c : CheckIn F) : Bool :=
  !beforeCutoff cutoff (claimOf c.row "ts")

/-- The check-ins of a licence in the window. -/
def checkInsOf (cutoff : Option Int) (lid : Str) (cs : List (CheckIn F)) : List (CheckIn F) :=
  cs.filter fun c => c.licence = lid && c.inWindow cutoff

/-! ### The group of a licence -/

/-- A group whose sets are of texts. -/
structure Machines (F : Type) where
  fps : List Str
  instances : List Str
  ips : List Str
  tier : Str
  seats : Json F

def Machines.empty : Machines F := ⟨[], [], [], [], .null⟩

def Machines.group (m : Machines F) : Group F where
  fps := m.fps.map .str
  instances := m.instances.map .str
  ips := m.ips.map .str
  tier := .str m.tier
  seats := m.seats

def addText (s : List Str) (x : Str) : List Str := if x = [] then s else setAdd s x

/-- One more check-in: the sets grow, the last tier and the first seats stay. -/
def Machines.add (m : Machines F) (c : CheckIn F) : Machines F where
  fps := addText m.fps (textOf c.row "fingerprint")
  instances := addText m.instances (textOf c.row "instance_id")
  ips := addText m.ips (textOf c.row "ip_prefix")
  tier := if c.tier = [] then m.tier else c.tier
  seats := match m.seats with
    | .null => c.seats
    | seats => seats

theorem any_keyEq_strs {s : List Str} {x : Str} :
    (s.map (Json.str (F := F))).any (·.keyEq (.str x)) = true ↔ x ∈ s := by
  simp [Json.keyEq_str_iff]

theorem addField_strs (s : List Str) (c : CheckIn F) {field : Str}
    (hfield : field ∈ checkInFields) :
    addField (s.map .str) c.row field = .ok ((addText s (textOf c.row field)).map .str) := by
  unfold addField addText
  by_cases htext : textOf c.row field = []
  · rw [if_neg fun h => (c.truthy_iff hfield).mp h htext, if_pos htext]
  · have hclaim := c.claim_of_text hfield htext
    have htruthy : (Json.str (F := F) (textOf c.row field)).truthy = true :=
      hclaim ▸ (c.truthy_iff hfield).mpr htext
    simp only [hclaim, if_pos htruthy, if_neg htext, Json.hashError]
    by_cases hmem : textOf c.row field ∈ s
    · rw [if_pos (any_keyEq_strs.mpr hmem), setAdd, if_pos hmem]
    · rw [if_neg fun h => hmem (any_keyEq_strs.mp h), setAdd, if_neg hmem, List.map_append]
      rfl

theorem checkIn_group (m : Machines F) (c : CheckIn F) :
    m.group.checkIn c.row = .ok (m.add c).group := by
  have htier : (claimOf c.row "tier").or (.str m.tier) =
      .str (if c.tier = [] then m.tier else c.tier) := by
    have hfield : Str.ofString "tier" ∈ checkInFields := by decide
    by_cases htext : c.tier = []
    · rw [if_pos htext, Json.or, if_neg fun h => (c.truthy_iff hfield).mp h htext]
    · rw [if_neg htext, Json.or, if_pos ((c.truthy_iff hfield).mpr htext)]
      exact c.claim_of_text hfield htext
  simp only [Group.checkIn, Machines.group, addField_strs _ c (show
    Str.ofString "fingerprint" ∈ checkInFields by decide), addField_strs _ c (show
    Str.ofString "instance_id" ∈ checkInFields by decide), addField_strs _ c (show
    Str.ofString "ip_prefix" ∈ checkInFields by decide), htier, bind, Except.bind, pure,
    Except.pure]
  rfl

/-! ### What a group holds -/

section

omit [FloatEq F]

/-- The texts of a field that are there. -/
def filled (field : Str) (cs : List (CheckIn F)) : List Str :=
  (cs.map fun c => textOf c.row field).filter (· ≠ [])

theorem filled_concat (field : Str) (cs : List (CheckIn F)) (c : CheckIn F) :
    filled field (cs ++ [c]) =
      filled field cs ++ if textOf c.row field = [] then [] else [textOf c.row field] := by
  rw [filled, List.map_append, List.filter_append]
  congr 1
  by_cases htext : textOf c.row field = []
  · simp [htext]
  · simp [htext]

/-- The group of a licence after its check-ins. -/
def machinesFrom (cs : List (CheckIn F)) : Machines F := cs.foldl Machines.add Machines.empty

theorem machinesFrom_concat (cs : List (CheckIn F)) (c : CheckIn F) :
    machinesFrom (cs ++ [c]) = (machinesFrom cs).add c := List.foldl_concat ..

theorem addText_filled (field : Str) (cs : List (CheckIn F)) (c : CheckIn F) :
    addText (setOf (filled field cs)) (textOf c.row field) = setOf (filled field (cs ++ [c])) := by
  rw [filled_concat, addText]
  by_cases htext : textOf c.row field = []
  · rw [if_pos htext, if_pos htext, List.append_nil]
  · rw [if_neg htext, if_neg htext, setOf_concat]

/-- The sets hold the texts of their fields. -/
theorem machinesFrom_sets (cs : List (CheckIn F)) :
    (machinesFrom cs).fps = setOf (filled "fingerprint" cs) ∧
      (machinesFrom cs).instances = setOf (filled "instance_id" cs) ∧
      (machinesFrom cs).ips = setOf (filled "ip_prefix" cs) := by
  induction cs using List.reverseRecOn with
  | nil => exact ⟨rfl, rfl, rfl⟩
  | append_singleton cs c ih =>
      rw [machinesFrom_concat, ← addText_filled, ← addText_filled, ← addText_filled, ← ih.1,
        ← ih.2.1, ← ih.2.2]
      exact ⟨rfl, rfl, rfl⟩

/-- The tier is the last one that is there. -/
theorem machinesFrom_tier (cs : List (CheckIn F)) :
    (machinesFrom cs).tier = (filled "tier" cs).getLastD [] := by
  induction cs using List.reverseRecOn with
  | nil => rfl
  | append_singleton cs c ih =>
      have hadd : ((machinesFrom cs).add c).tier =
          if textOf c.row "tier" = [] then (machinesFrom cs).tier else textOf c.row "tier" := rfl
      rw [machinesFrom_concat, filled_concat, hadd, ih]
      by_cases htext : textOf c.row "tier" = []
      · rw [if_pos htext, if_pos htext, List.append_nil]
      · rw [if_neg htext, if_neg htext, List.getLastD_concat]

/-- The check-in carries seats. -/
def carried : Json F → Bool
  | .null => false
  | _ => true

/-- The seats are the first that are carried. -/
theorem machinesFrom_seats (cs : List (CheckIn F)) :
    (machinesFrom cs).seats = ((cs.map CheckIn.seats).find? carried).getD .null := by
  induction cs using List.reverseRecOn with
  | nil => rfl
  | append_singleton cs c ih =>
      rw [machinesFrom_concat, List.map_append, List.find?_append]
      rcases hfirst : (cs.map CheckIn.seats).find? carried with _ | first
      · rw [hfirst] at ih
        simp only [Machines.add, ih, Option.getD_none, Option.none_or]
        cases hseats : c.seats
        all_goals simp [hseats, carried]
      · rw [hfirst] at ih
        have hcarried := List.find?_some hfirst
        simp only [Machines.add, ih, Option.getD_some, Option.some_or]
        cases first with
        | null => cases hcarried
        | bool | int | float | str | arr | obj => rfl

end

/-! ### The groups -/

def groupsOf (d : Dict (Machines F)) : Groups F := d.map fun e => (.str e.1, e.2.group)

theorem at_groupsOf (d : Dict (Machines F)) (k : Str) :
    (groupsOf d).at (.str k) = ((dictGet d k).getD Machines.empty).group := by
  induction d with
  | nil => rfl
  | cons e d ih =>
      rw [dictGet_cons]
      by_cases hk : k = e.1
      · subst hk
        simp [groupsOf, Groups.at, Json.keyEq]
      · rw [if_neg hk, ← ih]
        simp [groupsOf, Groups.at, Json.keyEq, Ne.symm hk]

/-- Setting a text as a key sets it in the dict of the texts. -/
theorem put_strKeys {α β : Type} (f : α → β) {d : Dict α}
    (hd : (d.map Prod.fst).Nodup) (k : Str) (a : α) :
    (if (d.map fun e => (Json.str (F := F) e.1, f e.2)).any fun e => e.1.keyEq (.str k) then
      (d.map fun e => (Json.str (F := F) e.1, f e.2)).map fun e =>
        if e.1.keyEq (.str k) then (e.1, f a) else e
    else (d.map fun e => (Json.str e.1, f e.2)) ++ [(.str k, f a)]) =
      (dictSet d k a).map fun e => (Json.str e.1, f e.2) := by
  have hany : (d.map fun e => (Json.str (F := F) e.1, f e.2)).any
      (fun e => e.1.keyEq (.str k)) = true ↔ k ∈ d.map Prod.fst := by
    simp [Json.keyEq]
  by_cases hk : k ∈ d.map Prod.fst
  · rw [if_pos (hany.mpr hk), dictSet_old hd a hk, List.map_map, List.map_map]
    refine List.map_congr_left fun e _ => ?_
    by_cases he : e.1 = k
    · simp [he, Json.keyEq]
    · simp [he, Json.keyEq]
  · rw [if_neg fun h => hk (hany.mp h), dictSet_new _ _ _ hk, List.map_append]
    rfl

theorem put_groupsOf {d : Dict (Machines F)} (hd : (d.map Prod.fst).Nodup) (k : Str)
    (m : Machines F) : (groupsOf d).put (.str k) m.group = groupsOf (dictSet d k m) :=
  put_strKeys Machines.group hd k m

/-- The check-in is counted: it has a licence, and is in the window. -/
def CheckIn.counts (cutoff : Option Int) (c : CheckIn F) : Bool :=
  c.licence ≠ [] && c.inWindow cutoff

theorem groupRecord_json {d : Dict (Machines F)} (hd : (d.map Prod.fst).Nodup)
    (cutoff : Option Int) (c : CheckIn F) :
    groupRecord cutoff (groupsOf d) c.json = .ok (groupsOf (if c.counts cutoff then
      groupOne CheckIn.licence Machines.add Machines.empty d c else d)) := by
  have hfield : Str.ofString "license_id" ∈ checkInFields := by decide
  simp only [CheckIn.json, groupRecord]
  by_cases hlicence : c.licence = []
  · rw [if_pos (by simpa using fun h => (c.truthy_iff hfield).mp h hlicence),
      if_neg (by simp [CheckIn.counts, hlicence])]
  rw [if_neg (by simpa using (c.truthy_iff hfield).mpr hlicence)]
  by_cases hbefore : beforeCutoff cutoff (claimOf c.row "ts") = true
  · rw [if_pos hbefore, if_neg (by simp [CheckIn.counts, CheckIn.inWindow, hbefore])]
  rw [if_neg hbefore, if_pos (by simp [CheckIn.counts, CheckIn.inWindow, hlicence, hbefore]),
    c.claim_of_text hfield hlicence]
  simp only [Json.hashError, at_groupsOf, checkIn_group, bind, Except.bind, pure, Except.pure]
  rw [put_groupsOf hd]
  rfl

/-- The machines of each licence with a check-in that counts. -/
def machinesOf (cutoff : Option Int) (cs : List (CheckIn F)) : Dict (Machines F) :=
  groupBy CheckIn.licence Machines.add Machines.empty (cs.filter (CheckIn.counts cutoff))

/-- The loop over the records, from any groups of typed check-ins. -/
theorem foldlM_groupRecord {d : Dict (Machines F)} (hd : (d.map Prod.fst).Nodup)
    (cutoff : Option Int) (cs : List (CheckIn F)) :
    (cs.map CheckIn.json).foldlM (groupRecord cutoff) (groupsOf d) =
      .ok (groupsOf ((cs.filter (CheckIn.counts cutoff)).foldl
        (groupOne CheckIn.licence Machines.add Machines.empty) d)) := by
  induction cs generalizing d with
  | nil => rfl
  | cons c cs ih =>
      rw [List.map_cons, List.foldlM_cons, groupRecord_json hd]
      by_cases hc : c.counts cutoff = true
      · rw [if_pos hc, List.filter_cons_of_pos hc, List.foldl_cons]
        exact ih (dictSet_keys_nodup _ _ hd)
      · rw [if_neg hc, List.filter_cons_of_neg hc]
        exact ih hd

/-- The loop groups the check-ins that count by licence. -/
theorem groups_json (cutoff : Option Int) (cs : List (CheckIn F)) :
    (cs.map CheckIn.json).foldlM (groupRecord cutoff) [] =
      .ok (groupsOf (machinesOf cutoff cs)) :=
  foldlM_groupRecord (d := []) List.nodup_nil cutoff cs

omit [FloatEq F] in
theorem ofKey_counts (cutoff : Option Int) (cs : List (CheckIn F)) {lid : Str} (hlid : lid ≠ []) :
    ofKey CheckIn.licence lid (cs.filter (CheckIn.counts cutoff)) = checkInsOf cutoff lid cs := by
  rw [ofKey, List.filter_filter, checkInsOf]
  refine List.filter_congr fun c _ => ?_
  by_cases hc : c.licence = lid
  · simp [CheckIn.counts, hc, hlid]
  · simp [hc]

omit [FloatEq F] in
theorem mem_machinesOf {cutoff : Option Int} {cs : List (CheckIn F)} {lid : Str}
    {m : Machines F} : (lid, m) ∈ machinesOf cutoff cs ↔
      lid ≠ [] ∧ checkInsOf cutoff lid cs ≠ [] ∧ m = machinesFrom (checkInsOf cutoff lid cs) := by
  rw [machinesOf, mem_groupBy]
  by_cases hlid : lid = []
  · have hnone : ofKey CheckIn.licence lid (cs.filter (CheckIn.counts cutoff)) = [] := by
      rw [ofKey, List.filter_filter, List.filter_eq_nil_iff]
      intro c _
      by_cases hc : c.licence = []
      · simp [CheckIn.counts, hc]
      · simp [hlid, hc]
    rw [hnone]
    simp [hlid]
  · rw [ofKey_counts cutoff cs hlid, and_iff_right hlid]
    rfl

/-! ### The rows -/

section

variable [Interpreter]

/-- What `_seat_allowance` returns of a tier that is a text. -/
def allowance (tier : Str) (seats : Json F) : Json F :=
  if seats.asInt.any (0 ≤ ·) then seats else .int (defaultSeats tier)

/-- The number of seats. -/
def allowed (tier : Str) (seats : Json F) : Int := (allowance tier seats).asInt.getD 0

theorem defaultSeats_nonneg (tier : Str) : 0 ≤ defaultSeats tier := by
  have htable : ∀ e ∈ DEFAULT_SEATS, 0 ≤ e.2 := by decide
  unfold defaultSeats
  split
  · rcases hget : dictGet DEFAULT_SEATS _ with _ | seats
    · exact Int.one_nonneg
    · exact htable _ (mem_of_dictGet hget)
  · exact Int.one_nonneg

omit [FloatEq F] in
theorem allowed_nonneg (tier : Str) (seats : Json F) : 0 ≤ allowed tier seats := by
  unfold allowed allowance
  split
  · rename_i hseats
    rcases hn : seats.asInt with _ | n
    · exact le_refl 0
    · rw [hn] at hseats
      exact of_decide_eq_true hseats
  · exact defaultSeats_nonneg tier

theorem seatAllowance_text (tier : Str) (seats : Json F) :
    seatAllowance (.str tier) seats = .ok (allowance tier seats) := by
  unfold seatAllowance allowance
  have hor : (Json.str (F := F) tier).or (.str "") = .str tier := by
    by_cases htier : tier = []
    · subst htier
      rfl
    · simp [Json.or, Json.truthy, htier]
  rw [hor]
  split
  · rfl
  · rfl

/-- The row of a licence. -/
def Machines.row (lid : Str) (m : Machines F) : SeatRow F where
  licenseId := .str lid
  tier := .str m.tier
  seatAllowance := allowance m.tier m.seats
  distinctMachines := m.fps.length
  distinctInstances := m.instances.length
  distinctIpPrefixes := m.ips.length
  severity := severity m.fps.length (allowed m.tier m.seats)
  action := SOFT_ACTION

theorem seatRow_group (lid : Str) (m : Machines F) :
    seatRow (.str lid, m.group) =
      .ok (if (m.row lid).severity = .ok then none else some (m.row lid)) := by
  simp only [seatRow, Machines.group, seatAllowance_text, List.length_map, bind, Except.bind,
    pure, Except.pure]
  change (if (m.row lid).severity = .ok then Except.ok none else Except.ok (some (m.row lid))) = _
  split
  · rfl
  · rfl

omit [FloatEq F] [Interpreter] in
theorem mapM_eq_ok {α β ε : Type} {f : α → Except ε β} {g : α → β} {xs : List α}
    (h : ∀ x ∈ xs, f x = .ok (g x)) : xs.mapM f = .ok (xs.map g) := by
  induction xs with
  | nil => rfl
  | cons x xs ih =>
      rw [List.forall_mem_cons] at h
      rw [List.mapM_cons, h.1, ih h.2]
      rfl

omit [FloatEq F] [Interpreter] in
theorem reduceOption_ite {α : Type} {p : α → Prop} [DecidablePred p] (xs : List α) :
    (xs.map fun x => if p x then none else some x).reduceOption =
      xs.filter fun x => ¬ p x := by
  induction xs with
  | nil => rfl
  | cons x xs ih =>
      rw [List.map_cons]
      by_cases hx : p x
      · rw [if_pos hx, List.reduceOption_cons_of_none, ih, List.filter_cons_of_neg (by simpa)]
      · rw [if_neg hx, List.reduceOption_cons_of_some, ih, List.filter_cons_of_pos (by simpa)]

/-- The rows that are not ok, sorted. -/
def seatReport (cutoff : Option Int) (cs : List (CheckIn F)) : List (SeatRow F) :=
  (((machinesOf cutoff cs).map fun e => e.2.row e.1).filter
    fun row => row.severity ≠ .ok).insertionSort SeatRow.before

theorem analyze_json (cs : List (CheckIn F)) (windowDays : Int) (now : Option Int) :
    analyze (cs.map CheckIn.json) windowDays now =
      .ok (seatReport (cutoffOf windowDays now) cs) := by
  have hrows : (groupsOf (machinesOf (cutoffOf windowDays now) cs)).mapM seatRow =
      .ok (((machinesOf (cutoffOf windowDays now) cs).map fun e => e.2.row e.1).map fun row =>
        if row.severity = .ok then none else some row) := by
    rw [groupsOf, List.mapM_map, mapM_eq_ok fun e _ => seatRow_group e.1 e.2, List.map_map]
    rfl
  rw [analyze, groups_json]
  simp only [bind, Except.bind, hrows, pure, Except.pure, reduceOption_ite]
  rfl

end

end

end NetplexSupport
