/-
Bad lines of the two ledgers: which lines change nothing wherever they stand, and
what the readers make of a file whose other lines are well formed.
-/
import NetplexSupport.Concurrency.SeatReport
import NetplexSupport.Json.RoundTrip

namespace NetplexSupport

open Py

section

variable {F : Type} [PyFloat F] [FloatEq F]

/-! ### Lines that are passed over -/

/-- The line is blank or no JSON, or an object without the id. -/
def PassedOver (F : Type) [PyFloat F] [FloatEq F] (field line : Str) : Prop :=
  ∀ j, loadLine (F := F) line = some j →
    ∃ row, j = .obj row ∧ (claimOf row field).truthy = false

omit [FloatEq F] in
/-- A turn of the downloads loop, by what the line holds. -/
theorem loadRow_eq [FloatEq F] (ledger : Ledger F) (line : Str) :
    loadRow ledger line =
      match loadLine line with
      | none => .ok ledger
      | some (.obj row) =>
          if (claimOf row "download_id").truthy then
            match (claimOf row "download_id").hashError with
            | some exc => .error exc
            | none => .ok (ledgerSet ledger (claimOf row "download_id") row)
          else .ok ledger
      | some j => .error ⟨.attributeError, "'" ++ j.typeName ++ "' object has no attribute 'get'"⟩
      := by
  unfold loadRow
  by_cases hblank : Str.strip line = []
  · have hline : loadLine (F := F) line = none := if_pos hblank
    exact hline.symm ▸ if_pos hblank
  · rcases hj : loads (F := F) (Str.strip line) with _ | j
    · have hline : loadLine line = none := (if_neg hblank).trans hj
      exact hline.symm ▸ if_neg hblank
    · have hline : loadLine line = some j := (if_neg hblank).trans hj
      cases j <;> exact hline.symm ▸ if_neg hblank

theorem loadRow_passedOver {line : Str} (h : PassedOver F "download_id" line)
    (ledger : Ledger F) : loadRow ledger line = .ok ledger := by
  rw [loadRow_eq]
  rcases hline : loadLine (F := F) line with _ | j
  · rfl
  · obtain ⟨row, rfl, hid⟩ := h j hline
    simp only [hid]
    rfl

theorem loadRows_passedOver {line : Str} (h : PassedOver F "download_id" line)
    (before after : List Str) (ledger : Ledger F) :
    loadRows ledger (before ++ line :: after) = loadRows ledger (before ++ after) := by
  induction before generalizing ledger with
  | nil => rw [List.nil_append, loadRows, loadRow_passedOver h, List.nil_append]
  | cons first before ih =>
      rw [List.cons_append, List.cons_append, loadRows, loadRows]
      rcases loadRow ledger first with exc | next
      · rfl
      · exact ih next

theorem groupRecord_passedOver {line : Str} (h : PassedOver F "license_id" line) {j : Json F}
    (hline : loadLine line = some j) (byLic : Groups F) :
    groupRecord none byLic j = .ok byLic := by
  obtain ⟨row, rfl, hid⟩ := h j hline
  simp only [groupRecord, hid]
  rfl

/-! ### Reports of lines -/

variable [Interpreter]

/-- `analyze(_load(path))` of the lines of a file. -/
def lineReport (F : Type) [PyFloat F] [FloatEq F] (lines : List Str) :
    Except Exc (List (SeatRow F)) :=
  analyze (lines.filterMap loadLine) 30 none

theorem lineReport_passedOver {line : Str} (h : PassedOver F "license_id" line)
    (before after : List Str) :
    lineReport F (before ++ line :: after) = lineReport F (before ++ after) := by
  unfold lineReport
  rw [List.filterMap_append, List.filterMap_append]
  rcases hline : loadLine (F := F) line with _ | j
  · rw [List.filterMap_cons_none hline]
  · rw [List.filterMap_cons_some hline, analyze, analyze, List.foldlM_append,
      List.foldlM_append]
    congr 2
    funext byLic
    have hskip : groupRecord (cutoffOf 30 none) byLic j = .ok byLic :=
      groupRecord_passedOver h hline byLic
    rw [List.foldlM_cons, hskip]
    rfl

/-! ### Lines that are not passed over -/

/-- The line of a row. -/
def lineOf (row : Members F) : Str := (Json.obj row).render fileOpts

omit [FloatEq F] [Interpreter] in
theorem loadLine_lineOf {row : Members F} (hkeyed : (Json.obj row).Keyed) :
    loadLine (lineOf row) = some (.obj row) := by
  have hlawful : fileOpts.Lawful := ⟨⟨[], rfl, by simp⟩, ⟨[], rfl, by simp⟩⟩
  have hloads := loads_render hlawful hkeyed (DumpOpts.readable_of_ensureAscii_false rfl _)
    (w := []) (by simp)
  rw [List.append_nil] at hloads
  have hsome : (Json.obj row).render fileOpts ≠ [] := by
    intro hnil
    rw [hnil] at hloads
    exact nomatch hloads
  rw [loadLine, lineOf, strip_render_obj, if_neg hsome]
  exact hloads

/-- A download that the ledger takes. -/
def anyDownload : Members F := [("download_id", .str "a")]

omit [Interpreter] in
theorem loadRows_anyDownload :
    loadRows (F := F) [] [lineOf (F := F) anyDownload] = [(.str "a", anyDownload)] := by
  have hkeyed : (Json.obj (anyDownload (F := F))).Keyed := by
    rw [Json.keyed_obj]
    simp only [anyDownload, List.forall_mem_cons]
    exact ⟨by simp, rfl, by simp⟩
  have hrow : loadRow (F := F) [] (lineOf (F := F) anyDownload) =
      .ok [(.str "a", anyDownload)] := by
    rw [loadRow_eq, loadLine_lineOf hkeyed]
    rfl
  rw [loadRows, hrow]
  rfl

omit [Interpreter] in
theorem loadRows_raised {line : Str} {exc : Exc} (h : loadRow (F := F) [] line = .error exc)
    (lines : List Str) : loadRows (F := F) [] (line :: lines) = [] := by
  rw [loadRows, h]

omit [Interpreter] in
/-- A line that changes no downloads ledger is passed over. -/
theorem passedOver_of_downloads {line : Str}
    (h : ∀ before after, loadRows (F := F) [] (before ++ line :: after) =
      loadRows [] (before ++ after)) : PassedOver F "download_id" line := by
  have hok : ∀ exc, loadRow (F := F) [] line ≠ .error exc := by
    intro exc hraised
    have hsame := h [] [lineOf (F := F) anyDownload]
    rw [List.nil_append, List.nil_append, loadRows_raised hraised, loadRows_anyDownload] at hsame
    cases hsame
  intro j hline
  rw [loadRow_eq, hline] at hok
  cases j with
  | obj row =>
      refine ⟨row, rfl, ?_⟩
      by_contra htruthy
      rw [Bool.not_eq_false] at htruthy
      simp only [htruthy] at hok
      rcases hhash : (claimOf row "download_id").hashError with _ | exc
      · have hrow : loadRow (F := F) [] line = .ok [(claimOf row "download_id", row)] := by
          rw [loadRow_eq, hline]
          simp only [htruthy, hhash]
          rfl
        have hsame := h [] []
        rw [List.nil_append, loadRows, hrow] at hsame
        cases hsame
      · exact hok exc (by simp only [hhash]; rfl)
  | null | bool | int | float | str | arr => exact absurd rfl (hok _)

/-! ### Lines that change a report -/

/-- A check-in of one seat. -/
def seatedRow (lid : Json F) (fp : Str) : Members F :=
  [("license_id", lid), ("fingerprint", .str fp), ("seats", .int 1)]

omit [PyFloat F] [Interpreter] in
/-- The group with that check-in. -/
def Group.seated (g : Group F) (fp : Str) : Group F where
  fps := if g.fps.any (·.keyEq (.str fp)) then g.fps else g.fps ++ [.str fp]
  instances := g.instances
  ips := g.ips
  tier := g.tier
  seats := match g.seats with
    | .null => .int 1
    | seats => seats

omit [PyFloat F] [Interpreter] in
theorem checkIn_seated (g : Group F) (lid : Json F) {fp : Str} (hfp : fp ≠ []) :
    g.checkIn (seatedRow lid fp) = .ok (g.seated fp) := by
  have hfinger : claimOf (seatedRow lid fp) "fingerprint" = .str fp := rfl
  have hinstance : claimOf (seatedRow lid fp) "instance_id" = .null := rfl
  have hip : claimOf (seatedRow lid fp) "ip_prefix" = .null := rfl
  have htier : claimOf (seatedRow lid fp) "tier" = .null := rfl
  have hseats : claimOf (seatedRow lid fp) "seats" = .int 1 := rfl
  have htruthy : (Json.str (F := F) fp).truthy = true := by simp [Json.truthy, hfp]
  simp only [Group.checkIn, addField, hfinger, hinstance, hip, htier, hseats, htruthy,
    Json.hashError, if_true, bind, Except.bind, pure, Except.pure]
  rfl

omit [PyFloat F] [Interpreter] in
theorem groupRecord_seated (byLic : Groups F) {lid : Json F} (htruthy : lid.truthy = true)
    (hhash : lid.hashError = none) {fp : Str} (hfp : fp ≠ []) :
    groupRecord none byLic (.obj (seatedRow lid fp)) =
      .ok (byLic.put lid ((byLic.at lid).seated fp)) := by
  have hlid : claimOf (seatedRow lid fp) "license_id" = lid := rfl
  simp only [groupRecord, hlid, htruthy, hhash, checkIn_seated _ lid hfp, bind, Except.bind, pure,
    Except.pure]
  rfl

/-- Two machines on one seat of each of two licences. -/
def twoLicences (lid : Json F) (other : Str) : List (Members F) :=
  [seatedRow (.str other) "1", seatedRow (.str other) "2", seatedRow lid "1", seatedRow lid "2"]

/-- The group of two of these. -/
def seatedTwice (g : Group F) : Group F := (g.seated "1").seated "2"

omit [PyFloat F] [Interpreter] in
/-- The licence can be a key, and is not the other one. -/
structure Rival (lid : Json F) (other : Str) : Prop where
  truthy : lid.truthy = true
  hashable : lid.hashError = none
  self : lid.keyEq lid = true
  some : other ≠ []
  apart : lid ≠ .str other

omit [PyFloat F] [Interpreter] in
theorem keyEq_str_left_iff {s : Str} {j : Json F} :
    (Json.str s).keyEq j = true ↔ j = .str s := by
  cases j <;> simp [Json.keyEq, Json.asInt, eq_comm]

section

variable {lid : Json F} {other : Str}

omit [PyFloat F] [Interpreter] in
/-- The loop over the four check-ins, by what it does to a dict. -/
theorem groups_twoLicences (h : Rival lid other) (byLic : Groups F) :
    ((twoLicences lid other).map Json.obj).foldlM (groupRecord none) byLic =
      .ok ([(Json.str other, Str.ofString "1"), (.str other, Str.ofString "2"),
        (lid, Str.ofString "1"), (lid, Str.ofString "2")].foldl
          (fun byLic e => byLic.put e.1 ((byLic.at e.1).seated e.2)) byLic) := by
  have hother : (Json.str (F := F) other).truthy = true := by simp [Json.truthy, h.some]
  have hone : Str.ofString "1" ≠ [] := by decide
  have htwo : Str.ofString "2" ≠ [] := by decide
  simp only [twoLicences, List.map_cons, List.map_nil, List.foldlM_cons, List.foldlM_nil,
    List.foldl_cons, List.foldl_nil]
  rw [groupRecord_seated _ hother rfl hone]
  dsimp only [bind, Except.bind]
  rw [groupRecord_seated _ hother rfl htwo]
  dsimp only
  rw [groupRecord_seated _ h.truthy h.hashable hone]
  dsimp only
  rw [groupRecord_seated _ h.truthy h.hashable htwo]
  rfl

omit [PyFloat F] [Interpreter] in
theorem groups_fresh (h : Rival lid other) :
    ((twoLicences lid other).map Json.obj).foldlM (groupRecord none) [] =
      .ok [(.str other, seatedTwice Group.empty), (lid, seatedTwice Group.empty)] := by
  have hol : (Json.str other).keyEq lid = false := by
    simpa using fun hsame => h.apart (keyEq_str_left_iff.mp hsame)
  have hoo : (Json.str (F := F) other).keyEq (.str other) = true := Json.keyEq_str_iff.mpr rfl
  rw [groups_twoLicences h]
  simp [Groups.at, Groups.put, hol, hoo, h.self, seatedTwice]

omit [PyFloat F] [Interpreter] in
theorem groups_behind (h : Rival lid other) (g : Group F) :
    ((twoLicences lid other).map Json.obj).foldlM (groupRecord none) [(lid, g)] =
      .ok [(lid, seatedTwice g), (.str other, seatedTwice Group.empty)] := by
  have hlo : lid.keyEq (.str other) = false := by
    simpa using fun hsame => h.apart (Json.keyEq_str_iff.mp hsame)
  have hol : (Json.str other).keyEq lid = false := by
    simpa using fun hsame => h.apart (keyEq_str_left_iff.mp hsame)
  have hoo : (Json.str (F := F) other).keyEq (.str other) = true := Json.keyEq_str_iff.mpr rfl
  rw [groups_twoLicences h]
  simp [Groups.at, Groups.put, hlo, hol, hoo, h.self, seatedTwice]

end

/-- The report of groups. -/
def groupsReport (byLic : Groups F) : Except Exc (List (SeatRow F)) := do
  pure ((← byLic.mapM seatRow).reduceOption.insertionSort SeatRow.before)

/-- The row of two machines on one seat. -/
def seatedReportRow (lid : Json F) : SeatRow F where
  licenseId := lid
  tier := .str ""
  seatAllowance := .int 1
  distinctMachines := 2
  distinctInstances := 0
  distinctIpPrefixes := 0
  severity := .notify
  action := SOFT_ACTION

omit [PyFloat F] in
theorem seatRow_seatedTwice (lid : Json F) :
    seatRow (lid, seatedTwice Group.empty) = .ok (some (seatedReportRow lid)) := by
  rfl

omit [PyFloat F] in
/-- With their groups in this order the other licence stands first. -/
theorem groupsReport_fresh (lid : Json F) (other : Str) :
    groupsReport [(.str other, seatedTwice Group.empty), (lid, seatedTwice Group.empty)] =
      .ok [seatedReportRow (.str other), seatedReportRow lid] := by
  rfl

omit [PyFloat F] [Interpreter] in
theorem mem_seated (g : Group F) (fp : Str) : .str fp ∈ (g.seated fp).fps := by
  rw [Group.seated]
  by_cases hany : g.fps.any (·.keyEq (.str fp)) = true
  · obtain ⟨x, hx, hsame⟩ := List.any_eq_true.mp hany
    obtain rfl := Json.keyEq_str_iff.mp hsame
    simpa only [if_pos hany] using hx
  · simp only [if_neg hany]
    exact List.mem_append_right _ (List.mem_singleton_self _)

omit [PyFloat F] [Interpreter] in
theorem seated_subset (g : Group F) (fp : Str) : g.fps ⊆ (g.seated fp).fps := by
  rw [Group.seated]
  by_cases hany : g.fps.any (·.keyEq (.str fp)) = true
  · simp only [if_pos hany]
    exact List.Subset.refl _
  · simp only [if_neg hany]
    exact List.subset_append_left _ _

omit [PyFloat F] [Interpreter] in
/-- The two machines are among those of the group. -/
theorem two_le_seatedTwice (g : Group F) : 2 ≤ (seatedTwice g).fps.length := by
  have hone : .str (Str.ofString "1") ∈ (seatedTwice g).fps :=
    seated_subset _ _ (mem_seated g "1")
  have htwo : .str (Str.ofString "2") ∈ (seatedTwice g).fps := mem_seated _ _
  have hapart : [Json.str (F := F) (Str.ofString "1"), .str (Str.ofString "2")].Nodup := by
    rw [List.nodup_cons, List.mem_singleton]
    exact ⟨fun h => absurd (Json.str.inj h) (by decide), List.nodup_singleton _⟩
  have hsubset : [Json.str (F := F) (Str.ofString "1"), .str (Str.ofString "2")] ⊆
      (seatedTwice g).fps := by
    rw [List.cons_subset, List.cons_subset]
    exact ⟨hone, htwo, List.nil_subset _⟩
  exact (hapart.subperm hsubset).length_le

omit [PyFloat F] in
theorem seatRow_eq_some {lid : Json F} {g : Group F} {row : SeatRow F}
    (h : seatRow (lid, g) = .ok (some row)) :
    row.licenseId = lid ∧ row.severity ≠ .ok ∧ row.distinctMachines = g.fps.length := by
  obtain ⟨seats, -, hrow⟩ := bind_eq_ok.mp h
  dsimp only at hrow
  by_cases hsev : severity g.fps.length (seats.asInt.getD 0) = .ok
  · rw [if_pos hsev] at hrow
    cases hrow
  · rw [if_neg hsev] at hrow
    obtain rfl := Option.some.inj (Except.ok.inj hrow)
    exact ⟨rfl, hsev, rfl⟩

omit [PyFloat F] in
/-- With the licence in front, it stays there or is in no row. -/
theorem groupsReport_behind {lid : Json F} {other : Str} (hapart : lid ≠ .str other)
    (g : Group F) :
    groupsReport [(lid, seatedTwice g), (.str other, seatedTwice Group.empty)] ≠
      .ok [seatedReportRow (.str other), seatedReportRow lid] := by
  have hreport : groupsReport [(lid, seatedTwice g), (.str other, seatedTwice Group.empty)] =
      (seatRow (lid, seatedTwice g)).map fun row =>
        [row, some (seatedReportRow (.str other))].reduceOption.insertionSort
          SeatRow.before := by
    rw [groupsReport, List.mapM_cons, List.mapM_cons, seatRow_seatedTwice]
    rcases seatRow (lid, seatedTwice g) with exc | row
    · rfl
    · rfl
  rw [hreport]
  rcases hrow : seatRow (lid, seatedTwice g) with exc | _ | row
  · nofun
  · intro hsame
    have hlength : 1 = 2 := congrArg List.length (Except.ok.inj hsame)
    omega
  · obtain ⟨hid, hsev, hmachines⟩ := seatRow_eq_some hrow
    have htwo := two_le_seatedTwice g
    have hbefore : row.before (seatedReportRow (.str other)) := by
      rw [SeatRow.before, seatedReportRow, hmachines]
      rcases hrank : row.severity with _ | _ | _ | _
      · exact absurd hrank hsev
      · exact Or.inr ⟨rfl, htwo⟩
      · exact Or.inl (show 1 < 2 by omega)
      · exact Or.inl (show 0 < 2 by omega)
    have hsorted : [some row, some (seatedReportRow (.str other))].reduceOption.insertionSort
        SeatRow.before = [row, seatedReportRow (.str other)] :=
      List.Pairwise.insertionSort_eq (by simpa using hbefore)
    intro hsame
    rw [Except.map, hsorted] at hsame
    have hfirst := (List.cons.inj (Except.ok.inj hsame)).1
    exact hapart (hid.symm.trans (congrArg SeatRow.licenseId hfirst))

omit [PyFloat F] [Interpreter] in
/-- Some text is another licence. -/
theorem exists_rival {lid : Json F} (htruthy : lid.truthy = true)
    (hhash : lid.hashError = none) (hself : lid.keyEq lid = true) :
    ∃ other, Rival lid other := by
  by_cases hlid : lid = .str "a"
  · refine ⟨"b", htruthy, hhash, hself, by decide, ?_⟩
    rw [hlid]
    intro hsame
    exact absurd (Json.str.inj hsame) (by decide)
  · exact ⟨"a", htruthy, hhash, hself, by decide, hlid⟩

omit [PyFloat F] [Interpreter] in
/-- What can be a dict key equals itself, where a float does. -/
theorem keyEq_self (hfloat : ∀ x : F, FloatEq.eq x x = true) {j : Json F}
    (hhash : j.hashError = none) : j.keyEq j = true := by
  cases j with
  | float x => exact hfloat x
  | arr xs => cases hhash
  | obj ms => cases hhash
  | null | bool | int | str => simp [Json.keyEq, Json.asInt]

omit [FloatEq F] [Interpreter] in
theorem loadLine_twoLicences {lid : Json F} (hhash : lid.hashError = none) (other : Str) :
    ((twoLicences lid other).map lineOf).filterMap loadLine =
      (twoLicences lid other).map Json.obj := by
  have hkeyed : ∀ j : Json F, j.hashError = none → ∀ fp,
      (Json.obj (seatedRow j fp)).Keyed := by
    intro j hj fp
    have hscalar : j.Keyed := by
      cases j with
      | arr xs => cases hj
      | obj ms => cases hj
      | null | bool | int | float | str => rfl
    rw [Json.keyed_obj]
    simp only [seatedRow, List.forall_mem_cons]
    exact ⟨by simp, hscalar, rfl, rfl, by simp⟩
  have hother : (Json.str (F := F) other).hashError = none := rfl
  simp only [twoLicences, List.map_cons, List.map_nil, List.filterMap_cons,
    loadLine_lineOf (hkeyed _ hother _), loadLine_lineOf (hkeyed _ hhash _), List.filterMap_nil]

omit [PyFloat F] [Interpreter] in
/-- The first check-in makes the only group. -/
theorem groupRecord_first {row : Members F}
    (htruthy : (claimOf row "license_id").truthy = true)
    (hhash : (claimOf row "license_id").hashError = none) :
    groupRecord none [] (.obj row) =
      (Group.empty.checkIn row >>= fun g => .ok [(claimOf row "license_id", g)]) := by
  simp only [groupRecord, htruthy, hhash]
  rfl

theorem lineReport_cons {line : Str} {j : Json F} (hline : loadLine line = some j)
    (lines : List Str) :
    lineReport F (line :: lines) = (groupRecord none [] j >>= fun byLic =>
      (lines.filterMap loadLine).foldlM (groupRecord none) byLic >>= groupsReport) := by
  rw [lineReport, List.filterMap_cons_some hline, analyze, List.foldlM_cons, bind_assoc]
  rfl

theorem lineReport_twoLicences {lid : Json F} {other : Str} (h : Rival lid other) :
    lineReport F ((twoLicences lid other).map lineOf) =
      .ok [seatedReportRow (.str other), seatedReportRow lid] := by
  have hgroups : ((twoLicences lid other).map Json.obj).foldlM
      (groupRecord (cutoffOf 30 none)) [] = _ := groups_fresh h
  rw [lineReport, loadLine_twoLicences h.hashable, analyze, hgroups]
  exact groupsReport_fresh lid other

/-- A line that changes no report is passed over. -/
theorem passedOver_of_reports (hfloat : ∀ x : F, FloatEq.eq x x = true) {line : Str}
    (h : ∀ before after, lineReport F (before ++ line :: after) =
      lineReport F (before ++ after)) : PassedOver F "license_id" line := by
  intro j hline
  have hempty : ∀ exc, groupRecord none [] j ≠ .error exc := by
    intro exc hraised
    have hsame := h [] []
    rw [List.nil_append, lineReport_cons hline, hraised] at hsame
    cases hsame
  cases j with
  | obj row =>
      refine ⟨row, rfl, ?_⟩
      by_contra htruthy
      rw [Bool.not_eq_false] at htruthy
      have hhash : (claimOf row "license_id").hashError = none := by
        rcases hhash : (claimOf row "license_id").hashError with _ | exc
        · rfl
        · refine absurd ?_ (hempty exc)
          simp only [groupRecord, htruthy, hhash]
          rfl
      -- In front of two check-ins each of another licence and of its own, the line
      -- puts its licence first.
      obtain ⟨other, hrival⟩ := exists_rival htruthy hhash (keyEq_self hfloat hhash)
      have hsame := h [] ((twoLicences (claimOf row "license_id") other).map lineOf)
      rw [List.nil_append, List.nil_append, lineReport_twoLicences hrival,
        lineReport_cons hline, loadLine_twoLicences hhash] at hsame
      obtain ⟨byLic, hfirst, hsame⟩ := bind_eq_ok.mp hsame
      rw [groupRecord_first htruthy hhash] at hfirst
      obtain ⟨g, -, hfirst⟩ := bind_eq_ok.mp hfirst
      obtain rfl := Except.ok.inj hfirst
      rw [groups_behind hrival] at hsame
      exact groupsReport_behind hrival.apart g hsame
  | null | bool | int | float | str | arr => exact absurd rfl (hempty _)

/-! ### Files of well-formed lines -/

/-- The line is an object whose fields are texts, where they are there. -/
def WellFormedLine (F : Type) [PyFloat F] (fields : List Str) (line : Str) : Prop :=
  ∃ row : Members F, loadLine line = some (.obj row) ∧
    ∀ field ∈ fields, isText (claimOf row field) = true

/-- The row of a line with a download id. -/
def downloadOf (F : Type) [PyFloat F] (line : Str) : Option (Str × Members F) :=
  match loadLine line with
  | some (.obj row) =>
      if textOf row "download_id" = [] then none else some (textOf row "download_id", row)
  | _ => none

/-- The rows of the lines by download id, the last one for each. -/
def downloadsOf (F : Type) [PyFloat F] (lines : List Str) : Ledger F :=
  (dictOf (lines.filterMap (downloadOf F))).map fun e => (.str e.1, e.2)

omit [PyFloat F] [Interpreter] in
theorem textOf_of_falsy {row : Members F} {field : Str}
    (h : (claimOf row field).truthy = false) : textOf row field = [] := by
  unfold textOf
  cases hclaim : claimOf row field with
  | str s =>
      rw [hclaim, Json.truthy, decide_eq_false_iff_not, not_not] at h
      exact h
  | null | bool | int | float | arr | obj => rfl

omit [Interpreter] in
/-- One line of a ledger without bad lines. -/
theorem loadRow_strs {line : Str} (h : WellFormedLine F ["download_id"] line ∨
      PassedOver F "download_id" line) {d : Dict (Members F)} (hd : (d.map Prod.fst).Nodup) :
    loadRow (d.map fun e => (.str e.1, e.2)) line =
      .ok (((downloadOf F line).toList.foldl (fun d m => dictSet d m.1 m.2) d).map
        fun e => (.str e.1, e.2)) := by
  rw [loadRow_eq, downloadOf]
  rcases hline : loadLine (F := F) line with _ | j
  · rfl
  · obtain ⟨row, rfl, hid⟩ : ∃ row, j = .obj row ∧
        ((claimOf row "download_id").truthy = false ∨
          claimOf row "download_id" = .str (textOf row "download_id")) := by
      rcases h with ⟨row, hrow, htext⟩ | hover
      · rw [hline] at hrow
        refine ⟨row, Option.some.inj hrow, ?_⟩
        rcases claimOf_of_isText (htext _ (List.mem_singleton_self _)) with ⟨hnull, -⟩ | htext
        · rw [hnull]
          exact Or.inl rfl
        · exact Or.inr htext
      · obtain ⟨row, rfl, hfalsy⟩ := hover j hline
        exact ⟨row, rfl, Or.inl hfalsy⟩
    by_cases hempty : textOf row "download_id" = []
    · have hfalsy : (claimOf row "download_id").truthy = false := by
        rcases hid with hfalsy | htext
        · exact hfalsy
        · rw [htext, hempty]
          rfl
      simp only [hfalsy, if_pos hempty]
      rfl
    · rcases hid with hfalsy | htext
      · exact absurd (textOf_of_falsy hfalsy) hempty
      · have htruthy : (Json.str (F := F) (textOf row "download_id")).truthy = true := by
          simp [Json.truthy, hempty]
        simp only [htext, if_pos htruthy, if_neg hempty]
        exact congrArg Except.ok (put_strKeys id hd _ row)

omit [Interpreter] in
/-- A ledger without bad lines, from any rows. -/
theorem loadRows_strs {lines : List Str} (h : ∀ line ∈ lines,
      WellFormedLine F ["download_id"] line ∨ PassedOver F "download_id" line)
    {d : Dict (Members F)} (hd : (d.map Prod.fst).Nodup) :
    loadRows (d.map fun e => (.str e.1, e.2)) lines =
      ((lines.filterMap (downloadOf F)).foldl (fun d m => dictSet d m.1 m.2) d).map
        fun e => (.str e.1, e.2) := by
  induction lines generalizing d with
  | nil => rfl
  | cons line lines ih =>
      rw [List.forall_mem_cons] at h
      rw [loadRows, loadRow_strs h.1 hd]
      rcases hline : downloadOf F line with _ | m
      · rw [List.filterMap_cons_none hline]
        exact ih h.2 hd
      · rw [List.filterMap_cons_some hline]
        exact ih h.2 (dictSet_keys_nodup _ _ hd)

omit [Interpreter] in
theorem loadLedger_wellFormed {text : Str} (h : ∀ line ∈ fileLines text,
      WellFormedLine F ["download_id"] line ∨ PassedOver F "download_id" line) :
    loadLedger F (some text) = downloadsOf F (fileLines text) :=
  loadRows_strs (d := []) h List.nodup_nil

/-- The check-in of a line whose ids and tier are texts. -/
def checkInOf (F : Type) [PyFloat F] (line : Str) : Option (CheckIn F) :=
  match loadLine line with
  | some (.obj row) =>
      if h : ∀ field ∈ checkInFields, isText (claimOf row field) = true then some ⟨row, h⟩
      else none
  | _ => none

omit [Interpreter] in
/-- A line that is not bad is its check-in, or a record that is passed over. -/
theorem checkInOf_cases {line : Str} (h : WellFormedLine F checkInFields line ∨
      PassedOver F "license_id" line) :
    loadLine line = (checkInOf F line).map CheckIn.json ∨ checkInOf F line = none ∧
      ∃ j : Json F, loadLine line = some j ∧ ∀ byLic, groupRecord none byLic j = .ok byLic := by
  by_cases hwell : WellFormedLine F checkInFields line
  · obtain ⟨row, hrow, htexts⟩ := hwell
    left
    simp only [checkInOf, hrow, dif_pos htexts, Option.map_some]
    rfl
  · have hover := h.resolve_left hwell
    have hnone : checkInOf F line = none := by
      unfold checkInOf
      rcases hline : loadLine (F := F) line with _ | j
      · rfl
      · obtain ⟨row, rfl, -⟩ := hover j hline
        exact dif_neg fun htexts => hwell ⟨row, hline, htexts⟩
    rcases hline : loadLine (F := F) line with _ | j
    · rw [hnone]
      exact Or.inl rfl
    · exact Or.inr ⟨hnone, j, rfl, groupRecord_passedOver hover hline⟩

omit [Interpreter] in
theorem groupRecords_lines {lines : List Str} (h : ∀ line ∈ lines,
      WellFormedLine F checkInFields line ∨ PassedOver F "license_id" line)
    (byLic : Groups F) :
    (lines.filterMap loadLine).foldlM (groupRecord none) byLic =
      ((lines.filterMap (checkInOf F)).map CheckIn.json).foldlM (groupRecord none) byLic := by
  induction lines generalizing byLic with
  | nil => rfl
  | cons line lines ih =>
      rw [List.forall_mem_cons] at h
      rcases checkInOf_cases h.1 with hline | ⟨hnone, j, hline, hskip⟩
      · rcases hcheck : checkInOf F line with _ | c
        · rw [hcheck] at hline
          rw [List.filterMap_cons_none hline, List.filterMap_cons_none hcheck]
          exact ih h.2 byLic
        · rw [hcheck] at hline
          rw [List.filterMap_cons_some hline, List.filterMap_cons_some hcheck, List.map_cons,
            List.foldlM_cons, List.foldlM_cons]
          exact congrArg _ (funext fun byLic => ih h.2 byLic)
      · rw [List.filterMap_cons_some hline, List.filterMap_cons_none hnone, List.foldlM_cons,
          hskip]
        exact ih h.2 byLic

theorem analyze_wellFormed {text : Str} (h : ∀ line ∈ fileLines text,
      WellFormedLine F checkInFields line ∨ PassedOver F "license_id" line) :
    analyze (loadRecords (F := F) text) 30 none =
      .ok (seatReport none ((fileLines text).filterMap (checkInOf F))) := by
  have hgroups : (loadRecords (F := F) text).foldlM (groupRecord (cutoffOf 30 none)) [] = _ :=
    groupRecords_lines h []
  have hjson := analyze_json ((fileLines text).filterMap (checkInOf F)) 30 none
  rw [analyze] at hjson ⊢
  rw [hgroups]
  exact hjson

/-- A line changes nothing, wherever it stands, exactly when it is passed over;
and without other bad lines both readers return what the well-formed ones give. -/
theorem bad_lines_iff (hfloat : ∀ x : F, FloatEq.eq x x = true) :
    (∀ line, (∀ before after, loadRows (F := F) [] (before ++ line :: after) =
        loadRows [] (before ++ after)) ↔ PassedOver F "download_id" line) ∧
      (∀ line, (∀ before after, lineReport F (before ++ line :: after) =
        lineReport F (before ++ after)) ↔ PassedOver F "license_id" line) ∧
      (∀ text, (∀ line ∈ fileLines text, WellFormedLine F ["download_id"] line ∨
          PassedOver F "download_id" line) →
        loadLedger F (some text) = downloadsOf F (fileLines text)) ∧
      ∀ text, (∀ line ∈ fileLines text, WellFormedLine F checkInFields line ∨
          PassedOver F "license_id" line) →
        ∃ rows, analyze (loadRecords (F := F) text) 30 none = .ok rows ∧
          analyze (((fileLines text).filterMap (checkInOf F)).map CheckIn.json) 30 none =
            .ok rows := by
  refine ⟨fun line => ⟨passedOver_of_downloads, ?_⟩, fun line => ⟨?_, ?_⟩, ?_, ?_⟩
  · intro h before after
    exact loadRows_passedOver h before after []
  · exact passedOver_of_reports hfloat
  · exact lineReport_passedOver
  · exact fun text => loadLedger_wellFormed
  · exact fun text h => ⟨_, analyze_wellFormed h, analyze_json _ 30 none⟩

end

section

attribute [local instance] FloatView.asFloat Interpreter.ascii

/-- Floats as dict keys: the one NaN that `json` reads is found again. -/
@[reducible] def FloatView.asKeys : FloatEq FloatView where
  eqInt _ _ := false
  eq x y := x.jsonText = y.jsonText

attribute [local instance] FloatView.asKeys

/-- A download. -/
def downloadLine : Str := "\x7b\"download_id\":\"a\"\x7d"

/-- A line that is no JSON changes neither reader. -/
theorem bad_lines_text :
    loadRows (F := FloatView) [] [Str.ofString "x", downloadLine] =
        loadRows [] [downloadLine] ∧
      lineReport FloatView [Str.ofString "x", downloadLine] =
        lineReport FloatView [downloadLine] := by
  have hnone : (loadLine (F := FloatView) (Str.ofString "x")).isNone = true := by decide +kernel
  have hover : ∀ field, PassedOver FloatView field "x" := by
    intro field j hline
    rw [hline] at hnone
    cases hnone
  obtain ⟨hdownloads, hreports, -⟩ := bad_lines_iff (F := FloatView) fun x => decide_eq_true rfl
  exact ⟨(hdownloads _).mpr (hover _) [] [downloadLine],
    (hreports _).mpr (hover _) [] [downloadLine]⟩

/-- A number in front of a download. -/
def numberFirst : Str := "5\n" ++ downloadLine

/-- The number costs the ledger the download, and the report everything. -/
theorem bad_lines_number :
    loadLedger FloatView (some numberFirst) ≠ downloadsOf FloatView (fileLines numberFirst) ∧
      ∀ rows, analyze (loadRecords (F := FloatView) numberFirst) 30 none ≠ .ok rows := by
  have hledger : (loadLedger FloatView (some numberFirst)).length = 0 ∧
      (downloadsOf FloatView (fileLines numberFirst)).length = 1 := by decide +kernel
  have hreport : (analyze (loadRecords (F := FloatView) numberFirst) 30 none).isOk = false := by
    decide +kernel
  constructor
  · intro hsame
    rw [hsame, hledger.2] at hledger
    cases hledger.1
  · intro rows hrows
    rw [hrows] at hreport
    cases hreport

end

end NetplexSupport
