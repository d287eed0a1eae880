/-
What the seat report says of check-ins that agree on their tier and seats.
-/
import NetplexSupport.Concurrency.CheckIns
import Mathlib.Data.List.Sort

namespace NetplexSupport

open Py

/-! ### The ladder -/

/-- How bad a severity is. -/
def Severity.rank : Severity → Nat
  | .ok => 0
  | .notify => 1
  | .review => 2
  | .escalate => 3

theorem Severity.rank_eq_zero {sev : Severity} : sev.rank = 0 ↔ sev = .ok := by
  cases sev <;> simp [Severity.rank]

/-- More machines are never better, more seats never worse, and one machine or
one seat moves by one band at most. -/
structure Ladder : Prop where
  machines : ∀ d d' s : Int, d ≤ d' → (severity d s).rank ≤ (severity d' s).rank
  seats : ∀ d s s' : Int, 1 ≤ s → s ≤ s' → (severity d s').rank ≤ (severity d s).rank
  nextMachine : ∀ d s : Int, 1 ≤ s → (severity (d + 1) s).rank ≤ (severity d s).rank + 1
  nextSeat : ∀ d s : Int, 1 ≤ s → (severity d s).rank ≤ (severity d (s + 1)).rank + 1

theorem ladder : Ladder where
  machines d d' s hd := by
    unfold severity
    split_ifs <;> simp only [Severity.rank] <;> omega
  seats d s s' hs hle := by
    unfold severity
    split_ifs <;> simp only [Severity.rank] <;> omega
  nextMachine d s hs := by
    unfold severity
    split_ifs <;> simp only [Severity.rank] <;> omega
  nextSeat d s hs := by
    unfold severity
    split_ifs <;> simp only [Severity.rank] <;> omega

theorem severity_eq_ok_iff {d s : Int} : severity d s = .ok ↔ s = 0 ∨ d ≤ s := by
  unfold severity
  by_cases hzero : s = 0
  · simp [hzero]
  by_cases hfew : d ≤ s
  · simp [hfew]
  rw [if_neg hzero, if_neg hfew]
  refine iff_of_false ?_ (by simp [hzero, hfew])
  split
  · nofun
  · split
    · nofun
    · nofun

section

variable {F : Type}

/-! ### Check-ins that agree -/

/-- In the window, the check-ins of a licence have one tier and one number of
seats. -/
def Agreeing (cutoff : Option Int) (cs : List (CheckIn F)) : Prop :=
  ∀ lid ≠ [], ∀ c ∈ checkInsOf cutoff lid cs, ∀ c' ∈ checkInsOf cutoff lid cs,
    c.tier = c'.tier ∧ c.seats = c'.seats

/-- The distinct texts of a field that are there. -/
def distinctTexts (field : Str) (cs : List (CheckIn F)) : Finset Str :=
  (filled field cs).toFinset

theorem mem_filled {field s : Str} {cs : List (CheckIn F)} :
    s ∈ filled field cs ↔ s ≠ [] ∧ ∃ c ∈ cs, textOf c.row field = s := by
  rw [filled, List.mem_filter, List.mem_map, decide_eq_true_eq, and_comm]

theorem distinctTexts_mono {field : Str} {cs cs' : List (CheckIn F)} (h : cs ⊆ cs') :
    distinctTexts field cs ⊆ distinctTexts field cs' := by
  intro s hs
  rw [distinctTexts, List.mem_toFinset, mem_filled] at hs ⊢
  obtain ⟨hne, c, hc, htext⟩ := hs
  exact ⟨hne, c, h hc, htext⟩

theorem checkInsOf_mono {cutoff : Option Int} {lid : Str} {cs cs' : List (CheckIn F)}
    (h : cs ⊆ cs') : checkInsOf cutoff lid cs ⊆ checkInsOf cutoff lid cs' :=
  fun _ hc => List.mem_filter.mpr ⟨h (List.mem_filter.mp hc).1, (List.mem_filter.mp hc).2⟩

/-- A tier that all check-ins have is the tier of the group. -/
theorem machinesFrom_tier_of_agree {cs : List (CheckIn F)} {c : CheckIn F} (hc : c ∈ cs)
    (h : ∀ c' ∈ cs, c'.tier = c.tier) : (machinesFrom cs).tier = c.tier := by
  rw [machinesFrom_tier]
  by_cases htier : c.tier = []
  · have hnone : filled "tier" cs = [] := by
      rw [List.eq_nil_iff_forall_not_mem]
      intro s hs
      obtain ⟨hne, c', hc', htext⟩ := mem_filled.mp hs
      exact hne (htext ▸ (h c' hc').trans htier)
    rw [hnone, htier]
    rfl
  · have hmem : c.tier ∈ filled "tier" cs := mem_filled.mpr ⟨htier, c, hc, rfl⟩
    rw [List.getLastD_eq_getLast?, List.getLast?_eq_some_getLast (List.ne_nil_of_mem hmem),
      Option.getD_some]
    obtain ⟨-, c', hc', htext⟩ := mem_filled.mp (List.getLast_mem (List.ne_nil_of_mem hmem))
    exact htext ▸ h c' hc'

theorem machinesFrom_seats_of_agree {cs : List (CheckIn F)} {c : CheckIn F} (hc : c ∈ cs)
    (h : ∀ c' ∈ cs, c'.seats = c.seats) : (machinesFrom cs).seats = c.seats := by
  rw [machinesFrom_seats]
  rcases hfirst : (cs.map CheckIn.seats).find? carried with _ | first
  · have hnone := List.find?_eq_none.mp hfirst c.seats (List.mem_map_of_mem hc)
    cases hseats : c.seats with
    | null => rfl
    | bool | int | float | str | arr | obj => simp [hseats, carried] at hnone
  · obtain ⟨c', hc', rfl⟩ := List.mem_map.mp (List.mem_of_find?_eq_some hfirst)
    exact h c' hc'

variable [FloatEq F] [Interpreter]

/-- The row of a licence whose check-ins all have the tier and seats of `c`. -/
def agreedRow (lid : Str) (c : CheckIn F) (cs : List (CheckIn F)) : SeatRow F where
  licenseId := .str lid
  tier := .str c.tier
  seatAllowance := allowance c.tier c.seats
  distinctMachines := (distinctTexts "fingerprint" cs).card
  distinctInstances := (distinctTexts "instance_id" cs).card
  distinctIpPrefixes := (distinctTexts "ip_prefix" cs).card
  severity := severity (distinctTexts "fingerprint" cs).card (allowed c.tier c.seats)
  action := SOFT_ACTION

omit [FloatEq F] in
theorem row_machinesFrom {lid : Str} {cs : List (CheckIn F)} {c : CheckIn F} (hc : c ∈ cs)
    (h : ∀ c' ∈ cs, c'.tier = c.tier ∧ c'.seats = c.seats) :
    (machinesFrom cs).row lid = agreedRow lid c cs := by
  obtain ⟨hfps, hinstances, hips⟩ := machinesFrom_sets cs
  rw [Machines.row, agreedRow, machinesFrom_tier_of_agree hc fun c' hc' => (h c' hc').1,
    machinesFrom_seats_of_agree hc fun c' hc' => (h c' hc').2, hfps, hinstances, hips,
    length_setOf, length_setOf, length_setOf]
  rfl

/-! ### The report -/

omit [FloatEq F] in
theorem mem_seatReport {cutoff : Option Int} {cs : List (CheckIn F)} {row : SeatRow F} :
    row ∈ seatReport cutoff cs ↔ row.severity ≠ .ok ∧ ∃ lid ≠ [],
      checkInsOf cutoff lid cs ≠ [] ∧ row = (machinesFrom (checkInsOf cutoff lid cs)).row lid := by
  rw [seatReport, List.mem_insertionSort, List.mem_filter, decide_eq_true_eq, and_comm]
  apply and_congr_right
  intro _
  constructor
  · intro hmem
    obtain ⟨⟨lid, m⟩, he, rfl⟩ := List.mem_map.mp hmem
    obtain ⟨hlid, hsome, rfl⟩ := mem_machinesOf.mp he
    exact ⟨lid, hlid, hsome, rfl⟩
  · rintro ⟨lid, hlid, hsome, rfl⟩
    exact List.mem_map.mpr ⟨(lid, _), mem_machinesOf.mpr ⟨hlid, hsome, rfl⟩, rfl⟩

omit [FloatEq F] in
/-- No licence has two rows. -/
theorem seatReport_nodup (cutoff : Option Int) (cs : List (CheckIn F)) :
    ((seatReport cutoff cs).map SeatRow.licenseId).Nodup := by
  have hkeys : (((machinesOf cutoff cs).map fun e => e.2.row e.1).map
      SeatRow.licenseId).Nodup := by
    rw [List.map_map]
    have hids : (SeatRow.licenseId ∘ fun e : Str × Machines F => e.2.row e.1) =
        Json.str ∘ Prod.fst := rfl
    rw [hids, ← List.map_map]
    exact (groupBy_keys_nodup _ _ _ _).map fun _ _ h => Json.str.inj h
  rw [seatReport, ((List.perm_insertionSort _ _).map _).nodup_iff]
  exact hkeys.sublist (List.filter_sublist.map _)

instance : IsTrans (SeatRow F) SeatRow.before where
  trans a b c hab hbc := by
    unfold SeatRow.before at *
    omega

instance : Std.Total (SeatRow.before (F := F)) where
  total a b := by
    unfold SeatRow.before
    omega

omit [FloatEq F] in
theorem seatReport_sorted (cutoff : Option Int) (cs : List (CheckIn F)) :
    (seatReport cutoff cs).Pairwise SeatRow.before := List.pairwise_insertionSort _ _

omit [FloatEq F] in
/-- The rows are those of the licences that are not ok. -/
theorem mem_seatReport_agreeing {cutoff : Option Int} {cs : List (CheckIn F)}
    (hagree : Agreeing cutoff cs) {row : SeatRow F} :
    row ∈ seatReport cutoff cs ↔ row.severity ≠ .ok ∧ ∃ lid ≠ [],
      ∃ c ∈ checkInsOf cutoff lid cs, row = agreedRow lid c (checkInsOf cutoff lid cs) := by
  rw [mem_seatReport]
  apply and_congr_right
  intro _
  apply exists_congr
  intro lid
  apply and_congr_right
  intro hlid
  constructor
  · rintro ⟨hsome, rfl⟩
    obtain ⟨c, hc⟩ := List.exists_mem_of_ne_nil _ hsome
    exact ⟨c, hc, row_machinesFrom hc fun c' hc' => hagree lid hlid c' hc' c hc⟩
  · rintro ⟨c, hc, rfl⟩
    exact ⟨List.ne_nil_of_mem hc,
      (row_machinesFrom hc fun c' hc' => hagree lid hlid c' hc' c hc).symm⟩

/-- A report without repetitions, sorted, whose rows are those of the licences
with a number of seats and more machines than that. -/
structure ExactReport (cutoff : Option Int) (cs : List (CheckIn F)) (rows : List (SeatRow F)) :
    Prop where
  once : (rows.map SeatRow.licenseId).Nodup
  sorted : rows.Pairwise SeatRow.before
  listed : ∀ lid ≠ [], (∃ row ∈ rows, row.licenseId = .str lid) ↔
    ∃ c ∈ checkInsOf cutoff lid cs, allowed c.tier c.seats ≠ 0 ∧ allowed c.tier c.seats <
      (distinctTexts "fingerprint" (checkInsOf cutoff lid cs)).card
  rows : ∀ row ∈ rows, ∃ lid ≠ [], ∃ c ∈ checkInsOf cutoff lid cs,
    row = agreedRow lid c (checkInsOf cutoff lid cs)

omit [FloatEq F] in
theorem exactReport_seatReport {cutoff : Option Int} {cs : List (CheckIn F)}
    (hagree : Agreeing cutoff cs) : ExactReport cutoff cs (seatReport cutoff cs) where
  once := seatReport_nodup cutoff cs
  sorted := seatReport_sorted cutoff cs
  listed lid hlid := by
    have hflagged : ∀ c, (agreedRow lid c (checkInsOf cutoff lid cs)).severity ≠ .ok ↔
        allowed c.tier c.seats ≠ 0 ∧ allowed c.tier c.seats <
          (distinctTexts "fingerprint" (checkInsOf cutoff lid cs)).card := by
      intro c
      rw [agreedRow, ne_eq, severity_eq_ok_iff, not_or, not_le]
    constructor
    · rintro ⟨row, hrow, hid⟩
      obtain ⟨hsev, lid', -, c, hc, rfl⟩ := (mem_seatReport_agreeing hagree).mp hrow
      obtain rfl : lid' = lid := Json.str.inj hid
      exact ⟨c, hc, (hflagged c).mp hsev⟩
    · rintro ⟨c, hc, hmore⟩
      exact ⟨_, (mem_seatReport_agreeing hagree).mpr
        ⟨(hflagged c).mpr hmore, lid, hlid, c, hc, rfl⟩, rfl⟩
  rows row hrow := ((mem_seatReport_agreeing hagree).mp hrow).2

omit [FloatEq F] in
/-- More check-ins that agree keep a licence in the report, with a severity that
is no lower. -/
theorem seatReport_grows {cutoff : Option Int} {cs more : List (CheckIn F)}
    (hagree : Agreeing cutoff more) (hmore : cs ⊆ more) {row : SeatRow F}
    (hrow : row ∈ seatReport cutoff cs) :
    ∃ row' ∈ seatReport cutoff more, row'.licenseId = row.licenseId ∧
      row.severity.rank ≤ row'.severity.rank := by
  have hold : Agreeing cutoff cs := fun lid hlid c hc c' hc' =>
    hagree lid hlid c (checkInsOf_mono hmore hc) c' (checkInsOf_mono hmore hc')
  obtain ⟨hsev, lid, hlid, c, hc, rfl⟩ := (mem_seatReport_agreeing hold).mp hrow
  have hcard : (distinctTexts "fingerprint" (checkInsOf cutoff lid cs)).card ≤
      (distinctTexts "fingerprint" (checkInsOf cutoff lid more)).card :=
    Finset.card_le_card (distinctTexts_mono (checkInsOf_mono hmore))
  have hrank := ladder.machines _ _ (allowed c.tier c.seats) (Int.ofNat_le.mpr hcard)
  have hc' := checkInsOf_mono hmore hc
  refine ⟨agreedRow lid c (checkInsOf cutoff lid more), (mem_seatReport_agreeing hagree).mpr
    ⟨?_, lid, hlid, c, hc', rfl⟩, rfl, hrank⟩
  intro hok
  have hzero : (agreedRow lid c (checkInsOf cutoff lid cs)).severity.rank ≤
      (agreedRow lid c (checkInsOf cutoff lid more)).severity.rank := hrank
  rw [hok] at hzero
  exact hsev (Severity.rank_eq_zero.mp (Nat.le_zero.mp hzero))

theorem seat_report_exact (windowDays : Int) (now : Option Int) (cs : List (CheckIn F))
    (hagree : Agreeing (cutoffOf windowDays now) cs) :
    ∃ rows, analyze (cs.map CheckIn.json) windowDays now = .ok rows ∧
      ExactReport (cutoffOf windowDays now) cs rows ∧ Ladder ∧
      ∀ more, Agreeing (cutoffOf windowDays now) more → cs ⊆ more →
        ∃ rows', analyze (more.map CheckIn.json) windowDays now = .ok rows' ∧
          ∀ row ∈ rows, ∃ row' ∈ rows', row'.licenseId = row.licenseId ∧
            row.severity.rank ≤ row'.severity.rank := by
  refine ⟨_, analyze_json cs windowDays now, exactReport_seatReport hagree, ladder, ?_⟩
  intro more hmore hsub
  exact ⟨_, analyze_json more windowDays now, fun row hrow => seatReport_grows hmore hsub hrow⟩

end

section

attribute [local instance] FloatView.asFloatEq Interpreter.ascii

/-- A check-in of the licence `lic-1` and its number of seats. -/
def seatsCheckIn (seats : Nat) (fingerprint : Str) : CheckIn FloatView where
  row := [("license_id", .str "lic-1"), ("fingerprint", .str fingerprint), ("seats", .int seats)]
  typed := by
    simp only [checkInFields, List.forall_mem_cons]
    exact ⟨rfl, rfl, rfl, rfl, rfl, nofun⟩

/-- Two machines on one seat. -/
def twoMachines : List (CheckIn FloatView) := [seatsCheckIn 1 "a", seatsCheckIn 1 "b"]

/-- A third one is met. -/
def threeMachines : List (CheckIn FloatView) := twoMachines ++ [seatsCheckIn 1 "c"]

theorem agreeing_threeMachines (cutoff : Option Int) : Agreeing cutoff threeMachines := by
  have hsame : ∀ lid, ∀ c ∈ checkInsOf cutoff lid threeMachines,
      c.tier = [] ∧ c.seats = .int 1 := by
    intro lid c hc
    have hc := (List.mem_filter.mp hc).1
    simp only [threeMachines, twoMachines, List.cons_append, List.nil_append, List.mem_cons,
      List.not_mem_nil, or_false] at hc
    rcases hc with rfl | rfl | rfl
    · exact ⟨rfl, rfl⟩
    · exact ⟨rfl, rfl⟩
    · exact ⟨rfl, rfl⟩
  intro lid _ c hc c' hc'
  exact ⟨(hsame lid c hc).1.trans (hsame lid c' hc').1.symm,
    (hsame lid c hc).2.trans (hsame lid c' hc').2.symm⟩

/-- Two of them are in the report, and the third does not take the licence out. -/
theorem seat_report_exact_two :
    ∃ rows rows', analyze (twoMachines.map CheckIn.json) 30 none = .ok rows ∧
      ExactReport none twoMachines rows ∧
      analyze (threeMachines.map CheckIn.json) 30 none = .ok rows' ∧
      ∀ row ∈ rows, ∃ row' ∈ rows', row'.licenseId = row.licenseId ∧
        row.severity.rank ≤ row'.severity.rank := by
  have hsub : twoMachines ⊆ threeMachines := List.subset_append_left _ _
  have hmore := agreeing_threeMachines (cutoffOf 30 none)
  have hagree : Agreeing (cutoffOf 30 none) twoMachines := fun lid hlid c hc c' hc' =>
    hmore lid hlid c (checkInsOf_mono hsub hc) c' (checkInsOf_mono hsub hc')
  obtain ⟨rows, hrows, hexact, -, hgrows⟩ := seat_report_exact 30 none _ hagree
  obtain ⟨rows', hrows', hkept⟩ := hgrows threeMachines hmore hsub
  exact ⟨rows, rows', hrows, hexact, hrows', hkept⟩

end

end NetplexSupport
