/-
Which seats a licence is judged against: the first that its check-ins carry, and
so those it has now only where the two are the same.
-/
import NetplexSupport.Concurrency.SeatReport

namespace NetplexSupport

open Py

section

variable {F : Type} [FloatEq F] [Interpreter]

/-! ### The allowance that is applied -/

/-- What `analyze` takes for the seats of a licence. -/
def appliedAllowance (records : List (Json F)) (windowDays : Int) (now : Option Int)
    (lid : Str) : Except Exc (Json F) := do
  let byLic ← records.foldlM (groupRecord (cutoffOf windowDays now)) []
  seatAllowance (byLic.at (.str lid)).tier (byLic.at (.str lid)).seats

omit [FloatEq F] [Interpreter] in
theorem dictGet_machinesOf {lid : Str} (hlid : lid ≠ []) (cutoff : Option Int)
    (cs : List (CheckIn F)) :
    ((dictGet (machinesOf cutoff cs) lid).getD Machines.empty) =
      machinesFrom (checkInsOf cutoff lid cs) := by
  rw [machinesOf, dictGet_groupBy, ofKey_counts cutoff cs hlid]
  by_cases hnone : checkInsOf cutoff lid cs = []
  · rw [if_pos hnone, hnone]
    rfl
  · rw [if_neg hnone]
    rfl

theorem appliedAllowance_json {lid : Str} (hlid : lid ≠ []) (windowDays : Int)
    (now : Option Int) (cs : List (CheckIn F)) :
    appliedAllowance (cs.map CheckIn.json) windowDays now lid =
      let m := machinesFrom (checkInsOf (cutoffOf windowDays now) lid cs)
      .ok (allowance m.tier m.seats) := by
  rw [appliedAllowance, groups_json]
  simp only [bind, Except.bind, at_groupsOf, dictGet_machinesOf hlid]
  exact seatAllowance_text _ _

omit [FloatEq F] in
/-- A licence is listed when its machines outnumber the applied seats. -/
theorem listed_iff_applied {lid : Str} (hlid : lid ≠ []) (cutoff : Option Int)
    (cs : List (CheckIn F)) {m : Machines F}
    (hm : m = machinesFrom (checkInsOf cutoff lid cs)) :
    (∃ row ∈ seatReport cutoff cs, row.licenseId = .str lid) ↔
      allowed m.tier m.seats ≠ 0 ∧ allowed m.tier m.seats <
        (distinctTexts "fingerprint" (checkInsOf cutoff lid cs)).card := by
  have hcard : m.fps.length =
      (distinctTexts "fingerprint" (checkInsOf cutoff lid cs)).card := by
    rw [hm, (machinesFrom_sets _).1, length_setOf]
    rfl
  have hflagged : (m.row lid).severity ≠ .ok ↔
      allowed m.tier m.seats ≠ 0 ∧ allowed m.tier m.seats < m.fps.length := by
    rw [Machines.row, ne_eq, severity_eq_ok_iff, not_or, not_le]
  rw [← hcard, ← hflagged]
  constructor
  · rintro ⟨row, hrow, hid⟩
    obtain ⟨hsev, lid', -, -, rfl⟩ := mem_seatReport.mp hrow
    obtain rfl : lid' = lid := Json.str.inj hid
    exact hm ▸ hsev
  · intro hsev
    refine ⟨_, mem_seatReport.mpr ⟨hsev, lid, hlid, ?_, by rw [hm]⟩, rfl⟩
    rintro hnone
    have hzero : (distinctTexts "fingerprint" (checkInsOf cutoff lid cs)).card = 0 := by
      rw [hnone]
      rfl
    have := (hflagged.mp hsev).2
    rw [hcard, hzero] at this
    exact absurd (allowed_nonneg m.tier m.seats) (not_le.mpr this)

/-! ### The seats a licence has now -/

/-- The check-in carries no seats, or a whole number of them. -/
def WholeSeats (c : CheckIn F) : Prop := c.seats = .null ∨ ∃ n : Nat, c.seats = .int n

/-- The seats of the last check-in that carries some, or the default of the last
tier. -/
def currentAllowance (cs : List (CheckIn F)) : Json F :=
  (((cs.map CheckIn.seats).filter carried).getLast?).getD
    (.int (defaultSeats ((filled "tier" cs).getLastD [])))

/-- The licence is judged against the seats it has now: they are applied, and it
is listed exactly when its machines outnumber them. -/
structure JudgedByCurrent (windowDays : Int) (now : Option Int) (lid : Str)
    (cs : List (CheckIn F)) : Prop where
  applied : appliedAllowance (cs.map CheckIn.json) windowDays now lid =
    .ok (currentAllowance (checkInsOf (cutoffOf windowDays now) lid cs))
  listed : ∃ rows, analyze (cs.map CheckIn.json) windowDays now = .ok rows ∧
    ((∃ row ∈ rows, row.licenseId = .str lid) ↔
      let current := (currentAllowance (checkInsOf (cutoffOf windowDays now) lid cs)).asInt.getD 0
      current ≠ 0 ∧ current < (distinctTexts "fingerprint"
        (checkInsOf (cutoffOf windowDays now) lid cs)).card)

/-- The first seats that are carried are the last ones. -/
def SeatsUnchanged (cs : List (CheckIn F)) : Prop :=
  (cs.map CheckIn.seats).find? carried = ((cs.map CheckIn.seats).filter carried).getLast?

omit [FloatEq F] in
/-- The first seats that are carried are applied, so they are the current ones
exactly when the last are the same. -/
theorem allowance_eq_current_iff {cs : List (CheckIn F)} (hseats : ∀ c ∈ cs, WholeSeats c) :
    allowance (machinesFrom cs).tier (machinesFrom cs).seats = currentAllowance cs ↔
      SeatsUnchanged cs := by
  rw [machinesFrom_seats, machinesFrom_tier, currentAllowance, SeatsUnchanged]
  rcases hfirst : (cs.map CheckIn.seats).find? carried with _ | first
  · have hnone : (cs.map CheckIn.seats).filter carried = [] := by
      rw [List.filter_eq_nil_iff]
      exact List.find?_eq_none.mp hfirst
    rw [hnone]
    exact iff_of_true rfl rfl
  · have hcarried := List.find?_some hfirst
    have hmem := List.mem_of_find?_eq_some hfirst
    obtain ⟨c, hc, hseats'⟩ := List.mem_map.mp hmem
    obtain ⟨n, rfl⟩ : ∃ n : Nat, first = .int n := by
      rcases hseats c hc with hnull | ⟨n, hn⟩
      · rw [← hseats', hnull] at hcarried
        cases hcarried
      · exact ⟨n, hseats'.symm.trans hn⟩
    have hsome : (cs.map CheckIn.seats).filter carried ≠ [] :=
      List.ne_nil_of_mem (List.mem_filter.mpr ⟨hmem, hcarried⟩)
    rw [Option.getD_some, List.getLast?_eq_some_getLast hsome, Option.getD_some,
      Option.some_inj, allowance, if_pos (by simp [Json.asInt])]

theorem current_seats_iff {cs : List (CheckIn F)} (hseats : ∀ c ∈ cs, WholeSeats c)
    (windowDays : Int) (now : Option Int) {lid : Str} (hlid : lid ≠ []) :
    JudgedByCurrent windowDays now lid cs ↔
      SeatsUnchanged (checkInsOf (cutoffOf windowDays now) lid cs) := by
  have happlied := appliedAllowance_json hlid windowDays now cs
  have hlisted := listed_iff_applied hlid (cutoffOf windowDays now) cs rfl
  have hwhole : ∀ c ∈ checkInsOf (cutoffOf windowDays now) lid cs, WholeSeats c :=
    fun c hc => hseats c (List.mem_filter.mp hc).1
  have hiff := allowance_eq_current_iff hwhole
  rw [← hiff]
  constructor
  · intro h
    exact Except.ok.inj (happlied.symm.trans h.applied)
  · intro hsame
    refine ⟨happlied.trans (congrArg Except.ok hsame), _, analyze_json cs windowDays now, ?_⟩
    rw [hlisted, ← hsame]
    rfl

end

section

attribute [local instance] FloatView.asFloatEq Interpreter.ascii

/-- With one number of seats the current ones are applied. -/
theorem current_seats_same : JudgedByCurrent 30 none "lic-1" twoMachines := by
  have hseats : ∀ c ∈ twoMachines, WholeSeats c := by
    intro c hc
    simp only [twoMachines, List.mem_cons, List.not_mem_nil, or_false] at hc
    rcases hc with rfl | rfl
    · exact Or.inr ⟨1, rfl⟩
    · exact Or.inr ⟨1, rfl⟩
  exact (current_seats_iff hseats 30 none (by decide)).mpr rfl

/-- A second seat was bought for the second machine. -/
def boughtSeat : List (CheckIn FloatView) := [seatsCheckIn 1 "a", seatsCheckIn 2 "b"]

/-- The licence is judged against the one it had first. -/
theorem current_seats_bought :
    (∀ c ∈ boughtSeat, WholeSeats c) ∧ ¬ JudgedByCurrent 30 none "lic-1" boughtSeat := by
  constructor
  · intro c hc
    simp only [boughtSeat, List.mem_cons, List.not_mem_nil, or_false] at hc
    rcases hc with rfl | rfl
    · exact Or.inr ⟨1, rfl⟩
    · exact Or.inr ⟨2, rfl⟩
  · intro h
    have hfirst : appliedAllowance (boughtSeat.map CheckIn.json) 30 none "lic-1" =
        .ok (.int 1) := rfl
    have hlast : currentAllowance (checkInsOf (cutoffOf 30 none) "lic-1" boughtSeat) =
        .int 2 := rfl
    have happlied := h.applied
    rw [hfirst, hlast] at happlied
    cases happlied

end

end NetplexSupport
