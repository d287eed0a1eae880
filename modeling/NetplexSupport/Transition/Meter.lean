/-
A meter over a stream of messages.  Some messages have a weight, and one of them
passes while the running total, its own weight included, stays within the cap.
The total keeps growing with what is refused, so that a refusal is final for
everything that is weighed.
-/
import Mathlib.Algebra.Order.Group.Int
import Mathlib.Data.List.Infix

namespace Meter

variable {M : Type*} (weight : M → Option Nat) (cap : Int)

/-- The weight of a stretch of messages. -/
def spent : List M → Nat
  | [] => 0
  | m :: ms => (weight m).getD 0 + spent ms

/-- One message: whether it passes, and the running total after it. -/
def read (total : Nat) (m : M) : Bool × Nat :=
  match weight m with
  | none => (true, total)
  | some w => (decide ((total + w : Nat) ≤ cap), total + w)

/-- Which messages of a stream pass. -/
def verdicts : Nat → List M → List Bool
  | _, [] => []
  | total, m :: ms => (read weight cap total m).1 :: verdicts (read weight cap total m).2 ms

@[simp] theorem spent_nil : spent weight ([] : List M) = 0 := rfl

@[simp] theorem spent_cons (m : M) (ms : List M) :
    spent weight (m :: ms) = (weight m).getD 0 + spent weight ms := rfl

theorem spent_append (ms more : List M) :
    spent weight (ms ++ more) = spent weight ms + spent weight more := by
  induction ms with
  | nil => simp
  | cons m ms ih => rw [List.cons_append, spent_cons, spent_cons, ih, Nat.add_assoc]

theorem spent_take_mono (ms : List M) {i j : Nat} (h : i ≤ j) :
    spent weight (ms.take i) ≤ spent weight (ms.take j) := by
  obtain ⟨more, hmore⟩ := List.take_prefix_take_left h (l := ms)
  rw [← hmore, spent_append]
  exact Nat.le_add_right _ _

theorem read_snd (total : Nat) (m : M) :
    (read weight cap total m).2 = total + (weight m).getD 0 := by
  unfold read
  cases weight m with
  | none => rfl
  | some w => rfl

theorem read_fst (total : Nat) (m : M) :
    (read weight cap total m).1 =
      decide (weight m = none ∨ ((total + (weight m).getD 0 : Nat) : Int) ≤ cap) := by
  unfold read
  cases weight m with
  | none => simp
  | some w => simp

theorem length_verdicts (total : Nat) (ms : List M) :
    (verdicts weight cap total ms).length = ms.length := by
  induction ms generalizing total with
  | nil => rfl
  | cons m ms ih => rw [verdicts, List.length_cons, List.length_cons, ih]

/-- A message passes when it is not weighed, or when all up to it is within the
cap. -/
theorem verdicts_getElem? (total : Nat) (ms : List M) (i : Nat) :
    (verdicts weight cap total ms)[i]? = ms[i]?.map fun m =>
      decide (weight m = none ∨ ((total + spent weight (ms.take (i + 1)) : Nat) : Int) ≤ cap) := by
  induction ms generalizing total i with
  | nil => rfl
  | cons m ms ih =>
      cases i with
      | zero => simp [verdicts, read_fst]
      | succ i =>
          simp only [verdicts, List.getElem?_cons_succ, ih, read_snd, List.take_succ_cons,
            spent_cons, Nat.add_assoc]

/-- A stream within the cap passes whole. -/
theorem verdicts_of_spent_le {total : Nat} {ms : List M}
    (h : ((total + spent weight ms : Nat) : Int) ≤ cap) :
    verdicts weight cap total ms = List.replicate ms.length true := by
  induction ms generalizing total with
  | nil => rfl
  | cons m ms ih =>
      rw [spent_cons] at h
      rw [verdicts, read_fst, read_snd, ih (by omega), List.length_cons, List.replicate_succ,
        List.cons.injEq]
      exact ⟨decide_eq_true (Or.inr (by omega)), rfl⟩

/-- What passes before the first refusal is within the cap. -/
theorem spent_le_of_verdicts {total : Nat} {ms : List M}
    (h : ∀ passed ∈ verdicts weight cap total ms, passed = true) :
    ((total + spent weight ms : Nat) : Int) ≤ max cap total := by
  induction ms generalizing total with
  | nil => exact le_max_right _ _
  | cons m ms ih =>
      rw [verdicts, List.forall_mem_cons, read_fst, read_snd, decide_eq_true_eq] at h
      have hrest := ih h.2
      rw [spent_cons]
      rcases h.1 with hfree | hwithin
      · rw [hfree] at hrest ⊢
        simpa using hrest
      · omega

end Meter
