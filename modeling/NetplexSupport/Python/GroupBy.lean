/-
Folding a list into a set, as the list of its elements, and into a dict with
one accumulator for each key.
-/
import NetplexSupport.Python.Dict
import Mathlib.Data.Finset.Card

namespace Py

/-! ### Sets -/

section

variable {α : Type} [DecidableEq α]

/-- `s.add(x)`. -/
def setAdd (s : List α) (x : α) : List α := if x ∈ s then s else s ++ [x]

/-- `set(xs)`, in the order in which the elements come up. -/
def setOf (xs : List α) : List α := xs.foldl setAdd []

theorem mem_setAdd {s : List α} {x y : α} : y ∈ setAdd s x ↔ y ∈ s ∨ y = x := by
  unfold setAdd
  by_cases hx : x ∈ s
  · rw [if_pos hx]
    exact ⟨Or.inl, fun h => h.elim id fun hy => hy ▸ hx⟩
  · rw [if_neg hx, List.mem_append, List.mem_singleton]

theorem nodup_setAdd {s : List α} {x : α} (hs : s.Nodup) : (setAdd s x).Nodup := by
  unfold setAdd
  by_cases hx : x ∈ s
  · rwa [if_pos hx]
  · rw [if_neg hx, ← List.concat_eq_append]
    exact hs.concat hx

theorem setOf_concat (xs : List α) (x : α) : setOf (xs ++ [x]) = setAdd (setOf xs) x :=
  List.foldl_concat ..

theorem mem_setOf {xs : List α} {y : α} : y ∈ setOf xs ↔ y ∈ xs := by
  induction xs using List.reverseRecOn with
  | nil => rfl
  | append_singleton xs x ih =>
      rw [setOf_concat, mem_setAdd, ih, List.mem_append, List.mem_singleton]

theorem nodup_setOf (xs : List α) : (setOf xs).Nodup := by
  induction xs using List.reverseRecOn with
  | nil => exact List.nodup_nil
  | append_singleton xs x ih =>
      rw [setOf_concat]
      exact nodup_setAdd ih

/-- The set has as many elements as the list has distinct ones. -/
theorem length_setOf (xs : List α) : (setOf xs).length = xs.toFinset.card := by
  rw [← List.toFinset_card_of_nodup (nodup_setOf xs)]
  congr 1
  ext y
  rw [List.mem_toFinset, List.mem_toFinset, mem_setOf]

end

/-! ### Groups -/

variable {ρ γ : Type} (key : ρ → Str) (step : γ → ρ → γ) (start : γ)

/-- One element, added to the accumulator of its key. -/
def groupOne (d : Dict γ) (r : ρ) : Dict γ :=
  dictSet d (key r) (step ((dictGet d (key r)).getD start) r)

/-- The accumulators, in the order in which their keys come up. -/
def groupBy (rows : List ρ) : Dict γ := rows.foldl (groupOne key step start) []

/-- The elements of one key. -/
def ofKey (k : Str) (rows : List ρ) : List ρ := rows.filter fun r => key r = k

theorem groupBy_concat (rows : List ρ) (r : ρ) :
    groupBy key step start (rows ++ [r]) =
      groupOne key step start (groupBy key step start rows) r := List.foldl_concat ..

theorem groupBy_keys_nodup (rows : List ρ) :
    ((groupBy key step start rows).map Prod.fst).Nodup := by
  induction rows using List.reverseRecOn with
  | nil => exact List.nodup_nil
  | append_singleton rows r ih =>
      rw [groupBy_concat]
      exact dictSet_keys_nodup _ _ ih

theorem ofKey_concat (k : Str) (rows : List ρ) (r : ρ) :
    ofKey key k (rows ++ [r]) = ofKey key k rows ++ if key r = k then [r] else [] := by
  rw [ofKey, List.filter_append, List.filter_singleton]
  by_cases hk : key r = k
  · simp [hk, ofKey]
  · simp [hk, ofKey]

/-- Under each key stands the fold of its elements, in their order. -/
theorem dictGet_groupBy (rows : List ρ) (k : Str) :
    dictGet (groupBy key step start rows) k =
      if ofKey key k rows = [] then none else some ((ofKey key k rows).foldl step start) := by
  induction rows using List.reverseRecOn with
  | nil => rfl
  | append_singleton rows r ih =>
      rw [groupBy_concat, groupOne, dictGet_dictSet, ofKey_concat]
      by_cases hk : key r = k
      · subst hk
        rw [if_pos rfl, if_pos rfl, if_neg (by simp), List.foldl_append, ih]
        by_cases hnone : ofKey key (key r) rows = []
        · rw [if_pos hnone, hnone]
          rfl
        · rw [if_neg hnone]
          rfl
      · rw [if_neg (Ne.symm hk), if_neg hk, List.append_nil]
        exact ih

theorem mem_groupBy {rows : List ρ} {k : Str} {g : γ} :
    (k, g) ∈ groupBy key step start rows ↔
      ofKey key k rows ≠ [] ∧ g = (ofKey key k rows).foldl step start := by
  rw [← dictGet_eq_some_iff (groupBy_keys_nodup key step start rows), dictGet_groupBy]
  by_cases hnone : ofKey key k rows = []
  · simp [hnone]
  · simp [hnone, eq_comm]

end Py
