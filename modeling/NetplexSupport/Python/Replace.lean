/-
Substitution in a text: every occurrence of a key, from the left, becomes its
value.  A text is cut where a character stands that no key has, and a text with
slots between such characters is substituted slot by slot.
-/
import Mathlib.Data.List.Infix
import Mathlib.Data.List.Count

namespace Py

variable {α : Type} [DecidableEq α]

/-! ### Substitution -/

/-- The first entry whose key the text starts with. -/
def keyAt (table : List (List α × List α)) (s : List α) : Option (List α × List α) :=
  table.find? fun e => e.1.isPrefixOf s

/-- Substitution behind some characters of a key that was found. -/
def substFrom (table : List (List α × List α)) : Nat → List α → List α
  | _, [] => []
  | 0, c :: s =>
      match keyAt table (c :: s) with
      | some e => e.2 ++ substFrom table (e.1.length - 1) s
      | none => c :: substFrom table 0 s
  | behind + 1, _ :: s => substFrom table behind s

/-- The text with each key it holds replaced by its value, all at once. -/
def subst (table : List (List α × List α)) (s : List α) : List α := substFrom table 0 s

/-- `s.replace(old, new)`. -/
def replaceAll (old new s : List α) : List α := subst [(old, new)] s

variable {table : List (List α × List α)}

theorem substFrom_eq (behind : Nat) (s : List α) :
    substFrom table behind s = subst table (s.drop behind) := by
  induction s generalizing behind with
  | nil => cases behind <;> rfl
  | cons c s ih =>
      cases behind with
      | zero => rfl
      | succ behind => exact ih behind

theorem subst_of_none {c : α} {s : List α} (h : keyAt table (c :: s) = none) :
    subst table (c :: s) = c :: subst table s := by
  rw [subst, substFrom, h]
  rfl

theorem keyAt_spec {s : List α} {e : List α × List α} (h : keyAt table s = some e) :
    e ∈ table ∧ e.1 <+: s :=
  ⟨List.mem_of_find?_eq_some h, List.isPrefixOf_iff_prefix.mp
    (List.find?_some (p := fun e : List α × List α => e.1.isPrefixOf s) h)⟩

theorem subst_of_some {s : List α} {e : List α × List α} (he : e.1 ≠ [])
    (h : keyAt table s = some e) : subst table s = e.2 ++ subst table (s.drop e.1.length) := by
  cases s with
  | nil => exact absurd (List.prefix_nil.mp (keyAt_spec h).2) he
  | cons c s =>
      obtain ⟨n, hn⟩ : ∃ n, e.1.length = n + 1 :=
        Nat.exists_eq_add_one_of_ne_zero (by simpa using he)
      rw [subst, substFrom, h]
      dsimp only
      rw [substFrom_eq, hn]
      rfl

/-- A text without a key stays. -/
theorem subst_eq_self {s : List α} (h : ∀ e ∈ table, ¬ e.1 <:+: s) : subst table s = s := by
  induction s with
  | nil => rfl
  | cons c s ih =>
      have hnone : keyAt table (c :: s) = none := by
        rcases hkey : keyAt table (c :: s) with _ | e
        · rfl
        · exact absurd (keyAt_spec hkey).2.isInfix (h e (keyAt_spec hkey).1)
      rw [subst_of_none hnone, ih fun e he hs => h e he (hs.trans (List.suffix_cons c s).isInfix)]

theorem subst_key {key value : List α} (hkey : key ≠ [])
    (h : keyAt table key = some (key, value)) : subst table key = value := by
  rw [subst_of_some hkey h, List.drop_length]
  exact List.append_nil value

/-! ### Cutting -/

/-- No key is empty, and none has the character. -/
def Foreign (table : List (List α × List α)) (x : α) : Prop :=
  ∀ e ∈ table, e.1 ≠ [] ∧ x ∉ e.1

omit [DecidableEq α] in
theorem prefix_append_cons_iff {key s t : List α} {x : α} (hx : x ∉ key) :
    key <+: s ++ x :: t ↔ key <+: s := by
  refine ⟨fun h => ?_, fun h => h.trans (List.prefix_append _ _)⟩
  rcases List.prefix_or_prefix_of_prefix h (List.prefix_append s (x :: t)) with hkey | hkey
  · exact hkey
  · obtain ⟨rest, rfl⟩ := hkey
    cases rest with
    | nil => rw [List.append_nil]
    | cons y rest =>
        rw [List.prefix_append_right_inj, List.cons_prefix_cons] at h
        exact absurd (by simp [h.1]) hx

theorem keyAt_append_cons {x : α} (hx : Foreign table x) (s t : List α) :
    keyAt table (s ++ x :: t) = keyAt table s := by
  have hsame : ∀ e ∈ table, e.1.isPrefixOf (s ++ x :: t) = e.1.isPrefixOf s := by
    intro e he
    rw [Bool.eq_iff_iff, List.isPrefixOf_iff_prefix, List.isPrefixOf_iff_prefix,
      prefix_append_cons_iff (hx e he).2]
  unfold keyAt
  rw [← List.head?_filter, ← List.head?_filter, List.filter_congr hsame]

/-- Substitution does not reach across a foreign character. -/
theorem subst_append_cons {x : α} (hx : Foreign table x) (s t : List α) :
    subst table (s ++ x :: t) = subst table s ++ x :: subst table t := by
  induction hlength : s.length using Nat.strong_induction_on generalizing s with
  | _ n ih =>
      subst hlength
      rcases hkey : keyAt table s with _ | e
      · cases s with
        | nil => exact subst_of_none ((keyAt_append_cons hx [] t).trans hkey)
        | cons c s =>
            have hkey' : keyAt table (c :: (s ++ x :: t)) = none :=
              (keyAt_append_cons hx (c :: s) t).trans hkey
            rw [subst_of_none hkey, List.cons_append, subst_of_none hkey',
              ih s.length (Nat.lt_succ_self _) s rfl]
            rfl
      · obtain ⟨he, hstart⟩ := keyAt_spec hkey
        have hlong : 0 < e.1.length := List.length_pos_of_ne_nil (hx e he).1
        have hfits := hstart.length_le
        rw [subst_of_some (hx e he).1 hkey,
          subst_of_some (hx e he).1 ((keyAt_append_cons hx s t).trans hkey),
          List.drop_append_of_le_length hfits,
          ih (s.drop e.1.length).length (by rw [List.length_drop]; omega) _ rfl,
          List.append_assoc]

/-- Nor out of a text that ends with one. -/
theorem subst_append_of_last {x : α} (hx : Foreign table x) (s t : List α) :
    subst table ((s ++ [x]) ++ t) = subst table (s ++ [x]) ++ subst table t := by
  rw [List.append_assoc, List.singleton_append, subst_append_cons hx, subst_append_cons hx]
  simp [subst, substFrom]

/-- Substitution removes no foreign character. -/
theorem countP_le_subst {p : α → Bool} (hp : ∀ e ∈ table, e.1 ≠ [] ∧ ∀ x ∈ e.1, p x = false)
    (s : List α) : s.countP p ≤ (subst table s).countP p := by
  induction hlength : s.length using Nat.strong_induction_on generalizing s with
  | _ n ih =>
      subst hlength
      rcases hkey : keyAt table s with _ | e
      · cases s with
        | nil => exact Nat.zero_le _
        | cons c s =>
            rw [subst_of_none hkey, List.countP_cons, List.countP_cons]
            have := ih s.length (Nat.lt_succ_self _) s rfl
            omega
      · obtain ⟨he, rest, rfl⟩ := keyAt_spec hkey
        have hlong : 0 < e.1.length := List.length_pos_of_ne_nil (hp e he).1
        have hnone : e.1.countP p = 0 := List.countP_eq_zero.mpr fun x hx => by
          simpa using (hp e he).2 x hx
        have hrest := ih rest.length (by rw [List.length_append]; omega) rest rfl
        rw [subst_of_some (hp e he).1 hkey, List.drop_left, List.countP_append,
          List.countP_append, hnone]
        omega

end Py
