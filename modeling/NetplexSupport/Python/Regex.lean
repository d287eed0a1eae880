/-
Regular expressions that are a sequence of character classes, each standing for
one character or for as many as there are, as a backtracking engine runs them.
A pattern says which texts match; the engine finds, from the left, a match
wherever there is one.
-/
import Mathlib.Data.List.Basic

namespace Regex

variable {α : Type}

/-- One place of a pattern: `[p]` or `[p]*`. -/
inductive Item (α : Type) where
  | one (p : α → Bool)
  | many (p : α → Bool)

/-- The class of a place. -/
def Item.accepts : Item α → α → Bool
  | .one p => p
  | .many p => p

/-- A fixed text. -/
def literal [DecidableEq α] (text : List α) : List (Item α) :=
  text.map fun c => .one fun d => d = c

/-! ### The engine -/

/-- Take characters of a class, and give them back one by one until what follows
succeeds. -/
def greedy (p : α → Bool) (next : List α → Option (List α)) : List α → Option (List α)
  | [] => next []
  | c :: s => if p c then (greedy p next s).or (next (c :: s)) else next (c :: s)

/-- `re.match`: what is left of the text behind the match. -/
def matchAt : List (Item α) → List α → Option (List α)
  | [], s => some s
  | .one _ :: _, [] => none
  | .one p :: items, c :: s => if p c then matchAt items s else none
  | .many p :: items, s => greedy p (matchAt items) s

/-- `re.finditer` of a pattern that matches no empty text, where the next `skip`
characters belong to the last match. -/
def finditerFrom (items : List (Item α)) : Nat → List α → List (List α)
  | _, [] => []
  | skip + 1, _ :: s => finditerFrom items skip s
  | 0, c :: s =>
      match matchAt items (c :: s) with
      | some rest =>
          let size := (c :: s).length - rest.length
          (c :: s).take size :: finditerFrom items (size - 1) s
      | none => finditerFrom items 0 s

/-- The texts `re.finditer` yields. -/
def finditer (items : List (Item α)) (s : List α) : List (List α) := finditerFrom items 0 s

/-! ### What a pattern matches -/

inductive Matches : List (Item α) → List α → Prop
  | nil : Matches [] []
  | one {p : α → Bool} {c : α} {items : List (Item α)} {m : List α} (hc : p c = true)
      (h : Matches items m) : Matches (.one p :: items) (c :: m)
  | stop {p : α → Bool} {items : List (Item α)} {m : List α} (h : Matches items m) :
      Matches (.many p :: items) m
  | more {p : α → Bool} {c : α} {items : List (Item α)} {m : List α} (hc : p c = true)
      (h : Matches (.many p :: items) m) : Matches (.many p :: items) (c :: m)

/-- A match of a sequence is a match of its first part and one of the rest. -/
theorem Matches.split {xs ys : List (Item α)} {m : List α} (h : Matches (xs ++ ys) m) :
    ∃ a b, m = a ++ b ∧ Matches xs a ∧ Matches ys b := by
  induction xs generalizing m with
  | nil => exact ⟨[], m, rfl, .nil, h⟩
  | cons item xs ih =>
      rw [List.cons_append] at h
      generalize hitems : item :: (xs ++ ys) = items at h
      induction h with
      | nil => cases hitems
      | one hc h _ =>
          obtain ⟨rfl, rfl⟩ := List.cons.inj hitems
          obtain ⟨a, b, rfl, ha, hb⟩ := ih h
          exact ⟨_ :: a, b, rfl, .one hc ha, hb⟩
      | stop h _ =>
          obtain ⟨rfl, rfl⟩ := List.cons.inj hitems
          obtain ⟨a, b, rfl, ha, hb⟩ := ih h
          exact ⟨a, b, rfl, .stop ha, hb⟩
      | more hc _ ihmore =>
          obtain ⟨a, b, rfl, ha, hb⟩ := ihmore hitems
          obtain ⟨rfl, rfl⟩ := List.cons.inj hitems
          exact ⟨_ :: a, b, rfl, .more hc ha, hb⟩

theorem Matches.append {xs ys : List (Item α)} {a b : List α} (ha : Matches xs a)
    (hb : Matches ys b) : Matches (xs ++ ys) (a ++ b) := by
  induction ha with
  | nil => exact hb
  | one hc _ ih => exact .one hc ih
  | stop _ ih => exact .stop ih
  | more hc _ ih => exact .more hc ih

theorem Matches.class {p : α → Bool} {a : List α} (ha : ∀ c ∈ a, p c = true) :
    Matches [.many p] a := by
  induction a with
  | nil => exact .stop .nil
  | cons c a ih =>
      rw [List.forall_mem_cons] at ha
      exact .more ha.1 (ih ha.2)

theorem Matches.text [DecidableEq α] (text : List α) : Matches (literal text) text := by
  induction text with
  | nil => exact .nil
  | cons c text ih => exact .one (decide_eq_true rfl) ih

/-- Every character of a match is in a class of the pattern. -/
theorem Matches.forall_mem {items : List (Item α)} {m : List α} (h : Matches items m)
    {q : α → Prop} (hq : ∀ item ∈ items, ∀ c, item.accepts c = true → q c) :
    ∀ c ∈ m, q c := by
  induction h with
  | nil => simp
  | one hc _ ih =>
      rw [List.forall_mem_cons]
      exact ⟨hq _ List.mem_cons_self _ hc, ih fun item hitem =>
        hq item (List.mem_cons_of_mem _ hitem)⟩
  | stop _ ih => exact ih fun item hitem => hq item (List.mem_cons_of_mem _ hitem)
  | more hc _ ih =>
      rw [List.forall_mem_cons]
      exact ⟨hq _ List.mem_cons_self _ hc, ih hq⟩

theorem Matches.one_singleton {p : α → Bool} {m : List α} (h : Matches [.one p] m) :
    ∃ c, p c = true ∧ m = [c] := by
  cases h with
  | one hc h =>
      cases h
      exact ⟨_, hc, rfl⟩

/-! ### What the engine finds -/

theorem greedy_eq_some {p : α → Bool} {next : List α → Option (List α)} {s rest : List α}
    (h : greedy p next s = some rest) :
    ∃ a t, s = a ++ t ∧ (∀ c ∈ a, p c = true) ∧ next t = some rest := by
  induction s with
  | nil => exact ⟨[], [], rfl, by simp, h⟩
  | cons c s ih =>
      rw [greedy] at h
      by_cases hc : p c = true
      · rw [if_pos hc] at h
        rcases htail : greedy p next s with _ | rest'
        · rw [htail, Option.none_or] at h
          exact ⟨[], c :: s, rfl, by simp, h⟩
        · rw [htail, Option.some_or] at h
          obtain ⟨a, t, rfl, ha, ht⟩ := ih (htail.trans h)
          exact ⟨c :: a, t, rfl, by simpa [hc] using ha, ht⟩
      · rw [if_neg hc] at h
        exact ⟨[], c :: s, rfl, by simp, h⟩

theorem greedy_isSome {p : α → Bool} {next : List α → Option (List α)} {a t : List α}
    (ha : ∀ c ∈ a, p c = true) (ht : (next t).isSome = true) :
    (greedy p next (a ++ t)).isSome = true := by
  induction a with
  | nil =>
      cases t with
      | nil => exact ht
      | cons c t =>
          rw [List.nil_append, greedy]
          by_cases hc : p c = true
          · rw [if_pos hc, Option.isSome_or, ht, Bool.or_true]
          · rw [if_neg hc]
            exact ht
  | cons c a ih =>
      rw [List.forall_mem_cons] at ha
      rw [List.cons_append, greedy, if_pos ha.1, Option.isSome_or, ih ha.2, Bool.true_or]

/-- The engine returns a match. -/
theorem matchAt_eq_some {items : List (Item α)} {s rest : List α}
    (h : matchAt items s = some rest) : ∃ m, s = m ++ rest ∧ Matches items m := by
  induction items generalizing s with
  | nil => exact ⟨[], Option.some.inj h, .nil⟩
  | cons item items ih =>
      cases item with
      | one p =>
          cases s with
          | nil => cases h
          | cons c s =>
              rw [matchAt] at h
              by_cases hc : p c = true
              · rw [if_pos hc] at h
                obtain ⟨m, rfl, hm⟩ := ih h
                exact ⟨c :: m, rfl, .one hc hm⟩
              · rw [if_neg hc] at h
                cases h
      | many p =>
          obtain ⟨a, t, rfl, ha, ht⟩ := greedy_eq_some h
          obtain ⟨m, rfl, hm⟩ := ih ht
          refine ⟨a ++ m, (List.append_assoc a m rest).symm, ?_⟩
          clear h
          induction a with
          | nil => exact .stop hm
          | cons c a iha =>
              rw [List.forall_mem_cons] at ha
              exact .more ha.1 (iha ha.2)

/-- It finds one where there is one. -/
theorem Matches.matchAt_isSome {items : List (Item α)} {m : List α} (h : Matches items m)
    (rest : List α) : (matchAt items (m ++ rest)).isSome = true := by
  induction h with
  | nil => rfl
  | one hc _ ih => simpa [matchAt, hc] using ih
  | stop _ ih => exact greedy_isSome (a := []) (by simp) ih
  | @more p c items m hc _ ih =>
      rw [matchAt] at ih
      rw [List.cons_append, matchAt, greedy, if_pos hc, Option.isSome_or, ih, Bool.true_or]

/-- More text does not take a match away. -/
theorem matchAt_eq_none_of_append {items : List (Item α)} {s t : List α}
    (h : matchAt items (s ++ t) = none) : matchAt items s = none := by
  by_contra hsome
  obtain ⟨rest, hrest⟩ := Option.ne_none_iff_exists'.mp hsome
  obtain ⟨m, rfl, hm⟩ := matchAt_eq_some hrest
  have hfound := hm.matchAt_isSome (rest ++ t)
  rw [← List.append_assoc, h] at hfound
  cases hfound

/-- Where a text begins with a match, it begins with no other. -/
def Unambiguous (items : List (Item α)) : Prop :=
  ∀ m m' rest rest', Matches items m → Matches items m' → m ++ rest = m' ++ rest' → m = m'

theorem matchAt_append {items : List (Item α)} (hitems : Unambiguous items) {m : List α}
    (h : Matches items m) (rest : List α) : matchAt items (m ++ rest) = some rest := by
  obtain ⟨rest', hrest'⟩ := Option.isSome_iff_exists.mp (h.matchAt_isSome rest)
  obtain ⟨m', heq, hm'⟩ := matchAt_eq_some hrest'
  obtain rfl := hitems m m' rest rest' h hm' heq
  rw [hrest', List.append_cancel_left heq]

/-! ### Searching -/

theorem finditerFrom_eq (items : List (Item α)) (skip : Nat) (s : List α) :
    finditerFrom items skip s = finditer items (s.drop skip) := by
  induction s generalizing skip with
  | nil => cases skip <;> simp [finditer, finditerFrom]
  | cons c s ih =>
      cases skip with
      | zero => rfl
      | succ skip => exact ih skip

@[simp] theorem finditer_nil (items : List (Item α)) : finditer items [] = [] := rfl

theorem finditer_of_none {items : List (Item α)} {c : α} {s : List α}
    (h : matchAt items (c :: s) = none) : finditer items (c :: s) = finditer items s := by
  rw [finditer, finditerFrom, h]
  rfl

theorem finditer_append_match {items : List (Item α)} (hitems : Unambiguous items)
    {m : List α} (h : Matches items m) (hne : m ≠ []) (rest : List α) :
    finditer items (m ++ rest) = m :: finditer items rest := by
  obtain ⟨c, m, rfl⟩ := List.exists_cons_of_ne_nil hne
  have hmatch := matchAt_append hitems h rest
  rw [List.cons_append] at hmatch ⊢
  have hsize : (c :: (m ++ rest)).length - rest.length = m.length + 1 := by
    simp only [List.length_cons, List.length_append]
    omega
  rw [finditer, finditerFrom, hmatch]
  simp only [hsize, List.take_succ_cons, List.take_left, Nat.add_sub_cancel]
  rw [finditerFrom_eq, List.drop_left]

/-- What the search yields are matches, where they stand in the text. -/
theorem mem_finditer {items : List (Item α)} {s m : List α} (h : m ∈ finditer items s) :
    ∃ u v, s = u ++ (m ++ v) ∧ Matches items m := by
  induction hlength : s.length using Nat.strongRecOn generalizing s with
  | ind n ih =>
  subst hlength
  cases s with
  | nil => cases h
  | cons c s =>
      rcases hmatch : matchAt items (c :: s) with _ | rest
      · rw [finditer_of_none hmatch] at h
        obtain ⟨u, v, rfl, hm⟩ := ih s.length (by simp) h rfl
        exact ⟨c :: u, v, rfl, hm⟩
      · obtain ⟨m', heq, hm'⟩ := matchAt_eq_some hmatch
        have hsize : (c :: s).length - rest.length = m'.length := by
          rw [heq, List.length_append]
          omega
        rw [finditer, finditerFrom, hmatch] at h
        simp only [hsize] at h
        rw [finditerFrom_eq, heq, List.take_left, List.mem_cons] at h
        rcases h with rfl | h
        · exact ⟨[], rest, heq, hm'⟩
        · obtain ⟨u, v, hs, hm⟩ := ih (s.drop (m'.length - 1)).length
            (by rw [List.length_drop, List.length_cons]; omega) h rfl
          refine ⟨c :: (s.take (m'.length - 1) ++ u), v, ?_, hm⟩
          rw [List.cons_append, List.append_assoc, ← hs, List.take_append_drop]

/-- A text without a match yields nothing. -/
theorem finditer_eq_nil {items : List (Item α)} {s : List α}
    (h : ∀ u m v, s = u ++ m ++ v → ¬ Matches items m) : finditer items s = [] := by
  induction s with
  | nil => rfl
  | cons c s ih =>
      have hnone : matchAt items (c :: s) = none := by
        by_contra hsome
        obtain ⟨rest, hrest⟩ := Option.ne_none_iff_exists'.mp hsome
        obtain ⟨m, hm, hmatch⟩ := matchAt_eq_some hrest
        exact h [] m rest hm hmatch
      rw [finditer_of_none hnone]
      exact ih fun u m v hs => h (c :: u) m v (by rw [hs]; rfl)

/-- Searching a text that is cut in two finds what it finds in the first part,
and perhaps one match more that begins there and runs past the cut, provided
that nothing is found behind the cut, behind such a match or in its first
part. -/
theorem finditer_append {items : List (Item α)} (hitems : Unambiguous items)
    (hempty : ¬ Matches items []) (x y : List α)
    (hcross : ∀ u v m rest, x = u ++ v → v ≠ [] → m ≠ [] → y = m ++ rest →
      Matches items (v ++ m) → finditer items v = [] ∧ finditer items rest = [])
    (hy : finditer items y = []) :
    finditer items (x ++ y) = finditer items x ∨
      ∃ u v m rest, x = u ++ v ∧ v ≠ [] ∧ m ≠ [] ∧ y = m ++ rest ∧
        Matches items (v ++ m) ∧
        finditer items (x ++ y) = finditer items x ++ [v ++ m] := by
  induction hlength : x.length using Nat.strongRecOn generalizing x with
  | ind n ih =>
  subst hlength
  cases x with
  | nil => exact Or.inl hy
  | cons c x =>
      rcases hmatch : matchAt items (c :: x ++ y) with _ | rest
      · -- No match begins here, with or without what follows.
        have hnone : matchAt items (c :: x) = none := matchAt_eq_none_of_append hmatch
        rw [List.cons_append] at hmatch ⊢
        rw [finditer_of_none hmatch, finditer_of_none hnone]
        rcases ih x.length (by simp) x (fun u v m rest hx =>
          hcross (c :: u) v m rest (by rw [hx]; rfl)) rfl with hsame | hmore
        · exact Or.inl hsame
        · obtain ⟨u, v, m, rest, rfl, hfound⟩ := hmore
          exact Or.inr ⟨c :: u, v, m, rest, rfl, hfound⟩
      · obtain ⟨m, hm, hmatches⟩ := matchAt_eq_some hmatch
        have hne : m ≠ [] := fun h => hempty (h ▸ hmatches)
        rcases List.append_eq_append_iff.mp hm with ⟨m', rfl, hy'⟩ | ⟨x', hx, rfl⟩
        · by_cases hm' : m' = []
          · -- The match ends with the first part.
            subst hm'
            rw [List.nil_append] at hy'
            subst hy'
            rw [List.append_nil] at hmatches
            rw [finditer_append_match hitems hmatches (by simp), hy]
            have hself := finditer_append_match hitems hmatches (by simp) []
            rw [List.append_nil, finditer_nil] at hself
            exact Or.inl hself.symm
          · obtain ⟨hv, hrest⟩ := hcross [] (c :: x) m' rest rfl (by simp) hm' hy' hmatches
            refine Or.inr ⟨[], c :: x, m', rest, rfl, by simp, hm', hy', hmatches, ?_⟩
            rw [hm, finditer_append_match hitems hmatches hne, hrest, hv]
            rfl
        · have hshorter : x'.length < (c :: x).length := by
            rw [hx, List.length_append]
            have := List.length_pos_of_ne_nil hne
            omega
          rw [hx, List.append_assoc, finditer_append_match hitems hmatches hne,
            finditer_append_match hitems hmatches hne]
          rcases ih x'.length hshorter x' (fun u v m' rest hx' =>
            hcross (m ++ u) v m' rest (by rw [hx, hx', List.append_assoc])) rfl with
            hsame | hmore
          · exact Or.inl (congrArg (m :: ·) hsame)
          · obtain ⟨u, v, m', rest, rfl, hv, hm', hy', hmatches', hfound⟩ := hmore
            refine Or.inr ⟨m ++ u, v, m', rest, (List.append_assoc m u v).symm, hv, hm', hy',
              hmatches', ?_⟩
            rw [hfound]
            rfl

end Regex
