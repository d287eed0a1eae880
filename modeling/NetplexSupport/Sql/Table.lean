/-
Tables as lists of rows in the order they were inserted, with the statements
the store issues: `ORDER BY … LIMIT 1` over the rows of a `WHERE`, an `UPDATE`
by primary key, and an `INSERT`.  SQL leaves ties of an `ORDER BY` open; here
the earlier row wins.
-/
import Mathlib.Order.Lattice
import Mathlib.Order.OrderDual
import Mathlib.Data.List.Nodup
import Mathlib.Data.List.Sort

namespace Sql

variable {α β κ ι : Type}

/-! ### Ordered queries -/

section

variable [LinearOrder κ]

/-- `ORDER BY key ASC LIMIT 1`. -/
def firstBy (key : α → κ) : List α → Option α
  | [] => none
  | a :: rows =>
      match firstBy key rows with
      | none => some a
      | some b => if key a ≤ key b then some a else some b

/-- `ORDER BY key DESC LIMIT 1`. -/
def lastBy (key : α → κ) (rows : List α) : Option α :=
  firstBy (fun a => OrderDual.toDual (key a)) rows

theorem firstBy_eq_none {key : α → κ} {rows : List α} :
    firstBy key rows = none ↔ rows = [] := by
  cases rows with
  | nil => simp [firstBy]
  | cons a rows =>
      simp only [firstBy, reduceCtorEq, iff_false]
      split
      · simp
      · split <;> simp

theorem firstBy_mem {key : α → κ} {rows : List α} {a : α}
    (h : firstBy key rows = some a) : a ∈ rows := by
  induction rows with
  | nil => simp [firstBy] at h
  | cons x rows ih =>
      simp only [firstBy] at h
      split at h
      · exact Option.some.inj h ▸ List.mem_cons_self
      · rename_i b hb
        split at h
        · exact Option.some.inj h ▸ List.mem_cons_self
        · exact List.mem_cons_of_mem x (ih (Option.some.inj h ▸ hb))

theorem firstBy_le {key : α → κ} {rows : List α} {a : α}
    (h : firstBy key rows = some a) : ∀ b ∈ rows, key a ≤ key b := by
  induction rows generalizing a with
  | nil => simp
  | cons x rows ih =>
      simp only [firstBy] at h
      rw [List.forall_mem_cons]
      split at h
      · rename_i hnone
        obtain rfl := Option.some.inj h
        rw [firstBy_eq_none] at hnone
        exact ⟨le_refl _, by simp [hnone]⟩
      · rename_i b hb
        split at h
        · rename_i hle
          obtain rfl := Option.some.inj h
          exact ⟨le_refl _, fun c hc => hle.trans (ih hb c hc)⟩
        · rename_i hlt
          obtain rfl := Option.some.inj h
          exact ⟨(not_le.mp hlt).le, ih hb⟩

theorem firstBy_map (key : β → κ) (g : α → β) (rows : List α) :
    firstBy key (rows.map g) = (firstBy (fun a => key (g a)) rows).map g := by
  induction rows with
  | nil => rfl
  | cons a rows ih =>
      simp only [List.map_cons, firstBy, ih]
      rcases firstBy (fun a => key (g a)) rows with _ | b
      · rfl
      · by_cases h : key (g a) ≤ key (g b)
        · simp [h]
        · simp [h]

/-- The row returned has the least key, and the least place among those. -/
theorem firstBy_eq_some_iff {key : α → κ} {rows : List α} {a : α} :
    firstBy key rows = some a ↔
      ∃ pre post, rows = pre ++ a :: post ∧ (∀ b ∈ pre, key a < key b) ∧
        ∀ b ∈ post, key a ≤ key b := by
  induction rows with
  | nil => simp [firstBy]
  | cons x rows ih =>
      constructor
      · intro h
        simp only [firstBy] at h
        split at h
        · rename_i hnone
          obtain rfl := Option.some.inj h
          rw [firstBy_eq_none] at hnone
          exact ⟨[], [], by rw [hnone]; rfl, by simp, by simp⟩
        · rename_i b hb
          split at h
          · rename_i hle
            obtain rfl := Option.some.inj h
            refine ⟨[], rows, rfl, by simp, fun c hc => hle.trans ?_⟩
            exact firstBy_le hb c hc
          · rename_i hlt
            obtain rfl := Option.some.inj h
            rcases ih.mp hb with ⟨pre, post, rfl, hpre, hpost⟩
            refine ⟨x :: pre, post, rfl, ?_, hpost⟩
            rw [List.forall_mem_cons]
            exact ⟨not_le.mp hlt, hpre⟩
      · rintro ⟨pre, post, hrows, hpre, hpost⟩
        rcases pre with _ | ⟨y, pre⟩
        · obtain ⟨rfl, rfl⟩ := List.cons.inj hrows
          simp only [firstBy]
          cases hb : firstBy key rows with
          | none => rfl
          | some b => exact if_pos (hpost b (firstBy_mem hb))
        · obtain ⟨rfl, hrest⟩ := List.cons.inj hrows
          rw [List.forall_mem_cons] at hpre
          have hsome := ih.mpr ⟨pre, post, hrest, hpre.2, hpost⟩
          simp only [firstBy, hsome]
          exact if_neg (not_le.mpr hpre.1)

/-- `a` stands between `pre` and `post` as the row that `WHERE p ORDER BY key
LIMIT 1` returns. -/
structure FirstAt (key : α → κ) (p : α → Bool) (pre : List α) (a : α) (post : List α) :
    Prop where
  holds : p a = true
  before : ∀ b ∈ pre, p b = true → key a < key b
  behind : ∀ b ∈ post, p b = true → key a ≤ key b

theorem firstBy_filter_eq_some_iff {key : α → κ} {p : α → Bool} {rows : List α} {a : α} :
    firstBy key (rows.filter p) = some a ↔
      ∃ pre post, rows = pre ++ a :: post ∧ FirstAt key p pre a post := by
  rw [firstBy_eq_some_iff]
  constructor
  · rintro ⟨pre', post', hfilter, hpre, hpost⟩
    obtain ⟨pre, rest, rfl, hpre', hrest⟩ := List.filter_eq_append_iff.mp hfilter
    obtain ⟨skip, post, rfl, hskip, ha, hpost'⟩ := List.filter_eq_cons_iff.mp hrest
    refine ⟨pre ++ skip, post, by simp, ha, ?_, ?_⟩
    · intro b hb hp
      rcases List.mem_append.mp hb with hb | hb
      · exact hpre b (hpre' ▸ List.mem_filter.mpr ⟨hb, hp⟩)
      · exact absurd hp (hskip b hb)
    · exact fun b hb hp => hpost b (hpost' ▸ List.mem_filter.mpr ⟨hb, hp⟩)
  · rintro ⟨pre, post, rfl, h⟩
    refine ⟨pre.filter p, post.filter p, by simp [h.holds], ?_, ?_⟩
    · exact fun b hb => h.before b (List.mem_filter.mp hb).1 (List.mem_filter.mp hb).2
    · exact fun b hb => h.behind b (List.mem_filter.mp hb).1 (List.mem_filter.mp hb).2

/-- A table has one such place. -/
theorem FirstAt.unique {key : α → κ} {p : α → Bool} {pre pre' post post' : List α}
    {a a' : α} (h : FirstAt key p pre a post) (h' : FirstAt key p pre' a' post')
    (heq : pre ++ a :: post = pre' ++ a' :: post') :
    pre = pre' ∧ a = a' ∧ post = post' := by
  -- Whichever row stands first of two is strictly before the other, and not.
  have hclash : ∀ {pre post pre' post' mid : List α} {a a' : α},
      FirstAt key p pre a post → FirstAt key p pre' a' post' → pre' = pre ++ mid →
      a :: post = mid ++ a' :: post' → mid = [] := by
    intro pre post pre' post' mid a a' h h' hpre hrest
    rcases mid with _ | ⟨x, mid⟩
    · rfl
    · obtain ⟨rfl, hpost⟩ := List.cons.inj hrest
      have hlt := h'.before a (by simp [hpre]) h.holds
      have hle := h.behind a' (by simp [hpost]) h'.holds
      exact absurd hlt (not_lt.mpr hle)
  rcases List.append_eq_append_iff.mp heq with ⟨mid, hpre, hrest⟩ | ⟨mid, hpre, hrest⟩
  · obtain rfl := hclash h h' hpre hrest
    obtain ⟨ha, hpost⟩ := List.cons.inj hrest
    exact ⟨by simpa using hpre.symm, ha, hpost⟩
  · obtain rfl := hclash h' h hpre hrest
    obtain ⟨ha, hpost⟩ := List.cons.inj hrest
    exact ⟨by simpa using hpre, ha.symm, hpost.symm⟩

/-- The place is seen in a view of the table that keeps the rows of the query
and their keys. -/
theorem FirstAt.view {key : α → κ} {p : α → Bool} {pre post : List α} {a : α}
    (h : FirstAt key p pre a post) {key' : β → κ} {p' : β → Bool} (q : α → Bool)
    {g : α → β} (hkey : ∀ b, key' (g b) = key b) (hp : ∀ b, p' (g b) = p b) :
    FirstAt key' p' ((pre.filter q).map g) (g a) ((post.filter q).map g) where
  holds := (hp a).trans h.holds
  before := by
    rw [List.forall_mem_map]
    intro b hb hb'
    rw [hkey, hkey]
    exact h.before b (List.mem_filter.mp hb).1 (hp b ▸ hb')
  behind := by
    rw [List.forall_mem_map]
    intro b hb hb'
    rw [hkey, hkey]
    exact h.behind b (List.mem_filter.mp hb).1 (hp b ▸ hb')

/-- In a table whose keys increase, the last row has the greatest key. -/
theorem lastBy_eq_getLast? {key : α → κ} {rows : List α}
    (hrows : rows.Pairwise fun a b => key a < key b) :
    lastBy key rows = rows.getLast? := by
  rcases List.eq_nil_or_concat rows with rfl | ⟨pre, a, rfl⟩
  · rfl
  · rw [List.concat_eq_append] at hrows ⊢
    rw [List.getLast?_concat]
    apply firstBy_eq_some_iff.mpr
    refine ⟨pre, [], rfl, ?_, by simp⟩
    intro b hb
    exact OrderDual.toDual_lt_toDual.mpr
      ((List.pairwise_append.mp hrows).2.2 b hb a List.mem_cons_self)

end

/-! ### Pages -/

/-- `ORDER BY r LIMIT n`: as many rows as there are up to the limit, in order, and
no row that is left out comes before one that is not. -/
theorem page_spec (r : α → α → Prop) [DecidableRel r] [Std.Total r] [IsTrans α r]
    (rows : List α) (n : Nat) :
    let page := (rows.insertionSort r).take n
    page.length = min n rows.length ∧ page.Pairwise r ∧ (∀ a ∈ page, a ∈ rows) ∧
      ∀ b ∈ rows, b ∉ page → ∀ a ∈ page, r a b := by
  have hsorted := List.pairwise_insertionSort r rows
  refine ⟨?_, hsorted.sublist (List.take_sublist _ _), ?_, ?_⟩
  · rw [List.length_take, List.length_insertionSort]
  · exact fun a ha => (List.mem_insertionSort r).mp (List.mem_of_mem_take ha)
  · intro b hb hnot a ha
    have hmem := (List.mem_insertionSort r).mpr hb
    rw [← List.take_append_drop n (rows.insertionSort r)] at hsorted hmem
    have hrest := (List.mem_append.mp hmem).resolve_left hnot
    exact (List.pairwise_append.mp hsorted).2.2 a ha b hrest

/-- A page has no row twice. -/
theorem page_nodup {β : Type} {f : α → β} (r : α → α → Prop) [DecidableRel r]
    {rows : List α} (h : (rows.map f).Nodup) (n : Nat) :
    (((rows.insertionSort r).take n).map f).Nodup := by
  have hall : ((rows.insertionSort r).map f).Nodup :=
    ((List.perm_insertionSort r rows).map f).nodup_iff.mpr h
  exact hall.sublist ((List.take_sublist n _).map f)

/-! ### Statements -/

section

variable [DecidableEq ι]

/-- `UPDATE … WHERE id = key`. -/
def update (id : α → ι) (key : ι) (write : α → α) (rows : List α) : List α :=
  rows.map fun row => if id row = key then write row else row

/-- A primary key names one row, so an update by it rewrites one row. -/
theorem update_eq {id : α → ι} {pre post : List α} {a : α} (write : α → α)
    (hid : ((pre ++ a :: post).map id).Nodup) :
    update id (id a) write (pre ++ a :: post) = pre ++ write a :: post := by
  rw [List.map_append, List.map_cons, List.nodup_append'] at hid
  rcases hid with ⟨_, hpost, hdisjoint⟩
  have hother : ∀ rows : List α, id a ∉ rows.map id → update id (id a) write rows = rows := by
    intro rows hrows
    conv_rhs => rw [← List.map_id rows]
    apply List.map_congr_left
    intro b hb
    rw [if_neg, id_eq]
    exact fun heq => hrows (heq ▸ List.mem_map_of_mem hb)
  have hpre : id a ∉ pre.map id := fun hmem => hdisjoint hmem List.mem_cons_self
  rw [update, List.map_append, List.map_cons, if_pos rfl]
  exact congrArg₂ (· ++ write a :: ·) (hother pre hpre)
    (hother post (List.nodup_cons.mp hpost).1)

theorem map_id_update {id : α → ι} {key : ι} {write : α → α}
    (hwrite : ∀ a, id (write a) = id a) (rows : List α) :
    (update id key write rows).map id = rows.map id := by
  rw [update, List.map_map]
  apply List.map_congr_left
  intro a _
  by_cases h : id a = key
  · simp [h, hwrite]
  · simp [h]

/-- `INSERT`; `none` is a primary key that is taken. -/
def insert (id : α → ι) (row : α) (rows : List α) : Option (List α) :=
  if id row ∈ rows.map id then none else some (rows ++ [row])

theorem insert_eq_some_iff {id : α → ι} {row : α} {rows rows' : List α} :
    insert id row rows = some rows' ↔ id row ∉ rows.map id ∧ rows' = rows ++ [row] := by
  unfold insert
  by_cases h : id row ∈ rows.map id
  · simp [h]
  · simp [h, eq_comm]

end

end Sql
