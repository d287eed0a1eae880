/-
A text with slots.  Its literals begin and end with characters that no key has,
so substitution in the text is substitution in what stands in its slots, and the
keys that were replaced one after the other come out as if replaced all at once
exactly when no value is changed by the keys behind its own.
-/
import Mathlib.Data.List.Nodup
import NetplexSupport.Python.Replace

namespace Py

variable {α : Type}

/-! ### Filling -/

/-- The literals, each before what its slot holds, and the text behind them. -/
def fill (f : List α → List α) (last : List α) : List (List α × List α) → List α
  | [] => last
  | (literal, slot) :: pieces => literal ++ (f slot ++ fill f last pieces)

/-- The text begins and ends with such a character. -/
def framed (p : α → Bool) (s : List α) : Bool := s.head?.any p && s.getLast?.any p

theorem exists_cons_of_framed {p : α → Bool} {s : List α} (h : framed p s = true) :
    ∃ x t, p x = true ∧ s = x :: t := by
  cases s with
  | nil => cases h
  | cons x t => exact ⟨x, t, (Bool.and_eq_true_iff.mp h).1, rfl⟩

theorem exists_concat_of_framed {p : α → Bool} {s : List α} (h : framed p s = true) :
    ∃ x t, p x = true ∧ s = t ++ [x] := by
  rcases List.eq_nil_or_concat s with rfl | ⟨t, x, rfl⟩
  · cases h
  · refine ⟨x, t, ?_, List.concat_eq_append⟩
    simpa using (Bool.and_eq_true_iff.mp h).2

section

variable {p : α → Bool} {last : List α} {pieces : List (List α × List α)}

theorem exists_cons_fill (f : List α → List α)
    (hpieces : ∀ piece ∈ pieces, framed p piece.1 = true) (hlast : framed p last = true) :
    ∃ x t, p x = true ∧ fill f last pieces = x :: t := by
  cases pieces with
  | nil => exact exists_cons_of_framed hlast
  | cons piece pieces =>
      obtain ⟨x, t, hx, hpiece⟩ := exists_cons_of_framed (hpieces piece List.mem_cons_self)
      exact ⟨x, t ++ (f piece.2 ++ fill f last pieces), hx, by rw [fill, hpiece]; rfl⟩

theorem fill_congr {f g : List α → List α} (h : ∀ piece ∈ pieces, f piece.2 = g piece.2) :
    fill f last pieces = fill g last pieces := by
  induction pieces with
  | nil => rfl
  | cons piece pieces ih =>
      rw [List.forall_mem_cons] at h
      rw [fill, fill, h.1, ih h.2]

/-- Of two texts before a character of the kind, the one with no fewer of these
characters is not the shorter one. -/
theorem append_eq_of_countP_le {s t u v : List α} {x y : α} (hx : p x = true)
    (hcount : t.countP p ≤ s.countP p) (h : s ++ x :: u = t ++ y :: v) :
    ∃ w, s = t ++ w ∧ y :: v = w ++ x :: u := by
  rcases List.append_eq_append_iff.mp h with ⟨w, rfl, hw⟩ | ⟨w, hs, hw⟩
  · cases w with
    | nil => exact ⟨[], by simp, hw.symm⟩
    | cons z w =>
        obtain ⟨rfl, -⟩ := List.cons.inj hw
        rw [List.countP_append, List.countP_cons, if_pos hx] at hcount
        omega
  · exact ⟨w, hs, hw⟩

theorem countP_fill_le {f g : List α → List α}
    (hcount : ∀ piece ∈ pieces, (g piece.2).countP p ≤ (f piece.2).countP p) :
    (fill g last pieces).countP p ≤ (fill f last pieces).countP p := by
  induction pieces with
  | nil => exact Nat.le_refl _
  | cons piece pieces ih =>
      have hrest := ih fun piece hpiece => hcount piece (List.mem_cons_of_mem _ hpiece)
      have hslot := hcount piece List.mem_cons_self
      simp only [fill, List.countP_append]
      omega

/-- Fillings of which one has no fewer of the characters in any slot agree only
slot by slot. -/
theorem fill_inj {f g : List α → List α}
    (hpieces : ∀ piece ∈ pieces, framed p piece.1 = true) (hlast : framed p last = true)
    (hcount : ∀ piece ∈ pieces, (g piece.2).countP p ≤ (f piece.2).countP p)
    (h : fill f last pieces = fill g last pieces) : ∀ piece ∈ pieces, f piece.2 = g piece.2 := by
  induction pieces with
  | nil => simp
  | cons piece pieces ih =>
      have hpieces' := fun piece' h' => hpieces piece' (List.mem_cons_of_mem piece h')
      have hcount' := fun piece' h' => hcount piece' (List.mem_cons_of_mem piece h')
      have htail : f piece.2 ++ fill f last pieces = g piece.2 ++ fill g last pieces :=
        List.append_cancel_left h
      obtain ⟨x, u, hx, hu⟩ := exists_cons_fill f hpieces' hlast
      obtain ⟨y, v, hy, hv⟩ := exists_cons_fill g hpieces' hlast
      have hslot : f piece.2 = g piece.2 := by
        rw [hu, hv] at htail
        obtain ⟨w, hw, hrest⟩ :=
          append_eq_of_countP_le hx (hcount piece List.mem_cons_self) htail
        cases w with
        | nil => rw [hw, List.append_nil]
        | cons z w =>
            -- the rest behind the slot would have one of the characters less
            have hle : (fill g last pieces).countP p ≤ (fill f last pieces).countP p :=
              countP_fill_le hcount'
            have hlen := congrArg (List.countP p) hrest
            obtain ⟨rfl, -⟩ := List.cons.inj hrest
            rw [← hv, List.cons_append, List.countP_cons, List.countP_append, ← hu,
              if_pos hy] at hlen
            omega
      rw [hslot] at htail
      rw [List.forall_mem_cons]
      exact ⟨hslot, ih hpieces' hcount' (List.append_cancel_left htail)⟩

end

/-! ### Keys -/

/-- Keys that differ and of which none is empty, is part of another, or has one of
the characters. -/
structure Code (p : α → Bool) (keys : List (List α)) : Prop where
  nodup : keys.Nodup
  alone : ∀ key ∈ keys, ∀ key' ∈ keys, key <:+: key' → key = key'
  nonempty : ∀ key ∈ keys, key ≠ []
  plain : ∀ key ∈ keys, ∀ x ∈ key, p x = false

/-- A text whose slots are the keys, each at least once: its literals hold no key
and are framed by characters that no key has. -/
structure Template (p : α → Bool) (keys : List (List α)) where
  pieces : List (List α × List α)
  last : List α
  framed_pieces : ∀ piece ∈ pieces, framed p piece.1 = true
  framed_last : framed p last = true
  plain_pieces : ∀ piece ∈ pieces, ∀ key ∈ keys, ¬ key <:+: piece.1
  plain_last : ∀ key ∈ keys, ¬ key <:+: last
  slots : ∀ key, (∃ piece ∈ pieces, piece.2 = key) ↔ key ∈ keys

/-- The text, with the keys in their slots. -/
def Template.text {p : α → Bool} {keys : List (List α)} (T : Template p keys) : List α :=
  fill id T.last T.pieces

variable [DecidableEq α]

/-- `for old, new in table: s = s.replace(old, new)`. -/
def replaceEach (table : List (List α × List α)) (s : List α) : List α :=
  table.foldl (fun s e => replaceAll e.1 e.2 s) s

@[simp] theorem replaceEach_cons (e : List α × List α) (table : List (List α × List α))
    (s : List α) : replaceEach (e :: table) s = replaceEach table (replaceAll e.1 e.2 s) := rfl

theorem replaceEach_append (pre post : List (List α × List α)) (s : List α) :
    replaceEach (pre ++ post) s = replaceEach post (replaceEach pre s) :=
  List.foldl_append

section

variable {p : α → Bool} {table : List (List α × List α)}

/-- A text without the keys stays. -/
theorem replaceEach_eq_self {s : List α} (h : ∀ e ∈ table, ¬ e.1 <:+: s) :
    replaceEach table s = s := by
  induction table with
  | nil => rfl
  | cons e table ih =>
      rw [List.forall_mem_cons] at h
      have hself : replaceAll e.1 e.2 s = s := subst_eq_self (by simpa using h.1)
      rw [replaceEach_cons, hself, ih h.2]

/-- Each value stays as it is when the keys behind its own are replaced in it. -/
def Settled : List (List α × List α) → Prop
  | [] => True
  | e :: table => replaceEach table e.2 = e.2 ∧ Settled table

instance Settled.decidable : DecidablePred (Settled (α := α))
  | [] => isTrue trivial
  | e :: table =>
      have := Settled.decidable table
      inferInstanceAs (Decidable (replaceEach table e.2 = e.2 ∧ Settled table))

theorem settled_iff {table : List (List α × List α)} :
    Settled table ↔ ∀ pre e post, table = pre ++ e :: post → replaceEach post e.2 = e.2 := by
  induction table with
  | nil => simp [Settled]
  | cons d table ih =>
      rw [Settled, ih]
      constructor
      · rintro ⟨hd, htable⟩ pre e post h
        rcases List.cons_eq_append_iff.mp h with ⟨rfl, hpost⟩ | ⟨pre, rfl, hpre⟩
        · obtain ⟨rfl, rfl⟩ := List.cons.inj hpost
          exact hd
        · exact htable pre e post hpre
      · intro h
        refine ⟨h [] d table rfl, fun pre e post htable => ?_⟩
        exact h (d :: pre) e post (htable ▸ rfl)

/-- Values that hold no key behind their own are settled. -/
theorem settled_of_free {table : List (List α × List α)}
    (h : table.Pairwise fun d e => ¬ e.1 <:+: d.2) : Settled table := by
  induction table with
  | nil => trivial
  | cons d table ih =>
      rw [List.pairwise_cons] at h
      exact ⟨replaceEach_eq_self h.1, ih h.2⟩

/-- Nor does replacing keys remove any of the characters. -/
theorem countP_le_replaceEach (hp : ∀ e ∈ table, e.1 ≠ [] ∧ ∀ x ∈ e.1, p x = false)
    (s : List α) : s.countP p ≤ (replaceEach table s).countP p := by
  induction table generalizing s with
  | nil => exact Nat.le_refl _
  | cons e table ih =>
      rw [List.forall_mem_cons] at hp
      have hstep : s.countP p ≤ (replaceAll e.1 e.2 s).countP p :=
        countP_le_subst (by simpa using hp.1) s
      exact hstep.trans (ih hp.2 (replaceAll e.1 e.2 s))

/-! ### Substitution in the slots -/

theorem subst_fill {f : List α → List α} {last : List α} {pieces : List (List α × List α)}
    (hforeign : ∀ x, p x = true → Foreign table x)
    (hpieces : ∀ piece ∈ pieces, framed p piece.1 = true ∧ subst table piece.1 = piece.1)
    (hlast : framed p last = true ∧ subst table last = last) :
    subst table (fill f last pieces) = fill (fun slot => subst table (f slot)) last pieces := by
  induction pieces with
  | nil => exact hlast.2
  | cons piece pieces ih =>
      rw [List.forall_mem_cons] at hpieces
      obtain ⟨y, literal, hy, hpiece⟩ := exists_concat_of_framed hpieces.1.1
      obtain ⟨x, rest, hx, hrest⟩ := exists_cons_fill f (fun q hq => (hpieces.2 q hq).1) hlast.1
      have hcut : subst table (f piece.2 ++ fill f last pieces) =
          subst table (f piece.2) ++ subst table (fill f last pieces) := by
        rw [hrest, subst_append_cons (hforeign x hx)]
        exact congrArg (subst table (f piece.2) ++ ·)
          (subst_append_cons (hforeign x hx) [] rest).symm
      calc subst table (fill f last (piece :: pieces))
          = subst table ((literal ++ [y]) ++ (f piece.2 ++ fill f last pieces)) := by
            rw [← hpiece]
            rfl
        _ = subst table (literal ++ [y]) ++ subst table (f piece.2 ++ fill f last pieces) :=
            subst_append_of_last (hforeign y hy) literal _
        _ = piece.1 ++ (subst table (f piece.2) ++
              fill (fun slot => subst table (f slot)) last pieces) := by
            rw [← hpiece, hpieces.1.2, hcut, ih hpieces.2]

namespace Template

variable {keys : List (List α)} (T : Template p keys)

/-- Substitution of keys of the template reaches its slots only. -/
theorem subst_fill (f : List α → List α) (hkeys : Code p keys) (htable : ∀ e ∈ table, e.1 ∈ keys) :
    subst table (fill f T.last T.pieces) =
      fill (fun slot => subst table (f slot)) T.last T.pieces := by
  refine Py.subst_fill (p := p) ?_ (fun piece hpiece => ⟨T.framed_pieces piece hpiece, ?_⟩)
    ⟨T.framed_last, ?_⟩
  · intro x hx e he
    refine ⟨hkeys.nonempty _ (htable e he), fun hmem => ?_⟩
    rw [hkeys.plain _ (htable e he) x hmem] at hx
    cases hx
  · exact subst_eq_self fun e he => T.plain_pieces piece hpiece _ (htable e he)
  · exact subst_eq_self fun e he => T.plain_last _ (htable e he)

theorem replaceEach_fill (f : List α → List α) (hkeys : Code p keys)
    (htable : ∀ e ∈ table, e.1 ∈ keys) :
    replaceEach table (fill f T.last T.pieces) =
      fill (fun slot => replaceEach table (f slot)) T.last T.pieces := by
  induction table generalizing f with
  | nil => rfl
  | cons e table ih =>
      rw [List.forall_mem_cons] at htable
      rw [replaceEach_cons, replaceAll, T.subst_fill f hkeys (by simpa using htable.1)]
      exact ih _ htable.2

end Template

section

variable {pre post : List (List α × List α)} {e : List α × List α}

omit [DecidableEq α] in
/-- No key is part of one behind it. -/
theorem Code.apart (hkeys : Code p ((pre ++ e :: post).map Prod.fst)) :
    ∀ d ∈ pre, ¬ d.1 <:+: e.1 := by
  intro d hd hpart
  have hnodup := hkeys.nodup
  rw [List.map_append, List.map_cons, List.nodup_middle, List.nodup_cons, List.mem_append] at hnodup
  have heq : d.1 = e.1 := hkeys.alone d.1 (List.mem_map_of_mem (by simp [hd])) e.1
    (List.mem_map_of_mem (by simp)) hpart
  exact hnodup.1 (Or.inl (heq ▸ List.mem_map_of_mem hd))

/-- All at once, a key becomes its value. -/
theorem subst_of_code (hkeys : Code p ((pre ++ e :: post).map Prod.fst)) :
    subst (pre ++ e :: post) e.1 = e.2 := by
  refine subst_key (hkeys.nonempty _ (List.mem_map_of_mem (by simp))) ?_
  have hpre : pre.find? (fun d => d.1.isPrefixOf e.1) = none := by
    rw [List.find?_eq_none]
    intro d hd hstart
    exact hkeys.apart d hd (List.isPrefixOf_iff_prefix.mp hstart).isInfix
  rw [keyAt, List.find?_append, hpre, Option.none_or, List.find?_cons_of_pos (by simp)]

/-- One after the other, a key becomes its value, and the keys behind it are
replaced in that. -/
theorem replaceEach_of_code (hkeys : Code p ((pre ++ e :: post).map Prod.fst)) :
    replaceEach (pre ++ e :: post) e.1 = replaceEach post e.2 := by
  have hvalue : replaceAll e.1 e.2 e.1 = e.2 :=
    subst_key (hkeys.nonempty _ (List.mem_map_of_mem (by simp)))
      (by simp [keyAt])
  rw [replaceEach_append, replaceEach_eq_self hkeys.apart, replaceEach_cons, hvalue]

end

/-- The keys of a template that are replaced one after the other come out as if
replaced all at once exactly when the values are settled. -/
theorem Template.replaceEach_eq_subst_iff (T : Template p (table.map Prod.fst))
    (hkeys : Code p (table.map Prod.fst)) :
    replaceEach table T.text = subst table T.text ↔ Settled table := by
  have htable : ∀ e ∈ table, e.1 ∈ table.map Prod.fst := fun e he => List.mem_map_of_mem he
  have hslot : ∀ piece ∈ T.pieces, ∃ pre e post, table = pre ++ e :: post ∧ piece.2 = e.1 := by
    intro piece hpiece
    obtain ⟨e, he, heq⟩ := List.mem_map.mp ((T.slots piece.2).mp ⟨piece, hpiece, rfl⟩)
    obtain ⟨pre, post, hsplit⟩ := List.append_of_mem he
    exact ⟨pre, e, post, hsplit, heq.symm⟩
  rw [settled_iff, Template.text, T.subst_fill id hkeys htable, T.replaceEach_fill id hkeys htable]
  constructor
  · intro h pre e post hsplit
    have hcount : ∀ piece ∈ T.pieces, (subst table (id piece.2)).countP p ≤
        (replaceEach table (id piece.2)).countP p := by
      intro piece hpiece
      obtain ⟨pre, d, post, hd, heq⟩ := hslot piece hpiece
      subst hd
      rw [id, heq, subst_of_code hkeys, replaceEach_of_code hkeys]
      exact countP_le_replaceEach (fun d' hd' =>
        ⟨hkeys.nonempty _ (List.mem_map_of_mem (by simp [hd'])),
          hkeys.plain _ (List.mem_map_of_mem (by simp [hd']))⟩) d.2
    obtain ⟨piece, hpiece, heq⟩ := (T.slots e.1).mpr (htable e (by simp [hsplit]))
    have hsame := fill_inj T.framed_pieces T.framed_last hcount h piece hpiece
    subst hsplit
    rw [heq] at hsame
    exact (replaceEach_of_code hkeys).symm.trans (hsame.trans (subst_of_code hkeys))
  · intro h
    refine fill_congr fun piece hpiece => ?_
    obtain ⟨pre, e, post, hsplit, heq⟩ := hslot piece hpiece
    have hvalue := h pre e post hsplit
    subst hsplit
    rw [heq]
    exact (replaceEach_of_code hkeys).trans (hvalue.trans (subst_of_code hkeys).symm)

end

end Py
