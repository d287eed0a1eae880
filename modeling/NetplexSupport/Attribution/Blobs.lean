/-
The matches of the leak scanner in a text.  A match is four braces in a row,
two opening and two closing ones, so it crosses no nested object: behind the
last brace of a text a licence token can only add its own signature block.
-/
import NetplexSupport.Tools.AttributeLeak

namespace NetplexSupport

open Py

/-! ### Cutting a text at a brace -/

section

variable {α : Type} {p : α → Bool}

/-- A character of two texts in a row stands in one of them. -/
theorem cut_append {a b u v : List α} {x : α} (h : a ++ b = u ++ x :: v) :
    (∃ v', a = u ++ x :: v' ∧ v = v' ++ b) ∨ ∃ u', u = a ++ u' ∧ b = u' ++ x :: v := by
  rcases List.append_eq_append_iff.mp h with ⟨u', hu, hb⟩ | ⟨w, ha, hw⟩
  · exact Or.inr ⟨u', hu, hb⟩
  · cases w with
    | nil => exact Or.inr ⟨[], by simpa using ha.symm, hw.symm⟩
    | cons y v' =>
        obtain ⟨rfl, hv⟩ := List.cons.inj hw
        exact Or.inl ⟨v', ha, hv⟩

theorem cut_right {a b u v : List α} {x : α} (hx : x ∉ a) (h : a ++ b = u ++ x :: v) :
    ∃ u', u = a ++ u' ∧ b = u' ++ x :: v := by
  rcases cut_append h with ⟨v', rfl, _⟩ | hright
  · simp at hx
  · exact hright

theorem cut_left {a b u v : List α} {x : α} (hx : x ∉ b) (h : a ++ b = u ++ x :: v) :
    ∃ v', a = u ++ x :: v' ∧ v = v' ++ b := by
  rcases cut_append h with hleft | ⟨u', _, rfl⟩
  · exact hleft
  · simp at hx

/-- The first character outside a class is where it is. -/
theorem cut_first {a a' r r' : List α} {x x' : α} (ha : ∀ c ∈ a, p c = true)
    (ha' : ∀ c ∈ a', p c = true) (hx : p x = false) (hx' : p x' = false)
    (h : a ++ x :: r = a' ++ x' :: r') : a = a' ∧ x = x' ∧ r = r' := by
  induction a generalizing a' with
  | nil =>
      cases a' with
      | nil =>
          obtain ⟨rfl, rfl⟩ := List.cons.inj h
          exact ⟨rfl, rfl, rfl⟩
      | cons c a' =>
          obtain ⟨rfl, _⟩ := List.cons.inj h
          rw [ha' x List.mem_cons_self] at hx
          cases hx
  | cons c a ih =>
      rw [List.forall_mem_cons] at ha
      cases a' with
      | nil =>
          obtain ⟨rfl, _⟩ := List.cons.inj h
          rw [ha.1] at hx'
          cases hx'
      | cons c' a' =>
          rw [List.forall_mem_cons] at ha'
          obtain ⟨rfl, htail⟩ := List.cons.inj h
          obtain ⟨rfl, hrest⟩ := ih ha.2 ha'.2 htail
          exact ⟨rfl, hrest⟩

/-- So is the last one. -/
theorem cut_last {a a' r r' : List α} {x x' : α} (hr : ∀ c ∈ r, p c = true)
    (hr' : ∀ c ∈ r', p c = true) (hx : p x = false) (hx' : p x' = false)
    (h : a ++ x :: r = a' ++ x' :: r') : a = a' ∧ x = x' ∧ r = r' := by
  have hreverse : r.reverse ++ x :: a.reverse = r'.reverse ++ x' :: a'.reverse := by
    simpa using congrArg List.reverse h
  obtain ⟨hrr, hxx, haa⟩ := cut_first (by simpa using hr) (by simpa using hr') hx hx' hreverse
  exact ⟨List.reverse_inj.mp haa, hxx, List.reverse_inj.mp hrr⟩

end

/-! ### The shape of a match -/

/-- No braces. -/
def BraceFree (s : Bytes) : Prop := ∀ b ∈ s, notBrace b = true

/-- The braces of a text, in order. -/
def braces (s : Bytes) : Bytes := s.filter fun b => !notBrace b

theorem braces_append (s t : Bytes) : braces (s ++ t) = braces s ++ braces t :=
  List.filter_append ..

theorem braces_eq_nil {s : Bytes} : braces s = [] ↔ BraceFree s := by
  simp [braces, BraceFree, List.filter_eq_nil_iff]

theorem braces_open (s : Bytes) : braces (123 :: s) = 123 :: braces s := rfl

theorem braces_close (s : Bytes) : braces (125 :: s) = 125 :: braces s := rfl

/-- `{a{b}c}`. -/
def nested (a b c : Bytes) : Bytes := 123 :: (a ++ 123 :: (b ++ 125 :: (c ++ [125])))

theorem braces_nested {a b c : Bytes} (ha : BraceFree a) (hb : BraceFree b)
    (hc : BraceFree c) : braces (nested a b c) = [123, 123, 125, 125] := by
  rw [nested, braces_open, braces_append, braces_open, braces_append, braces_close,
    braces_append, braces_eq_nil.mpr ha, braces_eq_nil.mpr hb, braces_eq_nil.mpr hc]
  rfl

/-- No class of the two inner parts of the pattern holds a brace. -/
theorem accepts_notBrace {item : Regex.Item UInt8} (hitem : item ∈ outerPattern ++ innerPattern)
    {b : UInt8} (hb : item.accepts b = true) : notBrace b = true := by
  have hbraces : ∀ item ∈ outerPattern ++ innerPattern,
      Regex.Item.accepts item 123 = false ∧ Regex.Item.accepts item 125 = false := by
    decide +kernel
  obtain ⟨hopen, hclose⟩ := hbraces item hitem
  simp only [notBrace, Bool.and_eq_true, decide_eq_true_eq]
  constructor
  · rintro rfl
    rw [hopen] at hb
    cases hb
  · rintro rfl
    rw [hclose] at hb
    cases hb

theorem matches_leakPattern {m : Bytes} (h : Regex.Matches leakPattern m) :
    ∃ a b c, m = nested a b c ∧ BraceFree a ∧ BraceFree b ∧ BraceFree c := by
  obtain ⟨_, _, rfl, hopen, h⟩ := h.split
  obtain ⟨a, _, rfl, ha, h⟩ := h.split
  obtain ⟨_, _, rfl, hopen', h⟩ := h.split
  obtain ⟨b, _, rfl, hb, h⟩ := h.split
  obtain ⟨_, _, rfl, hclose, h⟩ := h.split
  obtain ⟨c, _, rfl, hc, hclose'⟩ := h.split
  obtain ⟨x, hx, rfl⟩ := hopen.one_singleton
  obtain ⟨x', hx', rfl⟩ := hopen'.one_singleton
  obtain ⟨y, hy, rfl⟩ := hclose.one_singleton
  obtain ⟨y', hy', rfl⟩ := hclose'.one_singleton
  obtain rfl : x = 123 := by simpa using hx
  obtain rfl : x' = 123 := by simpa using hx'
  obtain rfl : y = 125 := by simpa using hy
  obtain rfl : y' = 125 := by simpa using hy'
  refine ⟨a, b, c, rfl, ?_, ?_, ?_⟩
  · exact ha.forall_mem fun item hitem _ => accepts_notBrace (List.mem_append_left _ hitem)
  · exact hb.forall_mem fun item hitem _ => accepts_notBrace (List.mem_append_right _ hitem)
  · exact hc.forall_mem fun item hitem _ h => by
      obtain rfl := List.mem_singleton.mp hitem
      exact h

/-- A signed object with one space behind its colons, as `json.dumps` writes it. -/
theorem matches_signed {a b b' c : Bytes} (ha : BraceFree a) (hb : BraceFree b)
    (hb' : BraceFree b') (hc : BraceFree c) :
    Regex.Matches leakPattern (nested (a ++ asciiBytes "\"signature\": ")
      (b ++ asciiBytes "\"alg\": \"ed25519\"" ++ b') c) := by
  have hmark : ∀ {x : UInt8}, Regex.Matches [.one (· = x)] [x] := fun {x} =>
    .one (decide_eq_true rfl) .nil
  have hcolon : Regex.Matches [.many isSpaceByte, .one (· = 58), .many isSpaceByte] [58, 32] :=
    .stop (.one (by decide) (.more (by decide) (.stop .nil)))
  have houter : Regex.Matches outerPattern ((a ++ asciiBytes "\"signature\"") ++ [58, 32]) :=
    ((Regex.Matches.class ha).append (Regex.Matches.text (asciiBytes "\"signature\""))).append
      hcolon
  have hinner : Regex.Matches innerPattern
      ((((b ++ asciiBytes "\"alg\"") ++ [58, 32]) ++ asciiBytes "\"ed25519\"") ++ b') :=
    ((((Regex.Matches.class hb).append (Regex.Matches.text (asciiBytes "\"alg\""))).append
      hcolon).append (Regex.Matches.text (asciiBytes "\"ed25519\""))).append
        (Regex.Matches.class hb')
  have hsignature : asciiBytes "\"signature\": " = asciiBytes "\"signature\"" ++ [58, 32] := by
    decide +kernel
  have halg : asciiBytes "\"alg\": \"ed25519\"" =
      (asciiBytes "\"alg\"" ++ [58, 32]) ++ asciiBytes "\"ed25519\"" := by
    decide +kernel
  have hparts : nested (a ++ asciiBytes "\"signature\": ")
      (b ++ asciiBytes "\"alg\": \"ed25519\"" ++ b') c =
      [123] ++ (((a ++ asciiBytes "\"signature\"") ++ [58, 32]) ++ ([123] ++
        (((((b ++ asciiBytes "\"alg\"") ++ [58, 32]) ++ asciiBytes "\"ed25519\"") ++ b') ++
          ([125] ++ (c ++ [125]))))) := by
    rw [hsignature, halg, nested]
    simp only [List.append_assoc, List.singleton_append]
  rw [hparts]
  exact hmark.append (houter.append (hmark.append (hinner.append
    (hmark.append ((Regex.Matches.class hc).append hmark)))))

theorem leakPattern_unambiguous : Regex.Unambiguous leakPattern := by
  intro m m' rest rest' h h' heq
  obtain ⟨a, b, c, rfl, ha, hb, hc⟩ := matches_leakPattern h
  obtain ⟨a', b', c', rfl, ha', hb', hc'⟩ := matches_leakPattern h'
  simp only [nested, List.cons_append, List.append_assoc, List.nil_append] at heq
  obtain ⟨_, heq⟩ := List.cons.inj heq
  obtain ⟨rfl, _, heq⟩ := cut_first ha ha' rfl rfl heq
  obtain ⟨rfl, _, heq⟩ := cut_first hb hb' rfl rfl heq
  obtain ⟨rfl, _, _⟩ := cut_first hc hc' rfl rfl heq
  rfl

/-- A text of less than four braces has no match. -/
theorem finditer_of_braces {s : Bytes} (h : (braces s).length < 4) :
    Regex.finditer leakPattern s = [] := by
  apply Regex.finditer_eq_nil
  rintro u m v rfl hm
  obtain ⟨a, b, c, rfl, ha, hb, hc⟩ := matches_leakPattern hm
  rw [braces_append, braces_append, braces_nested ha hb hc] at h
  simp only [List.length_append, List.length_cons] at h
  omega

/-! ### Behind the last brace -/

/-- Where four braces in a row end with the closing two of three, they begin
with one more. -/
theorem no_brace_left {v m r : Bytes} (hfour : v ++ (m ++ [125]) = [123, 125, 125])
    (hthree : m ++ 125 :: r = [123, 125, 125]) : v = [] ∧ r = [] := by
  rcases m with _ | ⟨x, _ | ⟨x', m⟩⟩
  · cases hthree
  · obtain ⟨rfl, _⟩ := List.cons.inj hthree
    rcases v with _ | ⟨z, _ | ⟨z', v⟩⟩
    · cases hfour
    · cases hfour
    · have hlength := congrArg List.length hfour
      simp only [List.length_append, List.length_cons, List.length_nil] at hlength
      omega
  · have hlength := congrArg List.length hfour
    have hlength' := congrArg List.length hthree
    simp only [List.length_append, List.length_cons, List.length_nil] at hlength hlength'
    exact ⟨List.eq_nil_of_length_eq_zero (by omega), List.eq_nil_of_length_eq_zero (by omega)⟩

section

variable {a b c post : Bytes}

/-- A match that runs into `a{b}c}` from before it begins at the last brace in
front of it and ends with it. -/
theorem crossing {v m rest : Bytes} (ha : BraceFree a) (hb : BraceFree b) (hc : BraceFree c)
    (hpost : BraceFree post) (hv : v ≠ []) (hm : m ≠ [])
    (hy : a ++ 123 :: (b ++ 125 :: (c ++ 125 :: post)) = m ++ rest)
    (h : Regex.Matches leakPattern (v ++ m)) :
    ∃ v', v = 123 :: v' ∧ BraceFree v' ∧ rest = post ∧
      v ++ m = nested (v' ++ a) b c := by
  obtain ⟨a', b', c', hmatch, ha', hb', hc'⟩ := matches_leakPattern h
  obtain ⟨x, v', rfl⟩ := List.exists_cons_of_ne_nil hv
  obtain ⟨m', y, rfl⟩ : ∃ m' y, m = m' ++ [y] := by
    rcases List.eq_nil_or_concat m with rfl | ⟨m', y, rfl⟩
    · exact absurd rfl hm
    · exact ⟨m', y, List.concat_eq_append⟩
  -- Four braces from `v` on, and three behind the cut.
  have hfour : braces (x :: v') ++ braces (m' ++ [y]) = [123, 123, 125, 125] := by
    rw [← braces_append, hmatch, braces_nested ha' hb' hc']
  have hthree : braces (m' ++ [y]) ++ braces rest = [123, 125, 125] := by
    rw [← braces_append, ← hy, braces_append, braces_open, braces_append, braces_close,
      braces_append, braces_close, braces_eq_nil.mpr ha, braces_eq_nil.mpr hb,
      braces_eq_nil.mpr hc, braces_eq_nil.mpr hpost]
    rfl
  obtain ⟨rfl, htail⟩ := List.cons.inj hmatch
  have hlast : (v' ++ m') ++ [y] = (a' ++ 123 :: (b' ++ 125 :: c')) ++ [125] := by
    simpa using htail
  obtain rfl : y = 125 := by simpa using (List.append_inj' hlast rfl).2
  obtain ⟨hfree, hrest⟩ : braces v' = [] ∧ braces rest = [] := by
    rw [braces_append] at hfour hthree
    rw [List.append_assoc] at hthree
    exact no_brace_left (List.cons.inj hfour).2 hthree
  have hy' : m' ++ 125 :: rest = (a ++ 123 :: (b ++ 125 :: c)) ++ 125 :: post := by
    simpa using hy.symm
  obtain ⟨rfl, _, rfl⟩ := cut_last (braces_eq_nil.mp hrest) hpost rfl rfl hy'
  exact ⟨v', rfl, braces_eq_nil.mp hfree, rfl, by simp [nested]⟩

/-- Behind a text, `a{b}c}` adds at most one match to those of the text, and
that one begins at the last brace of the text. -/
theorem finditer_behind (ha : BraceFree a) (hb : BraceFree b) (hc : BraceFree c)
    (hpost : BraceFree post) (x : Bytes) :
    let y := a ++ 123 :: (b ++ 125 :: (c ++ 125 :: post))
    Regex.finditer leakPattern (x ++ y) = Regex.finditer leakPattern x ∨
      ∃ u v, x = u ++ 123 :: v ∧ BraceFree v ∧
        Regex.finditer leakPattern (x ++ y) =
          Regex.finditer leakPattern x ++ [nested (v ++ a) b c] := by
  intro y
  have hempty : ¬ Regex.Matches leakPattern [] := by
    intro h
    obtain ⟨_, _, _, hnil, _⟩ := matches_leakPattern h
    cases hnil
  have hy : Regex.finditer leakPattern y = [] := by
    apply finditer_of_braces
    rw [braces_append, braces_open, braces_append, braces_close, braces_append, braces_close,
      braces_eq_nil.mpr ha, braces_eq_nil.mpr hb, braces_eq_nil.mpr hc,
      braces_eq_nil.mpr hpost]
    decide
  have hcross : ∀ u v m rest, x = u ++ v → v ≠ [] → m ≠ [] → y = m ++ rest →
      Regex.Matches leakPattern (v ++ m) →
      Regex.finditer leakPattern v = [] ∧ Regex.finditer leakPattern rest = [] := by
    intro u v m rest _ hv hm hym hmatch
    obtain ⟨v', rfl, hv', rfl, _⟩ := crossing ha hb hc hpost hv hm hym hmatch
    constructor
    · apply finditer_of_braces
      rw [braces_open, braces_eq_nil.mpr hv']
      decide
    · apply finditer_of_braces
      rw [braces_eq_nil.mpr hpost]
      decide
  rcases Regex.finditer_append leakPattern_unambiguous hempty x y hcross hy with
    hsame | ⟨u, v, m, rest, hx, hv, hm, hym, hmatch, hfound⟩
  · exact Or.inl hsame
  · obtain ⟨v', rfl, hv', _, hnested⟩ := crossing ha hb hc hpost hv hm hym hmatch
    exact Or.inr ⟨u, v', hx, hv', hnested ▸ hfound⟩

end

end NetplexSupport
