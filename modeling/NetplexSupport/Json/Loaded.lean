/-
What `json.loads` returns: the scanner consumes a non-empty prefix of its text,
so the fuel never runs out, and on encodable text every dict of the result has
distinct keys and no string holds a surrogate pair written as two characters.
-/
import NetplexSupport.Json.RoundTrip

namespace Py

variable {F : Type}

/-- The text left over is a proper suffix. -/
def Leaves (s r : Str) : Prop := ∃ pre, pre ≠ [] ∧ s = pre ++ r

theorem Leaves.length_lt {s r : Str} (h : Leaves s r) : r.length < s.length := by
  obtain ⟨pre, hpre, rfl⟩ := h
  have := List.length_pos_iff.mpr hpre
  rw [List.length_append]
  omega

theorem Leaves.head (c : CodePoint) (r : Str) : Leaves (c :: r) r :=
  ⟨[c], by simp, rfl⟩

theorem Leaves.of_suffix {s t r : Str} (h : Leaves t r) (hst : t <:+ s) : Leaves s r := by
  obtain ⟨pre, hpre, rfl⟩ := h
  obtain ⟨more, rfl⟩ := hst
  exact ⟨more ++ pre, by simp [hpre], by simp⟩

theorem Leaves.suffix {s r : Str} (h : Leaves s r) : r <:+ s := by
  obtain ⟨pre, -, rfl⟩ := h
  exact List.suffix_append pre r

theorem Leaves.trans_suffix {s t r : Str} (h : Leaves s t) (hr : r <:+ t) :
    Leaves s r := by
  obtain ⟨pre, hpre, rfl⟩ := h
  obtain ⟨more, rfl⟩ := hr
  exact ⟨pre ++ more, by simp [hpre], by simp⟩

theorem skipSpace_suffix (s : Str) : skipSpace s <:+ s := List.dropWhile_suffix _

/-! ### Tokens consume text -/

/-- Where a unit read from a text comes from: a character of the text, a short
escape or four hexadecimal digits. -/
def StrUnit.From (s : Str) : StrUnit → Prop
  | .raw c => c ∈ s ∨ isSurrogate c = false
  | .esc u => u < 0x10000

theorem StrUnit.From.mono {s t : Str} (hst : s <:+ t) {u : StrUnit}
    (hu : u.From s) : u.From t := by
  cases u with
  | raw c => exact hu.imp (fun hmem => hst.subset hmem) id
  | esc v => exact hu

theorem unitsFrom_cons {s rest : Str} {u : StrUnit} {us : List StrUnit}
    (hus : ∀ x ∈ us, x.From rest) (hrest : rest <:+ s) (hu : u.From s) :
    ∀ x ∈ u :: us, x.From s := by
  intro x hx
  rcases List.mem_cons.mp hx with rfl | h
  · exact hu
  · exact (hus x h).mono hrest

theorem hexValue_lt {c : CodePoint} {n : Nat} (h : hexValue c = some n) : n < 16 := by
  unfold hexValue at h
  split_ifs at h <;> obtain rfl := Option.some.inj h <;> omega

theorem hex4_lt {w x y z : CodePoint} {n : Nat} (h : hex4 w x y z = some n) :
    n < 0x10000 := by
  simp only [hex4, Option.bind_eq_bind, Option.bind_eq_some_iff, Option.pure_def,
    Option.some_inj] at h
  obtain ⟨a, ha, b, hb, c, hc, d, hd, rfl⟩ := h
  have := hexValue_lt ha
  have := hexValue_lt hb
  have := hexValue_lt hc
  have := hexValue_lt hd
  omega

theorem shortEscape_not_surrogate {e c : CodePoint} (h : shortEscape e = some c) :
    isSurrogate c = false := by
  unfold shortEscape at h
  split_ifs at h <;> obtain rfl := Option.some.inj h <;> decide

theorem scanUnits_leaves {s r : Str} {us : List StrUnit}
    (h : scanUnits s = some (us, r)) : Leaves s r ∧ ∀ x ∈ us, x.From s := by
  fun_induction scanUnits s generalizing us with
  | case1 => cases h
  | case2 rest =>
      simp only [Option.some.injEq, Prod.mk.injEq] at h
      obtain ⟨rfl, rfl⟩ := h
      exact ⟨Leaves.head _ rest, by simp⟩
  | case3 => cases h
  | case4 e rest c hshort _ ih =>
      simp only [Option.map_eq_some_iff, Prod.mk.injEq] at h
      obtain ⟨⟨us', r'⟩, hscan, rfl, rfl⟩ := h
      obtain ⟨hleaves, hraw⟩ := ih hscan
      have hsuffix : rest <:+ ch '\\' :: e :: rest :=
        (List.suffix_cons e rest).trans (List.suffix_cons _ _)
      exact ⟨hleaves.of_suffix hsuffix,
        unitsFrom_cons hraw hsuffix (Or.inr (shortEscape_not_surrogate hshort))⟩
  | case5 w x y z rest u hhex _ _ ih =>
      simp only [Option.map_eq_some_iff, Prod.mk.injEq] at h
      obtain ⟨⟨us', r'⟩, hscan, rfl, rfl⟩ := h
      obtain ⟨hleaves, hraw⟩ := ih hscan
      have hsuffix : rest <:+ ch '\\' :: ch 'u' :: w :: x :: y :: z :: rest :=
        ⟨[_, _, w, x, y, z], rfl⟩
      exact ⟨hleaves.of_suffix hsuffix, unitsFrom_cons hraw hsuffix (hex4_lt hhex)⟩
  | case6 => cases h
  | case7 => cases h
  | case8 => cases h
  | case9 => cases h
  | case10 c rest _ _ _ ih =>
      simp only [Option.map_eq_some_iff, Prod.mk.injEq] at h
      obtain ⟨⟨us', r'⟩, hscan, rfl, rfl⟩ := h
      obtain ⟨hleaves, hraw⟩ := ih hscan
      exact ⟨hleaves.of_suffix (List.suffix_cons c rest),
        unitsFrom_cons hraw (List.suffix_cons c rest) (Or.inl List.mem_cons_self)⟩

theorem isLowSurrogate_of_not_surrogate {c : CodePoint} (hc : isSurrogate c = false) :
    isLowSurrogate c.val = false := by
  simp only [isSurrogate, isLowSurrogate, Bool.and_eq_false_iff,
    decide_eq_false_iff_not] at hc ⊢
  omega

theorem isHighSurrogate_of_not_surrogate {c : CodePoint}
    (hc : isSurrogate c = false) : isHighSurrogate c.val = false := by
  simp only [isSurrogate, isHighSurrogate, Bool.and_eq_false_iff,
    decide_eq_false_iff_not] at hc ⊢
  omega

/-- A unit as it must be for the joined text to be free of split pairs. -/
def StrUnit.Sound : StrUnit → Prop
  | .raw c => isSurrogate c = false
  | .esc u => u < 0x10000

theorem Str.joined_cons {c : CodePoint} {s : Str} (hs : s.joined = true)
    (hc : ∀ d ∈ s.head?, (isHighSurrogate c.val && isLowSurrogate d.val) = false) :
    Str.joined (c :: s) = true := by
  cases s with
  | nil => rfl
  | cons d rest => simp [Str.joined, hs, hc d (by simp)]

theorem fin_val_of_lt {u : Nat} (hu : u < 0x10000) :
    (Fin.ofNat 0x110000 u).val = u := Nat.mod_eq_of_lt (by omega)

/-- The first character of a joined text is a low surrogate only if it was one
escape. -/
theorem joinUnits_head {us : List StrUnit} (hus : ∀ u ∈ us, u.Sound)
    {d : CodePoint} (hd : d ∈ (joinUnits us).head?)
    (hlow : isLowSurrogate d.val = true) :
    ∃ rest, us = .esc d.val :: rest := by
  fun_cases joinUnits us with
  | case1 => simp [joinUnits] at hd
  | case2 c rest =>
      rw [joinUnits_raw, List.head?_cons, Option.mem_some_iff] at hd
      subst hd
      have hsound : isSurrogate c = false := hus _ List.mem_cons_self
      rw [isLowSurrogate_of_not_surrogate hsound] at hlow
      cases hlow
  | case3 u v rest hpair =>
      have hv : v < 0x10000 := hus (.esc v) (by simp)
      simp only [joinUnits, hpair, if_true, List.head?_cons, Option.mem_some_iff] at hd
      subst hd
      simp only [isHighSurrogate, isLowSurrogate, Bool.and_eq_true,
        decide_eq_true_eq, Fin.ofNat] at hpair hlow
      omega
  | case4 u v rest hpair =>
      have hu : u < 0x10000 := hus (.esc u) (by simp)
      simp only [joinUnits, hpair, Bool.false_eq_true, if_false, List.head?_cons,
        Option.mem_some_iff] at hd
      subst hd
      rw [fin_val_of_lt hu]
      exact ⟨_, rfl⟩
  | case5 u rest hrest =>
      have hu : u < 0x10000 := hus (.esc u) (by simp)
      rw [joinUnits_esc fun v us' h => absurd h (hrest v us'), List.head?_cons,
        Option.mem_some_iff] at hd
      subst hd
      rw [fin_val_of_lt hu]
      exact ⟨_, rfl⟩

theorem joinUnits_joined {us : List StrUnit} (hus : ∀ u ∈ us, u.Sound) :
    (joinUnits us).joined = true := by
  fun_induction joinUnits us with
  | case1 => rfl
  | case2 c rest ih =>
      have hc : isSurrogate c = false := hus _ List.mem_cons_self
      refine Str.joined_cons (ih fun u hu => hus u (List.mem_cons_of_mem _ hu)) ?_
      simp [isHighSurrogate_of_not_surrogate hc]
  | case3 u v rest hpair ih =>
      have hv : v < 0x10000 := hus (.esc v) (by simp)
      refine Str.joined_cons (ih fun w hw => hus w (by simp [hw])) ?_
      intro d _
      simp only [isHighSurrogate, isLowSurrogate, Bool.and_eq_true,
        decide_eq_true_eq, Fin.ofNat, Bool.and_eq_false_iff,
        decide_eq_false_iff_not] at hpair ⊢
      omega
  | case4 u v rest hpair ih =>
      have hu : u < 0x10000 := hus (.esc u) (by simp)
      have hrest : ∀ w ∈ StrUnit.esc v :: rest, w.Sound :=
        fun w hw => hus w (List.mem_cons_of_mem _ hw)
      refine Str.joined_cons (ih hrest) ?_
      intro d hd
      rw [fin_val_of_lt hu]
      by_cases hlow : isLowSurrogate d.val = true
      · obtain ⟨rest', h⟩ := joinUnits_head hrest hd hlow
        rw [← StrUnit.esc.inj (List.cons.inj h).1]
        simpa using hpair
      · simp [hlow]
  | case5 u rest hrest ih =>
      have hu : u < 0x10000 := hus (.esc u) (by simp)
      have htail : ∀ w ∈ rest, w.Sound := fun w hw => hus w (List.mem_cons_of_mem _ hw)
      refine Str.joined_cons (ih htail) ?_
      intro d hd
      by_cases hlow : isLowSurrogate d.val = true
      · obtain ⟨rest', h⟩ := joinUnits_head htail hd hlow
        exact absurd h (hrest _ _)
      · simp [hlow]

theorem scanString_leaves {s r t : Str} (h : scanString s = some (t, r)) :
    Leaves s r ∧ (Str.WellFormed s → t.joined = true) := by
  simp only [scanString, Option.map_eq_some_iff, Prod.mk.injEq] at h
  obtain ⟨⟨us, r'⟩, hscan, rfl, rfl⟩ := h
  obtain ⟨hleaves, hfrom⟩ := scanUnits_leaves hscan
  refine ⟨hleaves, fun hs => joinUnits_joined fun u hu => ?_⟩
  have hu := hfrom u hu
  cases u with
  | raw c => exact hu.elim (fun hmem => hs c hmem) id
  | esc v => exact hu

theorem afterWord_eq {word s r : Str} (h : afterWord word s = some r) :
    s = word ++ r := by
  induction word generalizing s with
  | nil => simpa [afterWord] using h
  | cons w word ih =>
      cases s with
      | nil => simp [afterWord] at h
      | cons c s =>
          simp only [afterWord] at h
          split at h
          · rename_i hc
            rw [hc, ih h, List.cons_append]
          · cases h

theorem spanDigits_suffix (s : Str) : (spanDigits s).2 <:+ s := by
  induction s with
  | nil => exact List.suffix_rfl
  | cons c rest ih =>
      simp only [spanDigits]
      split
      · exact ih.trans (List.suffix_cons c rest)
      · exact List.suffix_rfl

theorem scanWhole_leaves {s r : Str} {n : Nat} (h : scanWhole s = some (n, r)) :
    Leaves s r := by
  cases s with
  | nil => simp [scanWhole] at h
  | cons c rest =>
      simp only [scanWhole] at h
      split at h
      · simp only [Option.some.injEq, Prod.mk.injEq] at h
        rw [← h.2]
        exact Leaves.head c rest
      · simp only [spanDigits] at h
        split at h
        · cases h
        · rename_i ds rest' hne hspan
          split at hspan
          · simp only [Prod.mk.injEq] at hspan
            simp only [Option.some.injEq, Prod.mk.injEq] at h
            rw [← h.2, ← hspan.2]
            exact (Leaves.head c rest).trans_suffix (spanDigits_suffix rest)
          · simp only [Prod.mk.injEq] at hspan
            exact absurd hspan.1.symm hne

theorem scanFrac_suffix (s : Str) : (scanFrac s).2 <:+ s := by
  cases s with
  | nil => exact List.suffix_rfl
  | cons c rest =>
      simp only [scanFrac]
      split
      · have hspan := spanDigits_suffix rest
        split
        · exact List.suffix_rfl
        · rename_i ds after _ heq
          rw [heq] at hspan
          exact hspan.trans (List.suffix_cons c rest)
      · exact List.suffix_rfl

theorem scanExpDigits_suffix (neg : Bool) {s after : Str} (h : after <:+ s) :
    (scanExpDigits neg s after).2 <:+ s := by
  have hspan := spanDigits_suffix after
  unfold scanExpDigits
  split
  · exact List.suffix_rfl
  · rename_i ds rest _ heq
    rw [heq] at hspan
    exact hspan.trans h

theorem scanExp_suffix (s : Str) : (scanExp s).2 <:+ s := by
  cases s with
  | nil => exact List.suffix_rfl
  | cons c rest =>
      simp only [scanExp]
      split
      · cases rest with
        | nil => exact List.suffix_rfl
        | cons sign after =>
            have htail : after <:+ c :: sign :: after :=
              (List.suffix_cons sign after).trans (List.suffix_cons c _)
            simp only
            split_ifs
            · exact scanExpDigits_suffix true htail
            · exact scanExpDigits_suffix false htail
            · exact scanExpDigits_suffix false (List.suffix_cons c _)
      · exact List.suffix_rfl

variable [PyFloat F]

/-- A number is no dict and holds no string. -/
def Json.IsNumber : Json F → Prop
  | .int _ | .float _ => True
  | _ => False

theorem scanUnsigned_leaves {neg : Bool} {s r : Str} {j : Json F}
    (h : scanUnsigned neg s = some (j, r)) : Leaves s r ∧ j.IsNumber := by
  simp only [scanUnsigned, Option.bind_eq_bind, Option.bind_eq_some_iff] at h
  obtain ⟨⟨n, s'⟩, hwhole, h⟩ := h
  have hleaves := (scanWhole_leaves hwhole).trans_suffix
    ((scanExp_suffix (scanFrac s').2).trans (scanFrac_suffix s'))
  split at h <;> simp only [Option.some.injEq, Prod.mk.injEq] at h
  · obtain ⟨rfl, rfl⟩ := h
    exact ⟨hleaves, trivial⟩
  · obtain ⟨rfl, rfl⟩ := h
    exact ⟨hleaves, trivial⟩

theorem scanNumber_leaves {s r : Str} {j : Json F} (h : scanNumber s = some (j, r)) :
    Leaves s r ∧ j.IsNumber := by
  cases s with
  | nil => simp [scanNumber] at h
  | cons c rest =>
      simp only [scanNumber] at h
      split at h
      · obtain ⟨hleaves, hnumber⟩ := scanUnsigned_leaves h
        exact ⟨hleaves.of_suffix (List.suffix_cons c rest), hnumber⟩
      · exact scanUnsigned_leaves h

theorem scanConstant_leaves {s r : Str} {j : Json F}
    (h : scanConstant s = some (j, r)) :
    Leaves s r ∧ (j = .null ∨ (∃ b, j = .bool b) ∨ j.IsNumber) := by
  simp only [scanConstant, constants, List.findSome?_eq_some_iff,
    Option.map_eq_some_iff] at h
  obtain ⟨before, word, after, hmem, ⟨rest, hword, heq⟩, -⟩ := h
  obtain ⟨rfl, rfl⟩ := Prod.mk.inj heq
  have hin : word ∈ constants (F := F) := by
    rw [constants, hmem]
    simp
  have hword := afterWord_eq hword
  simp only [constants, List.mem_cons, List.not_mem_nil, or_false] at hin
  rcases hin with rfl | rfl | rfl | rfl | rfl | rfl <;>
    exact ⟨⟨_, by simp [Str.ofString], hword⟩, by simp [Json.IsNumber]⟩

/-! ### Values -/

/-- What `json.loads` promises of its results. -/
def Json.Loaded (j : Json F) : Prop := j.Keyed ∧ j.Strings Str.joined

omit [PyFloat F] in
theorem Json.loaded_arr {xs : List (Json F)} (h : ∀ x ∈ xs, x.Loaded) :
    (Json.arr xs).Loaded :=
  ⟨Json.keyed_arr.mpr fun x hx => (h x hx).1,
    Json.strings_arr.mpr fun x hx => (h x hx).2⟩

omit [PyFloat F] in
theorem Json.loaded_atom {j : Json F}
    (h : j = .null ∨ (∃ b, j = .bool b) ∨ j.IsNumber) : j.Loaded := by
  rcases h with rfl | ⟨b, rfl⟩ | h
  · exact ⟨rfl, rfl⟩
  · exact ⟨rfl, rfl⟩
  · cases j <;> first | exact ⟨rfl, rfl⟩ | cases h

theorem Str.WellFormed.of_suffix {s r : Str} (hs : Str.WellFormed s) (h : r <:+ s) :
    Str.WellFormed r := fun c hc => hs c (h.subset hc)

/-- Each scanner leaves a proper suffix and, on encodable text, returns what
`json.loads` may return. -/
def OnceSpec (F : Type) [PyFloat F] (fuel : Nat) : Prop :=
  ∀ s r (j : Json F), scanOnce fuel s = some (j, r) →
    Leaves s r ∧ (Str.WellFormed s → j.Loaded)

def ItemsSpec (F : Type) [PyFloat F] (fuel : Nat) : Prop :=
  ∀ s r (xs : List (Json F)), scanItems fuel s = some (xs, r) →
    Leaves s r ∧ (Str.WellFormed s → ∀ x ∈ xs, x.Loaded)

def MembersSpec (F : Type) [PyFloat F] (fuel : Nat) : Prop :=
  ∀ s r (ms : Members F), scanMembers fuel s = some (ms, r) →
    Leaves s r ∧ (Str.WellFormed s → ∀ m ∈ ms, m.1.joined = true ∧ m.2.Loaded)

omit [PyFloat F] in
theorem Json.loaded_dictOf {ms : Members F}
    (h : ∀ m ∈ ms, m.1.joined = true ∧ m.2.Loaded) :
    (Json.obj (dictOf ms)).Loaded := by
  obtain ⟨hnodup, hmem⟩ := dictOf_spec ms
  exact ⟨Json.keyed_obj.mpr ⟨hnodup, fun m hm => (h m (hmem m hm)).2.1⟩,
    Json.strings_obj.mpr ⟨fun m hm => (h m (hmem m hm)).1,
      fun m hm => (h m (hmem m hm)).2.2⟩⟩

theorem onceSpec_succ {fuel : Nat} (hitems : ItemsSpec F fuel)
    (hmembers : MembersSpec F fuel) : OnceSpec F (fuel + 1) := by
  intro s r j h
  cases s with
  | nil => simp [scanOnce] at h
  | cons c rest =>
      have hrest : rest <:+ c :: rest := List.suffix_cons c rest
      have hspace : skipSpace rest <:+ c :: rest := (skipSpace_suffix rest).trans hrest
      simp only [scanOnce] at h
      split_ifs at h
      · simp only [Option.map_eq_some_iff, Prod.mk.injEq] at h
        obtain ⟨⟨t, r'⟩, hscan, rfl, rfl⟩ := h
        obtain ⟨hleaves, hjoined⟩ := scanString_leaves hscan
        exact ⟨hleaves.of_suffix hrest, fun hs =>
          ⟨rfl, Json.strings_str.mpr (hjoined (hs.of_suffix hrest))⟩⟩
      · split at h
        · cases h
        · rename_i d after hskip
          rw [hskip] at hspace
          split_ifs at h
          · simp only [Option.some.injEq, Prod.mk.injEq] at h
            obtain ⟨rfl, rfl⟩ := h
            exact ⟨(Leaves.head d after).of_suffix hspace, fun _ => ⟨rfl, rfl⟩⟩
          · simp only [Option.map_eq_some_iff, Prod.mk.injEq] at h
            obtain ⟨⟨ms, r'⟩, hscan, rfl, rfl⟩ := h
            obtain ⟨hleaves, hms⟩ := hmembers _ _ _ hscan
            exact ⟨hleaves.of_suffix hspace,
              fun hs => Json.loaded_dictOf (hms (hs.of_suffix hspace))⟩
      · split at h
        · cases h
        · rename_i d after hskip
          rw [hskip] at hspace
          split_ifs at h
          · simp only [Option.some.injEq, Prod.mk.injEq] at h
            obtain ⟨rfl, rfl⟩ := h
            exact ⟨(Leaves.head d after).of_suffix hspace, fun _ => ⟨rfl, rfl⟩⟩
          · simp only [Option.map_eq_some_iff, Prod.mk.injEq] at h
            obtain ⟨⟨xs, r'⟩, hscan, rfl, rfl⟩ := h
            obtain ⟨hleaves, hxs⟩ := hitems _ _ _ hscan
            exact ⟨hleaves.of_suffix hspace,
              fun hs => Json.loaded_arr (hxs (hs.of_suffix hspace))⟩
      · rcases Option.or_eq_some_iff.mp h with h | ⟨-, h⟩
        · obtain ⟨hleaves, hatom⟩ := scanConstant_leaves h
          exact ⟨hleaves, fun _ => Json.loaded_atom hatom⟩
        · obtain ⟨hleaves, hnumber⟩ := scanNumber_leaves h
          exact ⟨hleaves, fun _ => Json.loaded_atom (Or.inr (Or.inr hnumber))⟩

theorem itemsSpec_succ {fuel : Nat} (honce : OnceSpec F fuel)
    (hitems : ItemsSpec F fuel) : ItemsSpec F (fuel + 1) := by
  intro s r xs h
  simp only [scanItems] at h
  split at h
  · cases h
  · rename_i value s' hvalue
    obtain ⟨hleaves, hloaded⟩ := honce _ _ _ hvalue
    have hspace := skipSpace_suffix s'
    split at h
    · cases h
    · rename_i c rest hskip
      rw [hskip] at hspace
      have hrest : rest <:+ s' := (List.suffix_cons c rest).trans hspace
      split_ifs at h
      · simp only [Option.some.injEq, Prod.mk.injEq] at h
        obtain ⟨rfl, rfl⟩ := h
        exact ⟨hleaves.trans_suffix hrest, fun hs => by simpa using hloaded hs⟩
      · simp only [Option.map_eq_some_iff, Prod.mk.injEq] at h
        obtain ⟨⟨xs, r'⟩, hscan, rfl, rfl⟩ := h
        obtain ⟨hleaves', hxs⟩ := hitems _ _ _ hscan
        have hsuffix := (skipSpace_suffix rest).trans hrest
        refine ⟨hleaves.trans_suffix (hleaves'.suffix.trans hsuffix), fun hs => ?_⟩
        exact List.forall_mem_cons.mpr
          ⟨hloaded hs, hxs (hs.of_suffix (hsuffix.trans hleaves.suffix))⟩

theorem membersSpec_succ {fuel : Nat} (honce : OnceSpec F fuel)
    (hmembers : MembersSpec F fuel) : MembersSpec F (fuel + 1) := by
  intro s r ms h
  cases s with
  | nil => simp [scanMembers] at h
  | cons q s =>
      simp only [scanMembers] at h
      split_ifs at h
      split at h
      · cases h
      · rename_i key s₁ hkey
        obtain ⟨hleaves₁, hjoined⟩ := scanString_leaves hkey
        have hspace₁ := skipSpace_suffix s₁
        split at h
        · cases h
        · rename_i c₁ s₂ hskip₁
          rw [hskip₁] at hspace₁
          split_ifs at h
          split at h
          · cases h
          · rename_i value s₃ hvalue
            obtain ⟨hleaves₃, hloaded⟩ := honce _ _ _ hvalue
            have hs₂ : skipSpace s₂ <:+ s :=
              (skipSpace_suffix s₂).trans ((List.suffix_cons c₁ s₂).trans
                (hspace₁.trans hleaves₁.suffix))
            have hspace₃ := skipSpace_suffix s₃
            split at h
            · cases h
            · rename_i c₃ rest hskip₃
              rw [hskip₃] at hspace₃
              have hrest : rest <:+ s₃ := (List.suffix_cons c₃ rest).trans hspace₃
              have hq : s <:+ q :: s := List.suffix_cons q s
              split_ifs at h
              · simp only [Option.some.injEq, Prod.mk.injEq] at h
                obtain ⟨rfl, rfl⟩ := h
                refine ⟨((hleaves₃.trans_suffix hrest).of_suffix hs₂).of_suffix hq,
                  fun hs => ?_⟩
                have hs' := hs.of_suffix hq
                simpa using ⟨hjoined hs', hloaded (hs'.of_suffix hs₂)⟩
              · simp only [Option.map_eq_some_iff, Prod.mk.injEq] at h
                obtain ⟨⟨ms, r'⟩, hscan, rfl, rfl⟩ := h
                obtain ⟨hleaves', hms⟩ := hmembers _ _ _ hscan
                have hsuffix := (skipSpace_suffix rest).trans hrest
                refine ⟨((hleaves₃.trans_suffix
                  (hleaves'.suffix.trans hsuffix)).of_suffix hs₂).of_suffix hq,
                  fun hs => ?_⟩
                have hs' := hs.of_suffix hq
                exact List.forall_mem_cons.mpr
                  ⟨⟨hjoined hs', hloaded (hs'.of_suffix hs₂)⟩,
                    hms (hs'.of_suffix (hsuffix.trans (hleaves₃.suffix.trans hs₂)))⟩

theorem scan_spec (fuel : Nat) :
    OnceSpec F fuel ∧ ItemsSpec F fuel ∧ MembersSpec F fuel := by
  induction fuel with
  | zero => simp [OnceSpec, ItemsSpec, MembersSpec, scanOnce, scanItems, scanMembers]
  | succ fuel ih =>
      obtain ⟨honce, hitems, hmembers⟩ := ih
      exact ⟨onceSpec_succ hitems hmembers, itemsSpec_succ honce hitems,
        membersSpec_succ honce hmembers⟩

/-- A text without surrogates loads as a value with distinct keys and joined
strings. -/
theorem loads_loaded {s : Str} {j : Json F} (h : loads s = some j)
    (hs : Str.WellFormed s) : j.Loaded := by
  unfold loads at h
  split_ifs at h
  split at h
  · cases h
  · rename_i value rest hscan
    split_ifs at h
    obtain rfl := Option.some.inj h
    exact ((scan_spec _).1 _ _ _ hscan).2 (hs.of_suffix (skipSpace_suffix s))

/-! ### Fuel -/

theorem skipSpace_length_le (s : Str) : (skipSpace s).length ≤ s.length :=
  (skipSpace_suffix s).length_le

variable (F) in
/-- Twice the length of the text is fuel enough for `scanOnce`: more changes
nothing. -/
def OnceStable (fuel : Nat) : Prop :=
  ∀ s more, 2 * s.length + 1 ≤ fuel → fuel ≤ more →
    scanOnce (F := F) more s = scanOnce fuel s

variable (F) in
def ItemsStable (fuel : Nat) : Prop :=
  ∀ s more, 2 * s.length + 2 ≤ fuel → fuel ≤ more →
    scanItems (F := F) more s = scanItems fuel s

variable (F) in
def MembersStable (fuel : Nat) : Prop :=
  ∀ s more, 2 * s.length + 2 ≤ fuel → fuel ≤ more →
    scanMembers (F := F) more s = scanMembers fuel s

theorem onceStable_succ {fuel : Nat} (hitems : ItemsStable F fuel)
    (hmembers : MembersStable F fuel) : OnceStable F (fuel + 1) := by
  intro s more hfuel hmore
  obtain ⟨more, rfl⟩ := Nat.exists_eq_add_one_of_ne_zero (n := more) (by omega)
  cases s with
  | nil => rfl
  | cons c rest =>
      have hlen := skipSpace_length_le rest
      simp only [List.length_cons] at hfuel
      cases hskip : skipSpace rest with
      | nil => simp only [scanOnce, hskip]
      | cons d after =>
          rw [hskip] at hlen
          simp only [scanOnce, hskip, hitems (d :: after) more (by omega) (by omega),
            hmembers (d :: after) more (by omega) (by omega)]

theorem itemsStable_succ {fuel : Nat} (honce : OnceStable F fuel)
    (hitems : ItemsStable F fuel) : ItemsStable F (fuel + 1) := by
  intro s more hfuel hmore
  obtain ⟨more, rfl⟩ := Nat.exists_eq_add_one_of_ne_zero (n := more) (by omega)
  simp only [scanItems, honce s more (by omega) (by omega)]
  split
  · rfl
  · rename_i value s' hvalue
    have hlt := ((scan_spec fuel).1 _ _ _ hvalue).1.length_lt
    have hlen := skipSpace_length_le s'
    cases hskip : skipSpace s' with
    | nil => rfl
    | cons c rest =>
        rw [hskip, List.length_cons] at hlen
        have hlen' := skipSpace_length_le rest
        simp only [hitems (skipSpace rest) more (by omega) (by omega)]

theorem membersStable_succ {fuel : Nat} (honce : OnceStable F fuel)
    (hmembers : MembersStable F fuel) : MembersStable F (fuel + 1) := by
  intro s more hfuel hmore
  obtain ⟨more, rfl⟩ := Nat.exists_eq_add_one_of_ne_zero (n := more) (by omega)
  cases s with
  | nil => rfl
  | cons q s =>
      simp only [List.length_cons] at hfuel
      simp only [scanMembers]
      split
      · rfl
      · split
        · rfl
        · rename_i key s₁ hkey
          have hlt₁ := (scanString_leaves hkey).1.length_lt
          have hlen₁ := skipSpace_length_le s₁
          split
          · rfl
          · rename_i c₁ s₂ hskip₁
            rw [hskip₁, List.length_cons] at hlen₁
            have hlen₂ := skipSpace_length_le s₂
            rw [honce (skipSpace s₂) more (by omega) (by omega)]
            split
            · rfl
            · split
              · rfl
              · rename_i value s₃ hvalue
                have hlt₃ := ((scan_spec fuel).1 _ _ _ hvalue).1.length_lt
                have hlen₃ := skipSpace_length_le s₃
                split
                · rfl
                · rename_i c₃ rest hskip₃
                  rw [hskip₃, List.length_cons] at hlen₃
                  have hlen' := skipSpace_length_le rest
                  rw [hmembers (skipSpace rest) more (by omega) (by omega)]

theorem scan_stable (fuel : Nat) :
    OnceStable F fuel ∧ ItemsStable F fuel ∧ MembersStable F fuel := by
  induction fuel with
  | zero =>
      refine ⟨?_, ?_, ?_⟩
      all_goals
        intro s more hfuel _
        omega
  | succ fuel ih =>
      obtain ⟨honce, hitems, hmembers⟩ := ih
      exact ⟨onceStable_succ hitems hmembers, itemsStable_succ honce hitems,
        membersStable_succ honce hmembers⟩

/-- `loads` never stops for want of fuel: with any larger amount it reads the
same. -/
theorem loads_fuel (s : Str) (fuel : Nat) (hfuel : 2 * s.length + 1 ≤ fuel) :
    loads (F := F) s =
      if s.head? = some byteOrderMark then none
      else match scanOnce fuel (skipSpace s) with
        | none => none
        | some (value, rest) => if skipSpace rest = [] then some value else none := by
  have hlen := skipSpace_length_le s
  rw [(scan_stable (2 * s.length + 1)).1 (skipSpace s) fuel (by omega) hfuel]
  rfl

end Py
