/-
What `json.dumps` writes under `ensure_ascii`: printable ASCII text between its
separators, whose length is the length of its bytes and adds up from the
characters of the strings in it.
-/
import NetplexSupport.Json.Encoding
import NetplexSupport.Python.Utf8

namespace Py

/-! ### Escapes -/

/-- Digits and small letters. -/
theorem hexPad_plain (width n : Nat) :
    ∀ c ∈ hexPad width n, 48 ≤ c.val ∧ c.val < 123 ∧ c.val ≠ 92 := by
  have hdigit : ∀ d < 16, 48 ≤ (hexChar d).val ∧ (hexChar d).val < 123 ∧
      (hexChar d).val ≠ 92 := by decide
  induction width generalizing n with
  | zero => simp [hexPad]
  | succ width ih =>
      intro c hc
      rw [hexPad, List.mem_append] at hc
      rcases hc with hc | hc
      · exact ih _ c hc
      · obtain rfl := List.mem_singleton.mp hc
        exact hdigit _ (Nat.mod_lt _ (by decide))

theorem shortForm_plain {c e : CodePoint} (h : shortForm c = some e) :
    32 ≤ e.val ∧ e.val < 123 := by
  unfold shortForm at h
  repeat' split at h
  all_goals cases h
  all_goals
    rw [ch_val]
    decide

theorem uEscape_plain (n : Nat) : ∀ d ∈ uEscape n, 32 ≤ d.val ∧ d.val < 123 := by
  intro d hd
  rw [uEscape, List.mem_cons, List.mem_cons] at hd
  rcases hd with rfl | rfl | hd
  · rw [ch_val]
    decide
  · rw [ch_val]
    decide
  · have := hexPad_plain _ _ d hd
    omega

/-- An escape shows its own character, when that may stay, or letters and
digits. -/
theorem mem_escape {ensureAscii : Bool} {c d : CodePoint} (h : d ∈ escape ensureAscii c) :
    (d = c ∧ 32 ≤ c.val ∧ (ensureAscii = true → c.val < 127)) ∨
      (32 ≤ d.val ∧ d.val < 123) := by
  unfold escape at h
  cases hshort : shortForm c with
  | none =>
      simp only [hshort] at h
      split at h
      · split at h
        · exact Or.inr (uEscape_plain _ d h)
        · rcases List.mem_append.mp h with h | h
          · exact Or.inr (uEscape_plain _ d h)
          · exact Or.inr (uEscape_plain _ d h)
      · rename_i hplain
        simp only [Bool.or_eq_true, Bool.and_eq_true, decide_eq_true_eq, not_or, not_and] at hplain
        refine Or.inl ⟨List.mem_singleton.mp h, by omega, fun hascii => ?_⟩
        have := hplain.2 hascii
        omega
  | some e =>
      simp only [hshort, List.mem_cons, List.not_mem_nil, or_false] at h
      rcases h with rfl | rfl
      · exact Or.inr (by rw [ch_val]; decide)
      · exact Or.inr (shortForm_plain hshort)

/-- How many characters `json.dumps` writes for one. -/
def escapedSize (c : CodePoint) : Nat :=
  if 0x10000 ≤ c.val then 12
  else if c.val = 34 ∨ c.val = 92 ∨ c.val = 8 ∨ c.val = 9 ∨ c.val = 10 ∨ c.val = 12 ∨ c.val = 13
    then 2
  else if c.val < 32 ∨ 126 < c.val then 6
  else 1

/-- How many characters it writes between the quotes. -/
def escapedLength (s : Str) : Nat := (s.map escapedSize).sum

theorem length_uEscape (n : Nat) : (uEscape n).length = 6 := by
  simp [uEscape, hexPad_length]

theorem length_escape (c : CodePoint) : (escape true c).length = escapedSize c := by
  have hshort : ∀ c : CodePoint, (shortForm c).isSome = true ↔
      (c.val = 34 ∨ c.val = 92 ∨ c.val = 8 ∨ c.val = 9 ∨ c.val = 10 ∨ c.val = 12 ∨
        c.val = 13) := by
    intro c
    have hch : ∀ a : Char, c = ch a ↔ c.val = a.toNat := fun a => by rw [Fin.ext_iff, ch_val]
    unfold shortForm
    simp only [hch, Char.reduceToNat]
    split_ifs
    all_goals
      simp
      omega
  cases hform : shortForm c with
  | some e =>
      have hcases := (hshort c).mp (by rw [hform]; rfl)
      have hescape : escape true c = [ch '\\', e] := by simp only [escape, hform]
      rw [hescape, escapedSize, if_neg (by omega), if_pos hcases]
      rfl
  | none =>
      have hcases := mt (hshort c).mpr (by rw [hform]; simp)
      simp only [escape, hform, Bool.true_and, Bool.or_eq_true, decide_eq_true_eq, escapedSize,
        if_neg hcases]
      by_cases hwide : 0x10000 ≤ c.val
      · rw [if_pos (by omega), if_neg (by omega), if_pos hwide, List.length_append,
          length_uEscape, length_uEscape]
      · rw [if_neg hwide]
        by_cases hplain : c.val < 32 ∨ 126 < c.val
        · rw [if_pos hplain, if_pos (by omega), if_pos hplain, length_uEscape]
        · rw [if_neg hplain, if_neg hplain]
          rfl

theorem escapedLength_replicate (n : Nat) (c : CodePoint) :
    escapedLength (List.replicate n c) = n * escapedSize c := by
  simp [escapedLength]

/-- Printable text without a quote or a backslash is written as it is. -/
theorem escapedLength_plain {s : Str}
    (hs : ∀ c ∈ s, 32 ≤ c.val ∧ c.val < 127 ∧ c.val ≠ 34 ∧ c.val ≠ 92) :
    escapedLength s = s.length := by
  have hchar : ∀ c ∈ s, escapedSize c = 1 := by
    intro c hc
    have hplain := hs c hc
    rw [escapedSize, if_neg (by omega), if_neg (by omega), if_neg (by omega)]
  rw [escapedLength, List.map_congr_left hchar]
  simp

theorem length_quoted (s : Str) : (quoted true s).length = escapedLength s + 2 := by
  have hbody : (s.flatMap (escape true)).length = escapedLength s := by
    rw [List.length_flatMap, escapedLength]
    exact congrArg List.sum (List.map_congr_left fun c _ => length_escape c)
  simp [quoted, hbody]

/-! ### ASCII text -/

/-- Every character is ASCII. -/
def Str.Ascii (s : Str) : Prop := ∀ c ∈ s, c.val < 128

instance (s : Str) : Decidable (Str.Ascii s) :=
  decidable_of_iff (s.all isAscii) (by simp [Str.Ascii, isAscii])

theorem Str.ascii_cons {c : CodePoint} {s : Str} :
    Str.Ascii (c :: s) ↔ c.val < 128 ∧ Str.Ascii s :=
  List.forall_mem_cons

theorem Str.Ascii.wellFormed {s : Str} (hs : Str.Ascii s) : Str.WellFormed s := by
  intro c hc
  have hlt := hs c hc
  simp only [isSurrogate, Bool.and_eq_false_iff, decide_eq_false_iff_not]
  omega

theorem Str.Ascii.length_utf8 {s : Str} (hs : Str.Ascii s) : (utf8 s).length = s.length := by
  induction s with
  | nil => rfl
  | cons c s ih =>
      obtain ⟨hc, hs⟩ := Str.ascii_cons.mp hs
      rw [utf8_cons, utf8EncodeChar_ascii hc, List.length_append, ih hs, List.length_singleton,
        List.length_cons, Nat.add_comm]

/-! ### Printable text -/

/-- Every character is a printable one of ASCII. -/
def Str.Printable (s : Str) : Prop := ∀ c ∈ s, 32 ≤ c.val ∧ c.val < 127

instance (s : Str) : Decidable (Str.Printable s) :=
  decidable_of_iff (s.all fun c => 32 ≤ c.val && c.val < 127) (by simp [Str.Printable])

theorem Str.printable_append {s t : Str} :
    Str.Printable (s ++ t) ↔ Str.Printable s ∧ Str.Printable t :=
  List.forall_mem_append

theorem Str.printable_cons {c : CodePoint} {s : Str} :
    Str.Printable (c :: s) ↔ (32 ≤ c.val ∧ c.val < 127) ∧ Str.Printable s :=
  List.forall_mem_cons

theorem Str.printable_nil : Str.Printable [] := by simp [Str.Printable]

theorem Str.Printable.wellFormed {s : Str} (hs : Str.Printable s) : Str.WellFormed s := by
  have hascii : Str.Ascii s := fun c hc => by
    have := hs c hc
    omega
  exact hascii.wellFormed

/-- What holds of the visible characters, those above ASCII among them when they may
stay, holds of a quoted string. -/
theorem quoted_forall {p : CodePoint → Prop} {ensureAscii : Bool}
    (hp : ∀ c, 32 ≤ c.val → (ensureAscii = true → c.val < 127) → p c) (s : Str) :
    ∀ c ∈ quoted ensureAscii s, p c := by
  have hquote : p (ch '"') := hp _ (by rw [ch_val]; decide) fun _ => by rw [ch_val]; decide
  have hbody : ∀ c ∈ s.flatMap (escape ensureAscii), p c := by
    intro d hd
    obtain ⟨c, -, hd⟩ := List.mem_flatMap.mp hd
    rcases mem_escape hd with ⟨rfl, hle, hlt⟩ | ⟨hle, hlt⟩
    · exact hp _ hle hlt
    · exact hp _ hle fun _ => by omega
  rw [quoted, List.cons_append, List.forall_mem_cons, List.forall_mem_append,
    List.forall_mem_singleton]
  exact ⟨hquote, hbody, hquote⟩

theorem printable_quoted (s : Str) : Str.Printable (quoted true s) :=
  quoted_forall (fun _ hle hlt => ⟨hle, hlt rfl⟩) s

theorem printable_digits (ds : List Digit) : Str.Printable (ds.map digitChar) := by
  have hdigit : ∀ d : Digit, 32 ≤ (digitChar d).val ∧ (digitChar d).val < 127 := by decide
  intro c hc
  obtain ⟨d, -, rfl⟩ := List.mem_map.mp hc
  exact hdigit d

theorem printable_intText (i : Int) : Str.Printable (intText i) := by
  cases i with
  | ofNat n => exact printable_digits _
  | negSucc n => exact Str.printable_cons.mpr ⟨by rw [ch_val]; decide, printable_digits _⟩

theorem printable_floatText (v : FloatView) : Str.Printable v.jsonText := by
  cases v with
  | nan => exact of_decide_eq_true rfl
  | inf neg => cases neg <;> exact of_decide_eq_true rfl
  | lit l =>
      have hfrac : Str.Printable (fracText l.frac) := by
        unfold fracText
        split
        · exact Str.printable_nil
        · exact Str.printable_cons.mpr ⟨by rw [ch_val]; decide, printable_digits _⟩
      have hexp : Str.Printable (expText l.exp) := by
        rcases l.exp with _ | ⟨neg, ds⟩
        · exact Str.printable_nil
        · refine Str.printable_cons.mpr ⟨by rw [ch_val]; decide,
            Str.printable_cons.mpr ⟨?_, printable_digits _⟩⟩
          cases neg
          · exact of_decide_eq_true rfl
          · exact of_decide_eq_true rfl
      have hsign : Str.Printable (if l.neg then [ch '-'] else []) := by
        cases l.neg
        · exact of_decide_eq_true rfl
        · exact of_decide_eq_true rfl
      simp only [FloatView.jsonText, FloatLit.text, Str.printable_append]
      exact ⟨⟨⟨hsign, printable_digits _⟩, hfrac⟩, hexp⟩

section

variable {F : Type} {p : CodePoint → Prop}

/-- What holds of printable characters and of the separators holds of an array's
text. -/
theorem itemsTail_forall (hp : ∀ c, 32 ≤ c.val → c.val < 127 → p c) {text : Json F → Str}
    {sep close : Str} (hsep : ∀ c ∈ sep, p c) (hclose : ∀ c ∈ close, p c)
    {xs : List (Json F)} (hxs : ∀ x ∈ xs, ∀ c ∈ text x, p c) :
    ∀ c ∈ itemsTail text sep close xs, p c := by
  induction xs with
  | nil =>
      rw [itemsTail, List.forall_mem_append, List.forall_mem_singleton]
      exact ⟨hclose, hp _ (by rw [ch_val]; decide) (by rw [ch_val]; decide)⟩
  | cons x xs ih =>
      rw [List.forall_mem_cons] at hxs
      rw [itemsTail, List.forall_mem_append, List.forall_mem_append]
      exact ⟨⟨hsep, hxs.1⟩, ih hxs.2⟩

theorem membersTail_forall {ensureAscii : Bool}
    (hp : ∀ c, 32 ≤ c.val → (ensureAscii = true → c.val < 127) → p c) {text : Json F → Str}
    {sep keySep close : Str} (hsep : ∀ c ∈ sep, p c) (hkeySep : ∀ c ∈ keySep, p c)
    (hclose : ∀ c ∈ close, p c) {ms : Members F} (hms : ∀ m ∈ ms, ∀ c ∈ text m.2, p c) :
    ∀ c ∈ membersTail ensureAscii text sep keySep close ms, p c := by
  induction ms with
  | nil =>
      rw [membersTail, List.forall_mem_append, List.forall_mem_singleton]
      exact ⟨hclose, hp _ (by rw [ch_val]; decide) fun _ => by rw [ch_val]; decide⟩
  | cons m ms ih =>
      rw [List.forall_mem_cons] at hms
      simp only [membersTail, List.forall_mem_append]
      exact ⟨⟨⟨⟨hsep, quoted_forall hp m.1⟩, hkeySep⟩, hms.1⟩, ih hms.2⟩

variable [PyFloat F]

/-- What holds of the visible characters and of the separators holds of all that is
written; under `ensure_ascii` only the printable ones of ASCII are. -/
theorem render_forall {o : DumpOpts}
    (hp : ∀ c, 32 ≤ c.val → (o.ensureAscii = true → c.val < 127) → p c)
    (hitem : ∀ c ∈ o.itemSep, p c) (hkey : ∀ c ∈ o.keySep, p c) (j : Json F) :
    ∀ c ∈ j.render o, p c := by
  have hplain : ∀ c, 32 ≤ c.val → c.val < 127 → p c := fun c hle hlt => hp c hle fun _ => hlt
  have hprintable : ∀ {s : Str}, Str.Printable s → ∀ c ∈ s, p c := fun hs c hc =>
    hplain c (hs c hc).1 (hs c hc).2
  have hopen : p (ch '[') ∧ p (ch '{') := by
    constructor
    all_goals
      apply hplain
      all_goals
        rw [ch_val]
        decide
  induction j using Json.induct with
  | null => exact hprintable (of_decide_eq_true rfl)
  | bool b =>
      cases b
      · exact hprintable (of_decide_eq_true rfl)
      · exact hprintable (of_decide_eq_true rfl)
  | int i => exact hprintable (printable_intText i)
  | float x => exact hprintable (printable_floatText _)
  | str s =>
      rw [Json.render]
      exact quoted_forall hp s
  | arr xs ih =>
      cases xs with
      | nil => exact hprintable (of_decide_eq_true rfl)
      | cons x xs =>
          obtain ⟨hx, hxs⟩ := List.forall_mem_cons.mp ih
          rw [Json.render, renderItems_eq_tail, List.forall_mem_cons, List.forall_mem_append]
          exact ⟨hopen.1, hx, itemsTail_forall hplain hitem (by simp) hxs⟩
  | obj ms ih =>
      cases ms with
      | nil => exact hprintable (of_decide_eq_true rfl)
      | cons m ms =>
          obtain ⟨hm, hms⟩ := List.forall_mem_cons.mp ih
          simp only [Json.render, renderMembers_eq_tail, List.forall_mem_cons,
            List.forall_mem_append]
          exact ⟨hopen.2, ⟨⟨quoted_forall hp m.1, hkey⟩, hm⟩,
            membersTail_forall hp hitem hkey (by simp) hms⟩

/-- Under `ensure_ascii` every value is written in ASCII. -/
theorem ascii_render {o : DumpOpts} (hascii : o.ensureAscii = true)
    (hitem : Str.Ascii o.itemSep) (hkey : Str.Ascii o.keySep) (j : Json F) :
    Str.Ascii (j.render o) :=
  render_forall (fun _ _ hlt => (hlt hascii).trans (by decide)) hitem hkey j

end

end Py
