/-
Which values can be written as UTF-8.  `json.dumps` escapes a lone surrogate
only under `ensure_ascii`, so without it the text can be encoded exactly when
every string in the value can.
-/
import NetplexSupport.Json.Canonical

namespace Py

variable {F : Type}

/-- `s.encode("utf-8")` raises nothing. -/
def Str.encodable (s : Str) : Bool := decide (Str.WellFormed s)

@[simp] theorem Str.wellFormed_nil : Str.WellFormed [] := by simp [Str.WellFormed]

theorem Str.wellFormed_append {s t : Str} :
    Str.WellFormed (s ++ t) ↔ Str.WellFormed s ∧ Str.WellFormed t := by
  exact List.forall_mem_append

theorem Str.wellFormed_cons {c : CodePoint} {s : Str} :
    Str.WellFormed (c :: s) ↔ isSurrogate c = false ∧ Str.WellFormed s := by
  simp [Str.WellFormed]

/-- A text without surrogates has no pair of them apart. -/
theorem Str.WellFormed.joined {s : Str} (hs : Str.WellFormed s) : s.joined = true := by
  induction s with
  | nil => rfl
  | cons c s ih =>
      obtain ⟨hc, hs⟩ := Str.wellFormed_cons.mp hs
      refine Str.joined_cons (ih hs) fun d _ => ?_
      have hhigh : isHighSurrogate c.val = false := by
        simp only [isSurrogate, isHighSurrogate, Bool.and_eq_false_iff,
          decide_eq_false_iff_not] at hc ⊢
        omega
      rw [hhigh, Bool.false_and]

theorem wellFormed_hexPad (width n : Nat) : Str.WellFormed (hexPad width n) := by
  induction width generalizing n with
  | zero => simp [hexPad, Str.WellFormed]
  | succ width ih =>
      rw [hexPad, Str.wellFormed_append]
      refine ⟨ih _, ?_⟩
      have hdigit : ∀ d < 16, isSurrogate (hexChar d) = false := by decide
      rw [Str.wellFormed_cons]
      exact ⟨hdigit _ (Nat.mod_lt _ (by decide)), Str.wellFormed_nil⟩

theorem wellFormed_digits (ds : List Digit) : Str.WellFormed (ds.map digitChar) := by
  have hdigit : ∀ d : Digit, isSurrogate (digitChar d) = false := by decide
  intro c hc
  obtain ⟨d, _, rfl⟩ := List.mem_map.mp hc
  exact hdigit d

theorem wellFormed_intText (i : Int) : Str.WellFormed (intText i) := by
  cases i with
  | ofNat n => exact wellFormed_digits _
  | negSucc n => exact Str.wellFormed_cons.mpr ⟨by decide, wellFormed_digits _⟩

theorem wellFormed_floatText (v : FloatView) : Str.WellFormed v.jsonText := by
  cases v with
  | nan => exact Str.wellFormed_ofString _
  | inf neg => cases neg <;> exact Str.wellFormed_ofString _
  | lit l =>
      have hfrac : Str.WellFormed (fracText l.frac) := by
        unfold fracText
        split
        · exact Str.wellFormed_nil
        · exact Str.wellFormed_cons.mpr ⟨by decide, wellFormed_digits _⟩
      have hexp : Str.WellFormed (expText l.exp) := by
        rcases l.exp with _ | ⟨neg, ds⟩
        · exact Str.wellFormed_nil
        · simp only [expText, Str.wellFormed_cons]
          exact ⟨rfl, by cases neg <;> rfl, wellFormed_digits _⟩
      have hsign : Str.WellFormed (if l.neg then [ch '-'] else []) := by
        cases l.neg
        · exact Str.wellFormed_nil
        · exact Str.wellFormed_cons.mpr ⟨rfl, Str.wellFormed_nil⟩
      simp only [FloatView.jsonText, FloatLit.text, Str.wellFormed_append]
      exact ⟨⟨⟨hsign, wellFormed_digits _⟩, hfrac⟩, hexp⟩

/-- Unless `ensure_ascii` escapes it, a surrogate stands in the text as itself. -/
theorem wellFormed_escape (c : CodePoint) :
    Str.WellFormed (escape false c) ↔ isSurrogate c = false := by
  unfold escape
  cases hshort : shortForm c with
  | some e =>
      have h := shortEscape_of_shortForm hshort
      have hc : isSurrogate c = false := shortEscape_not_surrogate h
      have he : isSurrogate e = false := by
        revert hshort
        unfold shortForm
        split_ifs <;> rintro ⟨⟩ <;> decide
      simp [Str.WellFormed, hc, he]
      decide
  | none =>
      by_cases hlow : c.val < 0x20
      · have hc : isSurrogate c = false := by
          simp only [isSurrogate, Bool.and_eq_false_iff, decide_eq_false_iff_not]
          omega
        have hbmp : c.val < 0x10000 := by omega
        simp only [hlow, hbmp, decide_true, Bool.true_or, if_true, uEscape,
          Str.wellFormed_cons, hc, iff_true]
        exact ⟨by decide, by decide, wellFormed_hexPad 4 _⟩
      · simp [hlow, Str.WellFormed]

theorem wellFormed_quoted (s : Str) :
    Str.WellFormed (quoted false s) ↔ Str.WellFormed s := by
  have hquote : isSurrogate (ch '"') = false := by decide
  have hbody : Str.WellFormed (s.flatMap (escape false)) ↔ Str.WellFormed s := by
    induction s with
    | nil => simp
    | cons c s ih =>
        rw [List.flatMap_cons, Str.wellFormed_append, wellFormed_escape, ih,
          Str.wellFormed_cons]
  simp only [quoted, Str.wellFormed_cons, Str.wellFormed_append, hquote, hbody, true_and]
  exact and_iff_left Str.wellFormed_nil

section

variable [PyFloat F]

theorem wellFormed_arr {o : DumpOpts} (hsep : Str.WellFormed o.itemSep)
    (xs : List (Json F))
    (ih : ∀ x ∈ xs, Str.WellFormed (x.render o) ↔ x.Strings Str.encodable) :
    Str.WellFormed ((Json.arr xs).render o) ↔
      ∀ x ∈ xs, x.Strings Str.encodable := by
  have hitems : ∀ ys : List (Json F),
      (∀ x ∈ ys, Str.WellFormed (x.render o) ↔ x.Strings Str.encodable) →
      (Str.WellFormed (Json.renderItems o ys) ↔
        ∀ x ∈ ys, x.Strings Str.encodable) := by
    intro ys hys
    induction ys with
    | nil => simp [Json.renderItems, Str.wellFormed_cons, isSurrogate]
    | cons y ys ihys =>
        rw [List.forall_mem_cons] at hys
        simp only [Json.renderItems, Str.wellFormed_append, hsep, true_and, hys.1,
          ihys hys.2, List.forall_mem_cons]
  have hopen : isSurrogate (ch '[') = false := rfl
  cases xs with
  | nil => simpa [Json.render] using Str.wellFormed_ofString "[]"
  | cons x xs =>
      rw [List.forall_mem_cons] at ih
      simp only [Json.render, Str.wellFormed_cons, Str.wellFormed_append, hopen,
        true_and, ih.1, hitems xs ih.2, List.forall_mem_cons]

theorem wellFormed_obj {o : DumpOpts} (hascii : o.ensureAscii = false)
    (hitem : Str.WellFormed o.itemSep) (hkey : Str.WellFormed o.keySep)
    (ms : Members F)
    (ih : ∀ m ∈ ms, Str.WellFormed (m.2.render o) ↔ m.2.Strings Str.encodable) :
    Str.WellFormed ((Json.obj ms).render o) ↔
      ∀ m ∈ ms, Str.WellFormed m.1 ∧ m.2.Strings Str.encodable := by
  have hmembers : ∀ ns : Members F,
      (∀ m ∈ ns, Str.WellFormed (m.2.render o) ↔ m.2.Strings Str.encodable) →
      (Str.WellFormed (Json.renderMembers o ns) ↔
        ∀ m ∈ ns, Str.WellFormed m.1 ∧ m.2.Strings Str.encodable) := by
    intro ns hns
    induction ns with
    | nil => simp [Json.renderMembers, Str.wellFormed_cons, isSurrogate]
    | cons n ns ihns =>
        rw [List.forall_mem_cons] at hns
        simp only [Json.renderMembers, hascii, Str.wellFormed_append, hitem, hkey,
          wellFormed_quoted, true_and, and_true, hns.1, ihns hns.2,
          List.forall_mem_cons]
  have hopen : isSurrogate (ch '{') = false := rfl
  cases ms with
  | nil => simpa [Json.render] using Str.wellFormed_ofString "\x7b\x7d"
  | cons m ms =>
      rw [List.forall_mem_cons] at ih
      simp only [Json.render, hascii, Str.wellFormed_cons, Str.wellFormed_append, hopen,
        hkey, wellFormed_quoted, true_and, and_true, ih.1, hmembers ms ih.2,
        List.forall_mem_cons]

/-- Without `ensure_ascii` a text can be encoded exactly when every string and
key in the value can. -/
theorem wellFormed_render {o : DumpOpts} (hascii : o.ensureAscii = false)
    (hitem : Str.WellFormed o.itemSep) (hkey : Str.WellFormed o.keySep) (j : Json F) :
    Str.WellFormed (j.render o) ↔ j.Strings Str.encodable := by
  induction j using Json.induct with
  | null => simpa [Json.render, Json.Strings, Json.all] using Str.wellFormed_ofString _
  | bool b =>
      cases b <;> simpa [Json.render, Json.Strings, Json.all] using
        Str.wellFormed_ofString _
  | int i => simpa [Json.render, Json.Strings, Json.all] using wellFormed_intText i
  | float x =>
      simpa [Json.render, Json.Strings, Json.all] using wellFormed_floatText _
  | str s => simp [Json.render, hascii, wellFormed_quoted, Json.strings_str, Str.encodable]
  | arr xs ih => rw [wellFormed_arr hitem xs ih, Json.strings_arr]
  | obj ms ih =>
      rw [wellFormed_obj hascii hitem hkey ms ih, Json.strings_obj]
      simp [Str.encodable, forall_and]

theorem wellFormed_dumps {o : DumpOpts} (hascii : o.ensureAscii = false)
    (hitem : Str.WellFormed o.itemSep) (hkey : Str.WellFormed o.keySep) (j : Json F) :
    Str.WellFormed (dumps o j) ↔ j.Strings Str.encodable := by
  unfold dumps
  split
  · rw [wellFormed_render hascii hitem hkey, Json.strings_sortKeys]
  · exact wellFormed_render hascii hitem hkey j

end

end Py
