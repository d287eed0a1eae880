/-
`json.loads` inverts `json.dumps`.  A value whose dicts have distinct keys is
read back exactly, whitespace around it included; `ensure_ascii` only asks
that no string holds a high surrogate right before a low one, which
`json.loads` never returns.
-/
import NetplexSupport.Json.Parse

namespace Py

/-! ### Digits -/

theorem asciiDigit_digitChar (d : Digit) : asciiDigit (digitChar d) = some d := by
  revert d
  decide

theorem ofDigits_append (ds : List Digit) (d : Digit) :
    ofDigits (ds ++ [d]) = 10 * ofDigits ds + d.val := by
  simp [ofDigits]

theorem ofDigits_reverse_digits (ds : List Nat) (hds : ∀ d ∈ ds, d < 10) :
    ofDigits (ds.reverse.map (Fin.ofNat 10)) = Nat.ofDigits 10 ds := by
  induction ds with
  | nil => rfl
  | cons d ds ih =>
      have hd : d % 10 = d := Nat.mod_eq_of_lt (hds d List.mem_cons_self)
      rw [List.reverse_cons, List.map_append, List.map_singleton, ofDigits_append,
        ih fun x hx => hds x (List.mem_cons_of_mem d hx), Nat.ofDigits_cons]
      simp [hd]
      omega

theorem ofDigits_natDigits (n : Nat) : ofDigits (natDigits n) = n := by
  unfold natDigits
  split
  · rename_i hn
    rw [hn]
    rfl
  · rw [ofDigits_reverse_digits _ fun d hd => Nat.digits_lt_base (by decide) hd,
      Nat.ofDigits_digits]

theorem natDigits_ne_nil (n : Nat) : natDigits n ≠ [] := by
  unfold natDigits
  split
  · simp
  · rename_i hn
    simp [Nat.digits_eq_nil_iff_eq_zero, hn]

/-- The digits of a positive number do not start with `0`. -/
theorem natDigits_head {n : Nat} (hn : n ≠ 0) {d : Digit} {ds : List Digit}
    (h : natDigits n = d :: ds) : d ≠ 0 := by
  have hlast := Nat.getLast_digit_ne_zero 10 hn
  have hhead : (natDigits n).head? = some d := by rw [h]; rfl
  simp only [natDigits, if_neg hn, List.head?_map, List.head?_reverse,
    Option.map_eq_some_iff] at hhead
  obtain ⟨x, hx, rfl⟩ := hhead
  have hne : Nat.digits 10 n ≠ [] := Nat.digits_ne_nil_iff_ne_zero.mpr hn
  rw [List.getLast?_eq_some_getLast hne, Option.some_inj] at hx
  subst hx
  intro hzero
  have hlt := Nat.digits_lt_base (b := 10) (m := n) (by decide)
    (List.getLast_mem hne)
  apply hlast
  simpa [Fin.ext_iff, Nat.mod_eq_of_lt hlt] using hzero

theorem natText_append_eq_cons (n : Nat) (s : Str) :
    ∃ d rest, natText n ++ s = digitChar d :: rest := by
  obtain ⟨d, ds, hds⟩ := List.exists_cons_of_ne_nil (natDigits_ne_nil n)
  exact ⟨d, ds.map digitChar ++ s, by rw [natText, hds]; rfl⟩

/-- What may follow a number: no digit, point or exponent. -/
def NumberEnd (r : Str) : Prop :=
  ∀ c ∈ r.head?, asciiDigit c = none ∧ c ≠ ch '.' ∧ c ≠ ch 'e' ∧ c ≠ ch 'E'

theorem numberEnd_nil : NumberEnd [] := by simp [NumberEnd]

theorem spanDigits_append (ds : List Digit) {r : Str}
    (hr : ∀ c ∈ r.head?, asciiDigit c = none) :
    spanDigits (ds.map digitChar ++ r) = (ds, r) := by
  induction ds with
  | nil =>
      cases r with
      | nil => rfl
      | cons c rest => simp [spanDigits, hr c (by simp)]
  | cons d ds ih => simp [spanDigits, asciiDigit_digitChar, ih]

theorem digitChar_eq_zero_iff (d : Digit) : digitChar d = ch '0' ↔ d = 0 := by
  revert d
  decide

theorem scanWhole_natText (n : Nat) {r : Str}
    (hr : ∀ c ∈ r.head?, asciiDigit c = none) :
    scanWhole (natText n ++ r) = some (n, r) := by
  have hspan := spanDigits_append (natDigits n) hr
  have hvalue := ofDigits_natDigits n
  rw [natText]
  cases hds : natDigits n with
  | nil => exact absurd hds (natDigits_ne_nil n)
  | cons d ds =>
      rw [hds] at hspan hvalue
      by_cases hn : n = 0
      · have hzero : natDigits n = [0] := by simp [natDigits, hn]
        rw [hds] at hzero
        cases hzero
        rw [hn]
        rfl
      · have hd : digitChar d ≠ ch '0' :=
          fun h => natDigits_head hn hds ((digitChar_eq_zero_iff d).mp h)
        rw [List.map_cons, List.cons_append] at hspan ⊢
        simp only [scanWhole, if_neg hd, hspan, hvalue]

/-! ### Numbers -/

theorem NumberEnd.no_digit {r : Str} (hr : NumberEnd r) :
    ∀ c ∈ r.head?, asciiDigit c = none := fun c hc => (hr c hc).1

theorem scanFrac_numberEnd {r : Str} (hr : NumberEnd r) : scanFrac r = ([], r) := by
  cases r with
  | nil => rfl
  | cons c rest => simp [scanFrac, (hr c (by simp)).2.1]

theorem scanExp_numberEnd {r : Str} (hr : NumberEnd r) : scanExp r = (none, r) := by
  cases r with
  | nil => rfl
  | cons c rest => simp [scanExp, (hr c (by simp)).2.2.1, (hr c (by simp)).2.2.2]

variable {F : Type} [PyFloat F]

theorem scanUnsigned_natText (neg : Bool) (n : Nat) {r : Str} (hr : NumberEnd r) :
    scanUnsigned (F := F) neg (natText n ++ r) =
      some (.int (if neg then -(n : Int) else n), r) := by
  simp [scanUnsigned, scanWhole_natText n hr.no_digit, scanFrac_numberEnd hr,
    scanExp_numberEnd hr, FloatLit.ofParts]

theorem digitChar_ne (d : Digit) :
    digitChar d ≠ ch '-' ∧ digitChar d ≠ ch '"' ∧ digitChar d ≠ ch '{' ∧
      digitChar d ≠ ch '[' := by
  revert d
  decide

/-- A number without a sign is scanned as an unsigned one. -/
theorem scanNumber_natText_append (n : Nat) (s : Str) :
    scanNumber (F := F) (natText n ++ s) = scanUnsigned false (natText n ++ s) := by
  obtain ⟨d, rest, h⟩ := natText_append_eq_cons n s
  rw [h]
  simp only [scanNumber, if_neg (digitChar_ne d).1]

theorem scanNumber_natText (n : Nat) {r : Str} (hr : NumberEnd r) :
    scanNumber (F := F) (natText n ++ r) = some (.int n, r) := by
  rw [scanNumber_natText_append, scanUnsigned_natText false n hr]
  rfl

theorem scanNumber_intText (i : Int) {r : Str} (hr : NumberEnd r) :
    scanNumber (F := F) (intText i ++ r) = some (.int i, r) := by
  cases i with
  | ofNat n => exact scanNumber_natText n hr
  | negSucc n =>
      have h := scanUnsigned_natText (F := F) true (n + 1) hr
      simp only [intText, List.cons_append, scanNumber, if_pos]
      rw [h]
      simp [Int.negSucc_eq]

/-- The text of an exponent, read back. -/
theorem scanExp_text (neg : Bool) {ds : List Digit} (hds : ds ≠ []) {r : Str}
    (hr : NumberEnd r) :
    scanExp (ch 'e' :: (if neg then ch '-' else ch '+') :: (ds.map digitChar ++ r)) =
      (some (neg, ds), r) := by
  have hspan := spanDigits_append ds hr.no_digit
  obtain ⟨d, ds, rfl⟩ := List.exists_cons_of_ne_nil hds
  simp only [List.map_cons, List.cons_append] at hspan ⊢
  cases neg <;> simp [scanExp, scanExpDigits, hspan]

theorem scanExp_expText (exp : Option (Bool × List Digit))
    (hexp : ∀ e ∈ exp, e.2 ≠ []) {r : Str} (hr : NumberEnd r) :
    scanExp (expText exp ++ r) = (exp, r) := by
  cases exp with
  | none => exact scanExp_numberEnd hr
  | some e => exact scanExp_text e.1 (hexp e rfl) hr

theorem expText_head (exp : Option (Bool × List Digit)) {r : Str} (hr : NumberEnd r) :
    ∀ c ∈ (expText exp ++ r).head?, asciiDigit c = none ∧ c ≠ ch '.' := by
  cases exp with
  | none => exact fun c hc => ⟨(hr c hc).1, (hr c hc).2.1⟩
  | some e =>
      intro c hc
      simp only [expText, List.cons_append, List.head?_cons, Option.mem_some_iff] at hc
      subst hc
      decide

theorem scanFrac_text (frac : List Digit) {r : Str}
    (hr : ∀ c ∈ r.head?, asciiDigit c = none ∧ c ≠ ch '.') :
    scanFrac (fracText frac ++ r) =
      (frac, r) := by
  cases frac with
  | nil =>
      cases r with
      | nil => rfl
      | cons c rest => simp [fracText, scanFrac, (hr c (by simp)).2]
  | cons d ds =>
      have hspan := spanDigits_append (d :: ds) fun c hc => (hr c hc).1
      simp only [List.map_cons, List.cons_append] at hspan
      simp [fracText, scanFrac, hspan]

theorem fracText_head (frac : List Digit) {r : Str}
    (hr : ∀ c ∈ r.head?, asciiDigit c = none) :
    ∀ c ∈ (fracText frac ++ r).head?,
      asciiDigit c = none := by
  cases frac with
  | nil => exact hr
  | cons d ds =>
      intro c hc
      simp only [fracText, reduceCtorEq, if_false, List.cons_append,
        List.head?_cons, Option.mem_some_iff] at hc
      subst hc
      decide

theorem FloatLit.ofParts_self (l : FloatLit) :
    FloatLit.ofParts l.neg l.whole l.frac l.exp = some l :=
  dif_pos ⟨l.shown, l.expDigits⟩

theorem scanUnsigned_text (l : FloatLit) {r : Str} (hr : NumberEnd r) :
    scanUnsigned (F := F) l.neg (natText l.whole ++
      (fracText l.frac ++ (expText l.exp ++ r))) =
        some (.float (PyFloat.read (.lit l)), r) := by
  have hexp := expText_head l.exp hr
  have hfrac := fracText_head l.frac fun c hc => (hexp c hc).1
  simp [scanUnsigned, scanWhole_natText l.whole hfrac, scanFrac_text l.frac hexp,
    scanExp_expText l.exp l.expDigits hr, FloatLit.ofParts_self]

theorem scanNumber_text (l : FloatLit) {r : Str} (hr : NumberEnd r) :
    scanNumber (F := F) (l.text ++ r) =
      some (.float (PyFloat.read (.lit l)), r) := by
  have h := scanUnsigned_text (F := F) l hr
  simp only [FloatLit.text, List.append_assoc]
  cases hneg : l.neg with
  | true =>
      rw [hneg] at h
      simpa [scanNumber] using h
  | false =>
      rw [hneg] at h
      simpa [scanNumber_natText_append] using h

/-! ### Strings -/

theorem hexValue_hexChar : ∀ d < 16, hexValue (hexChar d) = some d := by decide

theorem hex4_hexPad {n : Nat} (hn : n < 0x10000) {a b c d : CodePoint}
    (h : hexPad 4 n = [a, b, c, d]) : hex4 a b c d = some n := by
  simp only [hexPad, List.nil_append, List.cons_append, List.cons.injEq,
    and_true] at h
  obtain ⟨rfl, rfl, rfl, rfl⟩ := h
  simp only [hex4, hexValue_hexChar _ (Nat.mod_lt _ (by decide : 0 < 16)),
    Option.bind_eq_bind, Option.bind_some, Option.pure_def, Option.some_inj]
  omega

theorem hexPad_four (n : Nat) : ∃ a b c d, hexPad 4 n = [a, b, c, d] :=
  ⟨_, _, _, _, rfl⟩

theorem scanUnits_uEscape {n : Nat} (hn : n < 0x10000) (r : Str) :
    scanUnits (uEscape n ++ r) =
      (scanUnits r).map fun p => (.esc n :: p.1, p.2) := by
  obtain ⟨a, b, c, d, hpad⟩ := hexPad_four n
  have hhex := hex4_hexPad hn hpad
  simp only [uEscape, hpad, List.cons_append, List.nil_append]
  rw [scanUnits]
  simp [shortEscape, hhex]

/-- The units a character of a printed string is read back as. -/
def charUnits (ensureAscii : Bool) (c : CodePoint) : List StrUnit :=
  if (shortForm c).isSome then [.raw c]
  else if c.val < 0x20 || (ensureAscii && 0x7e < c.val) then
    if c.val < 0x10000 then [.esc c.val] else [.esc (highHalf c), .esc (lowHalf c)]
  else [.raw c]

theorem highHalf_lt (c : CodePoint) : highHalf c < 0xdc00 := by
  have := c.isLt
  unfold highHalf
  omega

theorem lowHalf_lt (c : CodePoint) : lowHalf c < 0x10000 := by
  unfold lowHalf
  omega

theorem shortEscape_of_shortForm {c e : CodePoint} (h : shortForm c = some e) :
    shortEscape e = some c := by
  unfold shortForm at h
  split_ifs at h with h1 h2 h3 h4 h5 h6 h7 <;> obtain rfl := Option.some.inj h
  · rw [h1]; rfl
  · rw [h2]; rfl
  · rw [h3]; rfl
  · rw [h4]; rfl
  · rw [h5]; rfl
  · rw [show c = Fin.ofNat _ 0x0c from Fin.ext h6]; rfl
  · rw [show c = Fin.ofNat _ 0x08 from Fin.ext h7]; rfl

theorem ne_of_shortForm_none {c : CodePoint} (h : shortForm c = none) :
    c ≠ ch '"' ∧ c ≠ ch '\\' := by
  constructor <;> rintro rfl <;> simp [shortForm] at h

theorem scanUnits_escape (ensureAscii : Bool) (c : CodePoint) (r : Str) :
    scanUnits (escape ensureAscii c ++ r) =
      (scanUnits r).map fun p => (charUnits ensureAscii c ++ p.1, p.2) := by
  unfold escape charUnits
  cases hshort : shortForm c with
  | some e =>
      have hread := shortEscape_of_shortForm hshort
      simp only [List.cons_append, List.nil_append, Option.isSome_some, if_true]
      rw [scanUnits.eq_def]
      simp [hread]
  | none =>
      obtain ⟨hquote, hslash⟩ := ne_of_shortForm_none hshort
      simp only [Option.isSome_none, Bool.false_eq_true, if_false]
      split_ifs with hescape hbasic
      · exact scanUnits_uEscape hbasic r
      · rw [List.append_assoc, scanUnits_uEscape (Nat.lt_trans (highHalf_lt c)
          (by decide)), scanUnits_uEscape (lowHalf_lt c), Option.map_map]
        rfl
      · have hc : ¬ c.val < 0x20 := by
          intro hlt
          simp [hlt] at hescape
        simp only [List.cons_append, List.nil_append]
        rw [scanUnits.eq_def]
        simp [hquote, hslash, hc]

theorem scanUnits_quoted (ensureAscii : Bool) (s r : Str) :
    scanUnits (s.flatMap (escape ensureAscii) ++ ch '"' :: r) =
      some (s.flatMap (charUnits ensureAscii), r) := by
  induction s with
  | nil => rw [List.flatMap_nil, List.nil_append, scanUnits.eq_def]; simp
  | cons c s ih =>
      simp only [List.flatMap_cons, List.append_assoc]
      rw [scanUnits_escape, ih]
      rfl

/-- No high surrogate stands before a low one: `json.loads` returns no such
text, since it reads two such escapes as one character. -/
def Str.joined : Str → Bool
  | [] => true
  | [_] => true
  | c :: d :: rest =>
      !(isHighSurrogate c.val && isLowSurrogate d.val) && Str.joined (d :: rest)

theorem joinUnits_raw (c : CodePoint) (us : List StrUnit) :
    joinUnits (.raw c :: us) = c :: joinUnits us := by
  rw [joinUnits]

theorem joinUnits_esc {u : Nat} {us : List StrUnit}
    (h : ∀ v us', us = .esc v :: us' →
      (isHighSurrogate u && isLowSurrogate v) = false) :
    joinUnits (.esc u :: us) = Fin.ofNat _ u :: joinUnits us := by
  cases us with
  | nil => simp [joinUnits]
  | cons first us =>
      cases first with
      | raw c => simp [joinUnits]
      | esc v => simp [joinUnits, h v us rfl]

theorem joinUnits_pair (c : CodePoint) (hc : 0x10000 ≤ c.val) (us : List StrUnit) :
    joinUnits (.esc (highHalf c) :: .esc (lowHalf c) :: us) = c :: joinUnits us := by
  have hlt := c.isLt
  have hhigh : isHighSurrogate (highHalf c) = true := by
    simp only [isHighSurrogate, Bool.and_eq_true, decide_eq_true_eq]
    unfold highHalf
    omega
  have hlow : isLowSurrogate (lowHalf c) = true := by
    simp only [isLowSurrogate, Bool.and_eq_true, decide_eq_true_eq]
    unfold lowHalf
    omega
  simp only [joinUnits, hhigh, hlow, Bool.and_self, if_true, List.cons.injEq,
    and_true]
  apply Fin.ext
  simp only [Fin.ofNat, highHalf, lowHalf]
  omega

theorem isLowSurrogate_highHalf (c : CodePoint) : isLowSurrogate (highHalf c) = false := by
  have := highHalf_lt c
  simp only [isLowSurrogate, Bool.and_eq_false_iff, decide_eq_false_iff_not]
  omega

theorem joinUnits_charUnits (ensureAscii : Bool) (c : CodePoint) {us : List StrUnit}
    (h : ∀ v us', us = .esc v :: us' →
      (isHighSurrogate c.val && isLowSurrogate v) = false) :
    joinUnits (charUnits ensureAscii c ++ us) = c :: joinUnits us := by
  unfold charUnits
  split_ifs with hshort hescape hbasic
  · exact joinUnits_raw c us
  · rw [List.singleton_append, joinUnits_esc h]
    simp
  · exact joinUnits_pair c (Nat.le_of_not_lt hbasic) us
  · exact joinUnits_raw c us

/-- The unit a printed text starts with is a low surrogate's escape only if the
text starts with that surrogate. -/
theorem flatMap_charUnits_head {ensureAscii : Bool} {s : Str} {v : Nat}
    {us : List StrUnit} (h : s.flatMap (charUnits ensureAscii) = .esc v :: us)
    (hv : isLowSurrogate v = true) :
    ensureAscii = true ∧ ∃ d rest, s = d :: rest ∧ d.val = v := by
  cases s with
  | nil => simp at h
  | cons d rest =>
      rw [List.flatMap_cons] at h
      unfold charUnits at h
      split_ifs at h with hshort hescape hbasic
      · simp at h
      · simp only [List.singleton_append, List.cons.injEq, StrUnit.esc.injEq] at h
        obtain ⟨rfl, -⟩ := h
        refine ⟨?_, d, rest, rfl, rfl⟩
        simp only [isLowSurrogate, Bool.and_eq_true, decide_eq_true_eq] at hv
        simp only [Bool.or_eq_true, Bool.and_eq_true, decide_eq_true_eq] at hescape
        rcases hescape with hsmall | hascii
        · omega
        · exact hascii.1
      · simp only [List.cons_append, List.cons.injEq, StrUnit.esc.injEq] at h
        rw [← h.1, isLowSurrogate_highHalf] at hv
        cases hv
      · simp at h

theorem joinUnits_flatMap (ensureAscii : Bool) (s : Str)
    (hs : ensureAscii = true → s.joined = true) :
    joinUnits (s.flatMap (charUnits ensureAscii)) = s := by
  induction s with
  | nil => rfl
  | cons c s ih =>
      have htail : ensureAscii = true → Str.joined s = true := by
        intro hascii
        have h := hs hascii
        cases s with
        | nil => rfl
        | cons d rest =>
            simp only [Str.joined, Bool.and_eq_true] at h
            exact h.2
      rw [List.flatMap_cons, joinUnits_charUnits, ih htail]
      intro v us hus
      by_cases hv : isLowSurrogate v = true
      · obtain ⟨hascii, d, rest, rfl, rfl⟩ := flatMap_charUnits_head hus hv
        have h := hs hascii
        simp only [Str.joined, Bool.and_eq_true, Bool.not_eq_true'] at h
        exact h.1
      · simp [hv]

theorem scanString_quoted (ensureAscii : Bool) (s r : Str)
    (hs : ensureAscii = true → s.joined = true) :
    scanString (s.flatMap (escape ensureAscii) ++ ch '"' :: r) = some (s, r) := by
  simp [scanString, scanUnits_quoted, joinUnits_flatMap ensureAscii s hs]

/-! ### Values -/

/-- Separators the scanner accepts: the mark and whitespace after it. -/
structure DumpOpts.Lawful (o : DumpOpts) : Prop where
  itemSep : ∃ w, o.itemSep = ch ',' :: w ∧ ∀ c ∈ w, isJsonSpace c = true
  keySep : ∃ w, o.keySep = ch ':' :: w ∧ ∀ c ∈ w, isJsonSpace c = true

/-- The strings of a value are read back as they were. -/
def DumpOpts.Readable (o : DumpOpts) (j : Json F) : Prop :=
  j.Strings fun s => !o.ensureAscii || s.joined

omit [PyFloat F] in
/-- Without escapes every string is read back. -/
theorem DumpOpts.readable_of_ensureAscii_false {o : DumpOpts} (ho : o.ensureAscii = false)
    (j : Json F) : o.Readable j := by
  unfold DumpOpts.Readable Json.Strings
  induction j using Json.induct with
  | null | bool | int | float | str => simp [Json.all, ho]
  | arr xs ih => exact (Json.all_arr _ xs).mpr ⟨rfl, ih⟩
  | obj ms ih => exact (Json.all_obj _ ms).mpr ⟨by simp [ho], ih⟩

theorem skipSpace_cons {c : CodePoint} (hc : isJsonSpace c = false) (s : Str) :
    skipSpace (c :: s) = c :: s := by
  simp [skipSpace, hc]

theorem skipSpace_append {w : Str} (hw : ∀ c ∈ w, isJsonSpace c = true) (s : Str) :
    skipSpace (w ++ s) = skipSpace s := by
  rw [skipSpace, List.dropWhile_append_of_pos hw]
  rfl

/-- A number starts with a digit, perhaps after a minus sign. -/
def NumberHead (t : Str) : Prop :=
  ∃ d rest, t = digitChar d :: rest ∨ t = ch '-' :: digitChar d :: rest

theorem numberHead_intText (i : Int) : NumberHead (intText i) := by
  cases i with
  | ofNat n =>
      obtain ⟨d, rest, h⟩ := natText_append_eq_cons n []
      exact ⟨d, rest, Or.inl (by simpa [intText] using h)⟩
  | negSucc n =>
      obtain ⟨d, rest, h⟩ := natText_append_eq_cons (n + 1) []
      exact ⟨d, rest, Or.inr (by simpa [intText] using h)⟩

theorem numberHead_floatText (l : FloatLit) : NumberHead l.text := by
  obtain ⟨d, rest, h⟩ := natText_append_eq_cons l.whole (fracText l.frac ++ expText l.exp)
  cases hneg : l.neg with
  | true => exact ⟨d, rest, Or.inr (by simpa [FloatLit.text, hneg] using h)⟩
  | false => exact ⟨d, rest, Or.inl (by simpa [FloatLit.text, hneg] using h)⟩

theorem scanConstant_digit (d : Digit) (s : Str) :
    scanConstant (F := F) (digitChar d :: s) = none := by
  have h : digitChar d ≠ ch 'n' ∧ digitChar d ≠ ch 't' ∧ digitChar d ≠ ch 'f' ∧
      digitChar d ≠ ch 'N' ∧ digitChar d ≠ ch 'I' ∧ digitChar d ≠ ch '-' := by
    revert d
    decide
  obtain ⟨hn, ht, hf, hN, hI, hm⟩ := h
  simp [scanConstant, constants, afterWord, Str.ofString, hn, ht, hf, hN, hI, hm]

theorem scanConstant_minus (d : Digit) (s : Str) :
    scanConstant (F := F) (ch '-' :: digitChar d :: s) = none := by
  have hI : digitChar d ≠ ch 'I' := by
    revert d
    decide
  simp [scanConstant, constants, afterWord, Str.ofString, hI]

theorem scanOnce_number {t : Str} (ht : NumberHead t) (fuel : Nat) (r : Str) :
    scanOnce (F := F) (fuel + 1) (t ++ r) = scanNumber (t ++ r) := by
  obtain ⟨d, rest, rfl | rfl⟩ := ht
  · obtain ⟨-, hquote, hbrace, hbracket⟩ := digitChar_ne d
    simp [scanOnce, hquote, hbrace, hbracket, scanConstant_digit]
  · simp [scanOnce, scanConstant_minus]

theorem scanOnce_floatView (v : FloatView) (fuel : Nat) {r : Str} (hr : NumberEnd r) :
    scanOnce (F := F) (fuel + 1) (v.jsonText ++ r) =
      some (.float (PyFloat.read v), r) := by
  cases v with
  | nan => simp [FloatView.jsonText, scanOnce, scanConstant, constants, afterWord,
      Str.ofString]
  | inf neg => cases neg <;>
      simp [FloatView.jsonText, scanOnce, scanConstant, constants, afterWord,
        Str.ofString]
  | lit l =>
      exact (scanOnce_number (numberHead_floatText l) fuel r).trans
        (scanNumber_text l hr)

/-- The first character of a value's text starts no other token. -/
def TokenHead (t : Str) : Prop :=
  ∃ c rest, t = c :: rest ∧ isJsonSpace c = false ∧ c ≠ ch ']' ∧ c ≠ byteOrderMark

theorem render_head (o : DumpOpts) (j : Json F) : TokenHead (j.render o) := by
  have hnumber : ∀ t, NumberHead t → TokenHead t := by
    rintro t ⟨d, rest, rfl | rfl⟩
    · refine ⟨_, _, rfl, ?_⟩
      revert d
      decide
    · exact ⟨_, _, rfl, by decide⟩
  cases j with
  | null => exact ⟨ch 'n', _, rfl, by decide⟩
  | bool b =>
      cases b
      · exact ⟨ch 'f', _, rfl, by decide⟩
      · exact ⟨ch 't', _, rfl, by decide⟩
  | int i => exact hnumber _ (numberHead_intText i)
  | float x =>
      simp only [Json.render]
      cases PyFloat.view x with
      | nan => exact ⟨ch 'N', _, rfl, by decide⟩
      | inf neg =>
          cases neg
          · exact ⟨ch 'I', _, rfl, by decide⟩
          · exact ⟨ch '-', _, rfl, by decide⟩
      | lit l => exact hnumber _ (numberHead_floatText l)
  | str s => exact ⟨ch '"', _, rfl, by decide⟩
  | arr xs =>
      cases xs with
      | nil => exact ⟨ch '[', _, rfl, by decide⟩
      | cons x xs => exact ⟨ch '[', _, rfl, by decide⟩
  | obj ms =>
      cases ms with
      | nil => exact ⟨ch '{', _, rfl, by decide⟩
      | cons m ms => exact ⟨ch '{', _, rfl, by decide⟩

theorem numberEnd_cons {c : CodePoint} (r : Str)
    (hc : asciiDigit c = none ∧ c ≠ ch '.' ∧ c ≠ ch 'e' ∧ c ≠ ch 'E') :
    NumberEnd (c :: r) := by
  intro x hx
  obtain rfl : c = x := by simpa using hx
  exact hc

/-- The scanner reads a value back from a text, whatever follows. -/
def ReadsAs (t : Str) (j : Json F) : Prop :=
  ∀ fuel r, 2 * t.length + 1 ≤ fuel → NumberEnd r → scanOnce fuel (t ++ r) = some (j, r)

/-- The scanner reads the value back from its text, whatever follows. -/
def Reads (o : DumpOpts) (j : Json F) : Prop :=
  ∀ fuel r, 2 * (j.render o).length + 1 ≤ fuel → NumberEnd r →
    scanOnce fuel (j.render o ++ r) = some (j, r)

/-- A mark and whitespace after it. -/
def Marks (c : CodePoint) (t : Str) : Prop :=
  ∃ w, t = c :: w ∧ ∀ d ∈ w, isJsonSpace d = true

/-- The rest of an array after an item, with a text for every value, a separator
and whitespace before the bracket. -/
def itemsTail (text : Json F → Str) (sep close : Str) : List (Json F) → Str
  | [] => close ++ [ch ']']
  | x :: xs => sep ++ text x ++ itemsTail text sep close xs

/-- The rest of an object after a member. -/
def membersTail (ensureAscii : Bool) (text : Json F → Str) (sep keySep close : Str) :
    Members F → Str
  | [] => close ++ [ch '}']
  | (k, v) :: ms =>
      sep ++ quoted ensureAscii k ++ keySep ++ text v ++
        membersTail ensureAscii text sep keySep close ms

theorem renderItems_eq_tail (o : DumpOpts) (xs : List (Json F)) :
    Json.renderItems o xs = itemsTail (Json.render o) o.itemSep [] xs := by
  induction xs with
  | nil => rw [Json.renderItems, itemsTail, List.nil_append]
  | cons x xs ih => rw [Json.renderItems, itemsTail, ih]

theorem renderMembers_eq_tail (o : DumpOpts) (ms : Members F) :
    Json.renderMembers o ms =
      membersTail o.ensureAscii (Json.render o) o.itemSep o.keySep [] ms := by
  induction ms with
  | nil => rw [Json.renderMembers, membersTail, List.nil_append]
  | cons m ms ih => rw [Json.renderMembers, membersTail, ih]

/-- Whitespace ends a number. -/
theorem numberEnd_spaces {w : Str} (hw : ∀ d ∈ w, isJsonSpace d = true) {r : Str}
    (hr : NumberEnd r) : NumberEnd (w ++ r) := by
  cases w with
  | nil => exact hr
  | cons d w =>
      have hd := hw d List.mem_cons_self
      refine numberEnd_cons _ ?_
      simp only [isJsonSpace, Bool.or_eq_true, decide_eq_true_eq] at hd
      rcases hd with ((rfl | rfl) | rfl) | rfl <;> decide

section

omit [PyFloat F]

variable {text : Json F → Str} {sep keySep close : Str}

theorem numberEnd_itemsTail (hsep : Marks (ch ',') sep)
    (hclose : ∀ d ∈ close, isJsonSpace d = true) (xs : List (Json F)) (r : Str) :
    NumberEnd (itemsTail text sep close xs ++ r) := by
  obtain ⟨w, rfl, -⟩ := hsep
  cases xs with
  | nil =>
      rw [itemsTail, List.append_assoc]
      exact numberEnd_spaces hclose (numberEnd_cons r (by decide))
  | cons x xs => exact numberEnd_cons _ (by decide)

theorem numberEnd_membersTail {ensureAscii : Bool} (hsep : Marks (ch ',') sep)
    (hclose : ∀ d ∈ close, isJsonSpace d = true) (ms : Members F) (r : Str) :
    NumberEnd (membersTail ensureAscii text sep keySep close ms ++ r) := by
  obtain ⟨w, rfl, -⟩ := hsep
  cases ms with
  | nil =>
      rw [membersTail, List.append_assoc]
      exact numberEnd_spaces hclose (numberEnd_cons r (by decide))
  | cons m ms => exact numberEnd_cons _ (by decide)

end

section

variable {sep keySep close : Str}

theorem scanItems_tail (text : Json F → Str) (hsep : Marks (ch ',') sep)
    (hclose : ∀ d ∈ close, isJsonSpace d = true) (x : Json F) (xs : List (Json F))
    (hreads : ∀ y ∈ x :: xs, ReadsAs (text y) y) (hhead : ∀ y ∈ x :: xs, TokenHead (text y))
    (fuel : Nat) (r : Str)
    (hfuel : 2 * (text x ++ itemsTail text sep close xs).length + 2 ≤ fuel) :
    scanItems fuel (text x ++ itemsTail text sep close xs ++ r) = some (x :: xs, r) := by
  have hnumber : ∀ (ys : List (Json F)) (r : Str), NumberEnd (itemsTail text sep close ys ++ r) :=
    numberEnd_itemsTail hsep hclose
  obtain ⟨w, rfl, hw⟩ := hsep
  induction xs generalizing x fuel with
  | nil =>
      obtain ⟨n, rfl⟩ := Nat.exists_eq_add_one_of_ne_zero (n := fuel) (by omega)
      have hx := hreads x List.mem_cons_self n (close ++ ch ']' :: r)
        (by simp at hfuel; omega) (numberEnd_spaces hclose (numberEnd_cons r (by decide)))
      simp only [itemsTail, List.append_assoc, List.cons_append, List.nil_append, scanItems, hx,
        skipSpace_append hclose, skipSpace_cons (c := ch ']') (by decide)]
      simp
  | cons y ys ih =>
      obtain ⟨n, rfl⟩ := Nat.exists_eq_add_one_of_ne_zero (n := fuel) (by omega)
      have hx := hreads x List.mem_cons_self n (itemsTail text (ch ',' :: w) close (y :: ys) ++ r)
        (by simp at hfuel; omega) (hnumber _ _)
      have hys := ih y (fun z hz => hreads z (List.mem_cons_of_mem x hz))
        (fun z hz => hhead z (List.mem_cons_of_mem x hz)) n
        (by simp [itemsTail] at hfuel ⊢; omega)
      obtain ⟨c, rest, hc, hspace, -⟩ := hhead y (by simp)
      rw [List.append_assoc, scanItems, hx]
      simp only [itemsTail, List.cons_append, List.append_assoc,
        skipSpace_cons (c := ch ',') (by decide), skipSpace_append hw]
      rw [hc] at hys ⊢
      simp only [List.cons_append, List.append_assoc] at hys ⊢
      rw [skipSpace_cons hspace, hys]
      simp

theorem scanMembers_tail (ensureAscii : Bool) (text : Json F → Str) (hsep : Marks (ch ',') sep)
    (hkeySep : Marks (ch ':') keySep) (hclose : ∀ d ∈ close, isJsonSpace d = true)
    (m : Str × Json F) (ms : Members F) (hreads : ∀ n ∈ m :: ms, ReadsAs (text n.2) n.2)
    (hhead : ∀ n ∈ m :: ms, TokenHead (text n.2))
    (hkeys : ∀ n ∈ m :: ms, ensureAscii = true → n.1.joined = true) (fuel : Nat) (r : Str)
    (hfuel : 2 * (quoted ensureAscii m.1 ++ keySep ++ text m.2 ++
      membersTail ensureAscii text sep keySep close ms).length + 2 ≤ fuel) :
    scanMembers fuel (quoted ensureAscii m.1 ++ keySep ++ text m.2 ++
      membersTail ensureAscii text sep keySep close ms ++ r) = some (m :: ms, r) := by
  have hnumber : ∀ (ns : Members F) (r : Str),
      NumberEnd (membersTail ensureAscii text sep keySep close ns ++ r) :=
    numberEnd_membersTail hsep hclose
  obtain ⟨kw, rfl, hkw⟩ := hkeySep
  obtain ⟨w, rfl, hw⟩ := hsep
  induction ms generalizing m fuel with
  | nil =>
      obtain ⟨n, rfl⟩ := Nat.exists_eq_add_one_of_ne_zero (n := fuel) (by omega)
      have hx := hreads m List.mem_cons_self n (close ++ ch '}' :: r)
        (by simp at hfuel; omega) (numberEnd_spaces hclose (numberEnd_cons r (by decide)))
      obtain ⟨c, rest, hc, hspace, -⟩ := hhead m List.mem_cons_self
      simp only [quoted, membersTail, List.append_assoc, List.cons_append, List.nil_append,
        scanMembers]
      rw [scanString_quoted _ _ _ (hkeys m List.mem_cons_self)]
      simp only [skipSpace_cons (c := ch ':') (by decide), skipSpace_append hkw]
      rw [hc] at hx ⊢
      simp only [List.cons_append] at hx ⊢
      rw [skipSpace_cons hspace, hx]
      simp [skipSpace_append hclose, skipSpace_cons (c := ch '}') (by decide)]
  | cons m' ms ih =>
      obtain ⟨n, rfl⟩ := Nat.exists_eq_add_one_of_ne_zero (n := fuel) (by omega)
      have hx := hreads m List.mem_cons_self n
        (membersTail ensureAscii text (ch ',' :: w) (ch ':' :: kw) close (m' :: ms) ++ r)
        (by simp at hfuel; omega) (hnumber _ _)
      have hms := ih m' (fun k hk => hreads k (List.mem_cons_of_mem m hk))
        (fun k hk => hhead k (List.mem_cons_of_mem m hk))
        (fun k hk => hkeys k (List.mem_cons_of_mem m hk)) n
        (by simp [membersTail] at hfuel ⊢; omega)
      obtain ⟨c, rest, hc, hspace, -⟩ := hhead m List.mem_cons_self
      simp only [quoted, List.append_assoc, List.cons_append, List.nil_append,
        scanMembers] at hms ⊢
      rw [scanString_quoted _ _ _ (hkeys m List.mem_cons_self)]
      simp only [skipSpace_cons (c := ch ':') (by decide), skipSpace_append hkw]
      rw [hc] at hx ⊢
      simp only [List.cons_append] at hx ⊢
      rw [skipSpace_cons hspace, hx]
      simp only [membersTail, quoted, List.cons_append, List.append_assoc,
        skipSpace_cons (c := ch ',') (by decide), skipSpace_append hw,
        skipSpace_cons (c := ch '"') (by decide), List.nil_append]
      rw [hms]
      simp

end

theorem scanItems_render {o : DumpOpts} (ho : o.Lawful) (x : Json F)
    (xs : List (Json F)) (hreads : ∀ y ∈ x :: xs, Reads o y) (fuel : Nat) (r : Str)
    (hfuel : 2 * (x.render o ++ Json.renderItems o xs).length + 2 ≤ fuel) :
    scanItems fuel (x.render o ++ Json.renderItems o xs ++ r) = some (x :: xs, r) := by
  rw [renderItems_eq_tail] at hfuel ⊢
  exact scanItems_tail _ ho.itemSep (by simp) x xs hreads (fun y _ => render_head o y) fuel r hfuel

theorem scanMembers_render {o : DumpOpts} (ho : o.Lawful) (m : Str × Json F)
    (ms : Members F) (hreads : ∀ n ∈ m :: ms, Reads o n.2)
    (hkeys : ∀ n ∈ m :: ms, o.ensureAscii = true → n.1.joined = true)
    (fuel : Nat) (r : Str)
    (hfuel : 2 * (quoted o.ensureAscii m.1 ++ o.keySep ++ m.2.render o ++
      Json.renderMembers o ms).length + 2 ≤ fuel) :
    scanMembers fuel (quoted o.ensureAscii m.1 ++ o.keySep ++ m.2.render o ++
      Json.renderMembers o ms ++ r) = some (m :: ms, r) := by
  rw [renderMembers_eq_tail] at hfuel ⊢
  exact scanMembers_tail _ _ ho.itemSep ho.keySep (by simp) m ms hreads
    (fun n _ => render_head o n.2) hkeys fuel r hfuel

/-- Every value with distinct keys and readable strings is read back. -/
theorem reads_of_keyed {o : DumpOpts} (ho : o.Lawful) (j : Json F) :
    j.Keyed → o.Readable j → Reads o j := by
  induction j using Json.induct with
  | null =>
      intro _ _ fuel r hfuel _
      obtain ⟨n, rfl⟩ := Nat.exists_eq_add_one_of_ne_zero (n := fuel) (by omega)
      simp [Json.render, scanOnce, scanConstant, constants, afterWord, Str.ofString]
  | bool b =>
      intro _ _ fuel r hfuel _
      obtain ⟨n, rfl⟩ := Nat.exists_eq_add_one_of_ne_zero (n := fuel) (by omega)
      cases b <;>
        simp [Json.render, scanOnce, scanConstant, constants, afterWord, Str.ofString]
  | int i =>
      intro _ _ fuel r hfuel hr
      obtain ⟨n, rfl⟩ := Nat.exists_eq_add_one_of_ne_zero (n := fuel) (by omega)
      exact (scanOnce_number (numberHead_intText i) n r).trans
        (scanNumber_intText i hr)
  | float x =>
      intro _ _ fuel r hfuel hr
      obtain ⟨n, rfl⟩ := Nat.exists_eq_add_one_of_ne_zero (n := fuel) (by omega)
      rw [Json.render, scanOnce_floatView _ n hr, PyFloat.read_view]
  | str s =>
      intro _ hstr fuel r hfuel _
      obtain ⟨n, rfl⟩ := Nat.exists_eq_add_one_of_ne_zero (n := fuel) (by omega)
      have hs : o.ensureAscii = true → s.joined = true := by
        intro hascii
        simpa [DumpOpts.Readable, Json.strings_str, hascii] using hstr
      have h := scanString_quoted o.ensureAscii s r hs
      simp [Json.render, quoted, scanOnce, h]
  | arr xs ih =>
      intro hkeyed hstr fuel r hfuel _
      obtain ⟨n, rfl⟩ := Nat.exists_eq_add_one_of_ne_zero (n := fuel) (by omega)
      rw [Json.keyed_arr] at hkeyed
      rw [DumpOpts.Readable, Json.strings_arr] at hstr
      cases xs with
      | nil => simp [Json.render, Str.ofString, scanOnce, skipSpace, isJsonSpace]
      | cons x xs =>
          have hitems := scanItems_render ho x xs
            (fun y hy => ih y hy (hkeyed y hy) (hstr y hy)) n r
            (by simp [Json.render] at hfuel ⊢; omega)
          obtain ⟨c, rest, hc, hspace, hclose, -⟩ := render_head o x
          simp only [Json.render, List.cons_append, List.append_assoc] at hitems ⊢
          rw [hc] at hitems ⊢
          rw [List.cons_append] at hitems ⊢
          simp [scanOnce, skipSpace_cons hspace, hclose, hitems]
  | obj ms ih =>
      intro hkeyed hstr fuel r hfuel _
      obtain ⟨n, rfl⟩ := Nat.exists_eq_add_one_of_ne_zero (n := fuel) (by omega)
      rw [Json.keyed_obj] at hkeyed
      rw [DumpOpts.Readable, Json.strings_obj] at hstr
      cases ms with
      | nil => simp [Json.render, Str.ofString, scanOnce, skipSpace, isJsonSpace]
      | cons m ms =>
          have hmembers := scanMembers_render ho m ms
            (fun k hk => ih k hk (hkeyed.2 k hk) (hstr.2 k hk))
            (fun k hk hascii => by simpa [hascii] using hstr.1 k hk) n r
            (by simp [Json.render] at hfuel ⊢; omega)
          simp only [Json.render, quoted, List.cons_append, List.append_assoc,
            List.nil_append] at hmembers ⊢
          simp [scanOnce, skipSpace_cons (c := ch '"') (by decide), hmembers,
            dictOf_eq_self _ hkeyed.1]

/-- `json.loads` of a text the scanner reads, with whitespace behind it. -/
theorem loads_of_reads {t : Str} {j : Json F} (hreads : ReadsAs t j) (hhead : TokenHead t)
    {w : Str} (hw : ∀ c ∈ w, isJsonSpace c = true) : loads (t ++ w) = some j := by
  obtain ⟨c, rest, rfl, hspace, -, hbom⟩ := hhead
  have hend : NumberEnd w := by
    simpa using numberEnd_spaces hw numberEnd_nil
  have hscan := hreads (2 * (c :: rest ++ w).length + 1) w
    (by rw [List.length_append]; omega) hend
  have hspaces : skipSpace w = [] := by
    simpa [skipSpace] using skipSpace_append hw []
  rw [List.cons_append] at hscan ⊢
  have hmark : (c :: (rest ++ w)).head? ≠ some byteOrderMark := by simpa using hbom
  rw [loads, if_neg hmark, skipSpace_cons hspace, hscan]
  simp [hspaces]

/-- `json.loads` inverts the printer, with whitespace around the text. -/
theorem loads_render {o : DumpOpts} (ho : o.Lawful) {j : Json F} (hkeyed : j.Keyed)
    (hstr : o.Readable j) {w : Str} (hw : ∀ c ∈ w, isJsonSpace c = true) :
    loads (j.render o ++ w) = some j :=
  loads_of_reads (reads_of_keyed ho j hkeyed hstr) (render_head o j) hw

/-- An object's text has no white space around it. -/
theorem strip_render_obj (o : DumpOpts) (ms : Members F) :
    Str.strip ((Json.obj ms).render o) = (Json.obj ms).render o := by
  have hends : ∃ t, (Json.obj ms).render o = ch '{' :: t ∧
      (ch '{' :: t).getLast? = some (ch '}') := by
    cases ms with
    | nil => exact ⟨[ch '}'], by rw [Json.render]; rfl, rfl⟩
    | cons m ms =>
        rw [Json.render, renderMembers_eq_tail]
        refine ⟨_, rfl, ?_⟩
        have hlast : ∀ ns : Members F, (membersTail o.ensureAscii (Json.render o)
            o.itemSep o.keySep [] ns).getLast? = some (ch '}') := by
          intro ns
          induction ns with
          | nil => rfl
          | cons n ns ih => rw [membersTail, List.getLast?_append, ih, Option.some_or]
        rw [← List.cons_append, List.getLast?_append, hlast, Option.some_or]
  obtain ⟨t, ht, hlast⟩ := hends
  rw [ht]
  refine strip_eq_self ?_ ?_
  · rw [List.head?_cons]
    rintro c ⟨⟩
    decide
  · rw [hlast]
    rintro c ⟨⟩
    decide

end Py
