/-
Python text.  A `str` is a list of code points: unlike a Lean `String` it may
hold lone surrogates, which a JSON `\ud800` escape produces.  The codecs, the
exceptions they raise and the small string methods follow CPython 3.12.
-/
import Mathlib.Data.Nat.Digits.Lemmas
import Mathlib.Data.List.DropRight
import Mathlib.Data.Fintype.Basic

namespace Py

/-- A Unicode code point, lone surrogates included. -/
abbrev CodePoint := Fin 0x110000

instance CodePoint.neZero : NeZero (0x110000 : Nat) := ⟨by decide⟩

instance CodePoint.lawfulBEq : LawfulBEq CodePoint := inferInstance

/-- A Python `str`. -/
abbrev Str := List CodePoint

instance Str.lawfulBEq : LawfulBEq Str := inferInstance

/-- A Python `bytes`. -/
abbrev Bytes := List UInt8

theorem charToNat_lt (c : Char) : c.toNat < 0x110000 := by
  rcases c.valid with h | h
  · exact Nat.lt_trans h (by decide)
  · exact h.2

/-- The code point of a Lean character. -/
def ch (c : Char) : CodePoint := Fin.ofNat 0x110000 c.toNat

@[simp] theorem ch_val (c : Char) : (ch c).val = c.toNat :=
  Nat.mod_eq_of_lt (charToNat_lt c)

@[simp] theorem ch_inj (a b : Char) : ch a = ch b ↔ a = b := by
  constructor
  · intro h
    have hval : a.toNat = b.toNat := by simpa using congrArg Fin.val h
    exact Char.ext (UInt32.toNat_inj.mp hval)
  · exact congrArg ch

/-- The `str` with the characters of a Lean string. -/
def Str.ofString (s : String) : Str := s.toList.map ch

instance : Coe String Str := ⟨Str.ofString⟩

@[simp] theorem Str.ofString_inj (s t : String) :
    Str.ofString s = Str.ofString t ↔ s = t := by
  constructor
  · intro h
    have hinj : Function.Injective ch := fun a b => (ch_inj a b).mp
    exact String.toList_inj.mp ((List.map_inj_right hinj).mp h)
  · exact congrArg Str.ofString

theorem Str.ofString_append (s t : String) :
    Str.ofString (s ++ t) = Str.ofString s ++ Str.ofString t := by
  simp [Str.ofString]

/-- The characters of a literal: it evaluates by these rather than by its bytes. -/
theorem Str.ofString_ofList (l : List Char) : Str.ofString (String.ofList l) = l.map ch := by
  rw [Str.ofString, String.toList_ofList]

/-! ### Digits -/

abbrev Digit := Fin 10

instance Digit.neZero : NeZero (10 : Nat) := ⟨by decide⟩

/-- The ASCII digit of a decimal digit. -/
def digitChar (d : Digit) : CodePoint := Fin.ofNat 0x110000 (48 + d.val)

/-- The decimal digits of a number, most significant first. -/
def natDigits (n : Nat) : List Digit :=
  if n = 0 then [0] else (Nat.digits 10 n).reverse.map (Fin.ofNat 10)

/-- `str(n)` of a non-negative integer. -/
def natText (n : Nat) : Str := (natDigits n).map digitChar

/-- `str(i)` of an integer. -/
def intText : Int → Str
  | .ofNat n => natText n
  | .negSucc n => ch '-' :: natText (n + 1)

/-- One lower-case hexadecimal digit, as `%x` prints it. -/
def hexChar (d : Nat) : CodePoint :=
  Fin.ofNat 0x110000 (if d < 10 then 48 + d else 87 + d)

/-- `%0{width}x`. -/
def hexPad : Nat → Nat → Str
  | 0, _ => []
  | width + 1, n => hexPad width (n / 16) ++ [hexChar (n % 16)]

theorem hexPad_length (width n : Nat) : (hexPad width n).length = width := by
  induction width generalizing n with
  | zero => rfl
  | succ width ih => simp [hexPad, ih]

/-! ### Exceptions -/

inductive ExcKind where
  | typeError | valueError | keyError | attributeError | overflowError
  | recursionError | unicodeEncodeError | binasciiError | badSignature | databaseError | osError
  | systemExit
deriving DecidableEq, Repr

/-- A raised exception, with the text `str(exc)` gives. -/
structure Exc where
  kind : ExcKind
  text : Str
deriving DecidableEq

/-- A sequence of two steps succeeds when both do. -/
theorem bind_eq_ok {ε α β : Type} {x : Except ε α} {f : α → Except ε β} {b : β} :
    x >>= f = .ok b ↔ ∃ a, x = .ok a ∧ f a = .ok b := by
  cases x <;> simp [bind, Except.bind]

/-- What each step of a loop keeps holds at its end. -/
theorem foldlM_inv {ε α β : Type} {f : β → α → Except ε β} {P : β → Prop}
    (hstep : ∀ acc a acc', P acc → f acc a = .ok acc' → P acc') {init out : β} {l : List α}
    (hinit : P init) (h : l.foldlM f init = .ok out) : P out := by
  induction l generalizing init with
  | nil => exact Except.ok.inj h ▸ hinit
  | cons a l ih =>
      rw [List.foldlM_cons] at h
      obtain ⟨acc, hacc, h⟩ := bind_eq_ok.mp h
      exact ih (hstep init a acc hinit hacc) h

/-! ### Codecs -/

def isSurrogate (c : CodePoint) : Bool := 0xd800 ≤ c.val && c.val ≤ 0xdfff

def isHighSurrogate (n : Nat) : Bool := 0xd800 ≤ n && n ≤ 0xdbff

def isLowSurrogate (n : Nat) : Bool := 0xdc00 ≤ n && n ≤ 0xdfff

/-- `\xe9`, `\ud800` or `\U0001f600`, as error messages print a character. -/
def escapeChar (c : CodePoint) : Str :=
  if c.val ≤ 0xff then "\\x" ++ hexPad 2 c.val
  else if c.val ≤ 0xffff then "\\u" ++ hexPad 4 c.val
  else "\\U" ++ hexPad 8 c.val

/-- The `UnicodeEncodeError` for the first run of characters a codec refuses. -/
def encodeError (codec reason : Str) (bad : CodePoint → Bool) (s : Str) : Exc :=
  let start := s.findIdx bad
  let run := (s.drop start).takeWhile bad
  let place : Str := match run with
    | [c] => "character '" ++ escapeChar c ++ "' in position " ++ natText start
    | _ => "characters in position " ++ natText start ++ "-" ++
        natText (start + run.length - 1)
  ⟨.unicodeEncodeError, "'" ++ codec ++ "' codec can't encode " ++ place ++ ": " ++ reason⟩

/-- The Lean character of a code point that is no surrogate. -/
def CodePoint.toChar (c : CodePoint) : Char := Char.ofNat c.val

/-- No surrogate anywhere: the text can be encoded. -/
def Str.WellFormed (s : Str) : Prop := ∀ c ∈ s, isSurrogate c = false

instance (s : Str) : Decidable (Str.WellFormed s) :=
  decidable_of_iff (s.all fun c => !isSurrogate c) (by simp [Str.WellFormed])

/-- `s.encode("utf-8")`. -/
def encodeUtf8 (s : Str) : Except Exc Bytes :=
  if Str.WellFormed s then
    .ok (s.flatMap fun c => String.utf8EncodeChar (CodePoint.toChar c))
  else .error (encodeError "utf-8" "surrogates not allowed" isSurrogate s)

def isAscii (c : CodePoint) : Bool := c.val < 128

/-- `s.encode("ascii")`. -/
def encodeAscii (s : Str) : Except Exc Bytes :=
  if s.all isAscii then .ok (s.map fun c => UInt8.ofNat c.val)
  else .error (encodeError "ascii" "ordinal not in range(128)"
    (fun c => !isAscii c) s)

theorem Str.wellFormed_ofString (s : String) : Str.WellFormed (Str.ofString s) := by
  intro c hc
  simp only [Str.ofString, List.mem_map] at hc
  obtain ⟨x, _, rfl⟩ := hc
  rcases x.valid with h | h
  · have : x.toNat < 0xd800 := h
    simp [isSurrogate]
    omega
  · have : 0xdfff < x.toNat := h.1
    simp [isSurrogate]
    omega

theorem CodePoint.toChar_toNat {c : CodePoint} (hc : isSurrogate c = false) :
    (CodePoint.toChar c).toNat = c.val := by
  have hvalid : c.val.isValidChar := by
    simp only [isSurrogate, Bool.and_eq_false_iff, decide_eq_false_iff_not] at hc
    have := c.isLt
    rcases hc with h | h
    · exact Or.inl (by omega)
    · exact Or.inr ⟨by omega, by omega⟩
  rw [CodePoint.toChar, Char.ofNat, dif_pos hvalid]
  rfl

theorem CodePoint.ch_toChar {c : CodePoint} (hc : isSurrogate c = false) :
    ch (CodePoint.toChar c) = c := by
  apply Fin.ext
  rw [ch_val, CodePoint.toChar_toNat hc]

/-- Well-formed text is the image of a Lean string. -/
theorem Str.WellFormed.eq_ofString {s : Str} (hs : Str.WellFormed s) :
    Str.ofString (String.ofList (s.map CodePoint.toChar)) = s := by
  simp only [Str.ofString, String.toList_ofList, List.map_map]
  conv_rhs => rw [← List.map_id s]
  apply List.map_congr_left
  intro c hc
  exact CodePoint.ch_toChar (hs c hc)

/-- UTF-8 is injective where it is defined. -/
theorem encodeUtf8_inj {s t : Str} {bytes : Bytes}
    (hs : encodeUtf8 s = .ok bytes) (ht : encodeUtf8 t = .ok bytes) : s = t := by
  unfold encodeUtf8 at hs ht
  split at hs
  · rename_i hsw
    split at ht
    · rename_i htw
      have hbytes : (s.map CodePoint.toChar).utf8Encode =
          (t.map CodePoint.toChar).utf8Encode := by
        simp only [List.utf8Encode, List.flatMap_map]
        rw [Except.ok.inj hs, Except.ok.inj ht]
      rw [← String.toByteArray_ofList, ← String.toByteArray_ofList,
        String.toByteArray_inj] at hbytes
      rw [← hsw.eq_ofString, ← htw.eq_ofString, hbytes]
    · cases ht
  · cases hs

theorem encodeUtf8_ok {s : Str} (hs : Str.WellFormed s) :
    encodeUtf8 s = .ok (s.flatMap fun c =>
      String.utf8EncodeChar (CodePoint.toChar c)) := by
  simp [encodeUtf8, hs]

/-- `bs.decode("latin-1")`, which on ASCII bytes is `decode("ascii")`. -/
def decodeLatin1 (bs : Bytes) : Str := bs.map fun b => Fin.ofNat _ b.toNat

/-- `s.lower()` of text that was decoded as Latin-1. -/
def Str.lowerLatin1 (s : Str) : Str :=
  s.map fun c =>
    if (65 ≤ c.val ∧ c.val ≤ 90) ∨ (0xc0 ≤ c.val ∧ c.val ≤ 0xde ∧ c.val ≠ 0xd7) then
      Fin.ofNat _ (c.val + 32)
    else c

/-- `s.split(sep)` with a separator of one character. -/
def Str.split (sep : CodePoint) : Str → List Str
  | [] => [[]]
  | c :: rest =>
      if c = sep then [] :: Str.split sep rest
      else match Str.split sep rest with
        | [] => [[c]]
        | word :: words => (c :: word) :: words

theorem split_ne_nil (sep : CodePoint) (s : Str) : Str.split sep s ≠ [] := by
  induction s with
  | nil => simp [Str.split]
  | cons c s ih =>
      rw [Str.split]
      split
      · exact List.cons_ne_nil _ _
      · split
        · exact List.cons_ne_nil _ _
        · exact List.cons_ne_nil _ _

/-- A separator between two texts separates their parts. -/
theorem split_append (sep : CodePoint) (p s : Str) :
    Str.split sep (p ++ sep :: s) = Str.split sep p ++ Str.split sep s := by
  induction p with
  | nil => simp [Str.split]
  | cons c p ih =>
      by_cases hc : c = sep
      · simp only [List.cons_append, Str.split, hc, if_true, ih]
      · simp only [List.cons_append, Str.split, hc, if_false, ih]
        rcases hp : Str.split sep p with _ | ⟨word, words⟩
        · exact absurd hp (split_ne_nil sep p)
        · rfl

theorem split_of_notMem {sep : CodePoint} {s : Str} (h : sep ∉ s) :
    Str.split sep s = [s] := by
  induction s with
  | nil => rfl
  | cons c s ih =>
      obtain ⟨hc, hs⟩ := not_or.mp (mt List.mem_cons.mpr h)
      simp only [Str.split, Ne.symm hc, if_false, ih hs]

/-- The text of a file opened in text mode: `\r\n` and `\r` are read as `\n`. -/
def universalNewlines : Str → Str
  | [] => []
  | [c] => [if c = ch '\r' then ch '\n' else c]
  | c :: d :: rest =>
      if c = ch '\r' then
        if d = ch '\n' then ch '\n' :: universalNewlines rest
        else ch '\n' :: universalNewlines (d :: rest)
      else c :: universalNewlines (d :: rest)

theorem universalNewlines_cons {c : CodePoint} (hc : c ≠ ch '\r') (s : Str) :
    universalNewlines (c :: s) = c :: universalNewlines s := by
  cases s with
  | nil => rw [universalNewlines, universalNewlines, if_neg hc]
  | cons d s => rw [universalNewlines, if_neg hc]

/-- A text without carriage returns is read as it is, and what follows it apart. -/
theorem universalNewlines_append {s : Str} (hs : ch '\r' ∉ s) (t : Str) :
    universalNewlines (s ++ t) = s ++ universalNewlines t := by
  induction s with
  | nil => rfl
  | cons c s ih =>
      obtain ⟨hc, hs⟩ := not_or.mp (mt List.mem_cons.mpr hs)
      rw [List.cons_append, universalNewlines_cons (Ne.symm hc), ih hs, List.cons_append]

theorem universalNewlines_eq_self {s : Str} (hs : ch '\r' ∉ s) : universalNewlines s = s := by
  have h := universalNewlines_append hs []
  rwa [universalNewlines, List.append_nil] at h

/-- Line ends are read apart on both sides of any other character. -/
theorem universalNewlines_append_cons {c : CodePoint} (hc : c ≠ ch '\n') (s t : Str) :
    universalNewlines (s ++ c :: t) = universalNewlines s ++ universalNewlines (c :: t) := by
  fun_induction universalNewlines s with
  | case1 => rfl
  | case2 d =>
      rw [List.singleton_append, universalNewlines]
      by_cases hd : d = ch '\r'
      · rw [if_pos hd, if_neg hc, if_pos hd]
        rfl
      · rw [if_neg hd, if_neg hd]
        rfl
  | case3 rest ih =>
      rw [List.cons_append, List.cons_append, universalNewlines, if_pos rfl, if_pos rfl, ih]
      rfl
  | case4 d rest hd ih =>
      rw [List.cons_append, List.cons_append, universalNewlines, if_pos rfl, if_neg hd,
        ← List.cons_append, ih]
      rfl
  | case5 b d rest hb ih =>
      rw [List.cons_append, List.cons_append, universalNewlines, if_neg hb, ← List.cons_append, ih]
      rfl

/-- Nothing but line ends comes in. -/
theorem mem_universalNewlines {s : Str} {c : CodePoint} (h : c ∈ universalNewlines s) :
    c ∈ s ∨ c = ch '\n' := by
  fun_induction universalNewlines s with
  | case1 => cases h
  | case2 d =>
      rw [List.mem_singleton] at h
      by_cases hd : d = ch '\r'
      · rw [if_pos hd] at h
        exact Or.inr h
      · rw [if_neg hd] at h
        exact Or.inl (List.mem_singleton.mpr h)
  | case3 rest ih =>
      rcases List.mem_cons.mp h with h | h
      · exact Or.inr h
      · exact (ih h).imp_left fun hmem => List.mem_cons_of_mem _ (List.mem_cons_of_mem _ hmem)
  | case4 d rest hd ih =>
      rcases List.mem_cons.mp h with h | h
      · exact Or.inr h
      · exact (ih h).imp_left (List.mem_cons_of_mem _)
  | case5 b d rest hb ih =>
      rcases List.mem_cons.mp h with rfl | h
      · exact Or.inl List.mem_cons_self
      · exact (ih h).imp_left (List.mem_cons_of_mem _)

/-! ### Whitespace and `int()` -/

/-- `str.isspace` of one character. -/
def isSpace (c : CodePoint) : Bool :=
  (9 ≤ c.val && c.val ≤ 13) || (0x1c ≤ c.val && c.val ≤ 0x20) || c.val = 0x85 ||
    c.val = 0xa0 || c.val = 0x1680 || (0x2000 ≤ c.val && c.val ≤ 0x200a) ||
    c.val = 0x2028 || c.val = 0x2029 || c.val = 0x202f || c.val = 0x205f ||
    c.val = 0x3000

/-- `s.strip()`. -/
def Str.strip (s : Str) : Str := (s.dropWhile isSpace).rdropWhile isSpace

/-- A text with no space at its ends is its own `strip()`. -/
theorem strip_eq_self {s : Str} (hfirst : ∀ c ∈ s.head?, isSpace c = false)
    (hlast : ∀ c ∈ s.getLast?, isSpace c = false) : Str.strip s = s := by
  have hdrop : s.dropWhile isSpace = s := by
    cases s with
    | nil => rfl
    | cons c s => rw [List.dropWhile_cons_of_neg (by simp [hfirst c rfl])]
  rw [Str.strip, hdrop, List.rdropWhile_eq_self_iff]
  intro hne
  simp [hlast _ (List.getLast?_eq_some_getLast hne)]

/-- Spaces at the end are stripped. -/
theorem strip_append_space (s : Str) {w : Str} (hw : ∀ c ∈ w, isSpace c = true) :
    Str.strip (s ++ w) = Str.strip s := by
  have hnil : w.dropWhile isSpace = [] := List.dropWhile_eq_nil_iff.mpr hw
  rw [Str.strip, Str.strip, List.dropWhile_append, hnil]
  by_cases hempty : (s.dropWhile isSpace).isEmpty = true
  · rw [if_pos hempty, List.isEmpty_iff.mp hempty]
  · rw [if_neg hempty, List.rdropWhile, List.reverse_append, List.dropWhile_append_of_pos]
    · rfl
    · exact fun c hc => hw c (List.mem_reverse.mp hc)

/-- So are those in front. -/
theorem strip_space_append {w : Str} (hw : ∀ c ∈ w, isSpace c = true) (s : Str) :
    Str.strip (w ++ s) = Str.strip s := by
  rw [Str.strip, Str.strip, List.dropWhile_append_of_pos hw]

/-- What the program takes from the interpreter that runs it. -/
class Interpreter where
  /-- `str.isprintable` of a character outside ASCII. -/
  printable : CodePoint → Bool
  /-- The value of a decimal digit outside ASCII. -/
  decimal : CodePoint → Option Digit
  /-- `str.lower`, on text without surrogates. -/
  lower : String → String
  /-- The brackets that `json.loads` can follow into each other before it raises a
  `RecursionError`. -/
  nesting : Nat
  /-- CPython 3.12 follows ten thousand, less the calls under way. -/
  nesting_ge : 4096 ≤ nesting

/-- An interpreter that knows ASCII only. -/
@[reducible] def Interpreter.ascii : Interpreter where
  printable _ := false
  decimal _ := none
  lower s := s.toLower
  nesting := 9998
  nesting_ge := by decide

variable [Interpreter]

/-- `int()` skips ASCII whitespace and every space outside ASCII, but not the
separators `\x1c` to `\x1f`. -/
def isIntSpace (c : CodePoint) : Bool :=
  isSpace c && !(0x1c ≤ c.val && c.val ≤ 0x1f)

def decimalValue (c : CodePoint) : Option Digit :=
  if 48 ≤ c.val ∧ c.val ≤ 57 then some (Fin.ofNat 10 (c.val - 48))
  else if isAscii c then none
  else Interpreter.decimal c

/-- Decimal digits with single underscores between them. -/
def intDigits : Str → Option (List Digit)
  | [] => none
  | [c] => (decimalValue c).map ([·])
  | c :: u :: rest =>
      if u = ch '_' then do
        let d ← decimalValue c
        let ds ← intDigits rest
        pure (d :: ds)
      else do
        let d ← decimalValue c
        let ds ← intDigits (u :: rest)
        pure (d :: ds)

def ofDigits (ds : List Digit) : Nat := ds.foldl (fun acc d => 10 * acc + d.val) 0

def isPrintable (c : CodePoint) : Bool :=
  if isAscii c then 0x20 ≤ c.val && c.val < 0x7f else Interpreter.printable c

/-- `repr` of a `str`: single quotes unless only they occur. -/
def Str.repr (s : Str) : Str :=
  let quote : CodePoint := if ch '\'' ∈ s ∧ ch '"' ∉ s then ch '"' else ch '\''
  let body := s.flatMap fun c =>
    if c = quote ∨ c = ch '\\' then [ch '\\', c]
    else if c = ch '\n' then [ch '\\', ch 'n']
    else if c = ch '\r' then [ch '\\', ch 'r']
    else if c = ch '\t' then [ch '\\', ch 't']
    else if isPrintable c then [c]
    else escapeChar c
  quote :: body ++ [quote]

/-- `int(s)` of a `str`. -/
def intOfStr (s : Str) : Except Exc Int :=
  let body := (s.dropWhile isIntSpace).rdropWhile isIntSpace
  let value : Option Int := match body with
    | c :: rest =>
        if c = ch '-' then (intDigits rest).map fun ds => -(ofDigits ds : Int)
        else if c = ch '+' then (intDigits rest).map fun ds => (ofDigits ds : Int)
        else (intDigits body).map fun ds => (ofDigits ds : Int)
    | [] => none
  match value with
  | some i => .ok i
  | none => .error ⟨.valueError, "invalid literal for int() with base 10: " ++ Str.repr s⟩

end Py
