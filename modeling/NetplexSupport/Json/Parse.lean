/-
`json.loads`.  The scanner follows CPython's: one function for a value, one for
the items of an array and one for the members of an object, each returning the
value read and the text after it.  A rejected text is `none`; the recursion is
on fuel, and the length of the text is fuel enough.
-/
import NetplexSupport.Json.Print

namespace Py

variable {F : Type}

/-! ### Tokens -/

def isJsonSpace (c : CodePoint) : Bool :=
  c = ch ' ' || c = ch '\t' || c = ch '\n' || c = ch '\r'

def skipSpace (s : Str) : Str := s.dropWhile isJsonSpace

/-- The text after a fixed word. -/
def afterWord : Str → Str → Option Str
  | [], s => some s
  | _ :: _, [] => none
  | w :: word, c :: s => if c = w then afterWord word s else none

/-! ### Strings -/

/-- A character of a string body: written as itself or by a short escape, or
by a `\u` escape, which is one UTF-16 unit. -/
inductive StrUnit where
  | raw (c : CodePoint)
  | esc (unit : Nat)

def hexValue (c : CodePoint) : Option Nat :=
  if 48 ≤ c.val ∧ c.val ≤ 57 then some (c.val - 48)
  else if 97 ≤ c.val ∧ c.val ≤ 102 then some (c.val - 87)
  else if 65 ≤ c.val ∧ c.val ≤ 70 then some (c.val - 55)
  else none

def hex4 (a b c d : CodePoint) : Option Nat := do
  let a ← hexValue a
  let b ← hexValue b
  let c ← hexValue c
  let d ← hexValue d
  pure (((a * 16 + b) * 16 + c) * 16 + d)

/-- The character of `\"`, `\\`, `\/`, `\b`, `\f`, `\n`, `\r` and `\t`. -/
def shortEscape (c : CodePoint) : Option CodePoint :=
  if c = ch '"' then some (ch '"')
  else if c = ch '\\' then some (ch '\\')
  else if c = ch '/' then some (ch '/')
  else if c = ch 'b' then some (Fin.ofNat _ 0x08)
  else if c = ch 'f' then some (Fin.ofNat _ 0x0c)
  else if c = ch 'n' then some (ch '\n')
  else if c = ch 'r' then some (ch '\r')
  else if c = ch 't' then some (ch '\t')
  else none

/-- The units of a string body up to its closing quote.  Control characters
are refused. -/
def scanUnits : Str → Option (List StrUnit × Str)
  | [] => none
  | c :: rest =>
      if c = ch '"' then some ([], rest)
      else if c = ch '\\' then
        match rest with
        | [] => none
        | e :: rest =>
            match shortEscape e with
            | some x => (scanUnits rest).map fun p => (.raw x :: p.1, p.2)
            | none =>
                if e = ch 'u' then
                  match rest with
                  | w :: x :: y :: z :: rest =>
                      match hex4 w x y z with
                      | some u => (scanUnits rest).map fun p => (.esc u :: p.1, p.2)
                      | none => none
                  | _ => none
                else none
      else if c.val < 0x20 then none
      else (scanUnits rest).map fun p => (.raw c :: p.1, p.2)

/-- Two escapes that form a surrogate pair are one character. -/
def joinUnits : List StrUnit → Str
  | [] => []
  | .raw c :: rest => c :: joinUnits rest
  | .esc u :: .esc v :: rest =>
      if isHighSurrogate u && isLowSurrogate v then
        Fin.ofNat _ (0x10000 + (u - 0xd800) * 0x400 + (v - 0xdc00)) :: joinUnits rest
      else Fin.ofNat _ u :: joinUnits (.esc v :: rest)
  | .esc u :: rest => Fin.ofNat _ u :: joinUnits rest

/-- `scanstring`, after the opening quote. -/
def scanString (s : Str) : Option (Str × Str) :=
  (scanUnits s).map fun p => (joinUnits p.1, p.2)

/-! ### Numbers -/

def asciiDigit (c : CodePoint) : Option Digit :=
  if 48 ≤ c.val ∧ c.val ≤ 57 then some (Fin.ofNat 10 (c.val - 48)) else none

def spanDigits : Str → List Digit × Str
  | [] => ([], [])
  | c :: rest =>
      match asciiDigit c with
      | some d => let p := spanDigits rest; (d :: p.1, p.2)
      | none => ([], c :: rest)

/-- `0` or digits that do not start with `0`. -/
def scanWhole (s : Str) : Option (Nat × Str) :=
  match s with
  | [] => none
  | c :: rest =>
      if c = ch '0' then some (0, rest)
      else match spanDigits s with
        | ([], _) => none
        | (ds, rest) => some (ofDigits ds, rest)

/-- A point with digits after it. -/
def scanFrac (s : Str) : List Digit × Str :=
  match s with
  | [] => ([], [])
  | c :: rest =>
      if c = ch '.' then
        match spanDigits rest with
        | ([], _) => ([], s)
        | (ds, rest) => (ds, rest)
      else ([], s)

/-- The sign and the digits after `e`. -/
def scanExpDigits (neg : Bool) (s after : Str) :
    Option (Bool × List Digit) × Str :=
  match spanDigits after with
  | ([], _) => (none, s)
  | (ds, rest) => (some (neg, ds), rest)

def scanExp (s : Str) : Option (Bool × List Digit) × Str :=
  match s with
  | [] => (none, [])
  | c :: rest =>
      if c = ch 'e' ∨ c = ch 'E' then
        match rest with
        | [] => (none, s)
        | sign :: after =>
            if sign = ch '-' then scanExpDigits true s after
            else if sign = ch '+' then scanExpDigits false s after
            else scanExpDigits false s rest
      else (none, s)

def FloatLit.ofParts (neg : Bool) (whole : Nat) (frac : List Digit)
    (exp : Option (Bool × List Digit)) : Option FloatLit :=
  if h : (frac ≠ [] ∨ exp.isSome) ∧ ∀ e ∈ exp, e.2 ≠ [] then
    some ⟨neg, whole, frac, exp, h.1, h.2⟩
  else none

variable [PyFloat F]

/-- The number without its sign: an `int` unless a fraction or an exponent
follows. -/
def scanUnsigned (neg : Bool) (s : Str) : Option (Json F × Str) := do
  let (whole, s) ← scanWhole s
  let (frac, s) := scanFrac s
  let (exp, s) := scanExp s
  match FloatLit.ofParts neg whole frac exp with
  | some l => some (.float (PyFloat.read (.lit l)), s)
  | none => some (.int (if neg then -(whole : Int) else whole), s)

def scanNumber (s : Str) : Option (Json F × Str) :=
  match s with
  | [] => none
  | c :: rest => if c = ch '-' then scanUnsigned true rest else scanUnsigned false s

/-- The words that stand for a value. -/
def constants : List (Str × Json F) :=
  [("null", .null), ("true", .bool true), ("false", .bool false),
    ("NaN", .float (PyFloat.read .nan)),
    ("Infinity", .float (PyFloat.read (.inf false))),
    ("-Infinity", .float (PyFloat.read (.inf true)))]

def scanConstant (s : Str) : Option (Json F × Str) :=
  constants.findSome? fun word => (afterWord word.1 s).map fun rest => (word.2, rest)

/-! ### Values -/

mutual
/-- `scan_once`. -/
def scanOnce : Nat → Str → Option (Json F × Str)
  | 0, _ => none
  | _ + 1, [] => none
  | fuel + 1, c :: rest =>
      if c = ch '"' then (scanString rest).map fun p => (.str p.1, p.2)
      else if c = ch '{' then
        match skipSpace rest with
        | [] => none
        | d :: after =>
            if d = ch '}' then some (.obj [], after)
            else (scanMembers fuel (d :: after)).map fun p => (.obj (dictOf p.1), p.2)
      else if c = ch '[' then
        match skipSpace rest with
        | [] => none
        | d :: after =>
            if d = ch ']' then some (.arr [], after)
            else (scanItems fuel (d :: after)).map fun p => (.arr p.1, p.2)
      else (scanConstant (c :: rest)).or (scanNumber (c :: rest))

/-- `JSONArray`, from its first item. -/
def scanItems : Nat → Str → Option (List (Json F) × Str)
  | 0, _ => none
  | fuel + 1, s =>
      match scanOnce fuel s with
      | none => none
      | some (value, s) =>
          match skipSpace s with
          | [] => none
          | c :: rest =>
              if c = ch ']' then some ([value], rest)
              else if c = ch ',' then
                (scanItems fuel (skipSpace rest)).map fun p => (value :: p.1, p.2)
              else none

/-- `JSONObject`, from its first key. -/
def scanMembers : Nat → Str → Option (List (Str × Json F) × Str)
  | 0, _ => none
  | _ + 1, [] => none
  | fuel + 1, q :: s =>
      if q ≠ ch '"' then none
      else
        match scanString s with
        | none => none
        | some (key, s) =>
            match skipSpace s with
            | [] => none
            | c :: s =>
                if c ≠ ch ':' then none
                else
                  match scanOnce fuel (skipSpace s) with
                  | none => none
                  | some (value, s) =>
                      match skipSpace s with
                      | [] => none
                      | c :: rest =>
                          if c = ch '}' then some ([(key, value)], rest)
                          else if c = ch ',' then
                            (scanMembers fuel (skipSpace rest)).map fun p =>
                              ((key, value) :: p.1, p.2)
                          else none
end

def byteOrderMark : CodePoint := Fin.ofNat _ 0xfeff

/-- `json.loads` of a `str`; `none` is a `JSONDecodeError`.  The text may nest as deep
and count as many digits as it likes; the limits of the interpreter are those of
`tryLoads`. -/
def loads (s : Str) : Option (Json F) :=
  if s.head? = some byteOrderMark then none
  else
    match scanOnce (2 * s.length + 1) (skipSpace s) with
    | none => none
    | some (value, rest) => if skipSpace rest = [] then some value else none

end Py
