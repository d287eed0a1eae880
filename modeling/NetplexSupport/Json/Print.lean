/-
`json.dumps` with its separators, `ensure_ascii` and `sort_keys` arguments, and
the `str()` and `int()` of a JSON value.
-/
import NetplexSupport.Json.Value

namespace Py

variable {F : Type}

/-- The keyword arguments of `json.dumps`, with its defaults. -/
structure DumpOpts where
  itemSep : Str := ", "
  keySep : Str := ": "
  ensureAscii : Bool := true
  sortKeys : Bool := false

/-! ### Numbers -/

def fracText (frac : List Digit) : Str :=
  if frac = [] then [] else ch '.' :: frac.map digitChar

def expText : Option (Bool × List Digit) → Str
  | none => []
  | some (neg, ds) =>
      ch 'e' :: (if neg then ch '-' else ch '+') :: ds.map digitChar

def FloatLit.text (l : FloatLit) : Str :=
  (if l.neg then [ch '-'] else []) ++ natText l.whole ++ fracText l.frac ++
    expText l.exp

def FloatView.jsonText : FloatView → Str
  | .nan => "NaN"
  | .inf false => "Infinity"
  | .inf true => "-Infinity"
  | .lit l => l.text

/-- `repr` of a float, which differs from its JSON text on the special values. -/
def FloatView.reprText : FloatView → Str
  | .nan => "nan"
  | .inf false => "inf"
  | .inf true => "-inf"
  | .lit l => l.text

/-! ### Strings -/

/-- `\u` and four hexadecimal digits. -/
def uEscape (n : Nat) : Str := ch '\\' :: ch 'u' :: hexPad 4 n

/-- The UTF-16 surrogates of a code point above the basic plane. -/
def highHalf (c : CodePoint) : Nat := 0xd800 + (c.val - 0x10000) / 0x400

def lowHalf (c : CodePoint) : Nat := 0xdc00 + (c.val - 0x10000) % 0x400

/-- The letter of a two-character escape. -/
def shortForm (c : CodePoint) : Option CodePoint :=
  if c = ch '"' then some (ch '"')
  else if c = ch '\\' then some (ch '\\')
  else if c = ch '\n' then some (ch 'n')
  else if c = ch '\r' then some (ch 'r')
  else if c = ch '\t' then some (ch 't')
  else if c.val = 0x0c then some (ch 'f')
  else if c.val = 0x08 then some (ch 'b')
  else none

/-- One character of a JSON string.  `ensure_ascii` escapes everything outside
the printable ASCII range, else only control characters are. -/
def escape (ensureAscii : Bool) (c : CodePoint) : Str :=
  match shortForm c with
  | some e => [ch '\\', e]
  | none =>
      if c.val < 0x20 || (ensureAscii && 0x7e < c.val) then
        if c.val < 0x10000 then uEscape c.val
        else uEscape (highHalf c) ++ uEscape (lowHalf c)
      else [c]

def quoted (ensureAscii : Bool) (s : Str) : Str :=
  ch '"' :: s.flatMap (escape ensureAscii) ++ [ch '"']

/-! ### Values -/

section

variable [PyFloat F]

mutual
/-- The text of a value, members in the order they stand. -/
def Json.render (o : DumpOpts) : Json F → Str
  | .null => "null"
  | .bool true => "true"
  | .bool false => "false"
  | .int i => intText i
  | .float x => (PyFloat.view x).jsonText
  | .str s => quoted o.ensureAscii s
  | .arr [] => "[]"
  | .arr (x :: xs) => ch '[' :: (Json.render o x ++ Json.renderItems o xs)
  | .obj [] => "\x7b\x7d"
  | .obj ((k, v) :: ms) =>
      ch '{' :: (quoted o.ensureAscii k ++ o.keySep ++ Json.render o v ++
        Json.renderMembers o ms)

/-- The rest of an array after an item. -/
def Json.renderItems (o : DumpOpts) : List (Json F) → Str
  | [] => [ch ']']
  | x :: xs => o.itemSep ++ Json.render o x ++ Json.renderItems o xs

/-- The rest of an object after a member. -/
def Json.renderMembers (o : DumpOpts) : List (Str × Json F) → Str
  | [] => [ch '}']
  | (k, v) :: ms =>
      o.itemSep ++ quoted o.ensureAscii k ++ o.keySep ++ Json.render o v ++
        Json.renderMembers o ms
end

/-- `json.dumps`. -/
def dumps (o : DumpOpts) (j : Json F) : Str :=
  (if o.sortKeys then j.sortKeys else j).render o

theorem renderItems_strings (o : DumpOpts) (texts : List Str) :
    Json.renderItems o (texts.map (Json.str (F := F))) =
      texts.flatMap (fun s => o.itemSep ++ quoted o.ensureAscii s) ++ [ch ']'] := by
  induction texts with
  | nil => simp [Json.renderItems]
  | cons s texts ih => simp [Json.renderItems, Json.render, ih]

end

/-- The text of a list of strings has nothing to do with floats. -/
theorem dumps_strings {G : Type} (hF : PyFloat F) (hG : PyFloat G) {o : DumpOpts}
    (hsort : o.sortKeys = false) (texts : List Str) :
    dumps o (.arr (texts.map (Json.str (F := F)))) =
      dumps o (.arr (texts.map (Json.str (F := G)))) := by
  simp only [dumps, hsort, Bool.false_eq_true, if_false]
  cases texts with
  | nil => simp [Json.render]
  | cons s texts => simp [Json.render, renderItems_strings]

/-! ### `str()` and `int()` -/

section

variable [PyFloat F] [Interpreter]

mutual
/-- `repr` of a JSON value. -/
def Json.pyRepr : Json F → Str
  | .null => "None"
  | .bool true => "True"
  | .bool false => "False"
  | .int i => intText i
  | .float x => (PyFloat.view x).reprText
  | .str s => Str.repr s
  | .arr [] => "[]"
  | .arr (x :: xs) => ch '[' :: (Json.pyRepr x ++ Json.pyReprItems xs)
  | .obj [] => "\x7b\x7d"
  | .obj ((k, v) :: ms) =>
      ch '{' :: (Str.repr k ++ ": " ++ Json.pyRepr v ++ Json.pyReprMembers ms)

def Json.pyReprItems : List (Json F) → Str
  | [] => [ch ']']
  | x :: xs => ", " ++ Json.pyRepr x ++ Json.pyReprItems xs

def Json.pyReprMembers : List (Str × Json F) → Str
  | [] => [ch '}']
  | (k, v) :: ms =>
      ", " ++ Str.repr k ++ ": " ++ Json.pyRepr v ++ Json.pyReprMembers ms
end

/-- `str()` of a JSON value: a string is its own text. -/
def Json.pyStr : Json F → Str
  | .str s => s
  | j => j.pyRepr

/-- `int()` of a JSON value. -/
def Json.toInt : Json F → Except Exc Int
  | .bool b => .ok (if b then 1 else 0)
  | .int i => .ok i
  | .float x =>
      match PyFloat.view x with
      | .nan => .error ⟨.valueError, "cannot convert float NaN to integer"⟩
      | .inf _ => .error ⟨.overflowError, "cannot convert float infinity to integer"⟩
      | .lit _ => .ok (PyFloat.trunc x)
  | .str s => intOfStr s
  | j => .error ⟨.typeError,
      "int() argument must be a string, a bytes-like object or a real number, not '" ++
        j.typeName ++ "'"⟩

end

@[simp] theorem Json.pyStr_str [PyFloat F] [Interpreter] (s : Str) :
    (Json.str (F := F) s).pyStr = s := rfl

/-- `j.get(key)` of a dict. -/
def Json.get? (j : Json F) (key : Str) : Option (Json F) :=
  match j with
  | .obj ms => dictGet ms key
  | _ => none

/-- `j[key]` with a string key. -/
def Json.item [Interpreter] (j : Json F) (key : Str) : Except Exc (Json F) :=
  match j with
  | .obj ms =>
      match dictGet ms key with
      | some value => .ok value
      | none => .error ⟨.keyError, Str.repr key⟩
  | .arr _ => .error ⟨.typeError, "list indices must be integers or slices, not str"⟩
  | .str _ => .error ⟨.typeError, "string indices must be integers, not 'str'"⟩
  | j => .error ⟨.typeError, "'" ++ j.typeName ++ "' object is not subscriptable"⟩

/-- `j == text` for a string. -/
def Json.isStr (j : Json F) (text : Str) : Bool :=
  match j with
  | .str s => s = text
  | _ => false

@[simp] theorem Json.isStr_iff {j : Json F} {text : Str} :
    j.isStr text = true ↔ j = .str text := by
  cases j <;> simp [Json.isStr]

/-- A dict or a list cannot be a dict key or a member of a set. -/
def Json.hashError : Json F → Option Exc
  | .arr _ => some ⟨.typeError, "unhashable type: 'list'"⟩
  | .obj _ => some ⟨.typeError, "unhashable type: 'dict'"⟩
  | _ => none

/-! ### Truth and equality -/

/-- Equality of a float with another number. -/
class FloatEq (F : Type) where
  eqInt : F → Int → Bool
  eq : F → F → Bool

/-- Floats that are their own texts, none of them an integer. -/
@[reducible] def FloatView.asFloatEq : FloatEq FloatView where
  eqInt _ _ := false
  eq x y := x.jsonText = y.jsonText ∧ x.jsonText ≠ FloatView.jsonText .nan

/-- `bool(value)`. -/
def Json.truthy [FloatEq F] : Json F → Bool
  | .null => false
  | .bool b => b
  | .int i => i ≠ 0
  | .float x => !FloatEq.eqInt x 0
  | .str s => s ≠ []
  | .arr xs => !xs.isEmpty
  | .obj ms => !ms.isEmpty

/-- `a or b`. -/
def Json.or [FloatEq F] (a b : Json F) : Json F := if a.truthy then a else b

/-- The integer that a number or a truth value is. -/
def Json.asInt : Json F → Option Int
  | .bool b => some (if b then 1 else 0)
  | .int i => some i
  | _ => none

/-- `a == b` of two values that can be dict keys. -/
def Json.keyEq [FloatEq F] : Json F → Json F → Bool
  | .null, .null => true
  | .str s, .str t => s = t
  | .float x, .float y => FloatEq.eq x y
  | .float x, j => j.asInt.any (FloatEq.eqInt x)
  | j, .float y => j.asInt.any (FloatEq.eqInt y)
  | a, b => a.asInt.any fun i => b.asInt = some i

/-- A text equals no value but itself. -/
theorem Json.keyEq_str_iff [FloatEq F] {j : Json F} {s : Str} :
    j.keyEq (.str s) = true ↔ j = .str s := by
  cases j <;> simp [Json.keyEq, Json.asInt]

end Py
