/-
JSON values as the Python `json` module holds them: an object is a dict, that
is a list of members in insertion order, and a number is an `int` or a
`float`.  The float type is a parameter that only promises what the language
does, that reading the text `repr` prints gives the number back.
-/
import NetplexSupport.Python.Dict
import Mathlib.Data.List.Sort
import Mathlib.Order.Lattice
import Mathlib.Data.List.Lex

namespace Py

/-- The text of a finite float: it shows a fraction or an exponent. -/
structure FloatLit where
  neg : Bool
  whole : Nat
  frac : List Digit
  /-- Sign and digits of the exponent. -/
  exp : Option (Bool × List Digit)
  shown : frac ≠ [] ∨ exp.isSome
  expDigits : ∀ e ∈ exp, e.2 ≠ []

inductive FloatView where
  | nan
  | inf (neg : Bool)
  | lit (text : FloatLit)

/-- A Python `float` type. -/
class PyFloat (F : Type) where
  /-- `float.__repr__`. -/
  view : F → FloatView
  /-- `float(text)`. -/
  read : FloatView → F
  read_view : ∀ x, read (view x) = x
  /-- `int(x)` of a finite float. -/
  trunc : F → Int

/-- Floats that are their own texts, all of them below one. -/
@[reducible] def FloatView.asFloat : PyFloat FloatView where
  view x := x
  read x := x
  read_view _ := rfl
  trunc _ := 0

/-- A value `json.loads` can return. -/
inductive Json (F : Type) where
  | null
  | bool (b : Bool)
  | int (i : Int)
  | float (x : F)
  | str (s : Str)
  | arr (items : List (Json F))
  | obj (members : List (Str × Json F))

/-- A dict with string keys. -/
abbrev Members (F : Type) := Dict (Json F)

variable {F : Type}

/-- `type(x).__name__`. -/
def Json.typeName : Json F → Str
  | .null => "NoneType"
  | .bool _ => "bool"
  | .int _ => "int"
  | .float _ => "float"
  | .str _ => "str"
  | .arr _ => "list"
  | .obj _ => "dict"

/-- Induction over a value, with the hypothesis for every item and member. -/
theorem Json.induct {motive : Json F → Prop}
    (null : motive .null) (bool : ∀ b, motive (.bool b))
    (int : ∀ i, motive (.int i)) (float : ∀ x, motive (.float x))
    (str : ∀ s, motive (.str s))
    (arr : ∀ xs, (∀ x ∈ xs, motive x) → motive (.arr xs))
    (obj : ∀ ms, (∀ m ∈ ms, motive m.2) → motive (.obj ms)) :
    ∀ j, motive j := by
  intro j
  refine @Json.rec F motive (fun xs => ∀ x ∈ xs, motive x)
    (fun ms => ∀ m ∈ ms, motive m.2) (fun m => motive m.2)
    null bool int float str arr obj ?_ ?_ ?_ ?_ ?_ j
  · simp
  · intro head tail hhead htail x hx
    rcases List.mem_cons.mp hx with rfl | hx
    · exact hhead
    · exact htail x hx
  · simp
  · intro head tail hhead htail m hm
    rcases List.mem_cons.mp hm with rfl | hm
    · exact hhead
    · exact htail m hm
  · intro key value hvalue
    exact hvalue

/-! ### Properties of every node -/

mutual
/-- `p` holds of the value and of every value below it. -/
def Json.all (p : Json F → Bool) : Json F → Bool
  | .arr xs => p (.arr xs) && Json.allItems p xs
  | .obj ms => p (.obj ms) && Json.allMembers p ms
  | .null => p .null
  | .bool b => p (.bool b)
  | .int i => p (.int i)
  | .float x => p (.float x)
  | .str s => p (.str s)

def Json.allItems (p : Json F → Bool) : List (Json F) → Bool
  | [] => true
  | x :: xs => Json.all p x && Json.allItems p xs

def Json.allMembers (p : Json F → Bool) : List (Str × Json F) → Bool
  | [] => true
  | (_, v) :: ms => Json.all p v && Json.allMembers p ms
end

theorem Json.allItems_iff (p : Json F → Bool) (xs : List (Json F)) :
    Json.allItems p xs = true ↔ ∀ x ∈ xs, x.all p = true := by
  induction xs with
  | nil => simp [Json.allItems]
  | cons x xs ih => simp [Json.allItems, ih]

theorem Json.allMembers_iff (p : Json F → Bool) (ms : Members F) :
    Json.allMembers p ms = true ↔ ∀ m ∈ ms, m.2.all p = true := by
  induction ms with
  | nil => simp [Json.allMembers]
  | cons m ms ih => simp [Json.allMembers, ih]

theorem Json.all_arr (p : Json F → Bool) (xs : List (Json F)) :
    (Json.arr xs).all p = true ↔
      p (.arr xs) = true ∧ ∀ x ∈ xs, x.all p = true := by
  simp [Json.all, Json.allItems_iff]

theorem Json.all_obj (p : Json F → Bool) (ms : Members F) :
    (Json.obj ms).all p = true ↔
      p (.obj ms) = true ∧ ∀ m ∈ ms, m.2.all p = true := by
  simp [Json.all, Json.allMembers_iff]

/-- No dict in the value has a key twice: the invariant of Python's dicts. -/
def Json.Keyed (j : Json F) : Prop :=
  j.all (fun
    | .obj ms => decide (ms.map Prod.fst).Nodup
    | _ => true) = true

/-- Every string and key of the value satisfies `p`. -/
def Json.Strings (p : Str → Bool) (j : Json F) : Prop :=
  j.all (fun
    | .str s => p s
    | .obj ms => ms.all fun m => p m.1
    | _ => true) = true

instance (j : Json F) : Decidable j.Keyed := instDecidableEqBool _ _

instance (p : Str → Bool) (j : Json F) : Decidable (j.Strings p) :=
  instDecidableEqBool _ _

theorem Json.keyed_arr {xs : List (Json F)} :
    (Json.arr xs).Keyed ↔ ∀ x ∈ xs, x.Keyed := by
  simp [Json.Keyed, Json.all_arr]

theorem Json.keyed_obj {ms : Members F} :
    (Json.obj ms).Keyed ↔
      (ms.map Prod.fst).Nodup ∧ ∀ m ∈ ms, m.2.Keyed := by
  simp [Json.Keyed, Json.all_obj]

theorem Json.strings_str {p : Str → Bool} {s : Str} :
    (Json.str (F := F) s).Strings p ↔ p s = true := by
  simp [Json.Strings, Json.all]

theorem Json.strings_arr {p : Str → Bool} {xs : List (Json F)} :
    (Json.arr xs).Strings p ↔ ∀ x ∈ xs, x.Strings p := by
  simp [Json.Strings, Json.all_arr]

theorem Json.strings_obj {p : Str → Bool} {ms : Members F} :
    (Json.obj ms).Strings p ↔
      (∀ m ∈ ms, p m.1 = true) ∧ ∀ m ∈ ms, m.2.Strings p := by
  simp [Json.Strings, Json.all_obj]

/-! ### Equality of values -/

mutual
/-- The same JSON value: objects are compared regardless of member order, at
every depth, and values of different types are different. -/
def Json.Same : Json F → Json F → Prop
  | .null, .null => True
  | .bool a, .bool b => a = b
  | .int a, .int b => a = b
  | .float a, .float b => a = b
  | .str a, .str b => a = b
  | .arr xs, .arr ys => Json.SameItems xs ys
  | .obj ms, .obj ns => ms.length = ns.length ∧ Json.SameMembers ms ns
  | _, _ => False

def Json.SameItems : List (Json F) → List (Json F) → Prop
  | [], [] => True
  | x :: xs, y :: ys => Json.Same x y ∧ Json.SameItems xs ys
  | _, _ => False

/-- Every member of the first dict is in the second, with the same value. -/
def Json.SameMembers : List (Str × Json F) → List (Str × Json F) → Prop
  | [], _ => True
  | (k, v) :: ms, ns =>
      (∃ w, dictGet ns k = some w ∧ Json.Same v w) ∧ Json.SameMembers ms ns
end

theorem Json.sameItems_iff {xs ys : List (Json F)} :
    Json.SameItems xs ys ↔ List.Forall₂ Json.Same xs ys := by
  induction xs generalizing ys with
  | nil => cases ys <;> simp [Json.SameItems]
  | cons x xs ih => cases ys <;> simp [Json.SameItems, ih]

theorem Json.sameMembers_iff {ms ns : Members F} :
    Json.SameMembers ms ns ↔
      ∀ m ∈ ms, ∃ w, dictGet ns m.1 = some w ∧ Json.Same m.2 w := by
  induction ms with
  | nil => simp [Json.SameMembers]
  | cons m ms ih => simp [Json.SameMembers, ih]

/-! ### Sorting -/

/-- The order `sort_keys` puts members in: by key, code point by code point. -/
def byKey (a b : Str × Json F) : Prop := a.1 ≤ b.1

instance : DecidableRel (byKey (F := F)) := fun a b =>
  inferInstanceAs (Decidable (a.1 ≤ b.1))

mutual
/-- The value with the members of every object sorted by key. -/
def Json.sortKeys : Json F → Json F
  | .arr xs => .arr (Json.sortItems xs)
  | .obj ms => .obj ((Json.sortMembers ms).insertionSort byKey)
  | .null => .null
  | .bool b => .bool b
  | .int i => .int i
  | .float x => .float x
  | .str s => .str s

def Json.sortItems : List (Json F) → List (Json F)
  | [] => []
  | x :: xs => Json.sortKeys x :: Json.sortItems xs

def Json.sortMembers : List (Str × Json F) → List (Str × Json F)
  | [] => []
  | (k, v) :: ms => (k, Json.sortKeys v) :: Json.sortMembers ms
end

theorem Json.sortItems_eq (xs : List (Json F)) :
    Json.sortItems xs = xs.map Json.sortKeys := by
  induction xs with
  | nil => simp [Json.sortItems]
  | cons x xs ih => simp [Json.sortItems, ih]

theorem Json.sortMembers_eq (ms : Members F) :
    Json.sortMembers ms = ms.map fun m => (m.1, m.2.sortKeys) := by
  induction ms with
  | nil => simp [Json.sortMembers]
  | cons m ms ih => simp [Json.sortMembers, ih]

end Py
