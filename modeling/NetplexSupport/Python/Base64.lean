/-
`base64.b64encode` and the lenient `base64.b64decode`, which skips characters
outside the alphabet and stops at the padding that completes a quad.
-/
import NetplexSupport.Python.Text
import Mathlib.Tactic.IntervalCases

namespace Py

/-- The base64 alphabet. -/
def b64Char (n : Nat) : UInt8 :=
  UInt8.ofNat (if n < 26 then 65 + n else if n < 52 then 71 + n
    else if n < 62 then n - 4 else if n = 62 then 43 else 47)

def b64Value (c : UInt8) : Option Nat :=
  let n := c.toNat
  if 65 ≤ n ∧ n ≤ 90 then some (n - 65)
  else if 97 ≤ n ∧ n ≤ 122 then some (n - 71)
  else if 48 ≤ n ∧ n ≤ 57 then some (n + 4)
  else if n = 43 then some 62
  else if n = 47 then some 63
  else none

def b64Pad : UInt8 := 61

/-- `base64.b64encode`. -/
def b64encode : Bytes → Bytes
  | a :: b :: c :: rest =>
      b64Char (a.toNat / 4) :: b64Char (a.toNat % 4 * 16 + b.toNat / 16) ::
        b64Char (b.toNat % 16 * 4 + c.toNat / 64) :: b64Char (c.toNat % 64) ::
          b64encode rest
  | [a, b] =>
      [b64Char (a.toNat / 4), b64Char (a.toNat % 4 * 16 + b.toNat / 16),
        b64Char (b.toNat % 16 * 4), b64Pad]
  | [a] => [b64Char (a.toNat / 4), b64Char (a.toNat % 4 * 16), b64Pad, b64Pad]
  | [] => []

/-- The decoder of `binascii.a2b_base64`: `quad` characters of the current quad
are read, `left` holds the bits not yet written, `pads` padding marks have been
seen since and `out` bytes are written. -/
def a2bBase64 (quad left pads out : Nat) : Bytes → Except Exc Bytes
  | [] =>
      if quad = 0 then .ok []
      else if quad = 1 then
        .error ⟨.binasciiError,
          "Invalid base64-encoded string: number of data characters (" ++
            natText (out / 3 * 4 + 1) ++
            ") cannot be 1 more than a multiple of 4"⟩
      else .error ⟨.binasciiError, "Incorrect padding"⟩
  | c :: rest =>
      if c = b64Pad then
        if 2 ≤ quad then
          if 4 ≤ quad + (pads + 1) then .ok []
          else a2bBase64 quad left (pads + 1) out rest
        else a2bBase64 quad left pads out rest
      else
        match b64Value c with
        | none => a2bBase64 quad left pads out rest
        | some v =>
            match quad with
            | 0 => a2bBase64 1 v 0 out rest
            | 1 => (a2bBase64 2 (v % 16) 0 (out + 1) rest).map
                (UInt8.ofNat (left * 4 + v / 16) :: ·)
            | 2 => (a2bBase64 3 (v % 4) 0 (out + 1) rest).map
                (UInt8.ofNat (left * 16 + v / 4) :: ·)
            | _ => (a2bBase64 0 0 0 (out + 1) rest).map
                (UInt8.ofNat (left * 64 + v) :: ·)

/-- `base64.b64decode` of ASCII bytes. -/
def b64decode (s : Bytes) : Except Exc Bytes := a2bBase64 0 0 0 0 s

/-- The first fault that `validate=True` finds while it scans: nothing but data
and padding, no data after padding has begun, and nothing after a full quad. -/
def strictFault (quad pads : Nat) (started : Bool) : Bytes → Option Str
  | [] => none
  | c :: rest =>
      if c = b64Pad then
        if 2 ≤ quad then
          if 4 ≤ quad + (pads + 1) then
            if rest = [] then none else some "Excess data after padding"
          else strictFault quad (pads + 1) true rest
        else strictFault quad pads true rest
      else
        match b64Value c with
        | none => some "Only base64 data is allowed"
        | some _ =>
            if started then some "Discontinuous padding not allowed"
            else strictFault ((quad + 1) % 4) 0 started rest

/-- `base64.b64decode(s, validate=True)` of ASCII bytes. -/
def b64decodeStrict (s : Bytes) : Except Exc Bytes :=
  if s.head? = some b64Pad then .error ⟨.binasciiError, "Leading padding not allowed"⟩
  else
    match strictFault 0 0 false s with
    | some text => .error ⟨.binasciiError, text⟩
    | none => b64decode s

theorem b64Value_b64Char {n : Nat} (hn : n < 64) : b64Value (b64Char n) = some n := by
  revert n
  decide

theorem b64Char_ne_pad {n : Nat} (hn : n < 64) : b64Char n ≠ b64Pad := by
  revert n
  decide

theorem b64Char_lt {n : Nat} (hn : n < 64) : (b64Char n).toNat < 128 := by
  revert n
  decide

/-- Four characters of the alphabet are three bytes. -/
theorem a2bBase64_quad {w x y z : Nat} (hw : w < 64) (hx : x < 64) (hy : y < 64)
    (hz : z < 64) (pads out : Nat) (rest : Bytes) :
    a2bBase64 0 0 pads out (b64Char w :: b64Char x :: b64Char y :: b64Char z :: rest) =
      (a2bBase64 0 0 0 (out + 3) rest).map fun bs =>
        UInt8.ofNat (w * 4 + x / 16) :: UInt8.ofNat (x % 16 * 16 + y / 4) ::
          UInt8.ofNat (y % 4 * 64 + z) :: bs := by
  simp only [a2bBase64, b64Char_ne_pad hw, b64Char_ne_pad hx, b64Char_ne_pad hy,
    b64Char_ne_pad hz, if_false, b64Value_b64Char hw, b64Value_b64Char hx,
    b64Value_b64Char hy, b64Value_b64Char hz]
  cases a2bBase64 0 0 0 (out + 3) rest <;> rfl

theorem ofNat_eq_of_toNat {n : Nat} {a : UInt8} (h : n = a.toNat) :
    UInt8.ofNat n = a := by
  rw [h, UInt8.ofNat_toNat]

theorem a2bBase64_b64encode (bs : Bytes) (pads out : Nat) :
    a2bBase64 0 0 pads out (b64encode bs) = .ok bs := by
  fun_induction b64encode bs generalizing pads out with
  | case1 a b c rest ih =>
      have ha := a.toNat_lt
      have hb := b.toNat_lt
      have hc := c.toNat_lt
      rw [a2bBase64_quad (by omega) (by omega) (by omega) (by omega), ih]
      simp only [Except.map, Except.ok.injEq, List.cons.injEq, and_true]
      exact ⟨ofNat_eq_of_toNat (by omega), ofNat_eq_of_toNat (by omega),
        ofNat_eq_of_toNat (by omega)⟩
  | case2 a b =>
      have ha := a.toNat_lt
      have hb := b.toNat_lt
      have hw : a.toNat / 4 < 64 := by omega
      have hx : a.toNat % 4 * 16 + b.toNat / 16 < 64 := by omega
      have hy : b.toNat % 16 * 4 < 64 := by omega
      simp only [a2bBase64, b64Char_ne_pad hw, b64Char_ne_pad hx, b64Char_ne_pad hy,
        if_false, b64Value_b64Char hw, b64Value_b64Char hx, b64Value_b64Char hy,
        if_true, Nat.reduceAdd, Nat.reduceLeDiff, Except.map]
      simp only [Except.ok.injEq, List.cons.injEq, and_true]
      exact ⟨ofNat_eq_of_toNat (by omega), ofNat_eq_of_toNat (by omega)⟩
  | case3 a =>
      have ha := a.toNat_lt
      have hw : a.toNat / 4 < 64 := by omega
      have hx : a.toNat % 4 * 16 < 64 := by omega
      simp only [a2bBase64, b64Char_ne_pad hw, b64Char_ne_pad hx, if_false,
        b64Value_b64Char hw, b64Value_b64Char hx, if_true, Nat.reduceAdd,
        Nat.reduceLeDiff, Except.map]
      simp only [Except.ok.injEq, List.cons.injEq, and_true]
      exact ofNat_eq_of_toNat (by omega)
  | case4 => rfl

/-- Decoding inverts encoding. -/
theorem b64decode_b64encode (bs : Bytes) : b64decode (b64encode bs) = .ok bs :=
  a2bBase64_b64encode bs 0 0

/-- What holds of the alphabet and of the padding holds of all encoded text. -/
theorem b64encode_forall {p : UInt8 → Prop} (hchar : ∀ n < 64, p (b64Char n)) (hpad : p b64Pad)
    (bs : Bytes) : ∀ c ∈ b64encode bs, p c := by
  fun_induction b64encode bs with
  | case1 a b c rest ih =>
      have ha := a.toNat_lt
      have hb := b.toNat_lt
      have hc := c.toNat_lt
      simp only [List.forall_mem_cons]
      exact ⟨hchar _ (by omega), hchar _ (by omega), hchar _ (by omega), hchar _ (by omega), ih⟩
  | case2 a b =>
      have ha := a.toNat_lt
      have hb := b.toNat_lt
      simp only [List.forall_mem_cons]
      exact ⟨hchar _ (by omega), hchar _ (by omega), hchar _ (by omega), hpad, by simp⟩
  | case3 a =>
      have ha := a.toNat_lt
      simp only [List.forall_mem_cons]
      exact ⟨hchar _ (by omega), hchar _ (by omega), hpad, hpad, by simp⟩
  | case4 => simp

theorem b64encode_ascii (bs : Bytes) : ∀ c ∈ b64encode bs, c.toNat < 128 :=
  b64encode_forall (fun _ hn => b64Char_lt hn) (by decide) bs

theorem b64encode_length (bs : Bytes) : (b64encode bs).length = 4 * ((bs.length + 2) / 3) := by
  fun_induction b64encode bs with
  | case1 a b c rest ih =>
      simp only [List.length_cons, ih]
      omega
  | case2 a b => simp
  | case3 a => simp
  | case4 => rfl

/-- One character of the alphabet moves the scan by one place. -/
theorem strictFault_b64Char {n quad : Nat} (hn : n < 64) (pads : Nat) (rest : Bytes) :
    strictFault quad pads false (b64Char n :: rest) =
      strictFault ((quad + 1) % 4) 0 false rest := by
  simp [strictFault, b64Char_ne_pad hn, b64Value_b64Char hn]

theorem strictFault_b64encode (bs : Bytes) : strictFault 0 0 false (b64encode bs) = none := by
  fun_induction b64encode bs with
  | case1 a b c rest ih =>
      have ha := a.toNat_lt
      have hb := b.toNat_lt
      have hc := c.toNat_lt
      rw [strictFault_b64Char (by omega), strictFault_b64Char (by omega),
        strictFault_b64Char (by omega), strictFault_b64Char (by omega)]
      exact ih
  | case2 a b =>
      have ha := a.toNat_lt
      have hb := b.toNat_lt
      rw [strictFault_b64Char (by omega), strictFault_b64Char (by omega),
        strictFault_b64Char (by omega)]
      simp [strictFault]
  | case3 a =>
      have ha := a.toNat_lt
      rw [strictFault_b64Char (by omega), strictFault_b64Char (by omega)]
      simp [strictFault]
  | case4 => rfl

theorem b64encode_head (bs : Bytes) : (b64encode bs).head? ≠ some b64Pad := by
  have hfirst : ∀ (a : UInt8), b64Char (a.toNat / 4) ≠ b64Pad := by
    intro a
    have ha := a.toNat_lt
    exact b64Char_ne_pad (by omega)
  fun_cases b64encode bs with
  | case1 a => simpa using hfirst a
  | case2 a => simpa using hfirst a
  | case3 a => simpa using hfirst a
  | case4 => simp

/-- Validation accepts what was encoded. -/
theorem b64decodeStrict_b64encode (bs : Bytes) : b64decodeStrict (b64encode bs) = .ok bs := by
  rw [b64decodeStrict, if_neg (b64encode_head bs), strictFault_b64encode]
  exact b64decode_b64encode bs

end Py
