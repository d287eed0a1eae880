/-
`bytes.decode()`, and where the ASCII bytes of a UTF-8 text stand.
-/
import NetplexSupport.Python.Text

namespace Py

/-- `bs.decode()`; `none` is a `UnicodeDecodeError`. -/
def decodeUtf8 (bs : Bytes) : Option Str :=
  bs.toByteArray.utf8Decode?.map fun chars => chars.toList.map ch

/-- The bytes of a text without surrogates. -/
def utf8 (s : Str) : Bytes := s.flatMap fun c => String.utf8EncodeChar (CodePoint.toChar c)

theorem encodeUtf8_eq_ok_iff {s : Str} {bytes : Bytes} :
    encodeUtf8 s = .ok bytes ↔ Str.WellFormed s ∧ bytes = utf8 s := by
  unfold encodeUtf8 utf8
  by_cases hs : Str.WellFormed s
  · simp [hs, eq_comm]
  · simp [hs]

theorem utf8_append (s t : Str) : utf8 (s ++ t) = utf8 s ++ utf8 t := List.flatMap_append

theorem utf8_cons (c : CodePoint) (s : Str) :
    utf8 (c :: s) = String.utf8EncodeChar (CodePoint.toChar c) ++ utf8 s :=
  List.flatMap_cons

/-- Decoding undoes encoding. -/
theorem decodeUtf8_utf8 {s : Str} (hs : Str.WellFormed s) : decodeUtf8 (utf8 s) = some s := by
  have hbytes : (utf8 s).toByteArray = (s.map CodePoint.toChar).utf8Encode := by
    simp only [utf8, List.utf8Encode, List.flatMap_map]
  rw [decodeUtf8, hbytes, List.utf8Decode?_utf8Encode, Option.map_some]
  have hid : (s.map CodePoint.toChar).map ch = s := by
    rw [List.map_map]
    conv_rhs => rw [← List.map_id s]
    exact List.map_congr_left fun c hc => CodePoint.ch_toChar (hs c hc)
  simp only [hid]

/-! ### ASCII bytes -/

theorem utf8EncodeChar_ascii {c : CodePoint} (hc : c.val < 128) :
    String.utf8EncodeChar (CodePoint.toChar c) = [UInt8.ofNat c.val] := by
  have hval : (CodePoint.toChar c).toNat = c.val :=
    CodePoint.toChar_toNat (by simp [isSurrogate]; omega)
  have hle : (CodePoint.toChar c).val.toNat ≤ 0x7f := by
    have : (CodePoint.toChar c).val.toNat = c.val := hval
    omega
  unfold String.utf8EncodeChar
  rw [if_pos hle]
  exact congrArg (fun n => [UInt8.ofNat n]) hval

/-- The bytes of a character outside ASCII are outside ASCII. -/
theorem utf8EncodeChar_other {c : CodePoint} (hs : isSurrogate c = false)
    (hc : 128 ≤ c.val) :
    ∀ b ∈ String.utf8EncodeChar (CodePoint.toChar c), 128 ≤ b.toNat := by
  have hval : (CodePoint.toChar c).val.toNat = c.val := CodePoint.toChar_toNat hs
  have hlt := c.isLt
  have hbyte : ∀ n, 128 ≤ n → n < 256 → 128 ≤ (UInt8.ofNat n).toNat := by
    intro n hn hn'
    rw [UInt8.toNat_ofNat', Nat.mod_eq_of_lt hn']
    exact hn
  unfold String.utf8EncodeChar
  rw [if_neg (by omega)]
  intro b hb
  split at hb
  · simp only [List.mem_cons, List.not_mem_nil, or_false] at hb
    rcases hb with rfl | rfl
    · exact hbyte _ (by omega) (by omega)
    · exact hbyte _ (by omega) (by omega)
  · split at hb
    · simp only [List.mem_cons, List.not_mem_nil, or_false] at hb
      rcases hb with rfl | rfl | rfl
      · exact hbyte _ (by omega) (by omega)
      · exact hbyte _ (by omega) (by omega)
      · exact hbyte _ (by omega) (by omega)
    · simp only [List.mem_cons, List.not_mem_nil, or_false] at hb
      rcases hb with rfl | rfl | rfl | rfl
      · exact hbyte _ (by omega) (by omega)
      · exact hbyte _ (by omega) (by omega)
      · exact hbyte _ (by omega) (by omega)
      · exact hbyte _ (by omega) (by omega)

/-- An ASCII byte of a text stands for a character, and cuts the text there. -/
theorem utf8_eq_append_cons {s : Str} (hs : Str.WellFormed s) {u v : Bytes} {b : UInt8}
    (hb : b.toNat < 128) (h : utf8 s = u ++ b :: v) :
    ∃ t c t', s = t ++ c :: t' ∧ c.val = b.toNat ∧ utf8 t = u ∧ utf8 t' = v := by
  induction s generalizing u with
  | nil =>
      have hlength := congrArg List.length h
      simp [utf8] at hlength
  | cons c s ih =>
      rw [utf8_cons] at h
      rw [Str.WellFormed, List.forall_mem_cons] at hs
      have hskip : ∀ u', u = String.utf8EncodeChar (CodePoint.toChar c) ++ u' →
          utf8 s = u' ++ b :: v →
          ∃ t d t', c :: s = t ++ d :: t' ∧ d.val = b.toNat ∧ utf8 t = u ∧ utf8 t' = v := by
        rintro u' rfl htail
        obtain ⟨t, d, t', rfl, hd, rfl, rfl⟩ := ih hs.2 htail
        exact ⟨c :: t, d, t', rfl, hd, utf8_cons c t, rfl⟩
      rcases List.append_eq_append_iff.mp h with ⟨u', hu, htail⟩ | ⟨w, hw, htail⟩
      · exact hskip u' hu htail
      · cases w with
        | nil => exact hskip [] (by simpa using hw.symm) (by simpa using htail.symm)
        | cons b' w =>
            -- The byte belongs to the first character, which is therefore ASCII.
            obtain ⟨rfl, hv⟩ := List.cons.inj htail
            have hmem : b ∈ String.utf8EncodeChar (CodePoint.toChar c) := by
              rw [hw]
              simp
            have hc : c.val < 128 := by
              by_contra hc
              have := utf8EncodeChar_other hs.1 (by omega) b hmem
              omega
            rw [utf8EncodeChar_ascii hc] at hw
            obtain ⟨hu, hbyte⟩ : u = [] ∧ UInt8.ofNat c.val = b ∧ w = [] := by
              cases u with
              | nil =>
                  obtain ⟨hbyte, hw⟩ := List.cons.inj hw
                  exact ⟨rfl, hbyte, hw.symm⟩
              | cons x u =>
                  have hlength := congrArg List.length hw
                  simp at hlength
            obtain ⟨hbyte, rfl⟩ := hbyte
            refine ⟨[], c, s, rfl, ?_, hu.symm, by simpa using hv.symm⟩
            rw [← hbyte, UInt8.toNat_ofNat', Nat.mod_eq_of_lt (by omega)]

theorem mem_utf8_iff {s : Str} (hs : Str.WellFormed s) {b : UInt8} (hb : b.toNat < 128) :
    b ∈ utf8 s ↔ ∃ c ∈ s, c.val = b.toNat := by
  constructor
  · intro hmem
    obtain ⟨u, v, huv⟩ := List.append_of_mem hmem
    obtain ⟨t, c, t', rfl, hc, _⟩ := utf8_eq_append_cons hs hb huv
    exact ⟨c, by simp, hc⟩
  · rintro ⟨c, hmem, hc⟩
    refine List.mem_flatMap.mpr ⟨c, hmem, ?_⟩
    rw [utf8EncodeChar_ascii (by omega), hc, UInt8.ofNat_toNat]
    exact List.mem_singleton_self b

end Py
