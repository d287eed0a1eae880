/-
The text of a licence token as the leak scanner sees it.  The entitlements stand
before the signature, so the last opening brace in front of the signature, if
no closing one follows it, is a character of a string; what begins there is not
JSON.
-/
import NetplexSupport.Attribution.Blobs
import NetplexSupport.Json.Ascii

namespace NetplexSupport

open Py

/-! ### Texts without braces -/

/-- No braces in a text. -/
def TextBraceFree (s : Str) : Prop := ∀ c ∈ s, c ≠ ch '{' ∧ c ≠ ch '}'

instance (s : Str) : Decidable (TextBraceFree s) :=
  decidable_of_iff (s.all fun c => c ≠ ch '{' && c ≠ ch '}') (by simp [TextBraceFree])

theorem textBraceFree_append {s t : Str} :
    TextBraceFree (s ++ t) ↔ TextBraceFree s ∧ TextBraceFree t :=
  List.forall_mem_append

/-- Both braces stand above the letters. -/
theorem textBraceFree_of_lt {s : Str} (h : ∀ c ∈ s, c.val < 123) : TextBraceFree s := by
  intro c hc
  have hlt := h c hc
  constructor
  · rintro rfl
    rw [ch_val] at hlt
    exact absurd hlt (by decide)
  · rintro rfl
    rw [ch_val] at hlt
    exact absurd hlt (by decide)

/-! ### Braces and their bytes -/

theorem val_eq_open {c : CodePoint} : c.val = 123 ↔ c = ch '{' := by
  rw [← Fin.val_inj, ch_val]
  rfl

theorem val_eq_close {c : CodePoint} : c.val = 125 ↔ c = ch '}' := by
  rw [← Fin.val_inj, ch_val]
  rfl

theorem braceFree_utf8 {s : Str} (hs : Str.WellFormed s) :
    BraceFree (utf8 s) ↔ TextBraceFree s := by
  have hopen := mem_utf8_iff hs (b := 123) (by decide)
  have hclose := mem_utf8_iff hs (b := 125) (by decide)
  constructor
  · intro hfree c hc
    constructor
    · rintro rfl
      have := hfree 123 (hopen.mpr ⟨_, hc, by decide⟩)
      exact absurd this (by decide)
    · rintro rfl
      have := hfree 125 (hclose.mpr ⟨_, hc, by decide⟩)
      exact absurd this (by decide)
  · intro hfree b hb
    have hne : b ≠ 123 ∧ b ≠ 125 := by
      constructor
      · rintro rfl
        obtain ⟨c, hc, hval⟩ := hopen.mp hb
        exact (hfree c hc).1 (val_eq_open.mp hval)
      · rintro rfl
        obtain ⟨c, hc, hval⟩ := hclose.mp hb
        exact (hfree c hc).2 (val_eq_close.mp hval)
    simp [notBrace, hne]

theorem utf8_open (s : Str) : utf8 (ch '{' :: s) = 123 :: utf8 s := by
  have hopen : String.utf8EncodeChar (CodePoint.toChar (ch '{')) = [123] := by decide
  rw [utf8_cons, hopen]
  rfl

theorem utf8_close (s : Str) : utf8 (ch '}' :: s) = 125 :: utf8 s := by
  have hclose : String.utf8EncodeChar (CodePoint.toChar (ch '}')) = [125] := by decide
  rw [utf8_cons, hclose]
  rfl

/-- The bytes of a brace cut the text where the brace stands. -/
theorem cut_open {s : Str} (hs : Str.WellFormed s) {u v : Bytes} (h : utf8 s = u ++ 123 :: v) :
    ∃ t t', s = t ++ ch '{' :: t' ∧ utf8 t = u ∧ utf8 t' = v ∧ Str.WellFormed t ∧
      Str.WellFormed t' := by
  obtain ⟨t, c, t', rfl, hc, ht, ht'⟩ := utf8_eq_append_cons hs (by decide) h
  obtain rfl := val_eq_open.mp hc
  exact ⟨t, t', rfl, ht, ht', fun d hd => hs d (by simp [hd]), fun d hd => hs d (by simp [hd])⟩

theorem cut_close {s : Str} (hs : Str.WellFormed s) {u v : Bytes} (h : utf8 s = u ++ 125 :: v) :
    ∃ t t', s = t ++ ch '}' :: t' ∧ utf8 t = u ∧ utf8 t' = v ∧ Str.WellFormed t ∧
      Str.WellFormed t' := by
  obtain ⟨t, c, t', rfl, hc, ht, ht'⟩ := utf8_eq_append_cons hs (by decide) h
  obtain rfl := val_eq_close.mp hc
  exact ⟨t, t', rfl, ht, ht', fun d hd => hs d (by simp [hd]), fun d hd => hs d (by simp [hd])⟩

/-! ### Written texts -/

theorem textBraceFree_quoted {ensureAscii : Bool} {s : Str} (hs : TextBraceFree s) :
    TextBraceFree (quoted ensureAscii s) := by
  have hquote : TextBraceFree [ch '"'] := by
    apply textBraceFree_of_lt
    rw [List.forall_mem_singleton, ch_val]
    decide
  have hbody : TextBraceFree (s.flatMap (escape ensureAscii)) := by
    intro d hd
    obtain ⟨c, hc, hd⟩ := List.mem_flatMap.mp hd
    rcases mem_escape hd with ⟨rfl, -⟩ | ⟨-, hlt⟩
    · exact hs d hc
    · exact textBraceFree_of_lt (s := [d]) (by simpa using hlt) d (List.mem_singleton_self d)
  rw [quoted, ← List.singleton_append, List.append_assoc, textBraceFree_append,
    textBraceFree_append]
  exact ⟨hquote, hbody, hquote⟩

theorem textBraceFree_of_quoted {s : Str} (h : TextBraceFree (quoted true s)) :
    TextBraceFree s := by
  have hmem : ∀ {c : CodePoint}, escape true c = [c] → c ∈ s → c ∈ quoted true s := by
    intro c hescape hc
    have hbody : c ∈ s.flatMap (escape true) :=
      List.mem_flatMap.mpr ⟨c, hc, hescape ▸ List.mem_singleton_self c⟩
    simp [quoted, hbody]
  intro c hc
  constructor
  · rintro rfl
    exact (h _ (hmem (by decide) hc)).1 rfl
  · rintro rfl
    exact (h _ (hmem (by decide) hc)).2 rfl

theorem textBraceFree_intText (i : Int) : TextBraceFree (intText i) := by
  have hdigit : ∀ d : Digit, (digitChar d).val < 123 := by decide
  have hnat : ∀ n, ∀ c ∈ natText n, c.val < 123 := by
    intro n c hc
    obtain ⟨d, _, rfl⟩ := List.mem_map.mp hc
    exact hdigit d
  apply textBraceFree_of_lt
  rcases i with n | n
  · exact hnat n
  · rw [intText, List.forall_mem_cons]
    exact ⟨by rw [ch_val]; decide, hnat _⟩

theorem textBraceFree_hexdigest (d : Digest) : TextBraceFree (hexdigest d) := by
  apply textBraceFree_of_lt
  intro c hc
  obtain ⟨b, _, hc⟩ := List.mem_flatMap.mp hc
  exact (hexPad_plain _ _ c hc).2.1

theorem textBraceFree_b64e (bs : Bytes) : TextBraceFree (b64e bs) :=
  textBraceFree_of_lt fun c hc => (b64e_plain bs c hc).2.1

/-! ### Members -/

section

variable {F : Type} [PyFloat F]

/-- One member of an object after the first. -/
def memberText (o : DumpOpts) (m : Str × Json F) : Str :=
  o.itemSep ++ quoted o.ensureAscii m.1 ++ o.keySep ++ m.2.render o

/-- Members of an object after the first. -/
def membersText (o : DumpOpts) (ms : Members F) : Str := ms.flatMap (memberText o)

theorem membersText_cons (o : DumpOpts) (m : Str × Json F) (ms : Members F) :
    membersText o (m :: ms) = memberText o m ++ membersText o ms :=
  List.flatMap_cons

theorem renderMembers_eq (o : DumpOpts) (ms : Members F) :
    Json.renderMembers o ms = membersText o ms ++ [ch '}'] := by
  induction ms with
  | nil => rw [Json.renderMembers, membersText, List.flatMap_nil, List.nil_append]
  | cons m ms ih =>
      rw [Json.renderMembers, ih, membersText_cons, memberText, ← List.append_assoc]

theorem membersText_append (o : DumpOpts) (ms ns : Members F) :
    membersText o (ms ++ ns) = membersText o ms ++ membersText o ns :=
  List.flatMap_append

/-- An object without its closing brace. -/
def openObject (o : DumpOpts) (m : Str × Json F) (ms : Members F) : Str :=
  ch '{' :: (quoted o.ensureAscii m.1 ++ o.keySep ++ m.2.render o) ++ membersText o ms

theorem render_cons (o : DumpOpts) (m : Str × Json F) (ms : Members F) :
    (Json.obj (m :: ms)).render o = openObject o m ms ++ [ch '}'] := by
  simp only [Json.render, openObject, renderMembers_eq, List.cons_append, List.append_assoc]

/-- An object ends with its closing brace. -/
theorem render_obj_closed (o : DumpOpts) (ms : Members F) :
    ∃ t, (Json.obj ms).render o = t ++ [ch '}'] := by
  cases ms with
  | nil => exact ⟨[ch '{'], by rw [Json.render]; rfl⟩
  | cons m ms => exact ⟨_, render_cons o m ms⟩

/-! ### From a brace on -/

omit [PyFloat F] in
/-- An escape is the character itself or begins with a backslash. -/
theorem escape_head (ensureAscii : Bool) (c : CodePoint) :
    (escape ensureAscii c = [c] ∧ c ≠ ch '"') ∨
      ∃ rest, escape ensureAscii c = ch '\\' :: rest := by
  unfold escape
  rcases hshort : shortForm c with _ | e
  · simp only
    split
    · split
      · exact Or.inr ⟨_, rfl⟩
      · exact Or.inr ⟨_, rfl⟩
    · exact Or.inl ⟨rfl, (ne_of_shortForm_none hshort).1⟩
  · exact Or.inr ⟨_, rfl⟩

omit [PyFloat F] in
/-- Behind the spaces of a string stands its closing quote or a character of it,
which is no quote. -/
theorem skipSpace_string (ensureAscii : Bool) (s t : Str) :
    skipSpace (s.flatMap (escape ensureAscii) ++ ch '"' :: t) = ch '"' :: t ∨
      ∃ d rest, skipSpace (s.flatMap (escape ensureAscii) ++ ch '"' :: t) = d :: rest ∧
        d ≠ ch '"' ∧ (d = ch '\\' ∨ d ∈ s) := by
  have hquote : isJsonSpace (ch '"') = false := by decide
  induction s with
  | nil => exact Or.inl (skipSpace_cons hquote t)
  | cons c s ih =>
      rw [List.flatMap_cons, List.append_assoc]
      rcases escape_head ensureAscii c with ⟨hself, hne⟩ | ⟨rest, hbackslash⟩
      · rw [hself, List.singleton_append]
        by_cases hc : isJsonSpace c = true
        · have hskip : ∀ r, skipSpace (c :: r) = skipSpace r := fun r => by
            rw [skipSpace, List.dropWhile_cons_of_pos hc]
            rfl
          rw [hskip]
          rcases ih with h | ⟨d, rest, h, hd, hmem⟩
          · exact Or.inl h
          · exact Or.inr ⟨d, rest, h, hd, hmem.imp_right (List.mem_cons_of_mem c)⟩
        · refine Or.inr ⟨c, _, skipSpace_cons (by simpa using hc) _, hne, Or.inr ?_⟩
          exact List.mem_cons_self
      · rw [hbackslash, List.cons_append]
        exact Or.inr ⟨ch '\\', _, skipSpace_cons (by decide) _, by decide, Or.inl rfl⟩

/-- A text that opens an object without members to be read is not JSON. -/
theorem loads_open_none {t : Str} (hclose : (skipSpace t).head? ≠ some (ch '}'))
    (hmembers : ∀ fuel, scanMembers (F := F) fuel (skipSpace t) = none) :
    loads (F := F) (ch '{' :: t) = none := by
  have hscan : ∀ fuel, scanOnce (F := F) fuel (ch '{' :: t) = none := by
    intro fuel
    cases fuel with
    | zero => rfl
    | succ fuel =>
        rw [scanOnce, if_neg (by decide), if_pos rfl]
        rcases hskip : skipSpace t with _ | ⟨d, after⟩
        · rfl
        · have hd : d ≠ ch '}' := by simpa [hskip] using hclose
          have hnone := hmembers fuel
          rw [hskip] at hnone
          simp only [if_neg hd, hnone, Option.map_none]
  have hopen : isJsonSpace (ch '{') = false := by decide
  have hmark : (ch '{' :: t).head? ≠ some byteOrderMark := by
    simp [byteOrderMark]
    decide
  rw [loads, if_neg hmark, skipSpace_cons hopen, hscan]

/-- What begins at a brace inside a string, with more members behind it, is not
JSON: no quote follows the brace, or the key is the comma between two members. -/
theorem loads_inside_string {s t : Str} (hs : ch '}' ∉ s) {c : CodePoint}
    (hspace : isJsonSpace c = false) (hcolon : c ≠ ch ':') :
    loads (F := F) (ch '{' :: (s.flatMap (escape false) ++
      ch '"' :: ch ',' :: ch '"' :: c :: t)) = none := by
  rcases skipSpace_string false s (ch ',' :: ch '"' :: c :: t) with
    h | ⟨d, rest, h, hd, hmem⟩
  · have hkey : scanString (ch ',' :: ch '"' :: c :: t) = some ([ch ','], c :: t) :=
      scanString_quoted false [ch ','] (c :: t) (by simp)
    refine loads_open_none (by simp [h]) fun fuel => ?_
    rw [h]
    cases fuel with
    | zero => rfl
    | succ fuel => simp [scanMembers, hkey, skipSpace_cons hspace, hcolon]
  · have hclose : d ≠ ch '}' := by
      rcases hmem with rfl | hmem
      · decide
      · exact ne_of_mem_of_not_mem hmem hs
    refine loads_open_none (by simpa [h] using hclose) fun fuel => ?_
    rw [h]
    cases fuel with
    | zero => rfl
    | succ fuel => simp [scanMembers, hd]

omit [PyFloat F] in
/-- Braces are written as they are, between the text before them and the text
behind them. -/
theorem brace_in_string {ensureAscii : Bool} {b : CodePoint} (hb : b = ch '{' ∨ b = ch '}')
    {s u v : Str} (h : s.flatMap (escape ensureAscii) = u ++ b :: v) :
    ∃ s₁ s₂ : Str, s = s₁ ++ b :: s₂ ∧ u = s₁.flatMap (escape ensureAscii) ∧
      v = s₂.flatMap (escape ensureAscii) := by
  have hself : escape ensureAscii b = [b] ∧ 123 ≤ b.val := by
    rcases hb with rfl | rfl
    · rw [ch_val]
      cases ensureAscii
      · decide
      · decide
    · rw [ch_val]
      cases ensureAscii
      · decide
      · decide
  induction s generalizing u with
  | nil => simp at h
  | cons c s ih =>
      rw [List.flatMap_cons] at h
      rcases cut_append h with ⟨v', hc, rfl⟩ | ⟨u', rfl, hs⟩
      · have hmem : b ∈ escape ensureAscii c := by
          rw [hc]
          simp
        rcases mem_escape hmem with ⟨rfl, -⟩ | ⟨-, hlt⟩
        · rw [hself.1] at hc
          have hlength := congrArg List.length hc
          simp only [List.length_cons, List.length_append, List.length_nil] at hlength
          obtain rfl : v' = [] := List.eq_nil_of_length_eq_zero (by omega)
          obtain rfl : u = [] := List.eq_nil_of_length_eq_zero (by omega)
          exact ⟨[], s, rfl, rfl, rfl⟩
        · omega
      · obtain ⟨s₁, s₂, rfl, rfl, rfl⟩ := ih hs
        exact ⟨c :: s₁, s₂, rfl, by rw [List.flatMap_cons], rfl⟩

omit [PyFloat F] in
theorem close_mem_string {ensureAscii : Bool} {s : Str} (h : ch '}' ∈ s) :
    ch '}' ∈ s.flatMap (escape ensureAscii) := by
  refine List.mem_flatMap.mpr ⟨_, h, ?_⟩
  cases ensureAscii
  · decide
  · decide

/-- The text begins with a lower-case letter. -/
def startsLower (s : Str) : Bool := s.head?.any fun c => 97 ≤ c.val && c.val ≤ 122

omit [PyFloat F] in
theorem quoted_startsLower {s : Str} (hs : startsLower s = true) :
    ∃ c t, quoted false s = ch '"' :: c :: t ∧ isJsonSpace c = false ∧ c ≠ ch ':' := by
  cases s with
  | nil => cases hs
  | cons c s =>
      simp only [startsLower, List.head?_cons, Option.any_some, Bool.and_eq_true,
        decide_eq_true_eq] at hs
      have hne : ∀ d : Char, d.toNat < 97 → c ≠ ch d := by
        rintro d hd rfl
        rw [ch_val] at hs
        omega
      have hescape : escape false c = [c] := by
        have hbackslash : shortForm c = none := by
          unfold shortForm
          rw [if_neg (hne _ (by decide)), if_neg (hne _ (by decide)), if_neg (hne _ (by decide)),
            if_neg (hne _ (by decide)), if_neg (hne _ (by decide)), if_neg (by omega),
            if_neg (by omega)]
        simp [escape, hbackslash]
        omega
      refine ⟨c, s.flatMap (escape false) ++ [ch '"'], ?_, ?_, hne _ (by decide)⟩
      · rw [quoted, List.flatMap_cons, hescape]
        rfl
      · simp [isJsonSpace, hne]

/-- A member with a plain key whose text has no braces but those of a string. -/
structure Flat (o : DumpOpts) (m : Str × Json F) : Prop where
  key : TextBraceFree m.1
  letter : startsLower m.1 = true
  value : (∃ s, m.2 = .str s) ∨ TextBraceFree (m.2.render o)

theorem textBraceFree_memberText {m : Str × Json F} (hkey : TextBraceFree m.1)
    (hvalue : TextBraceFree (m.2.render fileOpts)) :
    TextBraceFree (memberText fileOpts m) := by
  have hitemSep : TextBraceFree fileOpts.itemSep := by decide
  have hkeySep : TextBraceFree fileOpts.keySep := by decide
  rw [memberText, textBraceFree_append, textBraceFree_append, textBraceFree_append]
  exact ⟨⟨⟨hitemSep, textBraceFree_quoted hkey⟩, hkeySep⟩, hvalue⟩

theorem memberText_head {m : Str × Json F} (hm : startsLower m.1 = true) :
    ∃ c t, memberText fileOpts m = ch ',' :: ch '"' :: c :: t ∧ isJsonSpace c = false ∧
      c ≠ ch ':' := by
  obtain ⟨c, t, hquoted, hc⟩ := quoted_startsLower hm
  refine ⟨c, t ++ fileOpts.keySep ++ m.2.render fileOpts, ?_, hc⟩
  have hfile : quoted fileOpts.ensureAscii m.1 = ch '"' :: c :: t := hquoted
  rw [memberText, hfile]
  rfl

/-- Behind an opening brace in flat members stand the rest of a string and the
members after it. -/
theorem brace_in_members {ms : Members F} (hms : ∀ m ∈ ms, Flat fileOpts m) {u v : Str}
    (h : membersText fileOpts ms = u ++ ch '{' :: v) :
    ∃ (s : Str) (ms' : Members F), ms' <:+ ms ∧
      v = s.flatMap (escape false) ++ ch '"' :: membersText fileOpts ms' := by
  induction ms generalizing u with
  | nil => simp [membersText] at h
  | cons m ms ih =>
      rw [List.forall_mem_cons] at hms
      rw [membersText_cons] at h
      rcases cut_append h with ⟨v', hm, rfl⟩ | ⟨u', _, htail⟩
      · obtain ⟨hkey, _, ⟨s, hs⟩ | hfree⟩ := hms.1
        · have hbefore : ch '{' ∉ fileOpts.itemSep ++ quoted fileOpts.ensureAscii m.1 ++
              fileOpts.keySep ++ [ch '"'] := by
            intro hmem
            simp only [List.mem_append, or_assoc] at hmem
            rcases hmem with hmem | hmem | hmem | hmem
            · exact absurd hmem (by decide)
            · exact (textBraceFree_quoted hkey _ hmem).1 rfl
            · exact absurd hmem (by decide)
            · exact absurd hmem (by decide)
          have htext : memberText fileOpts m = (fileOpts.itemSep ++
              quoted fileOpts.ensureAscii m.1 ++ fileOpts.keySep ++ [ch '"']) ++
              (s.flatMap (escape false) ++ [ch '"']) := by
            rw [memberText, hs, Json.render]
            simp [fileOpts, quoted]
          rw [htext] at hm
          obtain ⟨u', _, hbody⟩ := cut_right hbefore hm
          have hquote : ch '{' ∉ [ch '"'] := by decide
          obtain ⟨v'', hstring, rfl⟩ := cut_left hquote hbody
          obtain ⟨_, s', _, _, rfl⟩ := brace_in_string (Or.inl rfl) hstring
          exact ⟨s', ms, List.suffix_cons m ms, by simp⟩
        · refine absurd rfl (textBraceFree_memberText hkey hfree (ch '{') ?_).1
          rw [hm]
          simp
      · obtain ⟨s, ms', hsuffix, hv⟩ := ih hms.2 htail
        exact ⟨s, ms', hsuffix.trans (List.suffix_cons m ms), hv⟩

/-! ### The text of a licence -/

/-- The text of an object that is still open. -/
def openText (ms : Members F) : Str := (dumps fileOpts (.obj ms)).dropLast

theorem openText_cons (m : Str × Json F) (ms : Members F) :
    openText (m :: ms) = openObject fileOpts m ms := by
  have hrender : dumps fileOpts (.obj (m :: ms)) = openObject fileOpts m ms ++ [ch '}'] :=
    render_cons fileOpts m ms
  rw [openText, hrender, List.dropLast_concat]

/-- Another member stands behind the others. -/
theorem dumps_append {ms : Members F} (hms : ms ≠ []) (n : Str × Json F) :
    dumps fileOpts (.obj (ms ++ [n])) =
      openText ms ++ (memberText fileOpts n ++ [ch '}']) := by
  obtain ⟨m, ms, rfl⟩ := List.exists_cons_of_ne_nil hms
  have hrender : dumps fileOpts (.obj (m :: (ms ++ [n]))) =
      openObject fileOpts m (ms ++ [n]) ++ [ch '}'] := render_cons fileOpts m (ms ++ [n])
  rw [openText_cons, List.cons_append, hrender, openObject, openObject, membersText_append]
  simp [membersText]

variable (F) in
/-- The members of a licence behind the entitlements. -/
def flatClaims (args : MintArgs) (licenseId : Str) : Members F :=
  ("buyer_id", .str args.buyerId) :: ("customer_ref", .str args.customer) ::
    ("license_id", .str licenseId) :: ("fingerprint", .str args.machine) ::
    ("issued_at", .int args.now) ::
    ("expires_at", match args.expiresAt with
      | some e => .int e
      | none => .null) ::
    if args.allowFloating then [("allow_floating", .bool true)] else []

omit [PyFloat F] in
theorem mintClaims_eq [Interpreter] (args : MintArgs) (entitlements : Members F)
    (licenseId : Str) :
    mintClaims args entitlements licenseId =
      (Str.ofString "tier", .str args.loweredTier) ::
        (Str.ofString "entitlements", .obj entitlements) :: flatClaims F args licenseId := by
  unfold mintClaims flatClaims
  rcases args.allowFloating with _ | _
  · rfl
  · exact dictSet_new _ _ _ (by simp only [baseClaims, List.map_cons, List.map_nil]; decide)

theorem flat_flatClaims (args : MintArgs) (licenseId : Str) :
    ∀ m ∈ flatClaims F args licenseId, Flat fileOpts m := by
  have hkey : ∀ key ∈ ["buyer_id", "customer_ref", "license_id", "fingerprint", "issued_at",
      "expires_at", "allow_floating"], TextBraceFree (Str.ofString key) ∧
        startsLower (Str.ofString key) = true := by
    decide +kernel
  have hflat : ∀ key ∈ ["buyer_id", "customer_ref", "license_id", "fingerprint", "issued_at",
      "expires_at", "allow_floating"], ∀ j : Json F,
      ((∃ s, j = .str s) ∨ TextBraceFree (j.render fileOpts)) →
      Flat fileOpts (Str.ofString key, j) := fun key hmem j hj =>
    ⟨(hkey key hmem).1, (hkey key hmem).2, hj⟩
  have hfloating : ∀ m ∈ (if args.allowFloating then
      [(Str.ofString "allow_floating", Json.bool (F := F) true)] else []), Flat fileOpts m := by
    split
    · rw [List.forall_mem_singleton]
      exact hflat _ (by simp) _ (Or.inr (by rw [Json.render]; decide +kernel))
    · simp
  unfold flatClaims
  simp only [List.forall_mem_cons]
  refine ⟨hflat _ (by simp) _ (Or.inl ⟨_, rfl⟩), hflat _ (by simp) _ (Or.inl ⟨_, rfl⟩),
    hflat _ (by simp) _ (Or.inl ⟨_, rfl⟩), hflat _ (by simp) _ (Or.inl ⟨_, rfl⟩),
    hflat _ (by simp) _ (Or.inr ?_), hflat _ (by simp) _ (Or.inr ?_), hfloating⟩
  · rw [Json.render]
    exact textBraceFree_intText _
  · rcases args.expiresAt with _ | e
    · rw [Json.render]
      decide +kernel
    · rw [Json.render]
      exact textBraceFree_intText _

/-! ### The signature -/

/-- The signature block between its braces. -/
def blockText (C : Crypto) (K : SigningKey) (seed message : Bytes) : Str :=
  quoted false "alg" ++ ":" ++ quoted false "ed25519" ++
    membersText (F := F) fileOpts [("key_id", .str (keyIdFor C (K.verifyKey seed))),
      ("sig", .str (b64e (K.sign seed message)))]

variable {C : Crypto} {K : SigningKey} {seed message : Bytes}

theorem textBraceFree_blockText : TextBraceFree (blockText (F := F) C K seed message) := by
  have hkeyId : TextBraceFree (keyIdFor C (K.verifyKey seed)) := fun c hc =>
    textBraceFree_hexdigest _ c (List.mem_of_mem_take hc)
  have halg : TextBraceFree (quoted false "alg" ++ ":" ++ quoted false "ed25519") := by
    decide +kernel
  have hnames : TextBraceFree (Str.ofString "key_id") ∧ TextBraceFree (Str.ofString "sig") := by
    decide +kernel
  have hmember : ∀ (key s : Str), TextBraceFree key → TextBraceFree s →
      TextBraceFree (memberText (F := F) fileOpts (key, .str s)) := by
    intro key s hkey hs
    apply textBraceFree_memberText hkey
    rw [Json.render]
    exact textBraceFree_quoted hs
  have hnil : TextBraceFree [] := by simp [TextBraceFree]
  rw [blockText, membersText_cons, membersText_cons]
  exact textBraceFree_append.mpr ⟨halg, textBraceFree_append.mpr ⟨hmember _ _ hnames.1 hkeyId,
    textBraceFree_append.mpr ⟨hmember _ _ hnames.2 (textBraceFree_b64e _), hnil⟩⟩⟩

/-- A nested object that closes the text around it: `…{…}}`. -/
def closingObject (sep block : Str) : Str := sep ++ ch '{' :: (block ++ ch '}' :: [ch '}'])

/-- What follows the unsigned members in a token. -/
theorem signatureText_eq :
    memberText (F := F) fileOpts
        ("signature", .obj (signatureBlock C K seed message)) ++ [ch '}'] =
      closingObject ",\"signature\":" (blockText (F := F) C K seed message) := by
  have hkey : Str.ofString "," ++ quoted false "signature" ++ Str.ofString ":" =
      Str.ofString ",\"signature\":" := by decide +kernel
  rw [memberText, signatureBlock, render_cons, openObject, closingObject, blockText, ← hkey]
  simp [fileOpts, Json.render]

/-- An opening brace without a closing one behind it stands behind the
entitlements. -/
theorem brace_in_flatClaims [Interpreter] {args : MintArgs} {entitlements : Members F}
    {licenseId : Str} {u v : Str}
    (h : openText (mintClaims args entitlements licenseId) = u ++ ch '{' :: v)
    (hv : ch '}' ∉ v) :
    ∃ u', membersText fileOpts (flatClaims F args licenseId) = u' ++ ch '{' :: v := by
  obtain ⟨t, ht⟩ := render_obj_closed fileOpts entitlements
  have hsplit : ∃ p, openText (mintClaims args entitlements licenseId) =
      (p ++ [ch '}']) ++ membersText fileOpts (flatClaims F args licenseId) := by
    rw [mintClaims_eq, openText_cons, openObject, membersText_cons, memberText]
    simp only [ht]
    exact ⟨_, by simp only [← List.append_assoc, ← List.cons_append]; rfl⟩
  obtain ⟨p, hp⟩ := hsplit
  rw [hp] at h
  rcases cut_append h with ⟨v', hleft, rfl⟩ | ⟨u', _, hright⟩
  · have hclose : ch '{' ∉ [ch '}'] := by decide
    obtain ⟨v'', _, rfl⟩ := cut_left hclose hleft
    simp at hv
  · exact ⟨u', hright⟩

/-- Behind some of the members of a licence another one begins. -/
theorem membersText_head {args : MintArgs} {licenseId : Str} {ms : Members F}
    (hms : ms <:+ flatClaims F args licenseId) (block : Json F) :
    ∃ c t, membersText fileOpts ms ++
        (memberText fileOpts (Str.ofString "signature", block) ++ [ch '}']) =
          ch ',' :: ch '"' :: c :: t ∧ isJsonSpace c = false ∧ c ≠ ch ':' := by
  cases ms with
  | nil =>
      have hsignature : startsLower (Str.ofString "signature") = true := by decide
      obtain ⟨c, t, hhead, hc⟩ := memberText_head
        (m := (Str.ofString "signature", block)) hsignature
      exact ⟨c, t ++ [ch '}'], by rw [hhead]; rfl, hc⟩
  | cons m ms =>
      have hm := flat_flatClaims (F := F) args licenseId m (hms.mem List.mem_cons_self)
      obtain ⟨c, t, hhead, hc⟩ := memberText_head hm.letter
      exact ⟨c, _, by rw [membersText_cons, hhead]; rfl, hc⟩

/-- The last brace before the signature, if it is an opening one, begins no JSON:
it stands behind the entitlements, in a string. -/
theorem loads_before_signature [Interpreter] {args : MintArgs} {entitlements : Members F}
    {licenseId : Str} {u v : Str} {block : Json F}
    (h : openText (mintClaims args entitlements licenseId) = u ++ ch '{' :: v)
    (hv : ch '}' ∉ v) :
    loads (F := F) (ch '{' :: (v ++ (memberText fileOpts ("signature", block) ++ [ch '}']))) =
      none := by
  obtain ⟨u', hmembers⟩ := brace_in_flatClaims h hv
  obtain ⟨s, ms, hsuffix, rfl⟩ := brace_in_members (flat_flatClaims args licenseId) hmembers
  have hs : ch '}' ∉ s := fun hmem => hv (List.mem_append_left _ (close_mem_string hmem))
  obtain ⟨c, t, hnext, hspace, hcolon⟩ := membersText_head hsuffix block
  rw [List.append_assoc, List.cons_append, hnext]
  exact loads_inside_string hs hspace hcolon

end

end NetplexSupport
