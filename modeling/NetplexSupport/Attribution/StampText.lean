/-
The text of a stamp and the scanner's pattern.  A stamp has two pairs of braces
beside those in its strings, as many as the pattern holds: a stamp whose strings
are free of braces is one match, and any other has no match that is JSON.
-/
import NetplexSupport.Attribution.Ledger
import NetplexSupport.Attribution.Token

namespace NetplexSupport

open Py

/-! ### Members of strings -/

/-- A member whose value is a string. -/
def fieldText (f : Str × Str) : Str := quoted true f.1 ++ ": " ++ quoted true f.2

/-- Members behind the first one, each on a line. -/
def fieldLines (fs : List (Str × Str)) : Str :=
  fs.flatMap fun f => ch ',' :: (newline 2 1 ++ fieldText f)

theorem fieldLines_cons (f : Str × Str) (fs : List (Str × Str)) :
    fieldLines (f :: fs) = ch ',' :: (newline 2 1 ++ fieldText f) ++ fieldLines fs :=
  List.flatMap_cons

section

variable {F : Type} [PyFloat F]

theorem scanUnits_unclosed (s : Str) : scanUnits (s.flatMap (escape true)) = none := by
  induction s with
  | nil => rfl
  | cons c s ih => rw [List.flatMap_cons, scanUnits_escape, ih, Option.map_none]

/-- A member is passed over, so that members which do not end are not read. -/
theorem scanMembers_field {t : Str}
    (ht : ∀ fuel, scanMembers (F := F) fuel (skipSpace t) = none) (f : Str × Str)
    (fuel : Nat) : scanMembers (F := F) fuel (fieldText f ++ ch ',' :: t) = none := by
  have hstring : ∀ s r : Str, scanString (s.flatMap (escape true) ++ ch '"' :: r) =
      some (joinUnits (s.flatMap (charUnits true)), r) := fun s r => by
    rw [scanString, scanUnits_quoted]
    rfl
  have hsep : Str.ofString ": " = [ch ':', ch ' '] := rfl
  have hspace : ∀ c ∈ [ch ' '], isJsonSpace c = true := by simp [isJsonSpace]
  cases fuel with
  | zero => rfl
  | succ fuel =>
      simp only [fieldText, quoted, hsep, List.cons_append, List.append_assoc, List.nil_append,
        scanMembers, hstring]
      simp only [skipSpace_cons (c := ch ':') (by decide)]
      have hvalue := skipSpace_append hspace
        (ch '"' :: (f.2.flatMap (escape true) ++ ch '"' :: ch ',' :: t))
      rw [List.singleton_append, skipSpace_cons (c := ch '"') (by decide)] at hvalue
      rw [hvalue]
      cases fuel with
      | zero => rfl
      | succ fuel =>
          simp only [scanOnce, if_true, hstring, Option.map_some]
          simp [skipSpace_cons (c := ch ',') (by decide), ht]

theorem scanMembers_unclosed (key s : Str) (fuel : Nat) :
    scanMembers (F := F) fuel
      (quoted true key ++ ": " ++ ch '"' :: s.flatMap (escape true)) = none := by
  have hsep : Str.ofString ": " = [ch ':', ch ' '] := rfl
  have hspace : ∀ c ∈ [ch ' '], isJsonSpace c = true := by simp [isJsonSpace]
  have hvalue := skipSpace_append hspace (ch '"' :: s.flatMap (escape true))
  rw [List.singleton_append, skipSpace_cons (c := ch '"') (by decide)] at hvalue
  cases fuel with
  | zero => rfl
  | succ fuel =>
      simp only [quoted, hsep, List.cons_append, List.append_assoc, List.nil_append, scanMembers,
        scanString, scanUnits_quoted, Option.map_some]
      simp only [skipSpace_cons (c := ch ':') (by decide), hvalue]
      cases fuel with
      | zero => rfl
      | succ fuel => simp [scanOnce, scanString, scanUnits_unclosed]

/-- Members that end inside a string are not read. -/
theorem scanMembers_lines (first : Str × Str) (before : List (Str × Str)) (key s : Str)
    (fuel : Nat) : scanMembers (F := F) fuel (fieldText first ++ (fieldLines before ++
      ch ',' :: (newline 2 1 ++ (quoted true key ++ ": " ++ ch '"' :: s.flatMap (escape true))))) =
        none := by
  induction before generalizing first fuel with
  | nil =>
      apply scanMembers_field
      intro fuel
      rw [skipSpace_append (newline_space 2 1)]
      have hkey : skipSpace (quoted true key ++ ": " ++ ch '"' :: s.flatMap (escape true)) =
          quoted true key ++ ": " ++ ch '"' :: s.flatMap (escape true) :=
        skipSpace_cons (c := ch '"') (by decide) _
      rw [hkey]
      exact scanMembers_unclosed key s fuel
  | cons f before ih =>
      rw [fieldLines_cons, List.cons_append, List.cons_append]
      apply scanMembers_field
      intro fuel
      rw [List.append_assoc, List.append_assoc, skipSpace_append (newline_space 2 1)]
      have hfield : ∀ r, skipSpace (fieldText f ++ r) = fieldText f ++ r := fun r =>
        skipSpace_cons (c := ch '"') (by decide) _
      rw [hfield]
      exact ih f fuel

omit [PyFloat F] in
theorem skipSpace_before {c : CodePoint} (hc : isJsonSpace c = false) (a t : Str) :
    skipSpace (a ++ c :: t) = skipSpace a ++ c :: t := by
  induction a with
  | nil => exact skipSpace_cons hc t
  | cons d a ih =>
      by_cases hd : isJsonSpace d = true
      · simpa [skipSpace, hd] using ih
      · simp [skipSpace, hd]

/-- What begins at a brace inside a string and ends before the next member does
is not JSON. -/
theorem loads_inside_line {s t m w : Str}
    (hm : m ++ w = s.flatMap (escape true) ++ ch '"' :: ch ',' :: ch '\n' :: t)
    (hclose : (skipSpace m).head? ≠ some (ch '}')) : loads (F := F) (ch '{' :: m) = none := by
  refine loads_open_none hclose fun fuel => ?_
  rcases hskip : skipSpace m with _ | ⟨d, after⟩
  · cases fuel with
    | zero => rfl
    | succ fuel => rfl
  · have hwhole : skipSpace (m ++ w) = d :: after ++ w := by
      have hne : (m.dropWhile isJsonSpace).isEmpty = false := by
        rw [← skipSpace, hskip]
        rfl
      rw [skipSpace, List.dropWhile_append, hne, if_neg (by decide), ← skipSpace, hskip]
    rw [hm] at hwhole
    cases fuel with
    | zero => rfl
    | succ fuel =>
        rcases skipSpace_string true s (ch ',' :: ch '\n' :: t) with h | ⟨d', rest, h, hne, _⟩
        · -- The string ends here, and the key would begin with the comma.
          obtain ⟨rfl, hrest⟩ := List.cons.inj (h.symm.trans hwhole)
          have hbreak : ∀ r, scanUnits (ch '\n' :: r) = none := fun r => by
            rw [scanUnits.eq_def]
            simp
          have hunits : scanUnits after = none := by
            rcases after with _ | ⟨c, _ | ⟨c', after⟩⟩
            · rfl
            · obtain rfl : ch ',' = c := (List.cons.inj hrest).1
              rfl
            · obtain rfl : ch ',' = c := (List.cons.inj hrest).1
              obtain rfl : ch '\n' = c' := (List.cons.inj (List.cons.inj hrest).2).1
              rw [scanUnits.eq_def]
              simp [hbreak]
          simp [scanMembers, scanString, hunits]
        · obtain ⟨rfl, _⟩ := List.cons.inj (h.symm.trans hwhole)
          simp [scanMembers, hne]

end

/-! ### The text of a stamp -/

/-- The strings of a stamp behind its type. -/
def stampFields (args : StampArgs) : List (Str × Str) :=
  [("download_id", args.dlId), ("tier", args.tier), ("package", args.package),
    ("version", args.version), ("issued_at", args.now.isoformat),
    ("customer_ref", args.customer)]

/-- The signature block between its braces. -/
def blockLines (C : Crypto) (K : SigningKey) (seed message : Bytes) : Str :=
  newline 2 2 ++ fieldText ("alg", "ed25519") ++
    ch ',' :: (newline 2 2 ++ fieldText ("key_id", keyIdFor C (K.verifyKey seed))) ++
    ch ',' :: (newline 2 2 ++ fieldText ("sig", b64e (K.sign seed message))) ++ newline 2 1

def signatureKey : Str := ch ',' :: (newline 2 1 ++ (quoted true "signature" ++ ": "))

/-- What stands behind the strings. -/
def signatureTail (block : Str) : Str :=
  signatureKey ++ ch '{' :: (block ++ ch '}' :: (newline 2 0 ++ [ch '}']))

def stampText (args : StampArgs) (block : Str) : Str :=
  ch '{' :: (newline 2 1 ++ fieldText ("type", STAMP_TYPE) ++ fieldLines (stampFields args) ++
    signatureTail block)

section

variable {F : Type} [PyFloat F] {C : Crypto} {K : SigningKey} {seed : Bytes} {args : StampArgs}

/-- The text of a stamp that names its customer. -/
theorem dumpsIndent_stamp (hembed : args.embedCustomer = true) (message : Bytes) :
    dumpsIndent 2 (.obj (dictSet (stampClaims (F := F) args) "signature"
      (.obj (signatureBlock C K seed message)))) =
        stampText args (blockLines C K seed message) := by
  have hclaims : stampClaims args = ([("type", .str STAMP_TYPE),
      ("download_id", .str args.dlId), ("tier", .str args.tier), ("package", .str args.package),
      ("version", .str args.version), ("issued_at", .str args.now.isoformat),
      ("customer_ref", .str args.customer)] : Members F) := by
    unfold stampClaims
    rw [hembed]
    rfl
  have hnew : Str.ofString "signature" ∉ (stampClaims (F := F) args).map Prod.fst := by
    rw [hclaims]
    simp only [List.map_cons, List.map_nil]
    decide
  rw [dictSet_new _ _ _ hnew, hclaims]
  simp [dumpsIndent, Json.pretty, Json.prettyMembers, signatureBlock, stampText, blockLines,
    fieldLines, stampFields, fieldText, signatureTail, signatureKey]

/-! ### Where a brace stands -/

omit [PyFloat F]

theorem textBraceFree_newline (indent level : Nat) : TextBraceFree (newline indent level) := by
  apply textBraceFree_of_lt
  rw [newline, List.forall_mem_cons]
  refine ⟨by rw [ch_val]; decide, fun c hc => ?_⟩
  rw [List.eq_of_mem_replicate hc, ch_val]
  decide

theorem textBraceFree_fieldText {f : Str × Str} (hkey : TextBraceFree f.1)
    (hvalue : TextBraceFree f.2) : TextBraceFree (fieldText f) := by
  have hsep : TextBraceFree ": " := by decide
  exact textBraceFree_append.mpr ⟨textBraceFree_append.mpr ⟨textBraceFree_quoted hkey, hsep⟩,
    textBraceFree_quoted hvalue⟩

/-- A brace in a member stands in its string. -/
theorem brace_in_field {b : CodePoint} (hb : b = ch '{' ∨ b = ch '}') {f : Str × Str}
    (hkey : TextBraceFree f.1) {u v : Str} (h : fieldText f = u ++ b :: v) :
    ∃ s₁ s₂ : Str, f.2 = s₁ ++ b :: s₂ ∧
      u = quoted true f.1 ++ ": " ++ ch '"' :: s₁.flatMap (escape true) ∧
      v = s₂.flatMap (escape true) ++ [ch '"'] := by
  have hfree : ∀ {t : Str}, TextBraceFree t → b ∉ t := by
    intro t ht hmem
    rcases hb with rfl | rfl
    · exact (ht _ hmem).1 rfl
    · exact (ht _ hmem).2 rfl
  have hbefore : TextBraceFree (quoted true f.1 ++ ": " ++ [ch '"']) := by
    have hsep : TextBraceFree ": " := by decide
    have hquote : TextBraceFree [ch '"'] := by decide
    exact textBraceFree_append.mpr ⟨textBraceFree_append.mpr ⟨textBraceFree_quoted hkey, hsep⟩,
      hquote⟩
  have hquote : TextBraceFree [ch '"'] := by decide
  have htext : fieldText f = (quoted true f.1 ++ ": " ++ [ch '"']) ++
      (f.2.flatMap (escape true) ++ [ch '"']) := by
    simp [fieldText, quoted]
  rw [htext] at h
  obtain ⟨u', rfl, hbody⟩ := cut_right (hfree hbefore) h
  obtain ⟨v', hstring, rfl⟩ := cut_left (hfree hquote) hbody
  obtain ⟨s₁, s₂, hs, rfl, rfl⟩ := brace_in_string hb hstring
  exact ⟨s₁, s₂, hs, by simp, rfl⟩

theorem brace_in_lines {b : CodePoint} (hb : b = ch '{' ∨ b = ch '}') {fs : List (Str × Str)}
    (hkeys : ∀ f ∈ fs, TextBraceFree f.1) {u v : Str} (h : fieldLines fs = u ++ b :: v) :
    ∃ (before later : List (Str × Str)) (f : Str × Str) (s₁ s₂ : Str),
      fs = before ++ f :: later ∧ f.2 = s₁ ++ b :: s₂ ∧
      u = fieldLines before ++ ch ',' :: (newline 2 1 ++
        (quoted true f.1 ++ ": " ++ ch '"' :: s₁.flatMap (escape true))) ∧
      v = s₂.flatMap (escape true) ++ ch '"' :: fieldLines later := by
  induction fs generalizing u with
  | nil => simp [fieldLines] at h
  | cons f fs ih =>
      rw [List.forall_mem_cons] at hkeys
      rw [fieldLines_cons] at h
      rcases cut_append h with ⟨v', hline, rfl⟩ | ⟨u', rfl, hrest⟩
      · have hbefore : b ∉ ch ',' :: newline 2 1 := by
          have hfree : TextBraceFree (ch ',' :: newline 2 1) := by decide
          intro hmem
          rcases hb with rfl | rfl
          · exact (hfree _ hmem).1 rfl
          · exact (hfree _ hmem).2 rfl
        rw [← List.cons_append] at hline
        obtain ⟨u', rfl, hfield⟩ := cut_right hbefore hline
        obtain ⟨s₁, s₂, hs, rfl, rfl⟩ := brace_in_field hb hkeys.1 hfield
        exact ⟨[], fs, f, s₁, s₂, rfl, hs, by simp [fieldLines], by simp⟩
      · obtain ⟨before, later, g, s₁, s₂, rfl, hs, rfl, rfl⟩ := ih hkeys.2 hrest
        exact ⟨f :: before, later, g, s₁, s₂, rfl, hs, by simp [fieldLines_cons], rfl⟩

/-- `{a{b}c}`. -/
def nestedText (a b c : Str) : Str := ch '{' :: (a ++ ch '{' :: (b ++ ch '}' :: (c ++ [ch '}'])))

/-- No brace, as a class of characters. -/
def isPlain (c : CodePoint) : Bool := c ≠ ch '{' && c ≠ ch '}'

theorem textBraceFree_iff {s : Str} : TextBraceFree s ↔ ∀ c ∈ s, isPlain c = true := by
  simp [TextBraceFree, isPlain]

end

section

variable {F : Type} [PyFloat F] {args : StampArgs} {block : Str}

theorem stampFields_keys : ∀ f ∈ stampFields args, TextBraceFree f.1 := by
  simp only [stampFields, List.forall_mem_cons]
  exact ⟨by decide, by decide, by decide, by decide, by decide, by decide, by simp⟩

theorem textBraceFree_stampType : TextBraceFree (newline 2 1 ++ fieldText ("type", STAMP_TYPE)) :=
  textBraceFree_append.mpr ⟨textBraceFree_newline 2 1,
    textBraceFree_fieldText (f := ("type", STAMP_TYPE)) (by decide) (by decide)⟩

theorem textBraceFree_signatureKey : TextBraceFree signatureKey := by
  have hkey : TextBraceFree (quoted true "signature" ++ ": ") := by decide
  have hcomma : TextBraceFree [ch ','] := by decide
  exact textBraceFree_append.mpr ⟨hcomma, textBraceFree_append.mpr
    ⟨textBraceFree_newline 2 1, hkey⟩⟩

/-- What begins like a stamp and ends inside a string is not JSON. -/
theorem loads_open_stamp (before : List (Str × Str)) (key s : Str) :
    loads (F := F) (ch '{' :: (newline 2 1 ++ (fieldText ("type", STAMP_TYPE) ++
      (fieldLines before ++ ch ',' :: (newline 2 1 ++ (quoted true key ++ ": " ++
        ch '"' :: s.flatMap (escape true))))))) = none := by
  have hskip : ∀ t, skipSpace (newline 2 1 ++ (fieldText ("type", STAMP_TYPE) ++ t)) =
      fieldText ("type", STAMP_TYPE) ++ t := fun t => by
    rw [skipSpace_append (newline_space 2 1)]
    exact skipSpace_cons (c := ch '"') (by decide) _
  refine loads_open_none ?_ fun fuel => ?_
  · rw [hskip]
    simp [fieldText, quoted]
  · rw [hskip]
    exact scanMembers_lines _ _ _ _ fuel

omit [PyFloat F] in
/-- The closing brace before the last one ends the signature block. -/
theorem signatureTail_close (hblock : TextBraceFree block) {u w : Str} (hw : w ≠ [])
    (h : signatureTail block = u ++ ch '}' :: w) : u = signatureKey ++ ch '{' :: block := by
  have hmember : ch '}' ∉ signatureKey ++ ch '{' :: block := by
    rw [List.mem_append, List.mem_cons, not_or, not_or]
    exact ⟨fun hmem => (textBraceFree_signatureKey _ hmem).2 rfl, by decide,
      fun hmem => (hblock _ hmem).2 rfl⟩
  have hend : signatureTail block =
      (signatureKey ++ ch '{' :: block) ++ ch '}' :: (newline 2 0 ++ [ch '}']) := by
    simp [signatureTail]
  rw [hend] at h
  obtain ⟨u₁, rfl, hafter⟩ := cut_right hmember h
  rcases u₁ with _ | ⟨y, u₁⟩
  · exact List.append_nil _
  · have hbreak : ch '}' ∉ newline 2 0 := fun hmem => (textBraceFree_newline 2 0 _ hmem).2 rfl
    obtain ⟨u₂, _, hlast⟩ := cut_right hbreak (List.cons.inj hafter).2
    rcases u₂ with _ | ⟨z, u₂⟩
    · exact absurd (List.cons.inj hlast).2.symm hw
    · simp at hlast

omit [PyFloat F] in
/-- Behind its opening brace there is no other. -/
theorem signatureTail_open (hblock : TextBraceFree block) {u v : Str}
    (h : signatureTail block = u ++ ch '{' :: v) : ch '{' ∉ v := by
  have hmember : ch '{' ∉ signatureKey := fun hmem => (textBraceFree_signatureKey _ hmem).1 rfl
  have hbehind : ch '{' ∉ block ++ ch '}' :: (newline 2 0 ++ [ch '}']) := by
    rw [List.mem_append, List.mem_cons, List.mem_append, not_or, not_or, not_or]
    exact ⟨fun hmem => (hblock _ hmem).1 rfl, by decide,
      fun hmem => (textBraceFree_newline 2 0 _ hmem).1 rfl, by decide⟩
  rw [signatureTail] at h
  obtain ⟨u₁, _, hrest⟩ := cut_right hmember h
  rcases u₁ with _ | ⟨y, u₁⟩
  · rwa [(List.cons.inj hrest).2] at hbehind
  · rw [(List.cons.inj hrest).2] at hbehind
    exact absurd (List.mem_append_right _ List.mem_cons_self) hbehind

/-- A text that begins with the stamp's first brace and ends before its last one
is not JSON. -/
theorem stamp_initial (hblock : TextBraceFree block) {a b c w : Str} (hc : TextBraceFree c)
    (hw : w ≠ []) (h : stampText args block = nestedText a b c ++ w) :
    loads (F := F) (nestedText a b c) = none := by
  have hclose : ch '}' ∉ newline 2 1 ++ fieldText ("type", STAMP_TYPE) := fun hmem =>
    (textBraceFree_stampType _ hmem).2 rfl
  have hcut : (newline 2 1 ++ fieldText ("type", STAMP_TYPE)) ++
      (fieldLines (stampFields args) ++ signatureTail block) =
        (a ++ ch '{' :: (b ++ ch '}' :: c)) ++ ch '}' :: w := by
    have htail := (List.cons.inj h).2
    simpa using htail
  obtain ⟨u, hu, hrest⟩ := cut_right hclose hcut
  rcases cut_append hrest with ⟨v, hlines, rfl⟩ | ⟨u', rfl, htail⟩
  · -- The text ends inside a string.
    obtain ⟨before, later, f, s₁, s₂, _, _, rfl, rfl⟩ :=
      brace_in_lines (Or.inr rfl) stampFields_keys hlines
    have hescape : escape true (ch '}') = [ch '}'] := by decide
    have hstring : (s₁ ++ [ch '}']).flatMap (escape true) =
        s₁.flatMap (escape true) ++ [ch '}'] := by
      rw [List.flatMap_append, List.flatMap_singleton, hescape]
    have hbody : nestedText a b c =
        ch '{' :: ((a ++ ch '{' :: (b ++ ch '}' :: c)) ++ [ch '}']) := by
      simp [nestedText]
    have hopen := loads_open_stamp (F := F) before f.1 (s₁ ++ [ch '}'])
    rw [hstring] at hopen
    rw [hbody, hu]
    simpa using hopen
  · -- It ends behind the signature block, with three braces in it.
    obtain rfl := signatureTail_close hblock hw htail
    have hbraces : (a ++ ch '{' :: b) ++ ch '}' :: c =
        ((newline 2 1 ++ fieldText ("type", STAMP_TYPE)) ++ (fieldLines (stampFields args) ++
          signatureKey)) ++ ch '{' :: block := by
      simpa using hu
    obtain ⟨_, hsame, _⟩ := cut_last (textBraceFree_iff.mp hc) (textBraceFree_iff.mp hblock)
      (by decide) (by decide) hbraces
    exact absurd hsame (by decide)

omit [PyFloat F] in
/-- A brace is no white space, and no white space closes an object. -/
theorem head_before_open {a : Str} (ha : TextBraceFree a) (t : Str) :
    (skipSpace (a ++ ch '{' :: t)).head? ≠ some (ch '}') := by
  rw [skipSpace_before (c := ch '{') (by decide)]
  rcases hempty : skipSpace a with _ | ⟨d, rest⟩
  · simp
  · have hmem : d ∈ a := (List.dropWhile_suffix _).mem (by rw [← skipSpace, hempty]; simp)
    intro hhead
    obtain rfl : d = ch '}' := by simpa using hhead
    exact (ha _ hmem).2 rfl

/-- Nor is one that begins at another brace. -/
theorem stamp_inside (hblock : TextBraceFree block) {a b c u w : Str} (ha : TextBraceFree a)
    (hu : u ≠ []) (h : stampText args block = u ++ (nestedText a b c ++ w)) :
    loads (F := F) (nestedText a b c) = none := by
  obtain ⟨x, u, rfl⟩ := List.exists_cons_of_ne_nil hu
  have hopen : ch '{' ∉ newline 2 1 ++ fieldText ("type", STAMP_TYPE) := fun hmem =>
    (textBraceFree_stampType _ hmem).1 rfl
  have hcut : (newline 2 1 ++ fieldText ("type", STAMP_TYPE)) ++
      (fieldLines (stampFields args) ++ signatureTail block) =
        u ++ ch '{' :: (a ++ ch '{' :: (b ++ ch '}' :: (c ++ ch '}' :: w))) := by
    have htail := (List.cons.inj h).2
    simpa [nestedText] using htail
  obtain ⟨u', _, hrest⟩ := cut_right hopen hcut
  rcases cut_append hrest with ⟨v, hlines, hv⟩ | ⟨u₁, _, htail⟩
  · -- It begins inside a string, and the next member follows the string on a line
    -- of its own.
    obtain ⟨before, later, f, s₁, s₂, _, _, _, rfl⟩ :=
      brace_in_lines (Or.inl rfl) stampFields_keys hlines
    have hnext : ∃ t, fieldLines later ++ signatureTail block = ch ',' :: ch '\n' :: t := by
      cases later with
      | nil => exact ⟨_, rfl⟩
      | cons g later => exact ⟨_, rfl⟩
    obtain ⟨t, ht⟩ := hnext
    refine loads_inside_line (s := s₂) (t := t) (w := w) ?_ (head_before_open ha _)
    have hpiece : a ++ ch '{' :: (b ++ ch '}' :: (c ++ [ch '}'])) ++ w =
        a ++ ch '{' :: (b ++ ch '}' :: (c ++ ch '}' :: w)) := by simp
    rw [hpiece, hv, List.append_assoc, List.cons_append, ht]
  · -- Behind the strings one brace opens, and no other follows it.
    exact absurd (List.mem_append_right _ List.mem_cons_self) (signatureTail_open hblock htail)

/-! ### The whole text -/

/-- No string of a stamp has a brace in it. -/
structure StampArgs.Plain (args : StampArgs) : Prop where
  dlId : TextBraceFree args.dlId
  tier : TextBraceFree args.tier
  package : TextBraceFree args.package
  version : TextBraceFree args.version
  customer : TextBraceFree args.customer

omit [PyFloat F] in
theorem textBraceFree_isoformat (t : Instant) : TextBraceFree t.isoformat := by
  refine isoformat_forall (by decide) ?_ t
  have hmark : TextBraceFree [ch '-', ch 'T', ch ':', ch '+'] := of_decide_eq_true rfl
  exact hmark

omit [PyFloat F] in
theorem plain_iff_fields : args.Plain ↔ ∀ f ∈ stampFields args, TextBraceFree f.2 := by
  simp only [stampFields, List.forall_mem_cons]
  constructor
  · intro h
    exact ⟨h.dlId, h.tier, h.package, h.version, textBraceFree_isoformat _, h.customer, by simp⟩
  · rintro ⟨hdlId, htier, hpackage, hversion, -, hcustomer, -⟩
    exact ⟨hdlId, htier, hpackage, hversion, hcustomer⟩

/-- How many braces a text has. -/
def braceCount (s : Str) : Nat := s.countP fun c => !isPlain c

omit [PyFloat F] in
theorem braceCount_append (s t : Str) : braceCount (s ++ t) = braceCount s + braceCount t :=
  List.countP_append

omit [PyFloat F] in
theorem braceCount_open (s : Str) : braceCount (ch '{' :: s) = braceCount s + 1 :=
  List.countP_cons_of_pos (by decide)

omit [PyFloat F] in
theorem braceCount_close (s : Str) : braceCount (ch '}' :: s) = braceCount s + 1 :=
  List.countP_cons_of_pos (by decide)

omit [PyFloat F] in
theorem braceCount_eq_zero {s : Str} : braceCount s = 0 ↔ TextBraceFree s := by
  rw [textBraceFree_iff, braceCount, List.countP_eq_zero]
  simp

omit [PyFloat F] in
/-- Four braces are its own. -/
theorem braceCount_nested (a b c : Str) :
    braceCount (nestedText a b c) = braceCount a + braceCount b + braceCount c + 4 := by
  have hlast : braceCount [ch '}'] = 1 := by decide
  rw [nestedText, braceCount_open, braceCount_append, braceCount_open, braceCount_append,
    braceCount_close, braceCount_append, hlast]
  omega

omit [PyFloat F] in
theorem stampText_eq_nested : stampText args block = nestedText
    ((newline 2 1 ++ fieldText ("type", STAMP_TYPE)) ++ fieldLines (stampFields args) ++
      signatureKey) block (newline 2 0) := by
  simp [stampText, signatureTail, nestedText]

omit [PyFloat F] in
theorem textBraceFree_fieldLines {fs : List (Str × Str)}
    (hkeys : ∀ f ∈ fs, TextBraceFree f.1) :
    TextBraceFree (fieldLines fs) ↔ ∀ f ∈ fs, TextBraceFree f.2 := by
  induction fs with
  | nil => simp [fieldLines, TextBraceFree]
  | cons f fs ih =>
      rw [List.forall_mem_cons] at hkeys
      have hcomma : TextBraceFree [ch ','] := by decide
      have hline : TextBraceFree (ch ',' :: (newline 2 1 ++ fieldText f)) ↔
          TextBraceFree f.2 := by
        rw [← List.singleton_append, textBraceFree_append, textBraceFree_append]
        constructor
        · rintro ⟨_, _, hfield⟩
          exact textBraceFree_of_quoted (textBraceFree_append.mp hfield).2
        · intro hvalue
          exact ⟨hcomma, textBraceFree_newline 2 1, textBraceFree_fieldText hkeys.1 hvalue⟩
      rw [fieldLines_cons, textBraceFree_append, hline, ih hkeys.2, List.forall_mem_cons]

omit [PyFloat F] in
/-- A stamp whose text is a match has no braces in its strings. -/
theorem plain_of_nested (hblock : TextBraceFree block) {a b c : Str} (ha : TextBraceFree a)
    (hb : TextBraceFree b) (hc : TextBraceFree c)
    (h : stampText args block = nestedText a b c) : args.Plain := by
  have hlast : TextBraceFree (newline 2 0) := textBraceFree_newline 2 0
  have hcount := congrArg braceCount (stampText_eq_nested.symm.trans h)
  rw [braceCount_nested, braceCount_nested, braceCount_append, braceCount_append,
    braceCount_eq_zero.mpr textBraceFree_stampType,
    braceCount_eq_zero.mpr textBraceFree_signatureKey, braceCount_eq_zero.mpr hblock,
    braceCount_eq_zero.mpr hlast, braceCount_eq_zero.mpr ha, braceCount_eq_zero.mpr hb,
    braceCount_eq_zero.mpr hc] at hcount
  rw [plain_iff_fields, ← textBraceFree_fieldLines stampFields_keys, ← braceCount_eq_zero]
  omega

/-! ### Its length -/

/-- The characters that the strings of a stamp take up in it. -/
def StampArgs.escaped (args : StampArgs) : Nat :=
  escapedLength args.dlId + escapedLength args.tier + escapedLength args.package +
    escapedLength args.version + escapedLength args.customer

omit [PyFloat F] in
theorem length_isoformat (t : Instant) : t.isoformat.length = 25 := by
  simp [Instant.isoformat, decPad_length, Str.ofString]

omit [PyFloat F] in
theorem escapedLength_isoformat (t : Instant) : escapedLength t.isoformat = 25 := by
  rw [escapedLength_plain, length_isoformat]
  refine isoformat_forall
    (p := fun c => 32 ≤ c.val ∧ c.val < 127 ∧ c.val ≠ 34 ∧ c.val ≠ 92) (by decide) ?_ t
  simp only [List.forall_mem_cons, ch_val]
  exact ⟨by decide, by decide, by decide, by decide, by simp⟩

omit [PyFloat F] in
theorem length_fieldText (f : Str × Str) :
    (fieldText f).length = escapedLength f.1 + escapedLength f.2 + 6 := by
  have hsep : (Str.ofString ": ").length = 2 := rfl
  rw [fieldText, List.length_append, List.length_append, length_quoted, length_quoted, hsep]
  omega

omit [PyFloat F] in
theorem length_fieldLines (fs : List (Str × Str)) :
    (fieldLines fs).length = (fs.map fun f => escapedLength f.1 + escapedLength f.2 + 10).sum := by
  induction fs with
  | nil => rfl
  | cons f fs ih =>
      rw [fieldLines_cons, List.length_append, ih, List.length_cons, List.length_append,
        length_fieldText, List.map_cons, List.sum_cons]
      simp [newline]
      omega

variable {C : Crypto} {K : SigningKey} {seed : Bytes}

omit [PyFloat F] in
theorem textBraceFree_keyId (publicKey : Bytes) : TextBraceFree (keyIdFor C publicKey) :=
  fun c hc => textBraceFree_hexdigest _ c (List.mem_of_mem_take hc)

omit [PyFloat F] in
theorem textBraceFree_blockLines (message : Bytes) :
    TextBraceFree (blockLines C K seed message) := by
  have hcomma : TextBraceFree [ch ','] := by decide
  have hkeys : TextBraceFree "key_id" ∧ TextBraceFree "sig" := by decide
  have halg : TextBraceFree (fieldText ("alg", "ed25519")) :=
    textBraceFree_fieldText (f := ("alg", "ed25519")) (by decide) (by decide)
  have hkeyId : TextBraceFree (fieldText ("key_id", keyIdFor C (K.verifyKey seed))) :=
    textBraceFree_fieldText (f := ("key_id", _)) hkeys.1 (textBraceFree_keyId _)
  have hsig : TextBraceFree (fieldText ("sig", b64e (K.sign seed message))) :=
    textBraceFree_fieldText (f := ("sig", _)) hkeys.2 (textBraceFree_b64e _)
  rw [blockLines, ← List.singleton_append, ← List.singleton_append (l := newline 2 2 ++
    fieldText ("sig", b64e (K.sign seed message)))]
  simp only [textBraceFree_append]
  exact ⟨⟨⟨⟨textBraceFree_newline 2 2, halg⟩, hcomma, textBraceFree_newline 2 2, hkeyId⟩,
    hcomma, textBraceFree_newline 2 2, hsig⟩, textBraceFree_newline 2 1⟩

omit [PyFloat F] in
theorem length_keyId (publicKey : Bytes) : (keyIdFor C publicKey).length = 16 := by
  have hdigest : ∀ bs : Bytes, (bs.flatMap fun b => hexPad 2 b.toNat).length = 2 * bs.length := by
    intro bs
    induction bs with
    | nil => rfl
    | cons b bs ih =>
        rw [List.flatMap_cons, List.length_append, ih, hexPad_length, List.length_cons]
        omega
  rw [keyIdFor, List.length_take, hexdigest, hdigest, Digest.length_eq]
  rfl

omit [PyFloat F] in
/-- Everything but the strings takes 353 characters. -/
theorem length_stampText {message : Bytes} (hsig : (K.sign seed message).length = 64) :
    (stampText args (blockLines C K seed message)).length = 353 + args.escaped := by
  have hkeyId : escapedLength (keyIdFor C (K.verifyKey seed)) = 16 := by
    rw [escapedLength_plain, length_keyId]
    intro c hc
    obtain ⟨b, _, hc⟩ := List.mem_flatMap.mp (List.mem_of_mem_take hc)
    have := hexPad_plain _ _ c hc
    omega
  have hb64 : escapedLength (b64e (K.sign seed message)) = 88 := by
    rw [escapedLength_plain, length_b64e, hsig]
    intro c hc
    have := b64e_plain _ c hc
    omega
  have hnames : escapedLength "type" = 4 ∧ escapedLength STAMP_TYPE = 22 ∧
      escapedLength "download_id" = 11 ∧ escapedLength "tier" = 4 ∧
      escapedLength "package" = 7 ∧ escapedLength "version" = 7 ∧
      escapedLength "issued_at" = 9 ∧ escapedLength "customer_ref" = 12 ∧
      (quoted true "signature" ++ ": ").length = 13 ∧
      escapedLength "alg" = 3 ∧ escapedLength "ed25519" = 7 ∧
      escapedLength "key_id" = 6 ∧ escapedLength "sig" = 3 := by
    decide +kernel
  obtain ⟨h₁, h₂, h₃, h₄, h₅, h₆, h₇, h₈, h₉, h₁₀, h₁₁, h₁₂, h₁₃⟩ := hnames
  have hnewline : ∀ level, (newline 2 level).length = 2 * level + 1 := by simp [newline]
  simp only [stampText, signatureTail, signatureKey, blockLines, stampFields, List.length_cons,
    List.length_append, length_fieldText, length_fieldLines, hnewline, List.map_cons,
    List.map_nil, List.sum_cons, List.sum_nil, List.length_nil, escapedLength_isoformat, hkeyId,
    hb64, h₁, h₂, h₃, h₄, h₅, h₆, h₇, h₈, h₁₀, h₁₁, h₁₂, h₁₃, StampArgs.escaped]
  rw [List.length_append] at h₉
  omega

/-! ### The matches in it -/

omit [PyFloat F] in
theorem utf8_nestedText (a b c : Str) :
    utf8 (nestedText a b c) = nested (utf8 a) (utf8 b) (utf8 c) := by
  rw [nestedText, nested, utf8_open, utf8_append, utf8_open, utf8_append, utf8_close,
    utf8_append, utf8_close]
  rfl

omit [PyFloat F] in
/-- The braces of a text's bytes stand for its own. -/
theorem nested_of_bytes {s : Str} (hs : Str.WellFormed s) {u v a b c : Bytes}
    (ha : BraceFree a) (hb : BraceFree b) (hc : BraceFree c)
    (h : utf8 s = u ++ (nested a b c ++ v)) :
    ∃ t t' a' b' c', s = t ++ (nestedText a' b' c' ++ t') ∧ utf8 t = u ∧ utf8 t' = v ∧
      utf8 (nestedText a' b' c') = nested a b c ∧ TextBraceFree a' ∧ TextBraceFree b' ∧
      TextBraceFree c' := by
  have hbytes : utf8 s = u ++ 123 :: (a ++ 123 :: (b ++ 125 :: (c ++ 125 :: v))) := by
    rw [h, nested]
    simp
  obtain ⟨t, r₁, rfl, ht, hr₁, _, hwell₁⟩ := cut_open hs hbytes
  obtain ⟨a', r₂, rfl, rfl, hr₂, ha', hwell₂⟩ := cut_open hwell₁ hr₁
  obtain ⟨b', r₃, rfl, rfl, hr₃, hb', hwell₃⟩ := cut_close hwell₂ hr₂
  obtain ⟨c', t', rfl, rfl, ht', hc', _⟩ := cut_close hwell₃ hr₃
  exact ⟨t, t', a', b', c', by simp [nestedText], ht, ht', utf8_nestedText a' b' c',
    (braceFree_utf8 ha').mp ha, (braceFree_utf8 hb').mp hb, (braceFree_utf8 hc').mp hc⟩

/-- A match in a stamp is the whole of it, and then the stamp has no brace in its
strings and is read to its end, or is not JSON. -/
theorem stamp_matches (hascii : Str.Ascii (stampText args block)) (hblock : TextBraceFree block)
    {blob : Bytes} (hblob : blob ∈ Regex.finditer leakPattern
      ((utf8 (stampText args block)).take readLimit)) :
    (args.Plain ∧ (stampText args block).length ≤ readLimit) ∨
      ∃ text, Str.WellFormed text ∧ blob = utf8 text ∧ loads (F := F) text = none := by
  obtain ⟨u, v, htake, hmatch⟩ := Regex.mem_finditer hblob
  obtain ⟨a, b, c, rfl, ha, hb, hc⟩ := matches_leakPattern hmatch
  have hbytes : utf8 (stampText args block) = u ++ (nested a b c ++
      (v ++ (utf8 (stampText args block)).drop readLimit)) := by
    conv_lhs => rw [← List.take_append_drop readLimit (utf8 (stampText args block)), htake]
    simp
  obtain ⟨t, t', a', b', c', htext, hu, hv, hnested, ha', hb', hc'⟩ :=
    nested_of_bytes hascii.wellFormed ha hb hc hbytes
  have hwell : Str.WellFormed (nestedText a' b' c') := fun d hd =>
    hascii.wellFormed d (by simp [htext, hd])
  by_cases ht : t = []
  · subst ht
    by_cases ht' : t' = []
    · subst ht'
      rw [List.nil_append, List.append_nil] at htext
      refine Or.inl ⟨plain_of_nested hblock ha' hb' hc' htext, ?_⟩
      have hdrop := (List.append_eq_nil_iff.mp (show v ++ _ = [] from hv.symm)).2
      rw [← hascii.length_utf8]
      exact List.drop_eq_nil_iff.mp hdrop
    · exact Or.inr ⟨_, hwell, hnested.symm, stamp_initial hblock hc' ht' htext⟩
  · exact Or.inr ⟨_, hwell, hnested.symm, stamp_inside hblock ha' ht htext⟩

omit [PyFloat F] in
theorem matches_signedText {a b b' c : Str} (ha : TextBraceFree a) (hb : TextBraceFree b)
    (hb' : TextBraceFree b') (hc : TextBraceFree c)
    (hascii : Str.Ascii (nestedText (a ++ "\"signature\": ")
      (b ++ "\"alg\": \"ed25519\"" ++ b') c)) :
    Regex.Matches leakPattern (utf8 (nestedText (a ++ "\"signature\": ")
      (b ++ "\"alg\": \"ed25519\"" ++ b') c)) := by
  have hsignature : utf8 "\"signature\": " = asciiBytes "\"signature\": " := by decide +kernel
  have halg : utf8 "\"alg\": \"ed25519\"" = asciiBytes "\"alg\": \"ed25519\"" := by
    decide +kernel
  have hpart : ∀ {part : Str}, TextBraceFree part → (∀ d ∈ part, d ∈ nestedText
      (a ++ "\"signature\": ") (b ++ "\"alg\": \"ed25519\"" ++ b') c) →
        BraceFree (utf8 part) := fun hfree hmem =>
    (braceFree_utf8 fun d hd => hascii.wellFormed d (hmem d hd)).mpr hfree
  rw [utf8_nestedText, utf8_append, utf8_append, utf8_append, hsignature, halg]
  refine matches_signed (hpart ha ?_) (hpart hb ?_) (hpart hb' ?_) (hpart hc ?_)
  all_goals
    intro d hd
    simp [nestedText, hd]

omit [PyFloat F] in
/-- A stamp without braces in its strings is one match. -/
theorem stampText_matches {message : Bytes}
    (hascii : Str.Ascii (stampText args (blockLines C K seed message))) (hplain : args.Plain) :
    Regex.Matches leakPattern (utf8 (stampText args (blockLines C K seed message))) := by
  have hkey : signatureKey = (ch ',' :: newline 2 1) ++ "\"signature\": " := by decide +kernel
  have halg : fieldText ("alg", "ed25519") = "\"alg\": \"ed25519\"" := by decide +kernel
  obtain ⟨behind, hblock⟩ : ∃ behind, blockLines C K seed message =
      newline 2 2 ++ "\"alg\": \"ed25519\"" ++ behind := by
    rw [blockLines, halg]
    simp only [List.append_assoc]
    exact ⟨_, rfl⟩
  have htext : stampText args (blockLines C K seed message) = nestedText
      (((newline 2 1 ++ fieldText ("type", STAMP_TYPE)) ++ fieldLines (stampFields args) ++
        (ch ',' :: newline 2 1)) ++ "\"signature\": ")
      (newline 2 2 ++ "\"alg\": \"ed25519\"" ++ behind) (newline 2 0) := by
    rw [stampText_eq_nested, hkey, hblock]
    simp only [List.append_assoc]
  have hlines : TextBraceFree (fieldLines (stampFields args)) :=
    (textBraceFree_fieldLines stampFields_keys).mpr (plain_iff_fields.mp hplain)
  have hcomma : TextBraceFree (ch ',' :: newline 2 1) := by decide
  have hbehind : TextBraceFree behind :=
    (textBraceFree_append.mp (hblock ▸ textBraceFree_blockLines message)).2
  rw [htext] at hascii ⊢
  exact matches_signedText (textBraceFree_append.mpr ⟨textBraceFree_append.mpr
    ⟨textBraceFree_stampType, hlines⟩, hcomma⟩) (textBraceFree_newline 2 2) hbehind
    (textBraceFree_newline 2 0) hascii

end

end NetplexSupport
