/-
`json.loads` within the limits of the interpreter.  The scanner calls itself at every
bracket and raises a `RecursionError` where it can follow no further, which is no
`ValueError`; and `int()` refuses a number of more than 4300 digits, which is one.
-/
import NetplexSupport.Json.Loaded

namespace Py

variable {F : Type}

/-! ### The scanner -/

/-- What is raised at a bracket too many. -/
def recursionError (what : Str) : Exc :=
  ⟨.recursionError, "maximum recursion depth exceeded while decoding a JSON " ++ what ++
    " from a unicode string"⟩

/-- `int(text)` of a number in the text. -/
def withinDigits (p : Json F × Str) : Option (Json F × Str) :=
  match p.1 with
  | .int i => if (natDigits i.natAbs).length ≤ 4300 then some p else none
  | _ => some p

variable [PyFloat F]

mutual
/-- `scan_once`, where `left` brackets can still be followed.  `none` is a
`ValueError`. -/
def scanOnceWithin : Nat → Nat → Str → Except Exc (Option (Json F × Str))
  | 0, _, _ => .ok none
  | _ + 1, _, [] => .ok none
  | fuel + 1, left, c :: rest =>
      if c = ch '"' then .ok ((scanString rest).map fun p => (.str p.1, p.2))
      else if c = ch '{' then
        if left = 0 then .error (recursionError "object")
        else
          match skipSpace rest with
          | [] => .ok none
          | d :: after =>
              if d = ch '}' then .ok (some (.obj [], after))
              else (scanMembersWithin fuel (left - 1) (d :: after)).map
                (Option.map fun p => (.obj (dictOf p.1), p.2))
      else if c = ch '[' then
        if left = 0 then .error (recursionError "array")
        else
          match skipSpace rest with
          | [] => .ok none
          | d :: after =>
              if d = ch ']' then .ok (some (.arr [], after))
              else (scanItemsWithin fuel (left - 1) (d :: after)).map
                (Option.map fun p => (.arr p.1, p.2))
      else .ok (((scanConstant (c :: rest)).or (scanNumber (c :: rest))).bind withinDigits)

/-- `JSONArray`, from its first item. -/
def scanItemsWithin : Nat → Nat → Str → Except Exc (Option (List (Json F) × Str))
  | 0, _, _ => .ok none
  | fuel + 1, left, s =>
      match scanOnceWithin fuel left s with
      | .error exc => .error exc
      | .ok none => .ok none
      | .ok (some (value, s)) =>
          match skipSpace s with
          | [] => .ok none
          | c :: rest =>
              if c = ch ']' then .ok (some ([value], rest))
              else if c = ch ',' then
                (scanItemsWithin fuel left (skipSpace rest)).map
                  (Option.map fun p => (value :: p.1, p.2))
              else .ok none

/-- `JSONObject`, from its first key. -/
def scanMembersWithin : Nat → Nat → Str → Except Exc (Option (List (Str × Json F) × Str))
  | 0, _, _ => .ok none
  | _ + 1, _, [] => .ok none
  | fuel + 1, left, q :: s =>
      if q ≠ ch '"' then .ok none
      else
        match scanString s with
        | none => .ok none
        | some (key, s) =>
            match skipSpace s with
            | [] => .ok none
            | c :: s =>
                if c ≠ ch ':' then .ok none
                else
                  match scanOnceWithin fuel left (skipSpace s) with
                  | .error exc => .error exc
                  | .ok none => .ok none
                  | .ok (some (value, s)) =>
                      match skipSpace s with
                      | [] => .ok none
                      | c :: rest =>
                          if c = ch '}' then .ok (some ([(key, value)], rest))
                          else if c = ch ',' then
                            (scanMembersWithin fuel left (skipSpace rest)).map
                              (Option.map fun p => ((key, value) :: p.1, p.2))
                          else .ok none
end

/-- `json.loads` of a `str` where a `ValueError` is caught, as `none`, and nothing else
is. -/
def tryLoads [Interpreter] (s : Str) : Except Exc (Option (Json F)) :=
  if s.head? = some byteOrderMark then .ok none
  else
    match scanOnceWithin (2 * s.length + 1) Interpreter.nesting (skipSpace s) with
    | .error exc => .error exc
    | .ok none => .ok none
    | .ok (some (value, rest)) => .ok (if skipSpace rest = [] then some value else none)

@[simp] theorem tryLoads_nil [Interpreter] : tryLoads (F := F) [] = .ok none := rfl

/-! ### What gets through -/

variable (F) in
/-- The scanners raise nothing but a `RecursionError`. -/
def OnceFault (fuel : Nat) : Prop :=
  ∀ left s exc, scanOnceWithin (F := F) fuel left s = .error exc → exc.kind = .recursionError

variable (F) in
def ItemsFault (fuel : Nat) : Prop :=
  ∀ left s exc, scanItemsWithin (F := F) fuel left s = .error exc → exc.kind = .recursionError

variable (F) in
def MembersFault (fuel : Nat) : Prop :=
  ∀ left s exc, scanMembersWithin (F := F) fuel left s = .error exc → exc.kind = .recursionError

omit [PyFloat F] in
theorem error_of_map {ε α β : Type} {f : α → β} {x : Except ε α} {e : ε}
    (h : x.map f = .error e) : x = .error e := by
  rcases x with e' | a
  · exact congrArg Except.error (Except.error.inj h)
  · cases h

theorem onceFault_succ {fuel : Nat} (hitems : ItemsFault F fuel)
    (hmembers : MembersFault F fuel) : OnceFault F (fuel + 1) := by
  intro left s exc h
  cases s with
  | nil => cases h
  | cons c rest =>
      simp only [scanOnceWithin] at h
      split_ifs at h
      · exact Except.error.inj h ▸ rfl
      · split at h
        · cases h
        · split_ifs at h
          exact hmembers _ _ _ (error_of_map h)
      · exact Except.error.inj h ▸ rfl
      · split at h
        · cases h
        · split_ifs at h
          exact hitems _ _ _ (error_of_map h)

theorem itemsFault_succ {fuel : Nat} (honce : OnceFault F fuel)
    (hitems : ItemsFault F fuel) : ItemsFault F (fuel + 1) := by
  intro left s exc h
  simp only [scanItemsWithin] at h
  split at h
  · rename_i exc' honceError
    exact Except.error.inj h ▸ honce _ _ _ honceError
  · cases h
  · split at h
    · cases h
    · split_ifs at h
      exact hitems _ _ _ (error_of_map h)

theorem membersFault_succ {fuel : Nat} (honce : OnceFault F fuel)
    (hmembers : MembersFault F fuel) : MembersFault F (fuel + 1) := by
  intro left s exc h
  cases s with
  | nil => cases h
  | cons q s =>
      simp only [scanMembersWithin] at h
      split_ifs at h
      split at h
      · cases h
      · split at h
        · cases h
        · split_ifs at h
          split at h
          · rename_i exc' honceError
            exact Except.error.inj h ▸ honce _ _ _ honceError
          · cases h
          · split at h
            · cases h
            · split_ifs at h
              exact hmembers _ _ _ (error_of_map h)

theorem scan_fault (fuel : Nat) : OnceFault F fuel ∧ ItemsFault F fuel ∧ MembersFault F fuel := by
  induction fuel with
  | zero =>
      refine ⟨?_, ?_, ?_⟩
      all_goals
        intro left s exc h
        cases h
  | succ fuel ih =>
      obtain ⟨honce, hitems, hmembers⟩ := ih
      exact ⟨onceFault_succ hitems hmembers, itemsFault_succ honce hitems,
        membersFault_succ honce hmembers⟩

theorem tryLoads_error [Interpreter] {s : Str} {exc : Exc}
    (h : tryLoads (F := F) s = .error exc) : exc.kind = .recursionError := by
  unfold tryLoads at h
  split_ifs at h
  split at h
  · rename_i exc' hscan
    exact Except.error.inj h ▸ (scan_fault _).1 _ _ _ hscan
  · cases h
  · cases h

theorem scanOnceWithin_brackets (left n fuel : Nat) :
    scanOnceWithin (F := F) (fuel + 2 * left + 1) left
      (List.replicate (left + n + 1) (ch '[')) = .error (recursionError "array") := by
  induction left with
  | zero =>
      rw [Nat.zero_add, List.replicate_succ, scanOnceWithin, if_neg (by decide),
        if_neg (by decide), if_pos rfl, if_pos rfl]
  | succ left ih =>
      have htail : skipSpace (List.replicate (left + n + 1) (ch '[')) =
          ch '[' :: List.replicate (left + n) (ch '[') := by
        rw [List.replicate_succ]
        exact skipSpace_cons (by decide) _
      rw [show left + 1 + n + 1 = (left + n + 1) + 1 by omega, List.replicate_succ,
        show fuel + 2 * (left + 1) + 1 = (fuel + 2 * left + 1) + 1 + 1 by omega,
        scanOnceWithin, if_neg (by decide), if_neg (by decide), if_pos rfl,
        if_neg (Nat.succ_ne_zero left), htail]
      simp only
      rw [if_neg (by decide), Nat.add_sub_cancel, ← List.replicate_succ, scanItemsWithin, ih]
      rfl

/-- Opening brackets alone, one of them too many. -/
theorem tryLoads_brackets [Interpreter] {n : Nat} (hn : Interpreter.nesting < n) :
    tryLoads (F := F) (List.replicate n (ch '[')) = .error (recursionError "array") := by
  obtain ⟨k, rfl⟩ := Nat.exists_eq_add_of_lt hn
  have hmark : (List.replicate (Interpreter.nesting + k + 1) (ch '[')).head? ≠
      some byteOrderMark := by
    rw [List.replicate_succ, List.head?_cons]
    decide
  have hskip : skipSpace (List.replicate (Interpreter.nesting + k + 1) (ch '[')) =
      List.replicate (Interpreter.nesting + k + 1) (ch '[') := by
    rw [List.replicate_succ]
    exact skipSpace_cons (by decide) _
  rw [tryLoads, if_neg hmark, hskip, List.length_replicate,
    show 2 * (Interpreter.nesting + k + 1) + 1 =
      (2 * k + 2) + 2 * Interpreter.nesting + 1 by ring, scanOnceWithin_brackets]

/-! ### A list of strings -/

/-- What `json.loads` makes of a string that `json.dumps` has printed: a high surrogate
and a low one behind it come back as one character. -/
def Str.rejoin (s : Str) : Str := joinUnits (s.flatMap (charUnits true))

theorem Str.rejoin_of_joined {s : Str} (hs : s.joined = true) : s.rejoin = s :=
  joinUnits_flatMap true s fun _ => hs

theorem lt_of_shortForm {c : CodePoint} (h : (shortForm c).isSome = true) : c.val < 0x7f := by
  unfold shortForm at h
  split_ifs at h with hquote hslash hn hr ht hf hb
  · rw [hquote]
    decide
  · rw [hslash]
    decide
  · rw [hn]
    decide
  · rw [hr]
    decide
  · rw [ht]
    decide
  · omega
  · omega
  · cases h

theorem charUnits_sound (c : CodePoint) : ∀ u ∈ charUnits true c, u.Sound := by
  have hhigh := highHalf_lt c
  have hascii : c.val < 0x7f → isSurrogate c = false := by
    intro hlt
    simp only [isSurrogate, Bool.and_eq_false_iff, decide_eq_false_iff_not]
    omega
  intro u hu
  unfold charUnits at hu
  split_ifs at hu with hshort hescape hbasic
  · obtain rfl := List.mem_singleton.mp hu
    exact hascii (lt_of_shortForm hshort)
  · obtain rfl := List.mem_singleton.mp hu
    exact hbasic
  · simp only [List.mem_cons, List.not_mem_nil, or_false] at hu
    rcases hu with rfl | rfl
    · exact hhigh.trans (by decide)
    · exact lowHalf_lt c
  · obtain rfl := List.mem_singleton.mp hu
    simp only [Bool.true_and, Bool.or_eq_true, decide_eq_true_eq] at hescape
    exact hascii (by omega)

theorem Str.joined_rejoin (s : Str) : s.rejoin.joined = true := by
  refine joinUnits_joined fun u hu => ?_
  obtain ⟨c, _, hc⟩ := List.mem_flatMap.mp hu
  exact charUnits_sound c u hc

theorem scanOnceWithin_string (fuel left : Nat) (s r : Str) :
    scanOnceWithin (F := F) (fuel + 1) left (quoted true s ++ r) =
      .ok (some (.str s.rejoin, r)) := by
  simp [scanOnceWithin, quoted, scanString, scanUnits_quoted, Str.rejoin]

/-- The items of a printed list of strings, whatever may still be followed. -/
theorem scanItemsWithin_strings (left : Nat) (s : Str) (texts : List Str) (r : Str)
    {fuel : Nat} (hfuel : texts.length + 2 ≤ fuel) :
    scanItemsWithin (F := F) fuel left
        (quoted true s ++ (texts.flatMap (fun s => Str.ofString ", " ++ quoted true s) ++
          ch ']' :: r)) =
      .ok (some ((s :: texts).map fun s => .str s.rejoin, r)) := by
  induction texts generalizing s fuel with
  | nil =>
      obtain ⟨fuel, rfl⟩ := Nat.exists_eq_add_of_le' hfuel
      have hend : skipSpace (ch ']' :: r) = ch ']' :: r := skipSpace_cons (by decide) r
      simp [scanItemsWithin, scanOnceWithin_string, hend]
  | cons s' texts ih =>
      rw [List.length_cons] at hfuel
      obtain ⟨fuel, rfl⟩ := Nat.exists_eq_add_of_le' (show 2 ≤ fuel by omega)
      have hle : texts.length + 2 ≤ fuel + 1 := by omega
      have hrest := ih s' hle
      generalize hitems : quoted true s' ++ (texts.flatMap (fun s => Str.ofString ", " ++
        quoted true s) ++ ch ']' :: r) = items at hrest
      have hsep : Str.ofString ", " = [ch ',', ch ' '] := rfl
      have hhead : skipSpace (ch ' ' :: items) = items := by
        rw [← hitems, quoted, List.cons_append, List.cons_append]
        exact (skipSpace_append (w := [ch ' ']) (by simp [isJsonSpace]) _).trans
          (skipSpace_cons (by decide) _)
      have hcomma : skipSpace (ch ',' :: ch ' ' :: items) = ch ',' :: ch ' ' :: items :=
        skipSpace_cons (by decide) _
      have htext : (s' :: texts).flatMap (fun s => Str.ofString ", " ++ quoted true s) ++
          ch ']' :: r = ch ',' :: ch ' ' :: items := by
        rw [← hitems, List.flatMap_cons, hsep]
        simp only [List.append_assoc, List.cons_append, List.nil_append]
      rw [htext, scanItemsWithin, scanOnceWithin_string]
      simp only [hcomma, hhead, hrest]
      simp [Except.map]

theorem scanOnceWithin_items {fuel left : Nat} (hleft : left ≠ 0) {rest r : Str}
    {xs : List (Json F)}
    (h : scanItemsWithin fuel (left - 1) (ch '"' :: rest) = .ok (some (xs, r))) :
    scanOnceWithin (fuel + 1) left (ch '[' :: ch '"' :: rest) = .ok (some (.arr xs, r)) := by
  have hhead : skipSpace (ch '"' :: rest) = ch '"' :: rest := skipSpace_cons (by decide) rest
  rw [scanOnceWithin, if_neg (by decide), if_neg (by decide), if_pos rfl, if_neg hleft, hhead]
  simp only
  rw [if_neg (by decide), h]
  rfl

omit [PyFloat F] in
/-- A list is no longer than its printed text. -/
theorem length_le_flatMap {α β : Type} {f : α → List β} (hf : ∀ a, f a ≠ []) (l : List α) :
    l.length ≤ (l.flatMap f).length := by
  have hsum := List.length_le_sum_of_one_le (l.map fun a => (f a).length) fun n hn => by
    obtain ⟨a, _, rfl⟩ := List.mem_map.mp hn
    exact List.length_pos_iff.mpr (hf a)
  rwa [List.length_map, ← List.length_flatMap] at hsum

/-- A printed list of strings meets no limit: it is one bracket deep. -/
theorem tryLoads_dumps_strings [Interpreter] (texts : List Str) :
    tryLoads (F := F) (dumps {} (.arr (texts.map (Json.str (F := F))))) =
      .ok (some (.arr (texts.map fun s => .str s.rejoin))) := by
  have hpos : Interpreter.nesting ≠ 0 := by
    have := Interpreter.nesting_ge
    omega
  rw [dumps, if_neg (by decide)]
  cases texts with
  | nil =>
      have htext : Json.render {} (.arr ([] : List (Json F))) = [ch '[', ch ']'] := rfl
      have hclose : skipSpace [ch ']'] = [ch ']'] := skipSpace_cons (by decide) []
      have hopen : skipSpace [ch '[', ch ']'] = [ch '[', ch ']'] :=
        skipSpace_cons (by decide) _
      rw [List.map_nil, htext, tryLoads, if_neg (by decide), hopen]
      simp only [List.length_cons, List.length_nil]
      rw [scanOnceWithin]
      simp only [hclose, hpos, if_false]
      rfl
  | cons s texts =>
      have htext : Json.render {} (.arr ((s :: texts).map (Json.str (F := F)))) =
          ch '[' :: (quoted true s ++ (texts.flatMap (fun s => Str.ofString ", " ++
            quoted true s) ++ [ch ']'])) := by
        rw [List.map_cons, Json.render, renderItems_strings, Json.render]
      generalize hitems : quoted true s ++ (texts.flatMap (fun s => Str.ofString ", " ++
        quoted true s) ++ [ch ']']) = items at htext
      have hfuel : texts.length + 2 ≤ 2 * (ch '[' :: items).length := by
        have hle := length_le_flatMap (f := fun s => Str.ofString ", " ++ quoted true s)
          (fun s => by simp [quoted]) texts
        rw [← hitems]
        simp only [List.length_cons, List.length_append, List.length_nil]
        omega
      have hscan := scanItemsWithin_strings (F := F) (Interpreter.nesting - 1) s texts [] hfuel
      obtain ⟨rest, rfl⟩ : ∃ rest, items = ch '"' :: rest := ⟨_, hitems.symm⟩
      rw [hitems] at hscan
      have hopen : skipSpace (ch '[' :: ch '"' :: rest) = ch '[' :: ch '"' :: rest :=
        skipSpace_cons (by decide) _
      have hmark : (ch '[' :: ch '"' :: rest).head? ≠ some byteOrderMark := by
        rw [List.head?_cons]
        decide
      rw [htext, tryLoads, if_neg hmark, hopen, scanOnceWithin_items hpos hscan]
      rfl

/-! ### Short texts -/

omit [PyFloat F] in
theorem ofDigits_lt (ds : List Digit) : ofDigits ds < 10 ^ ds.length := by
  induction ds using List.reverseRecOn with
  | nil => decide
  | append_singleton ds d ih =>
      have hd := d.isLt
      rw [ofDigits_append, List.length_append, List.length_singleton, pow_succ]
      omega

theorem length_natDigits_le {n k : Nat} (hk : 0 < k) (hn : n < 10 ^ k) :
    (natDigits n).length ≤ k := by
  unfold natDigits
  split
  · exact hk
  · rw [List.length_map, List.length_reverse]
    exact (Nat.digits_length_le_iff (by decide) n).mpr hn

theorem length_spanDigits_le (s : Str) : (spanDigits s).1.length ≤ s.length := by
  induction s with
  | nil => rfl
  | cons c s ih =>
      rw [spanDigits]
      split
      · simpa using ih
      · simp

/-- A number has no more digits than its text is long. -/
theorem scanWhole_digits {s r : Str} {n : Nat} (h : scanWhole s = some (n, r)) :
    (natDigits n).length ≤ s.length := by
  cases s with
  | nil => cases h
  | cons c rest =>
      simp only [scanWhole] at h
      split_ifs at h with hzero
      · obtain ⟨rfl, rfl⟩ := Prod.mk.inj (Option.some.inj h)
        exact length_natDigits_le (by simp) (by positivity)
      · have hle := length_spanDigits_le (c :: rest)
        split at h
        · cases h
        · rename_i ds rest' _ hspan
          obtain ⟨rfl, rfl⟩ := Prod.mk.inj (Option.some.inj h)
          rw [hspan] at hle
          exact length_natDigits_le (by simp)
            ((ofDigits_lt ds).trans_le (Nat.pow_le_pow_right (by decide) hle))

theorem scanUnsigned_digits {neg : Bool} {s r : Str} {i : Int}
    (h : scanUnsigned (F := F) neg s = some (.int i, r)) :
    (natDigits i.natAbs).length ≤ s.length := by
  simp only [scanUnsigned, Option.bind_eq_bind, Option.bind_eq_some_iff] at h
  obtain ⟨⟨n, s'⟩, hwhole, h⟩ := h
  split at h
  · cases h
  · obtain ⟨hi, rfl⟩ := Prod.mk.inj (Option.some.inj h)
    obtain rfl := Json.int.inj hi
    have hdigits := scanWhole_digits hwhole
    rcases neg with _ | _
    · simpa using hdigits
    · simpa using hdigits

theorem scanNumber_digits {s r : Str} {i : Int}
    (h : scanNumber (F := F) s = some (.int i, r)) : (natDigits i.natAbs).length ≤ s.length := by
  cases s with
  | nil => cases h
  | cons c rest =>
      simp only [scanNumber] at h
      split_ifs at h with hminus
      · exact (scanUnsigned_digits h).trans (Nat.le_succ _)
      · exact scanUnsigned_digits h

theorem scanConstant_ne_int {s r : Str} {i : Int} :
    scanConstant (F := F) s ≠ some (.int i, r) := by
  intro h
  obtain ⟨word, hword, hread⟩ := List.exists_of_findSome?_eq_some h
  obtain ⟨rest, _, hvalue⟩ := Option.map_eq_some_iff.mp hread
  have hint : word.2 = .int i := congrArg Prod.fst hvalue
  simp only [constants, List.mem_cons, List.not_mem_nil, or_false] at hword
  rcases hword with rfl | rfl | rfl | rfl | rfl | rfl <;> cases hint

theorem withinDigits_leaf {s : Str} (hs : s.length ≤ 4300) :
    ((scanConstant (F := F) s).or (scanNumber s)).bind withinDigits =
      (scanConstant s).or (scanNumber s) := by
  rcases hleaf : (scanConstant (F := F) s).or (scanNumber s) with _ | ⟨j, r⟩
  · rfl
  · cases j with
    | int i =>
        have hdigits : (natDigits i.natAbs).length ≤ 4300 := by
          rcases Option.or_eq_some_iff.mp hleaf with h | ⟨-, h⟩
          · exact absurd h scanConstant_ne_int
          · exact (scanNumber_digits h).trans hs
        exact if_pos hdigits
    | null | bool | float | str | arr | obj => rfl

variable (F) in
/-- Where the text is too short for a limit, the scanner is the one without limits. -/
def OnceShort (fuel : Nat) : Prop :=
  ∀ s left, s.length ≤ left → s.length ≤ 4300 →
    scanOnceWithin (F := F) fuel left s = .ok (scanOnce fuel s)

variable (F) in
def ItemsShort (fuel : Nat) : Prop :=
  ∀ s left, s.length ≤ left → s.length ≤ 4300 →
    scanItemsWithin (F := F) fuel left s = .ok (scanItems fuel s)

variable (F) in
def MembersShort (fuel : Nat) : Prop :=
  ∀ s left, s.length ≤ left → s.length ≤ 4300 →
    scanMembersWithin (F := F) fuel left s = .ok (scanMembers fuel s)

theorem onceShort_succ {fuel : Nat} (hitems : ItemsShort F fuel)
    (hmembers : MembersShort F fuel) : OnceShort F (fuel + 1) := by
  intro s left hleft hdigits
  cases s with
  | nil => rfl
  | cons c rest =>
      rw [List.length_cons] at hleft
      have hpos : left ≠ 0 := by omega
      have hlen := skipSpace_length_le rest
      simp only [scanOnceWithin, scanOnce, hpos, if_false, withinDigits_leaf hdigits]
      rw [List.length_cons] at hdigits
      cases hskip : skipSpace rest with
      | nil => split_ifs <;> rfl
      | cons d after =>
          rw [hskip] at hlen
          simp only [hitems (d :: after) (left - 1) (by omega) (by omega),
            hmembers (d :: after) (left - 1) (by omega) (by omega)]
          split_ifs <;> rfl

theorem itemsShort_succ {fuel : Nat} (honce : OnceShort F fuel)
    (hitems : ItemsShort F fuel) : ItemsShort F (fuel + 1) := by
  intro s left hleft hdigits
  simp only [scanItemsWithin, scanItems, honce s left hleft hdigits]
  rcases hvalue : scanOnce (F := F) fuel s with _ | ⟨value, s'⟩
  · rfl
  · have hlt := ((scan_spec fuel).1 _ _ _ hvalue).1.length_lt
    have hlen := skipSpace_length_le s'
    cases hskip : skipSpace s' with
    | nil => simp only [hskip]
    | cons c rest =>
        rw [hskip, List.length_cons] at hlen
        have hlen' := skipSpace_length_le rest
        simp only [hskip, hitems (skipSpace rest) left (by omega) (by omega)]
        split_ifs <;> rfl

theorem membersShort_succ {fuel : Nat} (honce : OnceShort F fuel)
    (hmembers : MembersShort F fuel) : MembersShort F (fuel + 1) := by
  intro s left hleft hdigits
  cases s with
  | nil => rfl
  | cons q s =>
      rw [List.length_cons] at hleft hdigits
      simp only [scanMembersWithin, scanMembers]
      split_ifs
      · rfl
      · rcases hkey : scanString s with _ | ⟨key, s₁⟩
        · rfl
        · have hlt₁ := (scanString_leaves hkey).1.length_lt
          have hlen₁ := skipSpace_length_le s₁
          cases hskip₁ : skipSpace s₁ with
          | nil => simp only [hskip₁]
          | cons c₁ s₂ =>
              rw [hskip₁, List.length_cons] at hlen₁
              have hlen₂ := skipSpace_length_le s₂
              simp only [hskip₁, honce (skipSpace s₂) left (by omega) (by omega)]
              split_ifs
              · rfl
              · rcases hvalue : scanOnce (F := F) fuel (skipSpace s₂) with _ | ⟨value, s₃⟩
                · rfl
                · have hlt₃ := ((scan_spec fuel).1 _ _ _ hvalue).1.length_lt
                  have hlen₃ := skipSpace_length_le s₃
                  cases hskip₃ : skipSpace s₃ with
                  | nil => simp only [hskip₃]
                  | cons c₃ rest =>
                      rw [hskip₃, List.length_cons] at hlen₃
                      have hlen' := skipSpace_length_le rest
                      simp only [hskip₃, hmembers (skipSpace rest) left (by omega) (by omega)]
                      split_ifs <;> rfl

theorem scan_short (fuel : Nat) :
    OnceShort F fuel ∧ ItemsShort F fuel ∧ MembersShort F fuel := by
  induction fuel with
  | zero => exact ⟨fun _ _ _ _ => rfl, fun _ _ _ _ => rfl, fun _ _ _ _ => rfl⟩
  | succ fuel ih =>
      obtain ⟨honce, hitems, hmembers⟩ := ih
      exact ⟨onceShort_succ hitems hmembers, itemsShort_succ honce hitems,
        membersShort_succ honce hmembers⟩

/-- No text of at most 4096 characters meets a limit. -/
theorem tryLoads_short [Interpreter] {s : Str} (hs : s.length ≤ 4096) :
    tryLoads (F := F) s = .ok (loads s) := by
  have hnesting := Interpreter.nesting_ge
  have hlen := skipSpace_length_le s
  unfold tryLoads loads
  rw [(scan_short _).1 (skipSpace s) Interpreter.nesting (by omega) (by omega)]
  split_ifs
  · rfl
  · rcases scanOnce (F := F) (2 * s.length + 1) (skipSpace s) with _ | p
    · rfl
    · rfl

end Py
