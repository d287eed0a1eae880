/-
`json.dumps` with `indent`: every item and every member stands on a line of its
own, behind spaces for the level it is at.  `json.loads` reads the value back.
-/
import NetplexSupport.Json.Ascii

namespace Py

variable {F : Type} [PyFloat F]

/-- A line break and the spaces of a level. -/
def newline (indent level : Nat) : Str := ch '\n' :: List.replicate (indent * level) (ch ' ')

mutual
/-- The text of a value at a level. -/
def Json.pretty (indent level : Nat) : Json F → Str
  | .arr [] => "[]"
  | .arr (x :: xs) =>
      ch '[' :: (newline indent (level + 1) ++ Json.pretty indent (level + 1) x ++
        Json.prettyItems indent level xs)
  | .obj [] => "\x7b\x7d"
  | .obj ((k, v) :: ms) =>
      ch '{' :: (newline indent (level + 1) ++ (quoted true k ++ ": " ++
        Json.pretty indent (level + 1) v ++ Json.prettyMembers indent level ms))
  | .null => "null"
  | .bool true => "true"
  | .bool false => "false"
  | .int i => intText i
  | .float x => (PyFloat.view x).jsonText
  | .str s => quoted true s

/-- The rest of an array after an item. -/
def Json.prettyItems (indent level : Nat) : List (Json F) → Str
  | [] => newline indent level ++ [ch ']']
  | x :: xs =>
      ch ',' :: newline indent (level + 1) ++ Json.pretty indent (level + 1) x ++
        Json.prettyItems indent level xs

/-- The rest of an object after a member. -/
def Json.prettyMembers (indent level : Nat) : List (Str × Json F) → Str
  | [] => newline indent level ++ [ch '}']
  | (k, v) :: ms =>
      ch ',' :: newline indent (level + 1) ++ quoted true k ++ ": " ++
        Json.pretty indent (level + 1) v ++ Json.prettyMembers indent level ms
end

/-- `json.dumps(value, indent=…)`. -/
def dumpsIndent (indent : Nat) (j : Json F) : Str := j.pretty indent 0

/-! ### Reading it back -/

omit [PyFloat F] in
theorem newline_space (indent level : Nat) :
    ∀ c ∈ newline indent level, isJsonSpace c = true := by
  have hspace : isJsonSpace (ch '\n') = true ∧ isJsonSpace (ch ' ') = true := by decide
  rw [newline, List.forall_mem_cons]
  refine ⟨hspace.1, fun c hc => ?_⟩
  obtain rfl := List.eq_of_mem_replicate hc
  exact hspace.2

theorem prettyItems_eq_tail (indent level : Nat) (xs : List (Json F)) :
    Json.prettyItems indent level xs =
      itemsTail (Json.pretty indent (level + 1)) (ch ',' :: newline indent (level + 1))
        (newline indent level) xs := by
  induction xs with
  | nil => rw [Json.prettyItems, itemsTail]
  | cons x xs ih => rw [Json.prettyItems, itemsTail, ih]

theorem prettyMembers_eq_tail (indent level : Nat) (ms : Members F) :
    Json.prettyMembers indent level ms =
      membersTail true (Json.pretty indent (level + 1)) (ch ',' :: newline indent (level + 1))
        ": " (newline indent level) ms := by
  induction ms with
  | nil => rw [Json.prettyMembers, membersTail]
  | cons m ms ih => rw [Json.prettyMembers, membersTail, ih]

omit [PyFloat F] in
/-- The separators that `json.dumps` has without `indent`. -/
theorem DumpOpts.lawful_default {o : DumpOpts} (hitem : o.itemSep = Str.ofString ", ")
    (hkey : o.keySep = Str.ofString ": ") : o.Lawful := by
  have hspace : ∀ d ∈ [ch ' '], isJsonSpace d = true := by simp [isJsonSpace]
  exact ⟨⟨_, hitem, hspace⟩, ⟨_, hkey, hspace⟩⟩

/-- A value without items and members is written as without `indent`. -/
theorem pretty_scalar (indent level : Nat) {j : Json F} (harr : ∀ xs, j ≠ .arr xs)
    (hobj : ∀ ms, j ≠ .obj ms) : j.pretty indent level = j.render {} := by
  cases j with
  | bool b => cases b <;> rw [Json.pretty, Json.render]
  | arr xs => exact absurd rfl (harr xs)
  | obj ms => exact absurd rfl (hobj ms)
  | _ => rw [Json.pretty, Json.render]

theorem pretty_head (indent level : Nat) (j : Json F) : TokenHead (j.pretty indent level) := by
  cases j with
  | arr xs =>
      cases xs with
      | nil => exact ⟨ch '[', [ch ']'], by rw [Json.pretty]; rfl, by decide⟩
      | cons x xs => exact ⟨ch '[', _, by rw [Json.pretty], by decide⟩
  | obj ms =>
      cases ms with
      | nil => exact ⟨ch '{', [ch '}'], by rw [Json.pretty]; rfl, by decide⟩
      | cons m ms => exact ⟨ch '{', _, by rw [Json.pretty], by decide⟩
  | _ =>
      rw [pretty_scalar indent level (by simp) (by simp)]
      exact render_head _ _

theorem reads_pretty (indent : Nat) (j : Json F) :
    ∀ level, j.Keyed → j.Strings Str.joined → ReadsAs (j.pretty indent level) j := by
  have hspace : ∀ d ∈ [ch ' '], isJsonSpace d = true := by simp [isJsonSpace]
  have hscalar : ∀ j : Json F, (∀ xs, j ≠ .arr xs) → (∀ ms, j ≠ .obj ms) →
      ∀ level, j.Keyed → j.Strings Str.joined → ReadsAs (j.pretty indent level) j := by
    intro j harr hobj level hkeyed hstr
    rw [pretty_scalar indent level harr hobj]
    exact reads_of_keyed (DumpOpts.lawful_default rfl rfl) j hkeyed
      (by simpa [DumpOpts.Readable] using hstr)
  have hcomma : ∀ level, Marks (ch ',') (ch ',' :: newline indent level) := fun level =>
    ⟨_, rfl, newline_space indent level⟩
  have hcolon : Marks (ch ':') ": " := ⟨_, rfl, hspace⟩
  induction j using Json.induct with
  | null => exact hscalar _ (by simp) (by simp)
  | bool b => exact hscalar _ (by simp) (by simp)
  | int i => exact hscalar _ (by simp) (by simp)
  | float x => exact hscalar _ (by simp) (by simp)
  | str s => exact hscalar _ (by simp) (by simp)
  | arr xs ih =>
      intro level hkeyed hstr fuel r hfuel _
      obtain ⟨n, rfl⟩ := Nat.exists_eq_add_one_of_ne_zero (n := fuel) (by omega)
      rw [Json.keyed_arr] at hkeyed
      rw [Json.strings_arr] at hstr
      cases xs with
      | nil => simp [Json.pretty, Str.ofString, scanOnce, skipSpace, isJsonSpace]
      | cons x xs =>
          rw [Json.pretty, prettyItems_eq_tail] at hfuel ⊢
          have hitems := scanItems_tail (Json.pretty indent (level + 1)) (hcomma (level + 1))
            (newline_space indent level) x xs
            (fun y hy => ih y hy (level + 1) (hkeyed y hy) (hstr y hy))
            (fun y _ => pretty_head indent (level + 1) y) n r (by simp at hfuel ⊢; omega)
          obtain ⟨c, rest, hc, hspace, hclose, -⟩ := pretty_head indent (level + 1) x
          simp only [List.cons_append, List.append_assoc] at hitems ⊢
          rw [hc] at hitems ⊢
          rw [List.cons_append] at hitems ⊢
          simp [scanOnce, skipSpace_append (newline_space indent _), skipSpace_cons hspace,
            hclose, hitems]
  | obj ms ih =>
      intro level hkeyed hstr fuel r hfuel _
      obtain ⟨n, rfl⟩ := Nat.exists_eq_add_one_of_ne_zero (n := fuel) (by omega)
      rw [Json.keyed_obj] at hkeyed
      rw [Json.strings_obj] at hstr
      cases ms with
      | nil => simp [Json.pretty, Str.ofString, scanOnce, skipSpace, isJsonSpace]
      | cons m ms =>
          rw [Json.pretty, prettyMembers_eq_tail] at hfuel ⊢
          have hmembers := scanMembers_tail true (Json.pretty indent (level + 1))
            (hcomma (level + 1)) hcolon (newline_space indent level) m ms
            (fun k hk => ih k hk (level + 1) (hkeyed.2 k hk) (hstr.2 k hk))
            (fun k _ => pretty_head indent (level + 1) k.2)
            (fun k hk _ => hstr.1 k hk) n r (by simp at hfuel ⊢; omega)
          simp only [quoted, List.cons_append, List.append_assoc, List.nil_append]
            at hmembers ⊢
          simp [scanOnce, skipSpace_append (newline_space indent _),
            skipSpace_cons (c := ch '"') (by decide), hmembers, dictOf_eq_self _ hkeyed.1]

/-- What holds of printable characters, line breaks and spaces holds of the text. -/
theorem pretty_forall {p : CodePoint → Prop} (hp : ∀ c, 32 ≤ c.val → c.val < 127 → p c)
    (hnewline : p (ch '\n')) (indent : Nat) (j : Json F) :
    ∀ level, ∀ c ∈ j.pretty indent level, p c := by
  have hprintable : ∀ {s : Str}, Str.Printable s → ∀ c ∈ s, p c := fun hs c hc =>
    hp c (hs c hc).1 (hs c hc).2
  have hmark : ∀ c ∈ [ch ' ', ch ',', ch '[', ch '{'], p c :=
    hprintable (of_decide_eq_true rfl)
  simp only [List.forall_mem_cons] at hmark
  obtain ⟨hspace, hcomma, hopen, hopenObj, -⟩ := hmark
  have hline : ∀ level, ∀ c ∈ newline indent level, p c := by
    intro level
    rw [newline, List.forall_mem_cons]
    exact ⟨hnewline, fun c hc => List.eq_of_mem_replicate hc ▸ hspace⟩
  have hsep : ∀ level, ∀ c ∈ ch ',' :: newline indent level, p c := fun level =>
    List.forall_mem_cons.mpr ⟨hcomma, hline level⟩
  have hscalar : ∀ j : Json F, (∀ xs, j ≠ .arr xs) → (∀ ms, j ≠ .obj ms) →
      ∀ level, ∀ c ∈ j.pretty indent level, p c := by
    intro j harr hobj level
    rw [pretty_scalar indent level harr hobj]
    exact render_forall (fun c hle hlt => hp c hle (hlt rfl))
      (hprintable (of_decide_eq_true rfl)) (hprintable (of_decide_eq_true rfl)) j
  induction j using Json.induct with
  | null => exact hscalar _ (by simp) (by simp)
  | bool b => exact hscalar _ (by simp) (by simp)
  | int i => exact hscalar _ (by simp) (by simp)
  | float x => exact hscalar _ (by simp) (by simp)
  | str s => exact hscalar _ (by simp) (by simp)
  | arr xs ih =>
      intro level
      cases xs with
      | nil =>
          rw [Json.pretty]
          exact hprintable (of_decide_eq_true rfl)
      | cons x xs =>
          obtain ⟨hx, hxs⟩ := List.forall_mem_cons.mp ih
          simp only [Json.pretty, prettyItems_eq_tail, List.forall_mem_cons,
            List.forall_mem_append]
          exact ⟨hopen, ⟨hline _, hx _⟩,
            itemsTail_forall hp (hsep _) (hline _) fun y hy => hxs y hy _⟩
  | obj ms ih =>
      intro level
      cases ms with
      | nil =>
          rw [Json.pretty]
          exact hprintable (of_decide_eq_true rfl)
      | cons m ms =>
          obtain ⟨hm, hms⟩ := List.forall_mem_cons.mp ih
          simp only [Json.pretty, prettyMembers_eq_tail, List.forall_mem_cons,
            List.forall_mem_append]
          exact ⟨hopenObj, hline _, ⟨⟨hprintable (printable_quoted m.1),
            hprintable (of_decide_eq_true rfl)⟩, hm _⟩,
            membersTail_forall (fun c hle hlt => hp c hle (hlt rfl)) (hsep _)
              (hprintable (of_decide_eq_true rfl)) (hline _) fun k hk => hms k hk _⟩

theorem ascii_dumpsIndent (indent : Nat) (j : Json F) : Str.Ascii (dumpsIndent indent j) :=
  pretty_forall (fun _ _ hlt => by omega) (by rw [ch_val]; decide) indent j 0

/-- `json.loads` inverts `json.dumps` with `indent`. -/
theorem loads_dumpsIndent (indent : Nat) {j : Json F} (hkeyed : j.Keyed)
    (hstr : j.Strings Str.joined) : loads (dumpsIndent indent j) = some j := by
  have h := loads_of_reads (reads_pretty indent j 0 hkeyed hstr) (pretty_head indent 0 j)
    (w := []) (by simp)
  simpa [dumpsIndent] using h

end Py
