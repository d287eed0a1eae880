/-
`app/db.py`: the schema at startup.  `create_all` creates the declared tables
that are missing, and `_add_missing_columns` retrofits the columns listed by
hand onto tables that were already there.
-/
import NetplexSupport.Python.Dict
import Mathlib.Logic.Function.Basic

namespace NetplexSupport

open Py

/-! ### Declared tables -/

structure Column where
  name : Str
  nullable : Bool := false
  primaryKey : Bool := false
deriving DecidableEq

/-- `Base.metadata` once `app.models` is imported. -/
def metadata : List (Str × List Column) :=
  [("tickets",
      [{ name := "id", primaryKey := true }, { name := "kind" },
        { name := "fingerprint", nullable := true }, { name := "status" },
        { name := "severity" }, { name := "title" }, { name := "body" },
        { name := "occurrences" }, { name := "first_seen" }, { name := "last_seen" },
        { name := "source" }, { name := "reporter_tier" }, { name := "identified" },
        { name := "contact", nullable := true }, { name := "install_id", nullable := true },
        { name := "origin_local_id", nullable := true },
        { name := "license_id_hash", nullable := true },
        { name := "scope_path", nullable := true }, { name := "priority_score" },
        { name := "github_issue", nullable := true },
        { name := "fixed_in_version", nullable := true },
        { name := "attachments", nullable := true },
        { name := "diagnostic_json", nullable := true }, { name := "created_at" },
        { name := "updated_at" }]),
    ("release_manifests",
      [{ name := "id", primaryKey := true }, { name := "channel" }, { name := "version" },
        { name := "key_id" }, { name := "manifest_json" }, { name := "uploaded_at" }]),
    ("license_tokens",
      [{ name := "id", primaryKey := true }, { name := "customer_ref" },
        { name := "key_id" }, { name := "tier" }, { name := "expires_at", nullable := true },
        { name := "token_json" }, { name := "registered_at" }])]

/-- `_ADDITIVE_COLUMNS`: for each table, names and types. -/
def additiveColumns : List (Str × List (Str × Str)) :=
  [("tickets", [("attachments", "TEXT"), ("diagnostic_json", "TEXT")])]

/-! ### The database -/

/-- The columns of each table; `none` is a table that does not exist. -/
abbrev Schema := Str → Option (List Str)

/-- SQLAlchemy and the database behind it. -/
structure Ddl where
  /-- `Base.metadata.create_all`. -/
  createAll : List (Str × List Column) → Schema → Schema
  /-- `ALTER TABLE table ADD COLUMN name coltype`. -/
  addColumn : Str → Str → Str → Schema → Except Exc Schema

/-- `create_all` creates missing tables with all their columns and leaves
existing ones alone; adding a missing column succeeds, and adding an existing
one raises. -/
structure Ddl.Documented (E : Ddl) : Prop where
  create : ∀ declared schema table, E.createAll declared schema table =
    (schema table).or ((declared.lookup table).map fun columns => columns.map Column.name)
  add : ∀ table name coltype schema cols, schema table = some cols → name ∉ cols →
    E.addColumn table name coltype schema =
      .ok (Function.update schema table (some (cols ++ [name])))
  exists_raises : ∀ table name coltype schema cols, schema table = some cols → name ∈ cols →
    ∃ exc, E.addColumn table name coltype schema = .error exc

/-- One turn of the inner loop of `_add_missing_columns`: a column in `existing`
is skipped, and an exception is ignored. -/
def addMissingColumn (E : Ddl) (table : Str) (existing : List Str) (schema : Schema)
    (column : Str × Str) : Schema :=
  if column.1 ∈ existing then schema
  else
    match E.addColumn table column.1 column.2 schema with
    | .ok schema => schema
    | .error _ => schema

/-- `_add_missing_columns`; the names of the tables are read once, the columns
of a table when its turn comes. -/
def addMissingColumns (E : Ddl) (additive : List (Str × List (Str × Str)))
    (schema : Schema) : Schema :=
  additive.foldl (fun current t =>
    if (schema t.1).isNone then current
    else t.2.foldl (addMissingColumn E t.1 ((current t.1).getD [])) current) schema

/-- `init_db`. -/
def initDb (E : Ddl) (schema : Schema) : Schema :=
  addMissingColumns E additiveColumns (E.createAll metadata schema)

/-! ### What the loops add -/

/-- The table exists and has the column. -/
def Schema.Has (schema : Schema) (table name : Str) : Prop :=
  ∃ cols, schema table = some cols ∧ name ∈ cols

/-- The list has the column for the table. -/
def Lists (additive : List (Str × List (Str × Str))) (table name : Str) : Prop :=
  ∃ columns, (table, columns) ∈ additive ∧ name ∈ columns.map Prod.fst

/-- `s'` is `s` with the listed columns on the tables that exist. -/
structure Retrofits (s s' : Schema) (additive : List (Str × List (Str × Str))) : Prop where
  tables : ∀ table, (s' table).isNone = (s table).isNone
  has : ∀ table name, s'.Has table name ↔
    s.Has table name ∨ (s table).isNone = false ∧ Lists additive table name
  idle : (∀ table name, (s table).isNone = false → Lists additive table name →
    s.Has table name) → s' = s

theorem Schema.has_update {s : Schema} {table other name : Str} {cols : List Str} :
    Schema.Has (Function.update s table (some cols)) other name ↔
      if other = table then name ∈ cols else s.Has other name := by
  by_cases h : other = table
  · subst h
    simp [Schema.Has]
  · simp [Schema.Has, h]

section

variable {E : Ddl} (hE : E.Documented)

include hE

/-- Whether it is skipped or the database refuses it, a column that exists stays
as it is. -/
theorem addMissingColumn_eq {schema : Schema} {table : Str} {cols existing : List Str}
    (column : Str × Str) (hcols : schema table = some cols) (hexisting : existing ⊆ cols) :
    addMissingColumn E table existing schema column =
      if column.1 ∈ cols then schema
      else Function.update schema table (some (cols ++ [column.1])) := by
  unfold addMissingColumn
  by_cases hseen : column.1 ∈ existing
  · rw [if_pos hseen, if_pos (hexisting hseen)]
  · rw [if_neg hseen]
    by_cases hmem : column.1 ∈ cols
    · obtain ⟨exc, hexc⟩ := hE.exists_raises table column.1 column.2 schema cols hcols hmem
      rw [hexc, if_pos hmem]
    · rw [hE.add table column.1 column.2 schema cols hcols hmem, if_neg hmem]

/-- The inner loop rewrites one table. -/
theorem addColumns_eq {schema : Schema} {table : Str} {cols existing : List Str}
    (columns : List (Str × Str)) (hcols : schema table = some cols)
    (hexisting : existing ⊆ cols) :
    ∃ cols', columns.foldl (addMissingColumn E table existing) schema =
        Function.update schema table (some cols') ∧
      (∀ name, name ∈ cols' ↔ name ∈ cols ∨ name ∈ columns.map Prod.fst) ∧
      ((∀ name ∈ columns.map Prod.fst, name ∈ cols) → cols' = cols) := by
  induction columns generalizing schema cols with
  | nil => exact ⟨cols, by simp [← hcols], by simp, fun _ => rfl⟩
  | cons column columns ih =>
      rw [List.foldl_cons, addMissingColumn_eq hE column hcols hexisting]
      by_cases hmem : column.1 ∈ cols
      · rw [if_pos hmem]
        obtain ⟨cols', heq, hnames, hidle⟩ := ih hcols hexisting
        refine ⟨cols', heq, fun name => ?_, fun h => hidle fun name hname => ?_⟩
        · rw [hnames, List.map_cons, List.mem_cons]
          constructor
          · rintro (h | h)
            · exact Or.inl h
            · exact Or.inr (Or.inr h)
          · rintro (h | rfl | h)
            · exact Or.inl h
            · exact Or.inl hmem
            · exact Or.inr h
        · exact h name (List.mem_cons_of_mem _ hname)
      · rw [if_neg hmem]
        have hwritten : Function.update schema table (some (cols ++ [column.1])) table =
            some (cols ++ [column.1]) := Function.update_self _ _ _
        obtain ⟨cols', heq, hnames, _⟩ :=
          ih hwritten (List.subset_append_of_subset_left _ hexisting)
        refine ⟨cols', by rw [heq, Function.update_idem], fun name => ?_, fun h => ?_⟩
        · rw [hnames, List.mem_append, List.mem_singleton, List.map_cons, List.mem_cons, or_assoc]
        · exact absurd (h column.1 List.mem_cons_self) hmem

/-- One table of the list. -/
theorem retrofits_table {schema : Schema} {t : Str × List (Str × Str)}
    (hsome : (schema t.1).isNone = false) :
    Retrofits schema
      (t.2.foldl (addMissingColumn E t.1 ((schema t.1).getD [])) schema) [t] := by
  obtain ⟨cols, hcols⟩ := Option.isSome_iff_exists.mp (by simpa using hsome)
  obtain ⟨cols', heq, hnames, hidle⟩ :=
    addColumns_eq hE t.2 hcols (List.Subset.refl cols)
  rw [hcols, Option.getD_some, heq]
  have hlists : ∀ table name, Lists [t] table name ↔
      table = t.1 ∧ name ∈ t.2.map Prod.fst := by
    intro table name
    constructor
    · rintro ⟨columns, hmem, hname⟩
      obtain rfl := List.mem_singleton.mp hmem
      exact ⟨rfl, hname⟩
    · rintro ⟨rfl, hname⟩
      exact ⟨t.2, List.mem_singleton_self _, hname⟩
  constructor
  · intro table
    by_cases h : table = t.1
    · subst h
      simp [hcols]
    · rw [Function.update_of_ne h]
  · intro table name
    rw [Schema.has_update, hlists]
    by_cases h : table = t.1
    · subst h
      simp [hnames, Schema.Has, hcols]
    · simp [h]
  · intro h
    have hall : ∀ name ∈ t.2.map Prod.fst, name ∈ cols := by
      intro name hname
      obtain ⟨_, hsame, hin⟩ := h t.1 name hsome ((hlists t.1 name).mpr ⟨rfl, hname⟩)
      rw [hcols, Option.some_inj] at hsame
      exact hsame ▸ hin
    rw [hidle hall, ← hcols, Function.update_eq_self]

omit hE in
theorem Retrofits.cons {s s' s'' : Schema} {t : Str × List (Str × Str)}
    {additive : List (Str × List (Str × Str))} (h : Retrofits s s' [t])
    (h' : Retrofits s' s'' additive) : Retrofits s s'' (t :: additive) where
  tables := fun table => (h'.tables table).trans (h.tables table)
  has := by
    intro table name
    have hlists : Lists (t :: additive) table name ↔
        Lists [t] table name ∨ Lists additive table name := by
      simp only [Lists, List.mem_cons, List.not_mem_nil, or_false, or_and_right, exists_or]
    rw [h'.has, h.has, h.tables, hlists, and_or_left, or_assoc]
  idle := by
    intro hidle
    have hsame : s' = s := by
      apply h.idle
      rintro table name hsome ⟨columns, hmem, hname⟩
      obtain rfl := List.mem_singleton.mp hmem
      exact hidle table name hsome ⟨columns, List.mem_cons_self, hname⟩
    subst hsame
    apply h'.idle
    rintro table name hsome ⟨columns, hmem, hname⟩
    exact hidle table name hsome ⟨columns, List.mem_cons_of_mem t hmem, hname⟩

omit hE in
theorem retrofits_absent {schema : Schema} {t : Str × List (Str × Str)}
    (hnone : (schema t.1).isNone = true) : Retrofits schema schema [t] where
  tables := fun _ => rfl
  has := by
    intro table name
    refine ⟨Or.inl, fun h => h.resolve_right ?_⟩
    rintro ⟨hsome, columns, hmem, _⟩
    obtain rfl := List.mem_singleton.mp hmem
    rw [hnone] at hsome
    cases hsome
  idle := fun _ => rfl

/-- `_add_missing_columns` puts the listed columns on the tables that exist. -/
theorem retrofits_addMissingColumns (additive : List (Str × List (Str × Str)))
    (schema : Schema) : Retrofits schema (addMissingColumns E additive schema) additive := by
  have hfold : ∀ (additive : List (Str × List (Str × Str))) (current : Schema),
      (∀ table, (current table).isNone = (schema table).isNone) →
      Retrofits current (additive.foldl (fun current t =>
        if (schema t.1).isNone then current
        else t.2.foldl (addMissingColumn E t.1 ((current t.1).getD [])) current) current)
        additive := by
    intro additive
    induction additive with
    | nil =>
        intro current _
        exact ⟨fun _ => rfl, fun table name => by simp [Lists], fun _ => rfl⟩
    | cons t additive ih =>
        intro current htables
        rw [List.foldl_cons]
        rcases hnone : (schema t.1).isNone with _ | _
        · have hturn := retrofits_table hE ((htables t.1).trans hnone)
          exact hturn.cons (ih _ fun table => (hturn.tables table).trans (htables table))
        · exact (retrofits_absent ((htables t.1).trans hnone)).cons (ih current htables)
  exact hfold additive schema fun _ => rfl

end

/-! ### Startup -/

/-- What startup should leave behind: every declared table with every mapped
column, no column lost, and nothing left for a second run. -/
structure Completes (E : Ddl) (schema : Schema) : Prop where
  tables : ∀ table columns, (table, columns) ∈ metadata →
    (initDb E schema table).isNone = false
  columns : ∀ table columns, (table, columns) ∈ metadata →
    ∀ c ∈ columns, (initDb E schema).Has table c.name
  keeps : ∀ table name, schema.Has table name → (initDb E schema).Has table name
  again : initDb E (initDb E schema) = initDb E schema

/-- The declared tables have only columns their models declare, and lack only
nullable ones. -/
def Older (schema : Schema) : Prop :=
  ∀ table columns, (table, columns) ∈ metadata → ∀ cols, schema table = some cols →
    cols ⊆ columns.map Column.name ∧
      ∀ c ∈ columns, c.name ∉ cols → c.nullable = true ∧ c.primaryKey = false

theorem metadata_lookup {table : Str} {columns : List Column}
    (h : (table, columns) ∈ metadata) : metadata.lookup table = some columns :=
  (dictGet_eq_some_iff (by decide)).mpr h

section

variable {E : Ddl} (hE : E.Documented)

include hE

theorem createAll_present {schema : Schema} {table : Str}
    (hsome : (schema table).isNone = false) :
    E.createAll metadata schema table = schema table := by
  rw [hE.create]
  rcases hcols : schema table with _ | cols
  · rw [hcols] at hsome
    cases hsome
  · rfl

theorem createAll_absent {schema : Schema} {table : Str} {columns : List Column}
    (hnone : (schema table).isNone = true) (h : (table, columns) ∈ metadata) :
    E.createAll metadata schema table = some (columns.map Column.name) := by
  rw [hE.create, Option.isNone_iff_eq_none.mp hnone, metadata_lookup h]
  rfl

theorem initDb_has {schema : Schema} {table name : Str} :
    (initDb E schema).Has table name ↔ Schema.Has (E.createAll metadata schema) table name ∨
      (E.createAll metadata schema table).isNone = false ∧
        Lists additiveColumns table name :=
  (retrofits_addMissingColumns hE additiveColumns _).has table name

theorem createAll_has {schema : Schema} {table name : Str} (h : schema.Has table name) :
    Schema.Has (E.createAll metadata schema) table name := by
  obtain ⟨cols, hcols, hname⟩ := h
  refine ⟨cols, ?_, hname⟩
  rw [createAll_present hE (by rw [hcols]; rfl), hcols]

/-- A second start finds nothing to do. -/
theorem initDb_again (schema : Schema) : initDb E (initDb E schema) = initDb E schema := by
  have htables := (retrofits_addMissingColumns hE additiveColumns
    (E.createAll metadata schema)).tables
  have hcreate : E.createAll metadata (initDb E schema) = initDb E schema := by
    funext table
    rcases hsome : (initDb E schema table).isNone with _ | _
    · exact createAll_present hE hsome
    · have hcreated := (htables table).symm.trans hsome
      rw [hE.create, Option.isNone_iff_eq_none, Option.or_eq_none_iff] at hcreated
      rw [hE.create, hcreated.2, Option.or_none]
  rw [initDb, hcreate]
  apply (retrofits_addMissingColumns hE additiveColumns (initDb E schema)).idle
  intro table name hsome hlists
  exact (initDb_has hE).mpr (Or.inr ⟨(htables table).symm.trans hsome, hlists⟩)

/-- Startup completes the schema if and only if every column that a table which
already existed lacks is one of `_ADDITIVE_COLUMNS`. -/
theorem initDb_completes_iff (schema : Schema) :
    Completes E schema ↔ ∀ table columns, (table, columns) ∈ metadata →
      (schema table).isNone = false → ∀ c ∈ columns, ¬ schema.Has table c.name →
        Lists additiveColumns table c.name := by
  constructor
  · intro h table columns hmem hsome c hc hlacks
    have hcreated := createAll_present hE hsome
    rcases (initDb_has hE).mp (h.columns table columns hmem c hc) with hhas | ⟨_, hlists⟩
    · rw [Schema.Has, hcreated] at hhas
      exact absurd hhas hlacks
    · exact hlists
  · intro h
    have hcolumns : ∀ table columns, (table, columns) ∈ metadata →
        ∀ c ∈ columns, (initDb E schema).Has table c.name := by
      intro table columns hmem c hc
      rw [initDb_has hE]
      rcases hsome : (schema table).isNone with _ | _
      · by_cases hhas : schema.Has table c.name
        · exact Or.inl (createAll_has hE hhas)
        · rw [createAll_present hE hsome]
          exact Or.inr ⟨hsome, h table columns hmem hsome c hc hhas⟩
      · exact Or.inl ⟨_, createAll_absent hE hsome hmem, List.mem_map_of_mem hc⟩
    refine ⟨?_, hcolumns, fun table name hhas => (initDb_has hE).mpr
      (Or.inl (createAll_has hE hhas)), initDb_again hE schema⟩
    intro table columns hmem
    have htables := (retrofits_addMissingColumns hE additiveColumns
      (E.createAll metadata schema)).tables table
    rw [initDb, htables]
    rcases hsome : (schema table).isNone with _ | _
    · rw [createAll_present hE hsome, hsome]
    · rw [createAll_absent hE hsome hmem]
      rfl

end

/-- A database that does what is documented. -/
def plainDdl : Ddl where
  createAll declared schema table :=
    (schema table).or ((declared.lookup table).map fun columns => columns.map Column.name)
  addColumn table name _ schema :=
    match schema table with
    | none => .error ⟨.databaseError, "no such table"⟩
    | some cols =>
        if name ∈ cols then .error ⟨.databaseError, "duplicate column name"⟩
        else .ok (Function.update schema table (some (cols ++ [name])))

theorem plainDdl_documented : plainDdl.Documented where
  create := fun _ _ _ => rfl
  add := by
    intro table name coltype schema cols hcols hname
    simp [plainDdl, hcols, hname]
  exists_raises := by
    intro table name coltype schema cols hcols hname
    simp [plainDdl, hcols, hname]

/-- A database that has only the tickets, without some of their columns. -/
def ticketsWithout (missing : List Str) : Schema := fun table =>
  if table = Str.ofString "tickets" then
    (metadata.lookup table).map fun columns =>
      (columns.map Column.name).filter fun name => decide (name ∉ missing)
  else none

theorem ticketsWithout_eq {missing : List Str} {table : Str} {columns : List Column}
    (hmem : (table, columns) ∈ metadata)
    (hsome : (ticketsWithout missing table).isNone = false) :
    table = Str.ofString "tickets" ∧ ticketsWithout missing table =
      some ((columns.map Column.name).filter fun name => decide (name ∉ missing)) := by
  by_cases htable : table = Str.ofString "tickets"
  · subst htable
    rw [ticketsWithout, if_pos rfl, metadata_lookup hmem]
    exact ⟨rfl, rfl⟩
  · simp [ticketsWithout, htable] at hsome

theorem initDb_completes_iff_bundles :
    Completes plainDdl (ticketsWithout ["attachments", "diagnostic_json"]) := by
  apply (initDb_completes_iff plainDdl_documented _).mpr
  intro table columns hmem hsome c hc hlacks
  obtain ⟨rfl, hcols⟩ := ticketsWithout_eq hmem hsome
  refine ⟨_, List.mem_singleton_self _, ?_⟩
  by_contra hout
  apply hlacks
  refine ⟨_, hcols, List.mem_filter.mpr ⟨List.mem_map_of_mem hc, ?_⟩⟩
  rw [decide_eq_true_eq]
  exact hout

/-- The tickets of a release before `origin_local_id` never get it. -/
theorem initDb_incomplete_origin :
    Older (ticketsWithout ["origin_local_id"]) ∧
      ¬ Completes plainDdl (ticketsWithout ["origin_local_id"]) := by
  constructor
  · intro table columns hmem cols hcols
    obtain ⟨rfl, heq⟩ := @ticketsWithout_eq ["origin_local_id"] _ _ hmem
      (by rw [hcols]; rfl)
    obtain rfl := Option.some.inj (hcols.symm.trans heq)
    refine ⟨(List.filter_sublist).subset, fun c hc hlacks => ?_⟩
    have hnullable : ∀ t ∈ metadata, t.1 = Str.ofString "tickets" → ∀ c ∈ t.2,
        c.name = Str.ofString "origin_local_id" →
          c.nullable = true ∧ c.primaryKey = false := by decide
    apply hnullable _ hmem rfl c hc
    by_contra hname
    apply hlacks
    exact List.mem_filter.mpr ⟨List.mem_map_of_mem hc, by simpa using hname⟩
  · intro h
    obtain ⟨cols, hcols, hname⟩ := h.columns _ _ List.mem_cons_self
      { name := "origin_local_id", nullable := true } (by decide)
    have hlacks : (initDb plainDdl (ticketsWithout ["origin_local_id"])
        (Str.ofString "tickets")).all (fun cols =>
          decide (Str.ofString "origin_local_id" ∉ cols)) = true := by decide +kernel
    rw [hcols, Option.all_some, decide_eq_true_eq] at hlacks
    exact hlacks hname

end NetplexSupport
