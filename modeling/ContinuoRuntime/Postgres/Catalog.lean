/-
  The relations of one schema of a Postgres database.

  Tables and indexes share one namespace of names, and `IF NOT EXISTS` does
  nothing when any relation has the name.

  * `Catalog`: the relations; an index is on a table of the catalog;
  * `Catalog.createTable`, `Catalog.createIndex`: the statements;
  * `createIndexes_eq_ok`: what the index statements leave under a name;
  * `hasIndex_createIndexes_iff`: which declared indexes they leave.
-/
import ContinuoRuntime.Postgres.Indexes
import ContinuoRuntime.Contract.ColumnTypes

namespace ContinuoRuntime

/-! ## Relations -/

/-- A relation of a schema.  The columns of an index are those of its table, by
    their declared names. -/
inductive Relation where
  | table (columns : List Column) (primaryKey : List Str)
  | index (onTable : Str) (columns : List Str) (unique : Bool) (type : IndexType)
  /-- a view, a sequence -/
  | other
  deriving DecidableEq

/-- A relation is a table. -/
def Relation.IsTable : Relation → Prop
  | .table _ _ => True
  | .index _ _ _ _ | .other => False

/-- A relation may stand in a catalog with these relations: an index asks for its table. -/
def Relation.Grounded (relations : Dict Str Relation) : Relation → Prop
  | .index onTable _ _ _ => ∃ r, relations.get? onTable = some r ∧ r.IsTable
  | .table _ _ | .other => True

theorem Relation.isTable_table (columns : List Column) (primaryKey : List Str) :
    (Relation.table columns primaryKey).IsTable := trivial

theorem Relation.grounded_table (relations : Dict Str Relation) (columns : List Column)
    (primaryKey : List Str) : (Relation.table columns primaryKey).Grounded relations := trivial

theorem Relation.grounded_index {relations : Dict Str Relation} {onTable : Str} {columns : List Column}
    {primaryKey : List Str} (h : relations.get? onTable = some (.table columns primaryKey))
    (indexed : List Str) (unique : Bool) (type : IndexType) :
    (Relation.index onTable indexed unique type).Grounded relations :=
  ⟨_, h, Relation.isTable_table _ _⟩

/-- The relations of one schema, by name. -/
structure Catalog where
  relations : Dict Str Relation
  grounded : ∀ name r, relations.get? name = some r → r.Grounded relations

namespace Catalog

/-- No relation at all. -/
def empty : Catalog := ⟨Dict.empty, fun _ _ h => by cases h⟩

def get? (s : Catalog) (name : Str) : Option Relation := s.relations.get? name

/-- A table of this name is in the schema. -/
def HasTable (s : Catalog) (name : Str) : Prop := ∃ r, s.get? name = some r ∧ r.IsTable

/-- One relation more, under a free name. -/
def add (s : Catalog) (name : Str) (r : Relation) (free : s.get? name = none)
    (hr : r.Grounded s.relations) : Catalog where
  relations := s.relations.set name r
  grounded := by
    have hkeep : ∀ old : Relation, old.Grounded s.relations →
        old.Grounded (s.relations.set name r) := by
      intro old hold
      cases old with
      | index onTable columns unique type =>
        obtain ⟨t, ht, htable⟩ := hold
        refine ⟨t, ?_, htable⟩
        have hne : onTable ≠ name := by
          rintro rfl
          rw [get?, ht] at free
          cases free
        rw [Dict.get?_set, if_neg hne]
        exact ht
      | table columns primaryKey => trivial
      | other => trivial
    intro name' r' h
    rw [Dict.get?_set] at h
    split_ifs at h
    · cases h
      exact hkeep r hr
    · exact hkeep r' (s.grounded name' r' h)

theorem get?_add {s : Catalog} {name : Str} {r : Relation} {free : s.get? name = none}
    {hr : r.Grounded s.relations} (name' : Str) :
    (s.add name r free hr).get? name' = if name' = name then some r else s.get? name' :=
  Dict.get?_set _ _ _ _

theorem get?_add_self {s : Catalog} {name : Str} {r : Relation} {free : s.get? name = none}
    {hr : r.Grounded s.relations} : (s.add name r free hr).get? name = some r := by
  rw [get?_add, if_pos rfl]

theorem get?_add_of_ne {s : Catalog} {name name' : Str} {r : Relation} {free : s.get? name = none}
    {hr : r.Grounded s.relations} (h : name' ≠ name) :
    (s.add name r free hr).get? name' = s.get? name' := by
  rw [get?_add, if_neg h]

end Catalog

/-! ## Statements -/

/-- What Postgres stores for an identifier: as many characters as 63 bytes hold. -/
def storedIdentifier (name : Str) : Except Exc Str := truncateExplicitIdentifier name

/-- What the adapter leaves to Postgres: the name of the index of a primary key,
    `<table>_pkey` where that is free. -/
structure Engine where
  pkeyName : Catalog → Str → Str
  pkeyName_free : ∀ (s : Catalog) table, s.get? (pkeyName s table) = none
  pkeyName_ne : ∀ s table, pkeyName s table ≠ table
  pkeyName_default : ∀ (s : Catalog) table, Fits (table ++ py "_pkey") → s.get? (table ++ py "_pkey") = none →
    pkeyName s table = table ++ py "_pkey"

/-- The `CREATE TABLE` of an absent table, with the index of its primary key. -/
def Catalog.withTable (E : Engine) (s : Catalog) (name : Str) (columns : List Column)
    (primaryKey : List Str) (free : s.get? name = none) : Catalog :=
  let created := s.add name (.table columns primaryKey) free (Relation.grounded_table _ _ _)
  if primaryKey = [] then created
  else created.add (E.pkeyName s name) (.index name primaryKey true .btree)
    ((Catalog.get?_add_of_ne (E.pkeyName_ne s name)).trans (E.pkeyName_free s name))
    (Relation.grounded_index Catalog.get?_add_self _ _ _)

/-- `CREATE TABLE IF NOT EXISTS`. -/
def Catalog.createTable (E : Engine) (s : Catalog) (name : Str) (columns : List Column)
    (primaryKey : List Str) : Catalog :=
  match h : s.get? name with
  | some _ => s
  | none => s.withTable E name columns primaryKey h

/-- The relation that an index statement declares. -/
def PgIndex.relation (table : Str) (index : PgIndex) : Relation :=
  .index table index.columns index.unique index.type

theorem PgIndex.grounded_relation {relations : Dict Str Relation} {table : Str} {columns : List Column}
    {primaryKey : List Str} (h : relations.get? table = some (.table columns primaryKey)) (index : PgIndex) :
    (index.relation table).Grounded relations :=
  Relation.grounded_index h _ _ _

/-- `CREATE INDEX IF NOT EXISTS`: the table is looked up before the name. -/
def Catalog.createIndex (s : Catalog) (table : Str) (index : PgIndex) : Except Exc Catalog := do
  let name ← storedIdentifier index.name
  match htable : s.get? table with
  | some (.table _ _) =>
    match h : s.get? name with
    | some _ => .ok s
    | none => .ok (s.add name (index.relation table) h (index.grounded_relation htable))
  | some _ => .error (.text (.other (py "psycopg2.errors.WrongObjectType")) (py "\"" ++ table ++ py "\" is not a table"))
  | none => .error (.text (.other (py "psycopg2.errors.UndefinedTable")) (py "relation \"" ++ table ++ py "\" does not exist"))

/-- `CREATE TABLE`, when the name must be free. -/
def Catalog.createNewTable (E : Engine) (s : Catalog) (name : Str) (columns : List Column)
    (primaryKey : List Str) : Except Exc Catalog :=
  match h : s.get? name with
  | some _ => .error (.text (.other (py "psycopg2.errors.DuplicateTable")) (py "relation \"" ++ name ++
      py "\" already exists"))
  | none => .ok (s.withTable E name columns primaryKey h)

/-- `CREATE INDEX`, when the name must be free. -/
def Catalog.createNewIndex (s : Catalog) (table : Str) (index : PgIndex) : Except Exc Catalog := do
  let name ← storedIdentifier index.name
  if (s.get? name).isSome then
    .error (.text (.other (py "psycopg2.errors.DuplicateTable")) (py "relation \"" ++ name ++
      py "\" already exists"))
  else s.createIndex table index

/-- A relation that `DROP TABLE` of this name leaves. -/
def Relation.survives (name : Str) (p : Str × Relation) : Bool :=
  p.1 ≠ name && match p.2 with
    | .index onTable _ _ _ => onTable ≠ name
    | .table _ _ | .other => true

/-- `DROP TABLE IF EXISTS`: the table, with its indexes. -/
def Catalog.dropTable (s : Catalog) (name : Str) : Except Exc Catalog :=
  match s.get? name with
  | none => .ok s
  | some (.table _ _) => .ok {
      relations := s.relations.filter (Relation.survives name)
      grounded := by
        intro name' r h
        obtain ⟨hr, hsurvives⟩ := Dict.get?_filter.1 h
        cases r with
        | index onTable columns unique type =>
          obtain ⟨t, ht, htable⟩ := s.grounded name' _ hr
          have hne : onTable ≠ name := by
            rw [Relation.survives, Bool.and_eq_true] at hsurvives
            exact of_decide_eq_true hsurvives.2
          refine ⟨t, Dict.get?_filter.2 ⟨ht, ?_⟩, htable⟩
          cases t with
          | table columns primaryKey =>
            rw [Relation.survives, Bool.and_true]
            exact decide_eq_true hne
          | index _ _ _ _ => exact htable.elim
          | other => exact htable.elim
        | table columns primaryKey => exact Relation.grounded_table _ _ _
        | other => trivial }
  | some _ => .error (.text (.other (py "psycopg2.errors.WrongObjectType")) (py "\"" ++ name ++
      py "\" is not a table"))

/-- The index statements of `ensure_table`, in order. -/
def Catalog.createIndexes (table : Str) (indexes : List PgIndex) (s : Catalog) : Except Exc Catalog :=
  indexes.foldlM (fun s index => s.createIndex table index) s

/-! ## What the statements leave -/

variable {E : Engine}

/-- A free name: the table, and the index of its primary key, are created. -/
theorem get?_createTable {s : Catalog} {name : Str} {columns : List Column} {primaryKey : List Str}
    (free : s.get? name = none) (n : Str) :
    (s.createTable E name columns primaryKey).get? n =
      if primaryKey ≠ [] ∧ n = E.pkeyName s name then some (.index name primaryKey true .btree)
      else if n = name then some (.table columns primaryKey)
      else s.get? n := by
  have hwith : s.createTable E name columns primaryKey = s.withTable E name columns primaryKey free := by
    unfold Catalog.createTable
    split
    · next r hr => rw [free] at hr; cases hr
    · rfl
  rw [hwith, Catalog.withTable]
  by_cases hkey : primaryKey = []
  · rw [if_pos hkey, Catalog.get?_add, if_neg (by simp [hkey] : ¬ (primaryKey ≠ [] ∧ _))]
  · rw [if_neg hkey, Catalog.get?_add, Catalog.get?_add]
    simp only [ne_eq, hkey, not_false_eq_true, true_and]

theorem createTable_of_taken {s : Catalog} {name : Str} {columns : List Column} {primaryKey : List Str}
    {r : Relation} (h : s.get? name = some r) : s.createTable E name columns primaryKey = s := by
  unfold Catalog.createTable
  split
  · rfl
  · next hnone => rw [h] at hnone; cases hnone

/-- One index statement: the table is there, and the name is taken now. -/
theorem createIndex_eq_ok {s s' : Catalog} {table : Str} {index : PgIndex} (hfits : Fits index.name)
    (h : s.createIndex table index = .ok s') : s.HasTable table ∧
      ∀ n, s'.get? n = (s.get? n).or (if n = index.name then some (index.relation table) else none) := by
  obtain ⟨name, hname, h⟩ := bind_eq_ok.1 h
  obtain rfl : name = index.name := by
    rw [storedIdentifier, truncate_of_fits hfits] at hname
    cases hname
    rfl
  split at h
  · next columns primaryKey htable =>
    refine ⟨⟨_, htable, trivial⟩, fun n => ?_⟩
    split at h
    · next r hr =>
      cases h
      by_cases hn : n = index.name
      · rw [if_pos hn, hn, hr, Option.some_or]
      · rw [if_neg hn, Option.or_none]
    · next hfree =>
      cases h
      rw [Catalog.get?_add]
      by_cases hn : n = index.name
      · rw [if_pos hn, if_pos hn, hn, hfree, Option.none_or]
      · rw [if_neg hn, if_neg hn, Option.or_none]
  · cases h
  · cases h

/-- **The index statements**: a name that was free belongs to the first entry of
    that name; every other name is as before. -/
theorem createIndexes_eq_ok {table : Str} : ∀ {indexes : List PgIndex} {s s' : Catalog},
    (∀ index ∈ indexes, Fits index.name) → s.createIndexes table indexes = .ok s' →
      (indexes ≠ [] → s.HasTable table) ∧ ∀ n, s'.get? n =
        (s.get? n).or ((indexes.find? fun index => index.name = n).map (PgIndex.relation table)) := by
  intro indexes
  induction indexes with
  | nil =>
    intro s s' _ h
    cases h
    exact ⟨fun hne => absurd rfl hne, fun n => by simp⟩
  | cons index indexes ih =>
    intro s s' hfits h
    rw [Catalog.createIndexes, List.foldlM_cons] at h
    obtain ⟨s₁, h₁, h⟩ := bind_eq_ok.1 h
    obtain ⟨htable, hget₁⟩ := createIndex_eq_ok (hfits index (by simp)) h₁
    obtain ⟨-, hget⟩ := ih (fun i hi => hfits i (by simp [hi])) h
    refine ⟨fun _ => htable, fun n => ?_⟩
    rw [hget, hget₁, Option.or_assoc, List.find?_cons]
    by_cases hn : n = index.name
    · rw [if_pos hn, hn, decide_eq_true rfl, Option.some_or]
      rfl
    · rw [if_neg hn, Option.none_or, decide_eq_false (Ne.symm hn)]

/-! ## One call -/

/-- An index on the table is as the entry declares it. -/
def Catalog.HasIndex (s : Catalog) (table : Str) (index : PgIndex) : Prop :=
  ∃ name, s.get? name = some (index.relation table)

/-- An index statement of this name would be the first to use it: no relation has
    it, neither the table of the call nor the index of its primary key. -/
def NameFree (E : Engine) (s : Catalog) (table : Str) (primaryKey : List Str) (name : Str) : Prop :=
  s.get? name = none ∧ name ≠ table ∧ (primaryKey ≠ [] → name ≠ E.pkeyName s table)

/-- The primary key makes the index that the entry declares. -/
def PgIndex.IsKey (index : PgIndex) (primaryKey : List Str) : Prop :=
  index.columns = primaryKey ∧ index.unique = true ∧ index.type = .btree

/-- Two entries that differ in their names only. -/
def PgIndex.SameDefinition (i j : PgIndex) : Prop :=
  i.columns = j.columns ∧ i.unique = j.unique ∧ i.type = j.type

theorem PgIndex.relation_eq_iff {table : Str} {i j : PgIndex} :
    i.relation table = j.relation table ↔ i.SameDefinition j := by
  simp [PgIndex.relation, PgIndex.SameDefinition]

theorem NameFree.get?_createTable_eq_none {s : Catalog} {table name : Str} {columns : List Column}
    {primaryKey : List Str} (free : s.get? table = none) :
    (s.createTable E table columns primaryKey).get? name = none ↔ NameFree E s table primaryKey name := by
  rw [get?_createTable free, NameFree]
  constructor
  · intro h
    split_ifs at h with hkey htable
    exact ⟨h, htable, fun hpk hname => hkey ⟨hpk, hname⟩⟩
  · rintro ⟨hnone, htable, hkey⟩
    rw [if_neg fun h : _ ∧ _ => hkey h.1 h.2, if_neg htable]
    exact hnone

/-- Nothing is on a table that is not there. -/
theorem Catalog.ne_relation_of_not_hasTable {s : Catalog} {table : Str} (h : ¬ s.HasTable table)
    (name : Str) (index : PgIndex) : s.get? name ≠ some (index.relation table) :=
  fun hname => h (s.grounded name _ hname)

/-- Under distinct names, the first entry of a name is the only one. -/
theorem find?_name_eq_self {indexes : List PgIndex} (hnodup : (indexes.map PgIndex.name).Nodup)
    {index : PgIndex} (hindex : index ∈ indexes) :
    indexes.find? (fun i => i.name = index.name) = some index := by
  cases hfound : indexes.find? fun i => i.name = index.name with
  | none => exact absurd (decide_eq_true rfl) (List.find?_eq_none.1 hfound index hindex)
  | some other =>
    have hname := List.find?_some hfound
    rw [List.inj_on_of_nodup_map hnodup (List.mem_of_find?_eq_some hfound) hindex (of_decide_eq_true hname)]

/-- **The statements of one call** on an absent table leave exactly the declared
    indexes that are the primary key, or that some entry of the same definition
    had a free name for. -/
theorem hasIndex_createIndexes_iff {s s' : Catalog} {table : Str} {columns : List Column}
    {primaryKey : List Str} {indexes : List PgIndex} (habsent : ¬ s.HasTable table)
    (hnodup : (indexes.map PgIndex.name).Nodup) (hfits : ∀ index ∈ indexes, Fits index.name)
    (h : (s.createTable E table columns primaryKey).createIndexes table indexes = .ok s')
    {index : PgIndex} (hindex : index ∈ indexes) :
    s'.HasIndex table index ↔ index.IsKey primaryKey ∨
      ∃ other ∈ indexes, other.SameDefinition index ∧ NameFree E s table primaryKey other.name := by
  obtain ⟨htable, hget⟩ := createIndexes_eq_ok hfits h
  have free : s.get? table = none := by
    -- a relation of that name would have stayed, and be no table
    obtain ⟨r, hr, hisTable⟩ := htable (List.ne_nil_of_mem hindex)
    cases hs : s.get? table with
    | none => rfl
    | some r' =>
      rw [createTable_of_taken hs] at hr
      exact absurd ⟨r, hr, hisTable⟩ habsent
  constructor
  · rintro ⟨name, hname⟩
    rw [hget] at hname
    rcases Option.or_eq_some_iff.1 hname with hname | ⟨hnone, hname⟩
    · rw [get?_createTable free] at hname
      split_ifs at hname with hkey
      · have hrel := Option.some.inj hname
        injection hrel with _ hcolumns hunique htype
        exact .inl ⟨hcolumns.symm, hunique.symm, htype.symm⟩
      · cases hname
      · exact absurd hname (Catalog.ne_relation_of_not_hasTable habsent name index)
    · obtain ⟨other, hother, hrelation⟩ := Option.map_eq_some_iff.1 hname
      obtain rfl : other.name = name := by
        have hfound := List.find?_some hother
        exact of_decide_eq_true hfound
      exact .inr ⟨other, List.mem_of_find?_eq_some hother, PgIndex.relation_eq_iff.1 hrelation,
        (NameFree.get?_createTable_eq_none free).1 hnone⟩
  · rintro (⟨hcolumns, hunique, htype⟩ | ⟨other, hother, hsame, hfree⟩)
    · have hpk : primaryKey ≠ [] := hcolumns ▸ index.columns_ne
      refine ⟨E.pkeyName s table, ?_⟩
      rw [hget, get?_createTable free, if_pos ⟨hpk, rfl⟩, Option.some_or, PgIndex.relation, hcolumns,
        hunique, htype]
    · refine ⟨other.name, ?_⟩
      have hfirst := find?_name_eq_self hnodup hother
      rw [hget, (NameFree.get?_createTable_eq_none free).2 hfree, hfirst, Option.none_or, Option.map_some,
        PgIndex.relation_eq_iff.2 hsame]

end ContinuoRuntime
