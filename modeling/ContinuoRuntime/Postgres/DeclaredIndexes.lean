/-
  The declared indexes after runs of `ensure_table` on one schema.

  Each call validates its own config only, and `CREATE INDEX IF NOT EXISTS` skips
  a name that any relation of the schema has.

  * `run`: a sequence of calls, with whatever may fail on the way;
  * `run_built_iff`: after every call that returned, the declared indexes are
    there if and only if each such call found a free name for them.
-/
import ContinuoRuntime.Postgres.Session
import ContinuoRuntime.Contract.Values

namespace ContinuoRuntime

section
variable (reprStr : Str → Str) (reprJson : Json Str → Except Exc Str)

/-- The faults of the statements of one connection. -/
abbrev Faults := (sent : List PgStatement) → PgStatement → Option Fault

/-- `ensure_table` on a connection of its own: how it ends, and the catalog after it. -/
def ensureTableOn (E : Engine) (faults : Faults) (call : EnsureTable) (s : Catalog) :
    Except Exc Unit × Catalog :=
  let out := ensureTable reprStr reprJson ⟨E, faults⟩ call ⟨s, none, []⟩
  (out.1, out.2.committed)

/-- One call of a run, with the catalogs around it. -/
structure Step where
  before : Catalog
  call : EnsureTable
  result : Except Exc Unit
  after : Catalog

/-- A sequence of calls. -/
def run (E : Engine) : List (EnsureTable × Faults) → Catalog → List Step
  | [], _ => []
  | (call, faults) :: calls, s =>
    let out := ensureTableOn reprStr reprJson E faults call s
    ⟨s, call, out.1, out.2⟩ :: run E calls out.2

end

variable {reprStr : Str → Str} {reprJson : Json Str → Except Exc Str} {E : Engine}

/-! ## One call -/

/-- A call that returns has committed its statements. -/
theorem ensured_of_returns {faults : Faults} {call : EnsureTable} {s : Catalog}
    (h : (ensureTableOn reprStr reprJson E faults call s).1 = .ok ()) :
    Ensured reprStr reprJson E call s (ensureTableOn reprStr reprJson E faults call s).2 :=
  (@ensureTable_spec reprStr reprJson ⟨E, faults⟩ call s ⟨s, none, []⟩ ⟨rfl, rfl⟩).1 () _ (Prod.ext h rfl)

/-- The catalog after a call is as before, or as its statements leave it. -/
theorem ensureTableOn_after (faults : Faults) (call : EnsureTable) (s : Catalog) :
    (ensureTableOn reprStr reprJson E faults call s).2 = s ∨
      Ensured reprStr reprJson E call s (ensureTableOn reprStr reprJson E faults call s).2 := by
  obtain ⟨hok, herror⟩ := @ensureTable_spec reprStr reprJson ⟨E, faults⟩ call s
    ⟨s, none, []⟩ ⟨rfl, rfl⟩
  rcases hout : ensureTable reprStr reprJson ⟨E, faults⟩ call ⟨s, none, []⟩ with ⟨e | ⟨⟩, s'⟩
  · rw [ensureTableOn, hout]
    exact herror e s' hout
  · rw [ensureTableOn, hout]
    exact .inr (hok () s' hout)

/-- A call makes no other table than its own. -/
theorem hasTable_ensureTableOn {faults : Faults} {call : EnsureTable} {s : Catalog} {name : Str}
    (h : (ensureTableOn reprStr reprJson E faults call s).2.HasTable name) :
    s.HasTable name ∨ storedIdentifier call.table = .ok name := by
  rcases @ensureTableOn_after reprStr reprJson E faults call s with
    hsame | ⟨indexes, table, hvalidated, htable, hindexes⟩
  · exact .inl (hsame ▸ h)
  · obtain ⟨r, hr, hisTable⟩ := h
    rw [(createIndexes_eq_ok (validatedIndexes_eq_ok hvalidated).2 hindexes).2] at hr
    rcases Option.or_eq_some_iff.1 hr with hr | ⟨-, hr⟩
    · cases hs : s.get? table with
      | some r' =>
        rw [createTable_of_taken hs] at hr
        exact .inl ⟨r, hr, hisTable⟩
      | none =>
        rw [get?_createTable hs] at hr
        split_ifs at hr with hkey hname
        · cases hr
          exact hisTable.elim
        · exact .inr (hname ▸ htable)
        · exact .inl ⟨r, hr, hisTable⟩
    · obtain ⟨index, -, rfl⟩ := Option.map_eq_some_iff.1 hr
      exact hisTable.elim

/-! ## Runs -/

section
variable (reprStr reprJson)

/-- Every declared index of the call is on its table. -/
def Step.Built (step : Step) : Prop :=
  ∀ indexes table, validatedIndexes reprStr reprJson step.call.config step.call.table
      (step.call.columns.map Column.name) = .ok indexes → storedIdentifier step.call.table = .ok table →
    ∀ index ∈ indexes, step.after.HasIndex table index

/-- Before the call, every declared index is the primary key, or an entry of the
    same definition has a free name. -/
def Step.NamesFree (E : Engine) (step : Step) : Prop :=
  ∀ indexes table, validatedIndexes reprStr reprJson step.call.config step.call.table
      (step.call.columns.map Column.name) = .ok indexes → storedIdentifier step.call.table = .ok table →
    ∀ index ∈ indexes, index.IsKey step.call.primaryKey ∨ ∃ other ∈ indexes,
      other.SameDefinition index ∧ NameFree E step.before table step.call.primaryKey other.name

end

/-- Calls on distinct tables, as they are stored. -/
def DistinctTables (calls : List (EnsureTable × Faults)) : Prop :=
  calls.Pairwise fun c d => ∀ table, storedIdentifier c.1.table = .ok table →
    storedIdentifier d.1.table ≠ .ok table

/-- None of the tables is there. -/
def Absent (calls : List (EnsureTable × Faults)) (s : Catalog) : Prop :=
  ∀ c ∈ calls, ∀ table, storedIdentifier c.1.table = .ok table → ¬ s.HasTable table

/-- Every step of a run is a call on a table that is not there. -/
theorem absent_of_mem_run : ∀ {calls : List (EnsureTable × Faults)} {s : Catalog}, DistinctTables calls →
    Absent calls s → ∀ step ∈ run reprStr reprJson E calls s,
      (∃ faults, (step.result, step.after) = ensureTableOn reprStr reprJson E faults step.call step.before) ∧
      ∀ table, storedIdentifier step.call.table = .ok table → ¬ step.before.HasTable table := by
  intro calls
  induction calls with
  | nil => intro s _ _ step hstep; cases hstep
  | cons c calls ih =>
    obtain ⟨call, faults⟩ := c
    intro s hdistinct habsent step hstep
    obtain ⟨hfirst, hrest⟩ := List.pairwise_cons.1 hdistinct
    rcases List.mem_cons.1 hstep with rfl | hstep
    · exact ⟨⟨faults, rfl⟩, habsent (call, faults) List.mem_cons_self⟩
    · refine ih hrest (fun d hd table htable hnow => ?_) step hstep
      rcases hasTable_ensureTableOn hnow with hbefore | hown
      · exact habsent d (List.mem_cons_of_mem _ hd) table htable hbefore
      · exact hfirst d hd table hown htable

/-- **Declared indexes** are there after every call of a run that returned if and
    only if each such call found a free name for them. -/
theorem run_built_iff (reprStr : Str → Str) (reprJson : Json Str → Except Exc Str) (E : Engine)
    (calls : List (EnsureTable × Faults)) (s : Catalog) (hdistinct : DistinctTables calls)
    (habsent : Absent calls s) :
    (∀ step ∈ run reprStr reprJson E calls s, step.result = .ok () → step.Built reprStr reprJson) ↔
      ∀ step ∈ run reprStr reprJson E calls s, step.result = .ok () →
        step.NamesFree reprStr reprJson E := by
  have hstep : ∀ step ∈ run reprStr reprJson E calls s, step.result = .ok () →
      (step.Built reprStr reprJson ↔ step.NamesFree reprStr reprJson E) := by
    intro step hmem hok
    obtain ⟨⟨faults, hcall⟩, hnotable⟩ := absent_of_mem_run hdistinct habsent step hmem
    have hresult : step.result = (ensureTableOn reprStr reprJson E faults step.call step.before).1 :=
      congrArg Prod.fst hcall
    have hafter : step.after = (ensureTableOn reprStr reprJson E faults step.call step.before).2 :=
      congrArg Prod.snd hcall
    have hensured := ensured_of_returns (hresult ▸ hok)
    rw [← hafter] at hensured
    obtain ⟨indexes, table, hvalidated, htable, hindexes⟩ := hensured
    obtain ⟨hnodup, hfits⟩ := validatedIndexes_eq_ok hvalidated
    have hiff := fun index (hindex : index ∈ indexes) => hasIndex_createIndexes_iff (hnotable table htable)
      hnodup hfits hindexes hindex
    constructor
    · intro hbuilt indexes' table' hvalidated' htable' index hindex
      cases hvalidated.symm.trans hvalidated'
      cases htable.symm.trans htable'
      exact (hiff index hindex).1 (hbuilt indexes table hvalidated htable index hindex)
    · intro hfree indexes' table' hvalidated' htable' index hindex
      cases hvalidated.symm.trans hvalidated'
      cases htable.symm.trans htable'
      exact (hiff index hindex).2 (hfree indexes table hvalidated htable index hindex)
  exact ⟨fun h step hmem hok => (hstep step hmem hok).1 (h step hmem hok),
    fun h step hmem hok => (hstep step hmem hok).2 (h step hmem hok)⟩

/-! ### Two tables, one index name -/

instance (name : Str) : Decidable (Fits name) :=
  decidable_of_iff ((utf8 name).any fun bs => decide (bs.length ≤ maxIdentifierBytes)) (by
    rw [Option.any_eq_true, Fits]
    simp only [decide_eq_true_eq])

/-- A name longer than every name there is. -/
def longName (s : Catalog) (table : Str) : Str :=
  List.replicate ((table :: s.relations.items.map Prod.fst).map List.length).sum.succ (ch 'x')

theorem longName_ne {s : Catalog} {table name : Str}
    (h : name ∈ table :: s.relations.items.map Prod.fst) : longName s table ≠ name := by
  rintro rfl
  have hle := List.le_sum_of_mem (List.mem_map_of_mem (f := List.length) h)
  rw [longName, List.length_replicate] at hle
  exact absurd hle (Nat.not_succ_le_self _)

/-- An engine that gives the default name where it can. -/
def plainEngine : Engine where
  pkeyName s table :=
    if Fits (table ++ py "_pkey") ∧ s.get? (table ++ py "_pkey") = none then table ++ py "_pkey"
    else longName s table
  pkeyName_free s table := by
    split_ifs with h
    · exact h.2
    · rcases hr : s.get? (longName s table) with _ | r
      · rfl
      · have hmem := List.mem_map_of_mem (f := Prod.fst) (Dict.get?_eq_some_iff.1 hr)
        exact absurd rfl (longName_ne (List.mem_cons_of_mem _ hmem))
  pkeyName_ne s table := by
    split_ifs with h
    · intro heq
      have hlength := congrArg List.length heq
      rw [List.length_append] at hlength
      exact absurd hlength (by simp [py])
    · exact longName_ne List.mem_cons_self
  pkeyName_default s table hfits hfree := if_pos ⟨hfits, hfree⟩

/-- A call for a table with one column and an index on it. -/
def indexedTable (table column : String) : EnsureTable where
  table := py table
  columns := [⟨py column, py "BIGINT", true⟩]
  config := .obj [(py "indexes", .arr [.obj [(py "columns", .arr [.str (py column)])]])]
  primaryKey := []

/-- Nothing fails. -/
def noFaults : Faults := fun _ _ => none

/-- Their indexes are both called `ix_a_b_c`. -/
def clashingCalls : List (EnsureTable × Faults) :=
  [(indexedTable "a" "b_c", noFaults), (indexedTable "a_b" "c", noFaults)]

def plainReprJson (_ : Json Str) : Except Exc Str := .ok []

theorem clashingCalls_distinct : DistinctTables clashingCalls := by
  refine List.pairwise_cons.2 ⟨fun d hd table h => ?_, List.pairwise_singleton _ _⟩
  cases List.mem_singleton.1 hd
  cases h
  decide

theorem clashingCalls_absent : Absent clashingCalls Catalog.empty := by
  rintro c - table - ⟨r, hr, -⟩
  cases hr

theorem run_built_iff_clashing :
    (∀ step ∈ run plainLang.reprStr plainReprJson plainEngine clashingCalls Catalog.empty,
      step.result = .ok () → step.Built plainLang.reprStr plainReprJson) ↔
      ∀ step ∈ run plainLang.reprStr plainReprJson plainEngine clashingCalls Catalog.empty,
        step.result = .ok () → step.NamesFree plainLang.reprStr plainReprJson plainEngine :=
  run_built_iff _ _ _ _ _ clashingCalls_distinct clashingCalls_absent

/-- The one entry of the second call. -/
def secondIndex : PgIndex where
  columns := [py "c"]
  unique := false
  type := .btree
  name := py "ix_a_b_c"
  columns_ne := by decide
  unique_type h := by cases h
  single_column h := by cases List.mem_singleton.1 h

/-- The second call returns, and `a_b` has no index. -/
theorem declared_index_missing : ¬ ∀ (reprStr : Str → Str) (reprJson : Json Str → Except Exc Str) (E : Engine)
    (calls : List (EnsureTable × Faults)) (s : Catalog), DistinctTables calls → Absent calls s →
      ∀ step ∈ run reprStr reprJson E calls s, step.result = .ok () → step.Built reprStr reprJson := by
  intro h
  have hbuilt := h plainLang.reprStr plainReprJson plainEngine clashingCalls Catalog.empty
    clashingCalls_distinct clashingCalls_absent _ (List.mem_cons_of_mem _ List.mem_cons_self) rfl
  obtain ⟨name, hname⟩ := hbuilt [secondIndex] (py "a_b") rfl rfl secondIndex (List.mem_singleton.2 rfl)
  have hmem := Dict.get?_eq_some_iff.1 hname
  have hall : (((run plainLang.reprStr plainReprJson plainEngine clashingCalls Catalog.empty).map
      fun step => step.after.relations.items).flatten.all
        fun p => p.2 ≠ secondIndex.relation (py "a_b")) = true := by decide +kernel
  have hne := List.all_eq_true.1 hall _ (List.mem_flatten_of_mem
    (List.mem_cons_of_mem _ List.mem_cons_self) hmem)
  exact of_decide_eq_true hne rfl

end ContinuoRuntime
