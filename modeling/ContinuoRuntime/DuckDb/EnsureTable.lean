/-
  `ensure_table` of the DuckDB adapter under concurrent callers
  (`application/warehouse.py`).

  DuckLake has no lock: the existence check and the create share a transaction, and
  the slower of two creators fails with a conflict and tries again.

  * `Stage`: where a call can be, and what it knows of the committed catalog;
  * `Stage.serve`: one step of a call;
  * `ensureTable_concurrent`: **in every run** the table appears at most once, with
    its whole layout, a call that returns sees it, and no call fails.
-/
import ContinuoRuntime.DuckDb.Lake

namespace ContinuoRuntime

open Snapshots

/-! ## The adapter -/

/-- A call of the adapter. -/
abbrev LakeCall (α : Type) := Client LakeStatement LakeResult (Except LakeError α)

namespace LakeCall

variable {α β : Type}

/-- `_run`. -/
def run (statement : LakeStatement) : LakeCall (List (Str × Str)) := .ask statement .done

/-- One call after another, unless the first raises. -/
def andThen (x : LakeCall α) (f : α → LakeCall β) : LakeCall β :=
  x.bind fun
    | .ok a => f a
    | .error e => .done (.error e)

/-- A statement whose rows are not read. -/
def execute (statement : LakeStatement) : LakeCall Unit := (run statement).andThen fun _ => .done (.ok ())

/-- The end of `transaction`: `ROLLBACK` if the body has raised, or else `COMMIT`,
    outside the `try`. -/
def endTransaction : Except LakeError Unit → LakeCall Unit
  | .ok () => execute .commit
  | .error e => (run .rollback).bind fun _ => .done (.error e)

/-- `transaction`. -/
def transaction (body : LakeCall Unit) : LakeCall Unit :=
  (run .begin).andThen fun _ => body.bind endTransaction

/-- `_CONFLICT_ATTEMPTS`. -/
def conflictAttempts : ℕ := 5

/-- `_retrying`, with so many attempts after this one. -/
def retrying (operation : LakeCall Unit) : ℕ → LakeCall Unit
  | 0 => operation
  | left + 1 => operation.bind fun
    | .error .conflict => retrying operation left
    | result => .done result

/-- `ensure_schema`. -/
def ensureSchema (schema : Str) : LakeCall Unit :=
  retrying (execute (.createSchemaIfNotExists schema)) (conflictAttempts - 1)

/-- `table_exists`. -/
def tableExists (t : QualifiedTable) : LakeCall Bool :=
  (run (.tableExists t)).andThen fun rows =>
    .done (.ok (rows.any fun row => decide ((QualifiedTable.mk row.1 row.2).key = t.key)))

/-- `apply_layout`. -/
def applyLayout (t : QualifiedTable) (layout : TableLayout) : LakeCall Unit :=
  LakeCall.andThen
    (if layout.partitionKeys.isEmpty then .done (.ok ())
      else execute (.setPartitionedBy t layout.partitionKeys))
    fun _ =>
      if layout.sortKeys.isEmpty then .done (.ok ()) else execute (.setSortedBy t layout.sortKeys)

/-- The body of `_create_if_absent`. -/
def createBody (t : QualifiedTable) (columns : List ColumnDefinition) (layout : TableLayout) : LakeCall Unit :=
  (tableExists t).andThen fun
    | true => .done (.ok ())
    | false => (run (.createTable t columns)).andThen fun _ =>
        if layout.isEmpty then .done (.ok ()) else applyLayout t layout

/-- `_create_if_absent`. -/
def createIfAbsent (t : QualifiedTable) (columns : List ColumnDefinition) (layout : TableLayout) :
    LakeCall Unit :=
  transaction (createBody t columns layout)

/-- `ensure_table`, once its columns and its layout are validated. -/
def ensureTable (t : QualifiedTable) (columns : List ColumnDefinition) (layout : TableLayout) : LakeCall Unit :=
  (ensureSchema t.schema).andThen fun _ => retrying (createIfAbsent t columns layout) (conflictAttempts - 1)

/-! ## The parts of a call -/

/-- What `_retrying` does with the outcome of an attempt. -/
def afterAttempt (operation : LakeCall Unit) : ℕ → Except LakeError Unit → LakeCall Unit
  | left + 1, .error .conflict => retrying operation left
  | _, result => .done result

theorem retrying_eq {operation : LakeCall Unit} : ∀ {left : ℕ},
    retrying operation left = operation.bind (afterAttempt operation left)
  | 0 => (Client.bind_done operation).symm
  | left + 1 => congrArg (fun f => operation.bind f) (funext fun result => by
      rcases result with (_ | exc) | ⟨⟩ <;> rfl)

/-- The statements of a list, one after another. -/
def runAll : List LakeStatement → LakeCall Unit
  | [] => .done (.ok ())
  | statement :: statements => (run statement).andThen fun _ => runAll statements

section
variable (t : QualifiedTable) (columns : List ColumnDefinition) (layout : TableLayout)

/-- The statements of `apply_layout`. -/
def layoutStatements : List LakeStatement :=
  (if layout.partitionKeys.isEmpty then [] else [.setPartitionedBy t layout.partitionKeys]) ++
    if layout.sortKeys.isEmpty then [] else [.setSortedBy t layout.sortKeys]

/-- The statements that create the table with its layout. -/
def createStatements : List LakeStatement := .createTable t columns :: layoutStatements t layout

/-- The create, and the loop over its attempts. -/
def tableCall (left : ℕ) : LakeCall Unit := retrying (createIfAbsent t columns layout) left

/-- A call with so many attempts at the schema after this one. -/
def schemaCall (left : ℕ) : LakeCall Unit :=
  (retrying (execute (.createSchemaIfNotExists t.schema)) left).andThen fun _ =>
    tableCall t columns layout (conflictAttempts - 1)

/-- A call inside a transaction, with the rest of its body. -/
def inside (left : ℕ) (body : LakeCall Unit) : LakeCall Unit :=
  (body.bind endTransaction).bind (afterAttempt (createIfAbsent t columns layout) left)

variable {t columns layout}

theorem schemaCall_asks (left : ℕ) :
    ∃ k, schemaCall t columns layout left = .ask (.createSchemaIfNotExists t.schema) k ∧
      (∀ rows, k (.ok rows) = tableCall t columns layout (conflictAttempts - 1)) ∧
      ∀ n, left = n + 1 → k (.error .conflict) = schemaCall t columns layout n := by
  refine ⟨_, by rw [schemaCall, retrying_eq]; rfl, fun rows => ?_, ?_⟩
  · cases left <;> rfl
  · rintro n rfl
    rfl

theorem tableCall_asks (left : ℕ) : ∃ k, tableCall t columns layout left = .ask .begin k ∧
    ∀ rows, k (.ok rows) = inside t columns layout left (createBody t columns layout) :=
  ⟨_, by rw [tableCall, retrying_eq]; rfl, fun rows => rfl⟩

theorem execute_andThen {statement : LakeStatement} {f : Unit → LakeCall α} :
    (execute statement).andThen f = (run statement).andThen fun _ => f () :=
  congrArg (Client.ask statement) (funext fun result => by cases result <;> rfl)

theorem createStatements_eq : ((run (.createTable t columns)).andThen fun _ =>
    if layout.isEmpty then .done (.ok ()) else applyLayout t layout) =
      runAll (createStatements t columns layout) := by
  unfold createStatements layoutStatements applyLayout TableLayout.isEmpty
  refine congrArg (fun f => (run (.createTable t columns)).andThen f) (funext fun _ => ?_)
  cases layout.partitionKeys.isEmpty with
  | true =>
    cases layout.sortKeys.isEmpty with
    | true => rfl
    | false => rfl
  | false =>
    cases layout.sortKeys.isEmpty with
    | true => exact execute_andThen
    | false => exact execute_andThen

theorem createBody_asks (left : ℕ) : ∃ k, inside t columns layout left (createBody t columns layout) =
    .ask (.tableExists t) k ∧
    ∀ rows, k (.ok rows) = if ∃ row ∈ rows, (QualifiedTable.mk row.1 row.2).key = t.key then
        inside t columns layout left (.done (.ok ()))
      else inside t columns layout left (runAll (createStatements t columns layout)) := by
  refine ⟨_, rfl, fun rows => ?_⟩
  rw [← createStatements_eq]
  by_cases hrow : ∃ row ∈ rows, (QualifiedTable.mk row.1 row.2).key = t.key
  · have hany : (rows.any fun row => decide ((QualifiedTable.mk row.1 row.2).key = t.key)) = true := by
      simpa using hrow
    rw [if_pos hrow]
    simp only [Client.bind, hany]
    rfl
  · have hany : (rows.any fun row => decide ((QualifiedTable.mk row.1 row.2).key = t.key)) = false := by
      simpa using hrow
    rw [if_neg hrow]
    simp only [Client.bind, hany]
    rfl

theorem runAll_asks (left : ℕ) (statement : LakeStatement) (rest : List LakeStatement) :
    ∃ k, inside t columns layout left (runAll (statement :: rest)) = .ask statement k ∧
      (∀ rows, k (.ok rows) = inside t columns layout left (runAll rest)) ∧
      ∀ e, k (.error e) = inside t columns layout left (.done (.error e)) :=
  ⟨_, rfl, fun _ => rfl, fun _ => rfl⟩

theorem commit_asks (left : ℕ) : ∃ k, inside t columns layout left (.done (.ok ())) = .ask .commit k ∧
    (∀ rows, k (.ok rows) = .done (.ok ())) ∧
    ∀ n, left = n + 1 → k (.error .conflict) = tableCall t columns layout n := by
  refine ⟨_, rfl, fun rows => ?_, ?_⟩
  · cases left <;> rfl
  · rintro n rfl
    rfl

theorem rollback_asks (n : ℕ) : ∃ k, inside t columns layout (n + 1) (.done (.error .conflict)) =
    .ask .rollback k ∧ ∀ result, k result = tableCall t columns layout n :=
  ⟨_, rfl, fun _ => rfl⟩

end

end LakeCall

/-! ## What a commit leaves -/

section
variable {t : QualifiedTable} {columns : List ColumnDefinition} {layout : TableLayout}

/-- The change creates the table. -/
def LakeChange.CreatesTable (t : QualifiedTable) (c : LakeChange) : Prop := c.creates = some (.table t.key)

/-- The change creates the schema of the table. -/
def LakeChange.CreatesSchema (t : QualifiedTable) (c : LakeChange) : Prop :=
  c.creates = some (.schema (asciiLower t.schema))

instance (c : LakeChange) : Decidable (c.CreatesTable t) := inferInstanceAs (Decidable (_ = _))

theorem LakeChange.CreatesTable.touches {c : LakeChange} (h : c.CreatesTable t) : c.Touches t := by
  cases c with
  | createTable t' columns => exact LakeObject.table.inj (Option.some.inj h)
  | _ => cases h

/-- What a commit of these changes leaves of the schema and of the table: the schema
    stays, and the table changes only if it is created, and then it is there. -/
structure Keeps (t : QualifiedTable) (s : Lake) (new : List LakeChange) : Prop where
  schema : (catalog s).hasSchema t.schema → (catalog (s.push new)).hasSchema t.schema
  schemaCreated : (∃ c ∈ new, c.CreatesSchema t) → (catalog (s.push new)).hasSchema t.schema
  table : (∀ c ∈ new, ¬ c.CreatesTable t) → (catalog (s.push new)).get? t = (catalog s).get? t
  tableCreated : (∃ c ∈ new, c.CreatesTable t) → (catalog (s.push new)).hasTable t

theorem catalog_push {s : Lake} {new : List LakeChange} :
    catalog (s.push new) = new.foldl LakeCatalog.apply (catalog s) := History.now_push

theorem get?_foldl_of_not_touches : ∀ {new : List LakeChange} {c : LakeCatalog},
    (∀ change ∈ new, ¬ change.Touches t) → (new.foldl LakeCatalog.apply c).get? t = c.get? t
  | [], _, _ => rfl
  | change :: new, c, h => by
    rw [List.forall_mem_cons] at h
    rw [List.foldl_cons, get?_foldl_of_not_touches h.2, get?_apply_of_not_touches h.1]

theorem hasSchema_foldl_of_not_touches : ∀ {new : List LakeChange} {c : LakeCatalog},
    (∀ change ∈ new, ¬ change.Touches t) → c.hasSchema t.schema ∨ (∃ change ∈ new, change.CreatesSchema t) →
      (new.foldl LakeCatalog.apply c).hasSchema t.schema
  | [], _, _, hc => by
    rcases hc with hc | ⟨change, hmem, -⟩
    · exact hc
    · cases hmem
  | change :: new, c, h, hc => by
    rw [List.forall_mem_cons] at h
    rw [List.foldl_cons]
    refine hasSchema_foldl_of_not_touches h.2 ?_
    rcases hc with hc | ⟨change', hmem, hcreates⟩
    · exact .inl (hasSchema_apply_of_not_touches h.1 hc)
    rcases List.mem_cons.1 hmem with rfl | hmem
    · left
      cases change' with
      | createSchema schema =>
        have hname : asciiLower schema = asciiLower t.schema := LakeObject.schema.inj (Option.some.inj hcreates)
        have hthere := @hasSchema_createSchema c schema
        unfold LakeCatalog.hasSchema at hthere ⊢
        rwa [hname] at hthere
      | _ => cases hcreates
    · exact .inr ⟨change', hmem, hcreates⟩

/-- Commits of others. -/
theorem keeps_of_not_touches {s : Lake} {new : List LakeChange} (h : ∀ c ∈ new, ¬ c.Touches t) :
    Keeps t s new where
  schema hs := by
    rw [catalog_push]
    exact hasSchema_foldl_of_not_touches h (.inl hs)
  schemaCreated hc := by
    rw [catalog_push]
    exact hasSchema_foldl_of_not_touches h (.inr hc)
  table _ := by rw [catalog_push, get?_foldl_of_not_touches h]
  tableCreated := fun ⟨c, hc, hcreates⟩ => absurd hcreates.touches (h c hc)

/-- The changes of a transaction that creates the table. -/
def createChanges (t : QualifiedTable) (columns : List ColumnDefinition) (layout : TableLayout) :
    List LakeChange :=
  (LakeCall.createStatements t columns layout).filterMap LakeStatement.change

/-- **The whole layout** is there once the transaction is committed. -/
theorem get?_createChanges {c : LakeCatalog} :
    ((createChanges t columns layout).foldl LakeCatalog.apply c).get? t = some ⟨columns, layout⟩ := by
  obtain ⟨partitionKeys, sortKeys⟩ := layout
  unfold createChanges LakeCall.createStatements LakeCall.layoutStatements
  cases partitionKeys <;> cases sortKeys <;>
    simp only [List.isEmpty_nil, List.isEmpty_cons, ↓reduceIte, Bool.false_eq_true, List.nil_append,
      List.append_nil, List.cons_append, List.filterMap_cons, List.filterMap_nil, LakeStatement.change,
      List.foldl_cons, List.foldl_nil, get?_created, get?_setPartitionedBy, get?_setSortedBy, Option.map_some]

theorem hasSchema_createChanges {c : LakeCatalog} (hc : c.hasSchema t.schema) :
    ((createChanges t columns layout).foldl LakeCatalog.apply c).hasSchema t.schema := by
  obtain ⟨partitionKeys, sortKeys⟩ := layout
  unfold createChanges LakeCall.createStatements LakeCall.layoutStatements
  cases partitionKeys <;> cases sortKeys <;> exact hc

/-- Commits that keep the schema and the table. -/
def LakeGrows (t : QualifiedTable) (s s' : Lake) : Prop := ∃ new, s' = s.push new ∧ Keeps t s new

theorem LakeGrows.refl (s : Lake) : LakeGrows t s s := by
  refine ⟨[], ?_, keeps_of_not_touches fun c hc => by cases hc⟩
  rw [History.push, List.append_nil]

theorem LakeGrows.hasSchema {s s' : Lake} (h : LakeGrows t s s') (hs : (catalog s).hasSchema t.schema) :
    (catalog s').hasSchema t.schema := by
  obtain ⟨new, rfl, hkeeps⟩ := h
  exact hkeeps.schema hs

theorem LakeGrows.hasTable {s s' : Lake} (h : LakeGrows t s s') (hs : (catalog s).hasTable t) :
    (catalog s').hasTable t := by
  obtain ⟨new, rfl, hkeeps⟩ := h
  by_cases hnew : ∃ c ∈ new, c.CreatesTable t
  · exact hkeeps.tableCreated hnew
  · push Not at hnew
    rwa [LakeCatalog.hasTable, hkeeps.table hnew]

/-! ## Snapshots -/

/-- What a transaction knows of the table that has its snapshot here: it was created
    since, or it is as in the snapshot. -/
structure Started (t : QualifiedTable) (s : Lake) (start : ℕ) : Prop where
  le : start ≤ s.log.length
  schema : (s.snapshot LakeCatalog.apply start).hasSchema t.schema
  schemaNow : (catalog s).hasSchema t.schema
  created : (∃ c ∈ s.since start, c.CreatesTable t) → (catalog s).hasTable t
  table : (∀ c ∈ s.since start, ¬ c.CreatesTable t) →
    (catalog s).get? t = (s.snapshot LakeCatalog.apply start).get? t

theorem Started.begin {s : Lake} (h : (catalog s).hasSchema t.schema) : Started t s s.log.length where
  le := le_rfl
  schema := by rwa [History.snapshot_length]
  schemaNow := h
  created := by
    rw [History.since_length]
    rintro ⟨c, hc, -⟩
    cases hc
  table _ := by rw [History.snapshot_length, catalog]

theorem Started.grows {s s' : Lake} {start : ℕ} (h : Started t s start) (hs : LakeGrows t s s') :
    Started t s' start := by
  have hmono := hs.hasTable
  have hnow := hs.hasSchema h.schemaNow
  obtain ⟨new, rfl, hkeeps⟩ := hs
  refine ⟨?_, ?_, hnow, ?_, ?_⟩
  · rw [History.push, List.length_append]
    exact h.le.trans (Nat.le_add_right _ _)
  · rw [History.snapshot_push h.le]
    exact h.schema
  · rw [History.since_push h.le]
    rintro ⟨c, hc, hcreates⟩
    rcases List.mem_append.1 hc with hc | hc
    · exact hmono (h.created ⟨c, hc, hcreates⟩)
    · exact hkeeps.tableCreated ⟨c, hc, hcreates⟩
  · rw [History.since_push h.le, History.snapshot_push h.le]
    intro hnone
    rw [hkeeps.table fun c hc => hnone c (List.mem_append_right _ hc)]
    exact h.table fun c hc => hnone c (List.mem_append_left _ hc)

/-- What a `CREATE SCHEMA` that is under way knows of the schema. -/
structure SchemaStarted (t : QualifiedTable) (s : Lake) (start : ℕ) : Prop where
  le : start ≤ s.log.length
  created : (∃ c ∈ s.since start, c.CreatesSchema t) → (catalog s).hasSchema t.schema

theorem SchemaStarted.begin (s : Lake) : SchemaStarted t s s.log.length where
  le := le_rfl
  created := by
    rw [History.since_length]
    rintro ⟨c, hc, -⟩
    cases hc

theorem SchemaStarted.grows {s s' : Lake} {start : ℕ} (h : SchemaStarted t s start) (hs : LakeGrows t s s') :
    SchemaStarted t s' start := by
  have hmono := hs.hasSchema
  obtain ⟨new, rfl, hkeeps⟩ := hs
  refine ⟨?_, ?_⟩
  · rw [History.push, List.length_append]
    exact h.le.trans (Nat.le_add_right _ _)
  · rw [History.since_push h.le]
    rintro ⟨c, hc, hcreates⟩
    rcases List.mem_append.1 hc with hc | hc
    · exact hmono (h.created ⟨c, hc, hcreates⟩)
    · exact hkeeps.schemaCreated ⟨c, hc, hcreates⟩

/-- What was there at the snapshot is there now. -/
theorem Started.hasTable {s : Lake} {start : ℕ} (h : Started t s start)
    (hthere : (s.snapshot LakeCatalog.apply start).hasTable t) : (catalog s).hasTable t := by
  by_cases hcreated : ∃ c ∈ s.since start, c.CreatesTable t
  · exact h.created hcreated
  · push Not at hcreated
    rwa [LakeCatalog.hasTable, h.table hcreated]

/-! ## The statements of a create -/

/-- The statement alters the table. -/
def LakeStatement.Alters (t : QualifiedTable) (statement : LakeStatement) : Prop :=
  (∃ keys, statement = .setPartitionedBy t keys) ∨ ∃ keys, statement = .setSortedBy t keys

theorem layoutStatements_alter {statement : LakeStatement}
    (h : statement ∈ LakeCall.layoutStatements t layout) : statement.Alters t := by
  unfold LakeCall.layoutStatements at h
  rcases List.mem_append.1 h with h | h
  · split_ifs at h
    · cases h
    · exact .inl ⟨_, List.mem_singleton.1 h⟩
  · split_ifs at h
    · cases h
    · exact .inr ⟨_, List.mem_singleton.1 h⟩

/-- Altering a table leaves it there. -/
theorem hasTable_alters : ∀ {statements : List LakeStatement} {c : LakeCatalog},
    (∀ statement ∈ statements, statement.Alters t) → c.hasTable t →
      ((statements.filterMap LakeStatement.change).foldl LakeCatalog.apply c).hasTable t
  | [], _, _, hc => hc
  | statement :: statements, c, h, hc => by
    rw [List.forall_mem_cons] at h
    rcases h.1 with ⟨keys, rfl⟩ | ⟨keys, rfl⟩
    · refine hasTable_alters (c := c.apply (.setPartitionedBy t keys)) h.2 ?_
      rwa [LakeCatalog.hasTable, get?_setPartitionedBy, Option.isSome_map]
    · refine hasTable_alters (c := c.apply (.setSortedBy t keys)) h.2 ?_
      rwa [LakeCatalog.hasTable, get?_setSortedBy, Option.isSome_map]

/-- **Every statement of the create succeeds** after those before it, if the table
    was not there. -/
theorem createStatements_admitted {before rest : List LakeStatement} {statement : LakeStatement}
    (hsplit : before ++ statement :: rest = LakeCall.createStatements t columns layout) {c : LakeCatalog}
    (hschema : c.hasSchema t.schema) (habsent : ¬ c.hasTable t) : ∃ change, statement.change = some change ∧
      ((before.filterMap LakeStatement.change).foldl LakeCatalog.apply c).Admits change := by
  rcases List.append_eq_cons_iff.1 hsplit with ⟨rfl, hfirst⟩ | ⟨before', rfl, hrest⟩
  · cases hfirst
    exact ⟨_, rfl, hschema, habsent⟩
  · have halters : ∀ r ∈ before' ++ statement :: rest, r.Alters t := fun r hr =>
      @layoutStatements_alter t layout r (hrest ▸ hr)
    have hthere : (((LakeStatement.createTable t columns :: before').filterMap
        LakeStatement.change).foldl LakeCatalog.apply c).hasTable t := by
      refine hasTable_alters (c := c.apply (.createTable t columns))
        (fun r hr => halters r (List.mem_append_left _ hr)) ?_
      rw [LakeCatalog.hasTable, get?_created]
      rfl
    rcases halters statement (by simp) with ⟨keys, rfl⟩ | ⟨keys, rfl⟩
    · exact ⟨_, rfl, hthere⟩
    · exact ⟨_, rfl, hthere⟩

/-- A create makes the table, and no other object. -/
theorem creates_of_mem {statements : List LakeStatement} (hsub : statements ⊆ LakeCall.createStatements t columns layout)
    {c : LakeChange} (hc : c ∈ statements.filterMap LakeStatement.change) {object : LakeObject}
    (hobject : c.creates = some object) : object = .table t.key := by
  obtain ⟨statement, hmem, hchange⟩ := List.mem_filterMap.1 hc
  rcases List.mem_cons.1 (hsub hmem) with rfl | hlayout
  · cases hchange
    exact (Option.some.inj hobject).symm
  · rcases layoutStatements_alter hlayout with ⟨keys, rfl⟩ | ⟨keys, rfl⟩ <;>
      (cases hchange; cases hobject)

/-- **A conflict** of the transaction: another one has created the table. -/
theorem createdSince_of_clashes {statements : List LakeStatement}
    (hsub : statements ⊆ LakeCall.createStatements t columns layout) {s : Lake} {start : ℕ}
    (h : Transaction.Clashes LakeChange.creates ⟨start, statements.filterMap LakeStatement.change⟩ s) :
    ∃ c ∈ s.since start, c.CreatesTable t := by
  obtain ⟨c, hc, c', hc', object, hobject, hobject'⟩ := h
  exact ⟨c', hc', by rw [LakeChange.CreatesTable, hobject', creates_of_mem hsub hc hobject]⟩

theorem not_createdSince_of_not_clashes {s : Lake} {start : ℕ}
    (h : ¬ Transaction.Clashes LakeChange.creates ⟨start, createChanges t columns layout⟩ s) :
    ∀ c ∈ s.since start, ¬ c.CreatesTable t := by
  intro c hc hcreates
  exact h ⟨.createTable t columns, List.mem_cons_self, c, hc, .table t.key, rfl, hcreates⟩

/-! ## Where a call can be -/

open LakeCall

/-- **The states of a call**, and what each knows.  Only the first attempt at the
    schema or at the table can fail with a conflict: after it, the object is there. -/
inductive Stage (t : QualifiedTable) (columns : List ColumnDefinition) (layout : TableLayout) (s : Lake) :
    LakeSession → LakeCall Unit → Prop
  | schema (left : ℕ) (hleft : left = conflictAttempts - 1 ∨ (catalog s).hasSchema t.schema) :
      Stage t columns layout s .idle (schemaCall t columns layout left)
  | creatingSchema {start : ℕ} (hstart : SchemaStarted t s start) :
      Stage t columns layout s (.single ⟨start, [.createSchema t.schema]⟩)
        (schemaCall t columns layout (conflictAttempts - 1))
  | table (left : ℕ) (hschema : (catalog s).hasSchema t.schema)
      (hleft : left = conflictAttempts - 1 ∨ (catalog s).hasTable t) :
      Stage t columns layout s .idle (tableCall t columns layout left)
  | looking (left : ℕ) {start : ℕ} (hstart : Started t s start)
      (hleft : left = conflictAttempts - 1 ∨ (s.snapshot LakeCatalog.apply start).hasTable t) :
      Stage t columns layout s (.opened ⟨start, []⟩)
        (inside t columns layout left (createBody t columns layout))
  /-- some of the statements are done -/
  | building {before after : List LakeStatement} (hsplit : before ++ after = createStatements t columns layout)
      {start : ℕ} (hstart : Started t s start)
      (habsent : ¬ (s.snapshot LakeCatalog.apply start).hasTable t) :
      Stage t columns layout s (.opened ⟨start, before.filterMap LakeStatement.change⟩)
        (inside t columns layout (conflictAttempts - 1) (runAll after))
  | leaving (left : ℕ) {start : ℕ} (hstart : Started t s start)
      (hthere : (s.snapshot LakeCatalog.apply start).hasTable t) :
      Stage t columns layout s (.opened ⟨start, []⟩) (inside t columns layout left (.done (.ok ())))
  | rollingBack {tx : LakeTransaction} (hschema : (catalog s).hasSchema t.schema)
      (hthere : (catalog s).hasTable t) :
      Stage t columns layout s (.opened tx)
        (inside t columns layout (conflictAttempts - 1) (.done (.error .conflict)))
  | returned (hthere : (catalog s).hasTable t) : Stage t columns layout s .idle (.done (.ok ()))

/-- What others commit does not move a call. -/
theorem Stage.grows {s s' : Lake} {session : LakeSession} {p : LakeCall Unit}
    (h : Stage t columns layout s session p) (hs : LakeGrows t s s') : Stage t columns layout s' session p := by
  have hsnapshot : ∀ {start : ℕ}, Started t s start →
      s'.snapshot LakeCatalog.apply start = s.snapshot LakeCatalog.apply start := by
    intro start hstart
    obtain ⟨new, rfl, -⟩ := hs
    exact History.snapshot_push hstart.le
  cases h with
  | schema left hleft => exact .schema left (hleft.imp_right hs.hasSchema)
  | creatingSchema hstart => exact .creatingSchema (hstart.grows hs)
  | table left hschema hleft => exact .table left (hs.hasSchema hschema) (hleft.imp_right hs.hasTable)
  | looking left hstart hleft => exact .looking left (hstart.grows hs) (by rwa [hsnapshot hstart])
  | building hsplit hstart habsent => exact .building hsplit (hstart.grows hs) (by rwa [hsnapshot hstart])
  | leaving left hstart hthere => exact .leaving left (hstart.grows hs) (by rwa [hsnapshot hstart])
  | rollingBack hschema hthere => exact .rollingBack (hs.hasSchema hschema) (hs.hasTable hthere)
  | returned hthere => exact .returned (hs.hasTable hthere)

/-! ## Created once -/

/-- How many of the changes create the table. -/
def creations (t : QualifiedTable) (changes : List LakeChange) : ℕ :=
  changes.countP fun c => decide (c.CreatesTable t)

theorem creations_append {changes changes' : List LakeChange} :
    creations t (changes ++ changes') = creations t changes + creations t changes' :=
  List.countP_append

theorem creations_eq_zero {changes : List LakeChange} (h : ∀ c ∈ changes, ¬ c.CreatesTable t) :
    creations t changes = 0 := by
  rw [creations, List.countP_eq_zero]
  exact fun c hc => by simpa using h c hc

theorem creations_createChanges : creations t (createChanges t columns layout) = 1 := by
  obtain ⟨partitionKeys, sortKeys⟩ := layout
  unfold createChanges LakeCall.createStatements LakeCall.layoutStatements creations
  cases partitionKeys <;> cases sortKeys <;>
    simp [LakeStatement.change, LakeChange.CreatesTable, LakeChange.creates]

/-- **The committed table**: as it was at first, or created by exactly one commit,
    with its whole layout. -/
inductive EnsuredOnce (t : QualifiedTable) (columns : List ColumnDefinition) (layout : TableLayout)
    (s₀ s : Lake) : Prop
  | untouched {new : List LakeChange} (hnew : s = s₀.push new) (hcount : creations t new = 0)
      (hget : (catalog s).get? t = (catalog s₀).get? t)
  | built {new : List LakeChange} (hnew : s = s₀.push new) (hcount : creations t new = 1)
      (habsent : ¬ (catalog s₀).hasTable t) (hget : (catalog s).get? t = some ⟨columns, layout⟩)

theorem EnsuredOnce.refl (s₀ : Lake) : EnsuredOnce t columns layout s₀ s₀ := by
  have hnil : s₀ = s₀.push [] := by rw [History.push, List.append_nil]
  exact .untouched hnil rfl rfl

theorem push_push {s : Lake} {new new' : List LakeChange} : (s.push new).push new' = s.push (new ++ new') := by
  rw [History.push, History.push, History.push, List.append_assoc]

/-- Commits that do not create the table. -/
theorem EnsuredOnce.keep {s₀ s : Lake} {new : List LakeChange} (h : EnsuredOnce t columns layout s₀ s)
    (hnew : ∀ c ∈ new, ¬ c.CreatesTable t) (hkeeps : Keeps t s new) :
    EnsuredOnce t columns layout s₀ (s.push new) := by
  have hget := hkeeps.table hnew
  have hzero := creations_eq_zero hnew
  cases h with
  | untouched hs hcount hsame =>
    subst hs
    refine .untouched push_push ?_ (hget.trans hsame)
    rw [creations_append, hcount, hzero]
  | built hs hcount habsent hthere =>
    subst hs
    refine .built push_push ?_ habsent (hget.trans hthere)
    rw [creations_append, hcount, hzero]

/-- The commit that creates it. -/
theorem EnsuredOnce.build {s₀ s : Lake} (h : EnsuredOnce t columns layout s₀ s)
    (habsent : ¬ (catalog s).hasTable t) :
    EnsuredOnce t columns layout s₀ (s.push (createChanges t columns layout)) := by
  cases h with
  | untouched hs hcount hsame =>
    rw [LakeCatalog.hasTable, hsame] at habsent
    subst hs
    refine .built push_push ?_ habsent ?_
    · rw [creations_append, hcount, creations_createChanges]
    · rw [catalog_push, get?_createChanges]
  | built hs hcount hfirst hthere =>
    rw [LakeCatalog.hasTable, hthere] at habsent
    exact absurd rfl habsent

/-! ## One step of a call -/

theorem keeps_createChanges {s : Lake} : Keeps t s (createChanges t columns layout) where
  schema hs := by
    rw [catalog_push]
    exact hasSchema_createChanges hs
  schemaCreated := by
    rintro ⟨c, hc, hcreates⟩
    cases creates_of_mem (List.Subset.refl _) hc hcreates
  table hnone := absurd rfl (hnone (.createTable t columns) List.mem_cons_self)
  tableCreated _ := by
    rw [LakeCatalog.hasTable, catalog_push, get?_createChanges]
    rfl

/-- A step that keeps the table created once, and ends in a stage. -/
structure Stepped (t : QualifiedTable) (columns : List ColumnDefinition) (layout : TableLayout) (s₀ s s' : Lake)
    (session : LakeSession) (p : LakeCall Unit) : Prop where
  once : EnsuredOnce t columns layout s₀ s'
  grows : LakeGrows t s s'
  stage : Stage t columns layout s' session p

variable {s₀ s s' : Lake} {session' : LakeSession} {r : LakeStatement} {k : LakeResult → LakeCall Unit}
  {result : Option LakeResult}

theorem Stage.stay {session : LakeSession} {p : LakeCall Unit} (hI : EnsuredOnce t columns layout s₀ s)
    (h : Stage t columns layout s session p) : Stepped t columns layout s₀ s s session p :=
  ⟨hI, .refl s, h⟩

theorem schema_serve {left : ℕ} (hI : EnsuredOnce t columns layout s₀ s)
    (hleft : left = conflictAttempts - 1 ∨ (catalog s).hasSchema t.schema)
    (hp : schemaCall t columns layout left = .ask r k) (hserve : LakeServe r s .idle s' session' result) :
    Stepped t columns layout s₀ s s' session' (Client.resume r k result) := by
  obtain ⟨k', hk, hok, -⟩ := @schemaCall_asks t columns layout left
  have hask := hk.symm.trans hp
  cases hask
  cases hserve with
  | schemaFound hthere =>
    refine Stage.stay hI ?_
    rw [Client.resume, hok]
    exact .table _ hthere (.inl rfl)
  | schemaNotFound habsent =>
    obtain rfl := hleft.resolve_right habsent
    refine Stage.stay hI ?_
    rw [Client.resume, ← hp]
    exact .creatingSchema (.begin s)

theorem creatingSchema_serve {start : ℕ} (hI : EnsuredOnce t columns layout s₀ s)
    (hstart : SchemaStarted t s start) (hp : schemaCall t columns layout (conflictAttempts - 1) = .ask r k)
    (hserve : LakeServe r s (.single ⟨start, [.createSchema t.schema]⟩) s' session' result) :
    Stepped t columns layout s₀ s s' session' (Client.resume r k result) := by
  obtain ⟨k', hk, hok, hconflict⟩ :=
    @schemaCall_asks t columns layout (conflictAttempts - 1)
  have hask := hk.symm.trans hp
  cases hask
  have hcreates : ∀ c ∈ [LakeChange.createSchema t.schema], ¬ c.CreatesTable t ∧ ¬ c.Touches t := by
    intro c hc
    obtain rfl := List.mem_singleton.1 hc
    exact ⟨fun h => (by cases h), id⟩
  cases hserve with
  | schemaCommitted hfree =>
    have hkeeps := keeps_of_not_touches (s := s) fun c hc => (hcreates c hc).2
    refine ⟨hI.keep (fun c hc => (hcreates c hc).1) hkeeps, ⟨_, rfl, hkeeps⟩, ?_⟩
    rw [Client.resume, hok]
    exact .table _ (hkeeps.schemaCreated ⟨_, List.mem_singleton.2 rfl, rfl⟩) (.inl rfl)
  | schemaLost hclash =>
    obtain ⟨c, hc, c', hc', object, hobject, hobject'⟩ := hclash
    obtain rfl := List.mem_singleton.1 hc
    have hcreated : c'.CreatesSchema t := hobject'.trans hobject.symm
    refine Stage.stay hI ?_
    rw [Client.resume, hconflict 3 rfl]
    exact .schema 3 (.inr (hstart.created ⟨c', hc', hcreated⟩))

theorem table_serve {left : ℕ} (hI : EnsuredOnce t columns layout s₀ s)
    (hschema : (catalog s).hasSchema t.schema) (hleft : left = conflictAttempts - 1 ∨ (catalog s).hasTable t)
    (hp : tableCall t columns layout left = .ask r k) (hserve : LakeServe r s .idle s' session' result) :
    Stepped t columns layout s₀ s s' session' (Client.resume r k result) := by
  obtain ⟨k', hk, hok⟩ := @tableCall_asks t columns layout left
  have hask := hk.symm.trans hp
  cases hask
  cases hserve with
  | begun =>
    refine Stage.stay hI ?_
    rw [Client.resume, hok]
    refine .looking left (.begin hschema) ?_
    rwa [History.snapshot_length]

theorem looking_serve {left start : ℕ} (hI : EnsuredOnce t columns layout s₀ s) (hstart : Started t s start)
    (hleft : left = conflictAttempts - 1 ∨ (s.snapshot LakeCatalog.apply start).hasTable t)
    (hp : inside t columns layout left (createBody t columns layout) = .ask r k)
    (hserve : LakeServe r s (.opened ⟨start, []⟩) s' session' result) :
    Stepped t columns layout s₀ s s' session' (Client.resume r k result) := by
  obtain ⟨k', hk, hrows⟩ := @createBody_asks t columns layout left
  have hask := hk.symm.trans hp
  cases hask
  cases hserve with
  | @listed _ _ _ rows hsound hcomplete =>
    refine Stage.stay hI ?_
    rw [Client.resume, hrows]
    split_ifs with hrow
    · obtain ⟨row, hmem, hkey⟩ := hrow
      refine .leaving left hstart ?_
      have hthere := hsound row hmem
      rwa [LakeCatalog.hasTable, LakeCatalog.get?, hkey] at hthere
    · have habsent : ¬ (s.snapshot LakeCatalog.apply start).hasTable t := fun hthere => hrow (hcomplete hthere)
      obtain rfl := hleft.resolve_right habsent
      exact @Stage.building t columns layout s [] _ rfl start hstart habsent
  | changed hr => cases hr
  | refused hr => cases hr
  | clashed hr => cases hr

theorem push_nil {s : Lake} : s.push [] = s := by rw [History.push, List.append_nil]

/-- The commit of a create. -/
theorem built_serve {start : ℕ} (hI : EnsuredOnce t columns layout s₀ s) (hstart : Started t s start)
    (habsent : ¬ (s.snapshot LakeCatalog.apply start).hasTable t)
    (hp : inside t columns layout (conflictAttempts - 1) (.done (.ok ())) = .ask r k)
    (hserve : LakeServe r s (.opened ⟨start, createChanges t columns layout⟩) s' session' result) :
    Stepped t columns layout s₀ s s' session' (Client.resume r k result) := by
  obtain ⟨k', hk, hok, hconflict⟩ := @commit_asks t columns layout (conflictAttempts - 1)
  have hask := hk.symm.trans hp
  cases hask
  cases hserve with
  | committed hfree =>
    have hnow : ¬ (catalog s).hasTable t := by
      rwa [LakeCatalog.hasTable, hstart.table (not_createdSince_of_not_clashes hfree)]
    refine ⟨hI.build hnow, ⟨_, rfl, keeps_createChanges⟩, ?_⟩
    rw [Client.resume, hok]
    exact .returned (keeps_createChanges.tableCreated ⟨.createTable t columns, List.mem_cons_self, rfl⟩)
  | lost hclash =>
    refine Stage.stay hI ?_
    rw [Client.resume, hconflict 3 rfl]
    exact .table 3 hstart.schemaNow (.inr (hstart.created (createdSince_of_clashes (List.Subset.refl _) hclash)))
  | changed hr => cases hr
  | refused hr => cases hr
  | clashed hr => cases hr

/-- A statement of a create. -/
theorem building_serve {before rest : List LakeStatement} {statement : LakeStatement} {start : ℕ}
    (hI : EnsuredOnce t columns layout s₀ s)
    (hsplit : before ++ statement :: rest = createStatements t columns layout) (hstart : Started t s start)
    (habsent : ¬ (s.snapshot LakeCatalog.apply start).hasTable t)
    (hp : inside t columns layout (conflictAttempts - 1) (runAll (statement :: rest)) = .ask r k)
    (hserve : LakeServe r s (.opened ⟨start, before.filterMap LakeStatement.change⟩) s' session' result) :
    Stepped t columns layout s₀ s s' session' (Client.resume r k result) := by
  obtain ⟨k', hk, hok, herror⟩ := @runAll_asks t columns layout (conflictAttempts - 1) statement rest
  have hask := hk.symm.trans hp
  cases hask
  obtain ⟨change, hchange, hadmits⟩ := createStatements_admitted hsplit hstart.schema habsent
  have hdone : (before ++ [r]).filterMap LakeStatement.change =
      before.filterMap LakeStatement.change ++ [change] := by
    rw [List.filterMap_append, List.filterMap_cons_some hchange, List.filterMap_nil]
  cases hserve with
  | changed hr =>
    obtain rfl := Option.some.inj (hchange.symm.trans hr)
    refine Stage.stay hI ?_
    rw [Client.resume, hok, Transaction.add, ← hdone]
    refine .building ?_ hstart habsent
    rw [List.append_assoc]
    exact hsplit
  | refused hr hrefused =>
    obtain rfl := Option.some.inj (hchange.symm.trans hr)
    exact absurd hadmits hrefused
  | clashed hr hclash =>
    obtain rfl := Option.some.inj (hchange.symm.trans hr)
    have hsub : before ++ [r] ⊆ createStatements t columns layout := by
      rw [← hsplit]
      intro r hr
      simp only [List.mem_append, List.mem_cons, List.not_mem_nil, or_false] at hr ⊢
      exact hr.imp_right Or.inl
    rw [Transaction.add, ← hdone] at hclash
    refine Stage.stay hI ?_
    rw [Client.resume, herror]
    exact .rollingBack hstart.schemaNow (hstart.created (createdSince_of_clashes hsub hclash))
  | listed => cases hchange
  | committed => cases hchange
  | lost => cases hchange
  | rolledBack => cases hchange

/-- The commit of a call that has found the table. -/
theorem leaving_serve {left start : ℕ} (hI : EnsuredOnce t columns layout s₀ s) (hstart : Started t s start)
    (hthere : (s.snapshot LakeCatalog.apply start).hasTable t)
    (hp : inside t columns layout left (.done (.ok ())) = .ask r k)
    (hserve : LakeServe r s (.opened ⟨start, []⟩) s' session' result) :
    Stepped t columns layout s₀ s s' session' (Client.resume r k result) := by
  obtain ⟨k', hk, hok, -⟩ := @commit_asks t columns layout left
  have hask := hk.symm.trans hp
  cases hask
  cases hserve with
  | committed hfree =>
    rw [push_nil]
    refine Stage.stay hI ?_
    rw [Client.resume, hok]
    exact .returned (hstart.hasTable hthere)
  | lost hclash => exact absurd hclash (Transaction.not_clashes_nil _)
  | changed hr => cases hr
  | refused hr => cases hr
  | clashed hr => cases hr

theorem rollingBack_serve {tx : LakeTransaction} (hI : EnsuredOnce t columns layout s₀ s)
    (hschema : (catalog s).hasSchema t.schema) (hthere : (catalog s).hasTable t)
    (hp : inside t columns layout (conflictAttempts - 1) (.done (.error .conflict)) = .ask r k)
    (hserve : LakeServe r s (.opened tx) s' session' result) :
    Stepped t columns layout s₀ s s' session' (Client.resume r k result) := by
  obtain ⟨k', hk, hback⟩ := @rollback_asks t columns layout 3
  have hask := hk.symm.trans hp
  cases hask
  cases hserve with
  | rolledBack =>
    refine Stage.stay hI ?_
    rw [Client.resume, hback]
    exact .table 3 hschema (.inr hthere)
  | changed hr => cases hr
  | refused hr => cases hr
  | clashed hr => cases hr

/-- **One step of a call.** -/
theorem Stage.serve {session : LakeSession} (hI : EnsuredOnce t columns layout s₀ s)
    (h : Stage t columns layout s session (.ask r k)) (hserve : LakeServe r s session s' session' result) :
    Stepped t columns layout s₀ s s' session' (Client.resume r k result) := by
  generalize hp : Client.ask r k = p at h
  cases h with
  | schema left hleft => exact schema_serve hI hleft hp.symm hserve
  | creatingSchema hstart => exact creatingSchema_serve hI hstart hp.symm hserve
  | table left hschema hleft => exact table_serve hI hschema hleft hp.symm hserve
  | looking left hstart hleft => exact looking_serve hI hstart hleft hp.symm hserve
  | @building before after hsplit start hstart habsent =>
    cases after with
    | nil =>
      rw [List.append_nil] at hsplit
      subst hsplit
      exact built_serve hI hstart habsent hp.symm hserve
    | cons statement rest => exact building_serve hI hsplit hstart habsent hp.symm hserve
  | leaving left hstart hthere => exact leaving_serve hI hstart hthere hp.symm hserve
  | rollingBack hschema hthere => exact rollingBack_serve hI hschema hthere hp.symm hserve
  | returned => cases hp

/-! ## A call is never stuck -/

/-- A create is done with its statement, or it clashes. -/
theorem building_can_step {before rest : List LakeStatement} {statement : LakeStatement} {start : ℕ}
    (hsplit : before ++ statement :: rest = createStatements t columns layout) (hstart : Started t s start)
    (habsent : ¬ (s.snapshot LakeCatalog.apply start).hasTable t) :
    ∃ session' result,
      LakeServe statement s (.opened ⟨start, before.filterMap LakeStatement.change⟩) s session' result := by
  obtain ⟨change, hchange, hadmits⟩ := createStatements_admitted hsplit hstart.schema habsent
  exact ⟨_, _, .changed hchange hadmits⟩

theorem commit_can_step {tx : LakeTransaction} :
    ∃ s' session' result, LakeServe .commit s (.opened tx) s' session' result := by
  by_cases hclash : tx.Clashes LakeChange.creates s
  · exact ⟨_, _, _, .lost hclash⟩
  · exact ⟨_, _, _, .committed hclash⟩

theorem looking_can_step {tx : LakeTransaction} :
    ∃ s' session' result, LakeServe (.tableExists t) s (.opened tx) s' session' result := by
  by_cases hthere : (tx.view LakeCatalog.apply s).hasTable t
  · refine ⟨_, _, _, @LakeServe.listed s t tx [(t.schema, t.table)] ?_ fun _ => ?_⟩
    · rintro row hrow
      obtain rfl := List.mem_singleton.1 hrow
      exact hthere
    · exact ⟨_, List.mem_singleton.2 rfl, rfl⟩
  · exact ⟨_, _, _, @LakeServe.listed s t tx [] (fun row hrow => by cases hrow) fun h => absurd h hthere⟩

/-- **A call is never stuck**: the server can go on with it, or it has returned. -/
theorem Stage.can_step {session : LakeSession} {p : LakeCall Unit} (h : Stage t columns layout s session p) :
    (∃ r k, p = .ask r k ∧ ∃ s' session' result, LakeServe r s session s' session' result) ∨
      p = .done (.ok ()) ∧ (catalog s).hasTable t := by
  cases h with
  | schema left =>
    obtain ⟨k, hk, -⟩ := @schemaCall_asks t columns layout left
    refine .inl ⟨_, k, hk, ?_⟩
    by_cases hthere : (catalog s).hasSchema t.schema
    · exact ⟨_, _, _, .schemaFound hthere⟩
    · exact ⟨_, _, _, .schemaNotFound hthere⟩
  | @creatingSchema start =>
    obtain ⟨k, hk, -⟩ := @schemaCall_asks t columns layout (conflictAttempts - 1)
    refine .inl ⟨_, k, hk, ?_⟩
    by_cases hclash : Transaction.Clashes LakeChange.creates ⟨start, [.createSchema t.schema]⟩ s
    · exact ⟨_, _, _, .schemaLost hclash⟩
    · exact ⟨_, _, _, .schemaCommitted hclash⟩
  | table left =>
    obtain ⟨k, hk, -⟩ := @tableCall_asks t columns layout left
    exact .inl ⟨_, k, hk, _, _, _, .begun⟩
  | looking left =>
    obtain ⟨k, hk, -⟩ := @createBody_asks t columns layout left
    exact .inl ⟨_, k, hk, looking_can_step⟩
  | @building before after hsplit start hstart habsent =>
    cases after with
    | nil =>
      obtain ⟨k, hk, -⟩ := @commit_asks t columns layout (conflictAttempts - 1)
      exact .inl ⟨_, k, hk, commit_can_step⟩
    | cons statement rest =>
      obtain ⟨k, hk, -⟩ := @runAll_asks t columns layout (conflictAttempts - 1) statement rest
      exact .inl ⟨_, k, hk, _, building_can_step hsplit hstart habsent⟩
  | leaving left =>
    obtain ⟨k, hk, -⟩ := @commit_asks t columns layout left
    exact .inl ⟨_, k, hk, commit_can_step⟩
  | rollingBack =>
    obtain ⟨k, hk, -⟩ := @rollback_asks t columns layout 3
    exact .inl ⟨_, k, hk, _, _, _, .rolledBack⟩
  | returned hthere => exact .inr ⟨rfl, hthere⟩

/-! ## Any number of calls -/

/-- Other parties commit what does not touch the table. -/
def OtherWriters (t : QualifiedTable) (s s' : Lake) : Prop :=
  ∃ new, s' = s.push new ∧ ∀ c ∈ new, ¬ c.Touches t

/-- The concurrent calls for one target. -/
abbrev EnsureCalls (ι : Type) :=
  Pool ι Lake LakeSession LakeStatement LakeResult (Except LakeError Unit)

/-- The calls at their start. -/
def ensureCalls (ι : Type) (t : QualifiedTable) (columns : List ColumnDefinition) (layout : TableLayout)
    (s₀ : Lake) : EnsureCalls ι where
  shared := s₀
  session _ := .idle
  client _ := ensureTable t columns layout

/-- **Where the calls can be** in any run. -/
theorem ensureTable_invariant {ι : Type} [DecidableEq ι] {c : EnsureCalls ι}
    (hrun : Pool.Run LakeServe (OtherWriters t) (ensureCalls ι t columns layout s₀) c) :
    EnsuredOnce t columns layout s₀ c.shared ∧ ∀ i, Stage t columns layout c.shared (c.session i) (c.client i) := by
  refine Pool.invariant_shared (EnsuredOnce t columns layout s₀) (LakeGrows t) (Stage t columns layout)
    ?_ ?_ (fun hs h => h.grows hs) (.refl s₀) (fun _ => .schema _ (.inl rfl)) hrun
  · intro r k s session s' session' result hI hstage hserve
    have hstep := hstage.serve hI hserve
    exact ⟨hstep.once, hstep.grows, hstep.stage⟩
  · rintro s s' hI ⟨new, rfl, hnew⟩
    have hkeeps := keeps_of_not_touches (s := s) hnew
    exact ⟨hI.keep (fun c hc hcreates => hnew c hc hcreates.touches) hkeeps, new, rfl, hkeeps⟩

/-- **`ensure_table` under concurrency**: in every committed state the table is as it
    was at first, or it has been created by one commit, with its whole layout; a call
    that has come to its end has not failed, and the table is there; and any other
    call can go on. -/
theorem ensureTable_concurrent {ι : Type} [DecidableEq ι] {c : EnsureCalls ι}
    (hrun : Pool.Run LakeServe (OtherWriters t) (ensureCalls ι t columns layout s₀) c) :
    EnsuredOnce t columns layout s₀ c.shared ∧
      (∀ i outcome, c.client i = .done outcome → outcome = .ok () ∧ (catalog c.shared).hasTable t) ∧
      ∀ i, (∀ outcome, c.client i ≠ .done outcome) → ∃ c', Pool.Serves LakeServe i c c' := by
  obtain ⟨honce, hstage⟩ := ensureTable_invariant hrun
  refine ⟨honce, fun i outcome hdone => ?_, fun i hnot => ?_⟩
  · rcases (hstage i).can_step with ⟨r, k, hask, -⟩ | ⟨hreturned, hthere⟩
    · cases hask.symm.trans hdone
    · cases hreturned.symm.trans hdone
      exact ⟨rfl, hthere⟩
  · rcases (hstage i).can_step with ⟨r, k, hask, s', session', result, hserve⟩ | ⟨hreturned, -⟩
    · exact ⟨_, .intro hask hserve⟩
    · exact absurd hreturned (hnot _)

/-- **Two calls**, of which one creates the table and its partitions, and returns. -/
theorem ensureTable_concurrent_two :
    let t : QualifiedTable := ⟨py "main", py "orders"⟩
    let columns : List ColumnDefinition := [⟨py "day", py "DATE", true⟩]
    let layout : TableLayout := ⟨[⟨py "day", py "identity", none⟩], []⟩
    let s₀ : Lake := ⟨⟨fun schema => decide (schema = py "main"), fun _ => none⟩, []⟩
    ∃ c, Pool.Run LakeServe (OtherWriters t) (ensureCalls Bool t columns layout s₀) c ∧
      c.client true = .done (.ok ()) ∧ (catalog c.shared).get? t = some ⟨columns, layout⟩ := by
  intro t columns layout s₀
  let c₀ : EnsureCalls Bool := ensureCalls Bool t columns layout s₀
  let next (c : EnsureCalls Bool) (s : Lake) (session : LakeSession) (p : LakeCall Unit) : EnsureCalls Bool :=
    ⟨s, Function.update c.session true session, Function.update c.client true p⟩
  let create : LakeChange := .createTable t columns
  let partition : LakeChange := .setPartitionedBy t layout.partitionKeys
  let c₁ := next c₀ s₀ .idle (tableCall t columns layout 4)
  let c₂ := next c₁ s₀ (.opened ⟨0, []⟩) (inside t columns layout 4 (createBody t columns layout))
  let c₃ := next c₂ s₀ (.opened ⟨0, []⟩)
    (inside t columns layout 4 (runAll (createStatements t columns layout)))
  let c₄ := next c₃ s₀ (.opened ⟨0, [create]⟩)
    (inside t columns layout 4 (runAll [.setPartitionedBy t layout.partitionKeys]))
  let c₅ := next c₄ s₀ (.opened ⟨0, [create, partition]⟩) (inside t columns layout 4 (runAll []))
  let c₆ := next c₅ (s₀.push [create, partition]) .idle (.done (.ok ()))
  have hschema : (catalog s₀).hasSchema t.schema :=
    (by decide : decide (asciiLower (py "main") = py "main") = true)
  have habsent : ¬ (catalog s₀).hasTable t := Bool.false_ne_true
  have h₁ : Pool.Serves LakeServe true c₀ c₁ := Pool.Serves.to rfl (.schemaFound hschema) rfl
  obtain ⟨k, hk, hbody⟩ := @tableCall_asks t columns layout 4
  have h₂ : Pool.Serves LakeServe true c₁ c₂ := 
    Pool.Serves.to hk .begun (show Client.resume _ k (some (.ok [])) = _ from hbody [])
  have hlisted : LakeServe (.tableExists t) s₀ (.opened ⟨0, []⟩) s₀ (.opened ⟨0, []⟩) (some (.ok [])) :=
    .listed (fun row hrow => absurd hrow List.not_mem_nil) fun h => absurd h habsent
  obtain ⟨k', hk', hrows⟩ := @createBody_asks t columns layout 4
  have hnone := (hrows []).trans (if_neg fun ⟨row, hrow, _⟩ => absurd hrow List.not_mem_nil)
  have h₃ : Pool.Serves LakeServe true c₂ c₃ :=
    Pool.Serves.to hk' hlisted (show Client.resume _ k' (some (.ok [])) = _ from hnone)
  have h₄ : Pool.Serves LakeServe true c₃ c₄ := Pool.Serves.to rfl (.changed rfl ⟨hschema, habsent⟩) rfl
  have h₅ : Pool.Serves LakeServe true c₄ c₅ := Pool.Serves.to rfl (.changed rfl rfl) rfl
  have h₆ : Pool.Serves LakeServe true c₅ c₆ :=
    Pool.Serves.to rfl (.committed fun ⟨_, _, _, hc, _⟩ => by cases hc) rfl
  have hrun : Pool.Run LakeServe (OtherWriters t) c₀ c₆ :=
    (((((Relation.ReflTransGen.single (.client h₁)).tail (.client h₂)).tail (.client h₃)).tail
      (.client h₄)).tail (.client h₅)).tail (.client h₆)
  refine ⟨c₆, hrun, rfl, ?_⟩
  obtain ⟨honce, hreturned, -⟩ := ensureTable_concurrent hrun
  cases honce with
  | untouched hnew hcount hget =>
    have hthere := (hreturned true _ rfl).2
    rw [LakeCatalog.hasTable, hget] at hthere
    exact absurd hthere habsent
  | built hnew hcount hfirst hget => exact hget

end

end ContinuoRuntime
