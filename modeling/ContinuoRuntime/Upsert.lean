/-
  `upsert` on Postgres, Trino and DuckDB: three ways to write the same rows.

  The port checks the keys; then Postgres inserts pages `ON CONFLICT` in a transaction,
  DuckDB merges a view of the data, and Trino merges a stage.

  * `pgUpsert`, `lakeUpsert`: the first two (the third is `upsertTrino`);
  * `Upsertable`: a table, and data that the port accepts for it;
  * `upsert_same`: **every engine overrides the rows by key**.
-/
import ContinuoRuntime.Trino.Staged
import ContinuoRuntime.UpsertKeys
import ContinuoRuntime.Loading

namespace ContinuoRuntime

/-! ## The servers with transactions -/

/-- The statements of `_upsert`. -/
inductive UpsertStatement where
  | start | commit | rollback
  /-- `INSERT INTO table (columns) VALUES … ON CONFLICT …` -/
  | insertOnConflict (columns : List Str) (tuples : List (List (Option ArrowValue)))
      (clause : Rows.ConflictClause Str)
  /-- the Arrow table as a view of the connection -/
  | register (rows : List TableRow)
  | unregister
  /-- `MERGE INTO table AS t USING view AS s ON …` -/
  | mergeView (clauses : Rows.MergeClauses Str)

/-- One connection, as far as the table is concerned. -/
structure UpsertSession where
  committed : List TableRow
  /-- the rows as the open transaction leaves them -/
  pending : Option (List TableRow)
  view : Option (List TableRow)
  sent : List UpsertStatement

/-- A server with this table. -/
structure UpsertServer where
  /-- equality of values that are not null -/
  eq : ArrowValue → ArrowValue → Bool
  /-- the `PRIMARY KEY` of the table, on Postgres -/
  primaryKey : List Str
  refusal : UpsertStatement → Exc

namespace UpsertSession

/-- The rows that the next statement sees. -/
def rows (s : UpsertSession) : List TableRow := s.pending.getD s.committed

/-- Outside a transaction, a change is committed at once. -/
def update (s : UpsertSession) (rows : List TableRow) : UpsertSession :=
  match s.pending with
  | some _ => { s with pending := some rows }
  | none => { s with committed := rows }

/-- The statement is on its way. -/
def send (s : UpsertSession) (stmt : UpsertStatement) : UpsertSession := { s with sent := s.sent ++ [stmt] }

/-- What a statement does; `none` if the server refuses it.  Postgres takes a conflict on its
    primary key only; DuckLake does not notice a key that the data repeats. -/
def apply (server : UpsertServer) (s : UpsertSession) : UpsertStatement → Option UpsertSession
  | .start => some { s with pending := some s.rows }
  | .commit => some { s with committed := s.rows, pending := none }
  | .rollback => some { s with pending := none }
  | .insertOnConflict columns tuples clause =>
    if ColumnList columns ∧ clause.target ⊆ server.primaryKey ∧ server.primaryKey ⊆ clause.target then
      (Rows.conflictInsert server.eq clause s.rows (tuples.map (tupleRow columns))).map s.update
    else none
  | .register rows => some { s with view := some rows }
  | .unregister => some { s with view := none }
  | .mergeView clauses =>
    match s.view with
    | some rows =>
      if clauses.on ≠ [] ∧ ColumnList clauses.inserts then
        some (s.update (Rows.merged server.eq clauses s.rows rows))
      else none
    | none => none

end UpsertSession

/-- A part of `_upsert`. -/
abbrev UpsertProg (α : Type) := Prog Exc UpsertSession α

variable (server : UpsertServer)

/-- A statement of the connection. -/
def sendUpsert (stmt : UpsertStatement) : UpsertProg Unit := fun s =>
  match (s.send stmt).apply server stmt with
  | some s' => (.ok (), s')
  | none => (.error (server.refusal stmt), s.send stmt)

/-! ## Postgres -/

/-- What the clause of `_on_conflict` says. -/
def conflictClause (columns primaryKey : List Str) : Rows.ConflictClause Str where
  target := primaryKey
  updates := columns.filter fun name => name ∉ primaryKey

/-- The statement of `_insert_rows` for one page. -/
def insertPage (data : ArrowTable) (primaryKey : List Str) (page : List TableRow) : UpsertStatement :=
  .insertOnConflict data.columnNames (page.map fun row => data.columnNames.map row)
    (conflictClause data.columnNames primaryKey)

/-- `_upsert` of the Postgres adapter. -/
def pgUpsert (driverError : ExcClass → Bool) (data : ArrowTable) (primaryKey : List Str) : UpsertProg Unit :=
  if data.numRows = 0 then pure ()
  else do
    sendUpsert server .start
    Prog.handle (do
      (pages data.toPylist).forM fun page => sendUpsert server (insertPage data primaryKey page)
      sendUpsert server .commit) fun e =>
        if e.cls.isException then do
          (sendUpsert server .rollback).handle fun e' => if driverError e'.cls then pure () else Prog.raise e'
          Prog.raise e
        else Prog.raise e

/-! ## DuckDB -/

/-- `merge_arrow`. -/
def mergeArrow (driverError : ExcClass → Bool) (guard : Exc → Exc) (data : ArrowTable) (primaryKey : List Str) :
    UpsertProg Unit := do
  (sendUpsert server (.register data.toPylist)).handle fun e => Prog.raise (guard e)
  Prog.always (if primaryKey = [] then Prog.raise (.text .valueError (py "merge_from needs a non-empty key"))
    else (sendUpsert server (.mergeView (mergeClauses data.columnNames primaryKey))).handle fun e =>
      Prog.raise (guard e))
    ((sendUpsert server .unregister).handle fun e => if driverError e.cls then pure () else Prog.raise e)

/-- `_upsert` of the DuckDB adapter. -/
def lakeUpsert (driverError : ExcClass → Bool) (guard : Exc → Exc) (data : ArrowTable) (primaryKey : List Str) :
    UpsertProg Unit :=
  if data.numRows = 0 then pure ()
  else do
    (sendUpsert server .start).handle fun e => Prog.raise (guard e)
    (mergeArrow server driverError guard data primaryKey).handle fun e => do
      (sendUpsert server .rollback).handle fun e' => if driverError e'.cls then pure () else Prog.raise e'
      Prog.raise e
    (sendUpsert server .commit).handle fun e => Prog.raise (guard e)

/-! ## `UpsertCapable.upsert` -/

section
variable (reprStr : Str → Str) (strCell : Option ArrowValue → Str)

/-- `upsert`: the keys are checked, then the engine writes. -/
def upsertChecked {σ : Type} (data : ArrowTable) (primaryKey : List Str) (write : Prog Exc σ Unit) : Prog Exc σ Unit := do
  Prog.lift (ensureUniqueKey reprStr strCell data primaryKey)
  write

/-- A table and the data for it: data with the columns of the table, keys that are not null,
    unique prior keys, and keys that the port accepts; the warehouse tells key values apart
    as Arrow does. -/
structure Upsertable (eq : ArrowValue → ArrowValue → Bool) (columns primaryKey : List Str) (prior : List TableRow)
    (data : ArrowTable) : Prop where
  names : ∀ c, c ∈ data.columnNames ↔ c ∈ columns
  distinct : data.columnNames.Nodup
  keyed : ∀ r ∈ prior, Rows.Keyed columns primaryKey r
  unique : Rows.UniqueKeys (Rows.keyOf primaryKey) prior
  nonnull : ∀ row ∈ data.toPylist, ∀ c ∈ primaryKey, ∃ v, row c = some v
  equality : Rows.KeyEquality eq primaryKey (prior ++ data.toPylist)
  accepted : ensureUniqueKey reprStr strCell data primaryKey = .ok ()

end

/-! ## The check -/

section
variable {reprStr : Str → Str} {strCell : Option ArrowValue → Str} {data : ArrowTable} {primaryKey : List Str}

/-- A row, by a column that has its name alone. -/
theorem toPylist_column {name : Str} {column : ArrowColumn data.numRows} (h : data.column name = .ok column)
    (i : Fin data.numRows) : (match (data.columns.filter fun c => c.name = name).getLast? with
      | some column => column.value i
      | none => none) = column.value i := by
  unfold ArrowTable.column at h
  split at h
  · cases h
  next c hc =>
    cases h
    rw [hc]
    rfl
  · cases h

/-- The keys of the rows are those that the check compares. -/
theorem map_keyOf_toPylist {key : List (ArrowColumn data.numRows)} (h : primaryKey.mapM data.column = .ok key) :
    data.toPylist.map (Rows.keyOf primaryKey) = List.ofFn (rowKey key) := by
  unfold ArrowTable.toPylist
  rw [List.map_ofFn]
  refine congrArg List.ofFn (funext fun i => ?_)
  have hall := mapM_eq_ok.1 h
  clear h
  unfold rowKey Rows.keyOf
  rw [Function.comp_apply]
  induction hall with
  | nil => rfl
  | cons hcolumn _ ih => exact congrArg₂ List.cons (toPylist_column hcolumn i) ih

/-- **The check** accepts data with unique keys only. -/
theorem uniqueKeys_of_accepted (h : ensureUniqueKey reprStr strCell data primaryKey = .ok ()) :
    Rows.UniqueKeys (Rows.keyOf primaryKey) data.toPylist := by
  obtain ⟨-, key, hkey, -, hinjective⟩ := ensureUniqueKey_eq_ok_iff.1 h
  unfold Rows.UniqueKeys
  rw [map_keyOf_toPylist hkey]
  exact List.nodup_ofFn.2 hinjective

variable {eq : ArrowValue → ArrowValue → Bool} {columns : List Str} {prior : List TableRow}

theorem Upsertable.comparable (h : Upsertable reprStr strCell eq columns primaryKey prior data) :
    Rows.Comparable eq columns primaryKey prior data.toPylist where
  keyed r hr := by
    rcases List.mem_append.1 hr with hr | hr
    · exact h.keyed r hr
    · exact ⟨fun c hc => toPylist_within hr fun hmem => hc ((h.names c).1 hmem), h.nonnull r hr⟩
  equality := h.equality
  prior := h.unique
  data := uniqueKeys_of_accepted h.accepted

theorem Upsertable.key_mem (h : Upsertable reprStr strCell eq columns primaryKey prior data) {c : Str}
    (hc : c ∈ primaryKey) : c ∈ data.columnNames := by
  obtain ⟨-, key, hkey, -⟩ := ensureUniqueKey_eq_ok_iff.1 h.accepted
  obtain ⟨column, -, hcolumn⟩ := mem_mapM_of_mem hkey hc
  obtain ⟨hmem, rfl⟩ := ArrowTable.mem_of_column hcolumn
  exact List.mem_map.2 ⟨column, hmem, rfl⟩

theorem Upsertable.columnList (h : Upsertable reprStr strCell eq columns primaryKey prior data) :
    ColumnList data.columnNames := by
  refine ⟨fun hnil => ?_, h.distinct⟩
  obtain ⟨hne, -⟩ := ensureUniqueKey_eq_ok_iff.1 h.accepted
  obtain ⟨c, hc⟩ := List.exists_mem_of_ne_nil _ hne
  have hmem := h.key_mem hc
  rw [hnil] at hmem
  cases hmem

/-- The table and the data of another step: rows that are there already. -/
theorem Upsertable.of_mem (h : Upsertable reprStr strCell eq columns primaryKey prior data) {rows : List TableRow}
    {data' : ArrowTable} (hrows : ∀ r ∈ rows, r ∈ prior ++ data.toPylist)
    (hunique : Rows.UniqueKeys (Rows.keyOf primaryKey) rows) (hdata : ∀ r ∈ data'.toPylist, r ∈ data.toPylist)
    (hnames : ∀ c, c ∈ data'.columnNames ↔ c ∈ columns) (hdistinct : data'.columnNames.Nodup)
    (haccepted : ensureUniqueKey reprStr strCell data' primaryKey = .ok ()) :
    Upsertable reprStr strCell eq columns primaryKey rows data' where
  names := hnames
  distinct := hdistinct
  keyed r hr := h.comparable.keyed r (hrows r hr)
  unique := hunique
  nonnull r hr := h.nonnull r (hdata r hr)
  equality := by
    have hmem : ∀ r ∈ rows ++ data'.toPylist, r ∈ prior ++ data.toPylist := fun r hr =>
      (List.mem_append.1 hr).elim (hrows r) fun hr => List.mem_append_right _ (hdata r hr)
    exact fun r hr s hs => h.equality r (hmem r hr) s (hmem s hs)
  accepted := haccepted

/-- Where every column is in the key, a key is a whole row. -/
theorem Upsertable.whole (h : Upsertable reprStr strCell eq columns primaryKey prior data)
    (hkey : ∀ c ∈ columns, c ∈ primaryKey) {r s : TableRow} (hr : r ∈ prior) (hs : s ∈ data.toPylist)
    (hsame : Rows.keyOf primaryKey r = Rows.keyOf primaryKey s) : r = s := by
  funext c
  by_cases hc : c ∈ columns
  · exact Rows.keyOf_eq_iff.1 hsame c (hkey c hc)
  · rw [(h.comparable.keyed r (List.mem_append_left _ hr)).within c hc,
      (h.comparable.keyed s (List.mem_append_right _ hs)).within c hc]

end

/-! ## The transactions -/

section
variable {server : UpsertServer} {reprStr : Str → Str} {strCell : Option ArrowValue → Str}
  {columns primaryKey : List Str} {prior : List TableRow} {data : ArrowTable}

/-- A statement that the server does not refuse. -/
theorem sendUpsert_ok {stmt : UpsertStatement} {P Q : UpsertSession → Prop} {R : Exc → UpsertSession → Prop}
    (h : ∀ s, P s → ∃ s', (s.send stmt).apply server stmt = some s' ∧ Q s') :
    Prog.Triple P (sendUpsert server stmt) (fun _ => Q) R := by
  intro s hs
  obtain ⟨s', happly, hQ⟩ := h s hs
  unfold sendUpsert
  rw [happly]
  refine ⟨fun a s'' h => ?_, fun e s'' h => (by cases h)⟩
  cases h
  exact hQ

/-- Before the transaction, and behind it. -/
structure Idle (rows : List TableRow) (s : UpsertSession) : Prop where
  committed : s.committed = rows
  pending : s.pending = none

/-- Inside the transaction, which has made these rows of the table. -/
structure Inside (prior rows : List TableRow) (s : UpsertSession) : Prop where
  committed : s.committed = prior
  pending : s.pending = some rows

theorem Inside.rows {rows : List TableRow} {s : UpsertSession} (h : Inside prior rows s) {stmt : UpsertStatement} :
    (s.send stmt).rows = rows := by
  unfold UpsertSession.rows
  rw [show (s.send stmt).pending = some rows from h.pending]
  rfl

theorem Inside.update {rows : List TableRow} {s : UpsertSession} (h : Inside prior rows s) {stmt : UpsertStatement}
    (rows' : List TableRow) : Inside prior rows' ((s.send stmt).update rows') := by
  unfold UpsertSession.update
  rw [show (s.send stmt).pending = some rows from h.pending]
  exact ⟨h.committed, rfl⟩

theorem start_ok {R : Exc → UpsertSession → Prop} :
    Prog.Triple (Idle prior) (sendUpsert server .start) (fun _ => Inside prior prior) R := by
  refine sendUpsert_ok fun s hs => ⟨_, rfl, hs.committed, congrArg some ?_⟩
  unfold UpsertSession.rows
  rw [show (s.send .start).pending = none from hs.pending]
  exact hs.committed

theorem commit_ok {rows : List TableRow} {R : Exc → UpsertSession → Prop} :
    Prog.Triple (Inside prior rows) (sendUpsert server .commit) (fun _ => Idle rows) R := by
  exact sendUpsert_ok fun s hs => ⟨_, rfl, hs.rows, rfl⟩

theorem conflictClause_upserts (names : ∀ c, c ∈ data.columnNames ↔ c ∈ columns) :
    (conflictClause data.columnNames primaryKey).Upserts columns primaryKey where
  target := rfl
  updates c := by
    unfold conflictClause
    rw [List.mem_filter, decide_eq_true_eq, names]

theorem mergeClauses_upserts (names : ∀ c, c ∈ data.columnNames ↔ c ∈ columns) :
    (mergeClauses data.columnNames primaryKey).Upserts columns primaryKey where
  on := rfl
  updates c := by
    unfold mergeClauses
    rw [List.mem_filter, decide_eq_true_eq, names]
  inserts := names

/-- One page more. -/
theorem insertPage_ok (h : Upsertable reprStr strCell server.eq columns primaryKey prior data)
    (hkey : ∀ c, c ∈ server.primaryKey ↔ c ∈ primaryKey) {done page rest : List TableRow}
    (hdata : data.toPylist = done ++ (page ++ rest)) {R : Exc → UpsertSession → Prop} :
    Prog.Triple (fun s => ∃ rows, Inside prior rows s ∧ rows.Perm (Rows.override (Rows.keyOf primaryKey) prior done))
      (sendUpsert server (insertPage data primaryKey page))
      (fun _ s => ∃ rows, Inside prior rows s ∧
        rows.Perm (Rows.override (Rows.keyOf primaryKey) prior (done ++ page))) R := by
  have hcomparable : Rows.Comparable server.eq columns primaryKey prior (done ++ page) := by
    refine h.comparable.of_sublist ?_
    rw [hdata, ← List.append_assoc]
    exact List.sublist_append_left _ _
  have htuples : (page.map fun row => data.columnNames.map row).map (tupleRow data.columnNames) = page := by
    rw [List.map_map]
    refine (List.map_congr_left fun row hrow => ?_).trans (List.map_id _)
    refine tupleRow_map fun c hc => toPylist_within ?_ hc
    rw [hdata]
    exact List.mem_append_right _ (List.mem_append_left _ hrow)
  refine sendUpsert_ok fun s hs => ?_
  obtain ⟨rows, hinside, hrows⟩ := hs
  obtain ⟨rows', hinsert, hrows'⟩ :=
    Rows.conflictInsert_perm (conflictClause_upserts h.names) (hcomparable.override hrows)
  refine ⟨(s.send (insertPage data primaryKey page)).update rows', ?_, rows', hinside.update rows', ?_⟩
  · rw [insertPage, UpsertSession.apply, if_pos ⟨h.columnList, fun c hc => (hkey c).2 hc, fun c hc => (hkey c).1 hc⟩,
      hinside.rows, htuples, hinsert]
    rfl
  · rw [Rows.override_append hcomparable.data]
    exact hrows'.trans (Rows.override_perm_left hrows)

/-- **The pages** of the Postgres adapter. -/
theorem pages_ok (h : Upsertable reprStr strCell server.eq columns primaryKey prior data)
    (hkey : ∀ c, c ∈ server.primaryKey ↔ c ∈ primaryKey) {R : Exc → UpsertSession → Prop} :
    Prog.Triple (Inside prior prior)
      ((pages data.toPylist).forM fun page => sendUpsert server (insertPage data primaryKey page))
      (fun _ s => ∃ rows, Inside prior rows s ∧
        rows.Perm (Rows.override (Rows.keyOf primaryKey) prior data.toPylist)) R := by
  have hflatten := flatten_pages data.toPylist
  have hloop := @Prog.Triple.forM Exc UpsertSession (List TableRow)
    (fun page => sendUpsert server (insertPage data primaryKey page)) R
    (fun done s => ∃ rows, Inside prior rows s ∧
      rows.Perm (Rows.override (Rows.keyOf primaryKey) prior done.flatten)) [] (pages data.toPylist) ?_
  · rw [List.nil_append, hflatten] at hloop
    refine hloop.mono (fun s hs => ⟨prior, hs, ?_⟩) (fun _ _ hs => hs) fun _ _ hs => hs
    exact List.Perm.of_eq (Rows.override_nil _ _).symm
  intro before page after hsplit
  rw [List.nil_append] at hsplit
  have hdata : data.toPylist = before.flatten ++ (page ++ after.flatten) := by
    rw [← hflatten, hsplit, List.flatten_append, List.flatten_cons]
  rw [List.flatten_append, List.flatten_singleton]
  exact insertPage_ok h hkey hdata

/-- The table that an upsert is for. -/
def Overridden (primaryKey : List Str) (prior data : List TableRow) (s : UpsertSession) : Prop :=
  ∃ rows, Idle rows s ∧ rows.Perm (Rows.override (Rows.keyOf primaryKey) prior data)

/-- A table without rows to write stays. -/
theorem override_toPylist_of_empty (h : data.numRows = 0) :
    Rows.override (Rows.keyOf primaryKey) prior data.toPylist = prior := by
  rw [List.length_eq_zero_iff.1 ((length_toPylist data).trans h), Rows.override_nil]

/-- **Postgres** overrides. -/
theorem pgUpsert_ok (h : Upsertable reprStr strCell server.eq columns primaryKey prior data)
    (hkey : ∀ c, c ∈ server.primaryKey ↔ c ∈ primaryKey) {driverError : ExcClass → Bool} :
    Prog.Triple (Idle prior) (pgUpsert server driverError data primaryKey)
      (fun _ => Overridden primaryKey prior data.toPylist) fun _ _ => False := by
  unfold pgUpsert
  split_ifs with hrows
  · refine Prog.Triple.pure fun s hs => ⟨prior, hs, ?_⟩
    rw [override_toPylist_of_empty hrows]
  refine Prog.Triple.bind start_ok fun _ => ?_
  refine Prog.Triple.handle_of_never ?_
  refine Prog.Triple.bind (pages_ok h hkey) fun _ s hs => ?_
  obtain ⟨rows, hinside, hperm⟩ := hs
  exact (commit_ok.mono (fun s hs => hs) (fun _ s hs => ⟨rows, hs, hperm⟩) fun _ _ hs => hs) s hinside

/-- The `MERGE` of the view. -/
theorem mergeView_ok (h : Upsertable reprStr strCell server.eq columns primaryKey prior data)
    {R : Exc → UpsertSession → Prop} :
    Prog.Triple (fun s => Inside prior prior s ∧ s.view = some data.toPylist)
      (sendUpsert server (.mergeView (mergeClauses data.columnNames primaryKey)))
      (fun _ => Inside prior (Rows.merged server.eq (mergeClauses data.columnNames primaryKey) prior data.toPylist)) R := by
  obtain ⟨hne, -⟩ := ensureUniqueKey_eq_ok_iff.1 h.accepted
  refine sendUpsert_ok fun s hs => ?_
  obtain ⟨hinside, hview⟩ := hs
  refine ⟨(s.send (.mergeView (mergeClauses data.columnNames primaryKey))).update _, ?_, hinside.update _⟩
  rw [UpsertSession.apply, show (s.send _).view = some data.toPylist from hview]
  dsimp only
  rw [if_pos ⟨hne, h.columnList⟩, hinside.rows]

/-- **DuckDB** overrides. -/
theorem lakeUpsert_ok (h : Upsertable reprStr strCell server.eq columns primaryKey prior data)
    {driverError : ExcClass → Bool} {guard : Exc → Exc} :
    Prog.Triple (Idle prior) (lakeUpsert server driverError guard data primaryKey)
      (fun _ => Overridden primaryKey prior data.toPylist) fun _ _ => False := by
  obtain ⟨hne, -⟩ := ensureUniqueKey_eq_ok_iff.1 h.accepted
  unfold lakeUpsert
  split_ifs with hrows
  · refine Prog.Triple.pure fun s hs => ⟨prior, hs, ?_⟩
    rw [override_toPylist_of_empty hrows]
  refine Prog.Triple.bind (Prog.Triple.handle_of_never start_ok) fun _ => ?_
  refine Prog.Triple.bind (Q := fun _ => Inside prior (Rows.merged server.eq (mergeClauses data.columnNames primaryKey)
    prior data.toPylist)) (Prog.Triple.handle_of_never ?_) fun _ => ?_
  · refine Prog.Triple.bind (Q := fun _ s => Inside prior prior s ∧ s.view = some data.toPylist)
      (Prog.Triple.handle_of_never (sendUpsert_ok fun s hs => ⟨_, rfl, ⟨hs.committed, hs.pending⟩, rfl⟩)) fun _ => ?_
    rw [if_neg hne]
    refine Prog.Triple.always (T := fun _ _ => False) (Prog.Triple.handle_of_never (mergeView_ok h)) (fun _ => ?_)
      fun _ s hs => hs.elim
    exact Prog.Triple.handle_of_never (sendUpsert_ok fun s hs => ⟨_, rfl, hs.committed, hs.pending⟩)
  · refine Prog.Triple.handle_of_never (commit_ok.mono (fun s hs => hs) (fun _ s hs => ⟨_, hs, ?_⟩) fun _ _ hs => hs)
    exact (Rows.merge_perm h.comparable (mergeClauses_upserts h.names)).2

end

/-! ## The stage -/

section
variable {server : TrinoServer} {base : TrinoTables} {stage : Str} {ref : Option Str}

/-- No statement fails that the server can execute. -/
def Steady (server : TrinoServer) : Prop := ∀ events stmt, server.faults events stmt = none

theorem executeTrino_ok (hsteady : Steady server) {stmt : TrinoStatement} {P Q : TrinoSession → Prop}
    {R : Exc → TrinoSession → Prop}
    (h : ∀ s, P s → ∃ tables, stmt.apply server.eq s.tables = some tables ∧ Q (s.log ⟨stmt, none, true, tables⟩)) :
    Prog.Triple P (executeTrino server stmt) (fun _ => Q) R := by
  intro s hs
  obtain ⟨tables, happly, hQ⟩ := h s hs
  unfold executeTrino
  rw [happly]
  dsimp only
  rw [hsteady]
  refine ⟨fun a s' h => ?_, fun e s' h => (by cases h)⟩
  cases h
  exact hQ

/-- A statement that fills the stage, and is not refused. -/
theorem fill_ok (hsteady : Steady server) {stmt : TrinoStatement} (hstmt : stmt.fills stage = true)
    {content content' : Option (List TableRow)} {R : Exc → TrinoSession → Prop}
    (happly : ∀ tables, (∀ name, name ≠ stage → tables name = base name) → tables stage = content →
      ∃ tables', stmt.apply server.eq tables = some tables' ∧ (∀ name, name ≠ stage → tables' name = base name) ∧
        tables' stage = content') :
    Prog.Triple (Staged base stage ref content) (executeTrino server stmt)
      (fun _ => Staged base stage ref content') R := by
  refine executeTrino_ok hsteady fun s hs => ?_
  obtain ⟨tables, htables, hothers, hcontent⟩ := happly s.tables hs.tables hs.content
  exact ⟨tables, htables, hs.log hstmt hothers hcontent⟩

/-- The stage is created. -/
theorem createStage_ok (hsteady : Steady server) {catalog schema table token : Str} {names : List Str}
    (h : Ready server catalog schema table (stagePrefix ++ token) names) (hprior : base table = some prior)
    (hne : table ≠ stagePrefix ++ token) {R : Exc → TrinoSession → Prop} :
    Prog.Triple (Fresh base (stagePrefix ++ token) ref) (createStage server catalog schema table token)
      (fun name s => name = stagePrefix ++ token ∧ Staged base (stagePrefix ++ token) ref (some []) s) R := by
  obtain ⟨sibling, hsame⟩ := createStage_eq h
  rw [hsame]
  refine Prog.Triple.mono ?_ (fun s hs => hs.staged) (fun _ _ hs => hs) fun _ _ hs => hs
  refine Prog.Triple.bind (Q := fun _ => Staged base (stagePrefix ++ token) ref none)
    (fill_ok hsteady rfl fun tables hothers hcontent => ?_) fun _ => ?_
  · refine ⟨tables, ?_, hothers, hcontent⟩
    rw [TrinoStatement.apply, hothers table hne, hprior]
    rfl
  refine Prog.Triple.bind (Q := fun _ => Staged base (stagePrefix ++ token) ref (some []))
    (fill_ok hsteady (beq_self_eq_true _) fun tables hothers hcontent => ?_) fun _ => Prog.Triple.pure fun s hs => ⟨rfl, hs⟩
  refine ⟨Function.update tables (stagePrefix ++ token) (some []), ?_, fun name hname => ?_, Function.update_self ..⟩
  · rw [TrinoStatement.apply, hothers table hne, hprior, hcontent]
    rfl
  · rw [Function.update_of_ne hname]
    exact hothers name hname

/-- The batches of rows. -/
theorem insertBatches_ok (hsteady : Steady server) {data : ArrowTable} (hcolumns : ColumnList data.columnNames)
    (hnames : ∀ name ∈ data.columnNames, name ≠ []) {R : Exc → TrinoSession → Prop} :
    Prog.Triple (Staged base stage ref (some [])) (insertBatches server stage data.columnNames data)
      (fun _ => Staged base stage ref (some data.toPylist)) R := by
  obtain ⟨quoted, hquoted⟩ := quoteAll_eq_ok hnames
  have hraises : Prog.Triple (Staged base stage ref (some [])) (insertBatches server stage data.columnNames data)
      (fun _ _ => True) fun _ _ => False := by
    unfold insertBatches
    rw [lift_bind_of_ok hquoted]
    have hloop := @Prog.Triple.forM Exc TrinoSession (List TableRow) (fun batch => executeTrino server
      (.insertValues stage data.columnNames batch.length (batch.flatMap fun row => data.columnNames.map row)))
      (fun _ _ => False) (fun _ s => (s.tables stage).isSome) [] (batchesUpTo data.toPylist.length data.toPylist)
      fun before batch after _ => executeTrino_ok hsteady fun s hs => ?_
    · refine hloop.mono (fun s hs => ?_) (fun _ _ _ => trivial) fun _ _ hs => hs
      rw [hs.content]
      rfl
    · obtain ⟨rows, hrows⟩ := Option.isSome_iff_exists.1 hs
      rw [TrinoStatement.apply, if_pos hcolumns, hrows]
      refine ⟨_, rfl, ?_⟩
      unfold TrinoSession.log
      dsimp only
      rw [Function.update_self]
      rfl
  exact (insertBatches_triple.and hraises).mono (fun s hs => ⟨hs, hs⟩) (fun _ _ hs => hs.1) fun _ _ hs => hs.2.elim

end

section
variable {server : TrinoServer} {base : TrinoTables} {stage table catalog schema token : Str}
  {reprStr : Str → Str} {strCell : Option ArrowValue → Str} {columns primaryKey : List Str} {prior : List TableRow}
  {data : ArrowTable}

/-- The `MERGE` of the stage. -/
theorem mergeStage_ok (hsteady : Steady server)
    (h : Upsertable reprStr strCell server.eq columns primaryKey prior data) (hne : table ≠ stage)
    (hprior : base table = some prior) {R : Exc → TrinoSession → Prop} :
    Prog.Triple (Staged base stage ref (some data.toPylist))
      (executeTrino server (.merge table stage (mergeClauses data.columnNames primaryKey)))
      (fun _ s => s.tables table =
        some (Rows.merged server.eq (mergeClauses data.columnNames primaryKey) prior data.toPylist)) R := by
  obtain ⟨hkey, -⟩ := ensureUniqueKey_eq_ok_iff.1 h.accepted
  refine executeTrino_ok hsteady fun s hs => ⟨Function.update s.tables table _, ?_, Function.update_self ..⟩
  rw [TrinoStatement.apply, hs.tables table hne, hprior, hs.content]
  dsimp only
  rw [if_pos ⟨hkey, h.columnList⟩, (Rows.merge_perm h.comparable (mergeClauses_upserts h.names)).1]
  rfl

/-- **Trino** overrides. -/
theorem upsertTrino_ok (hsteady : Steady server)
    (h : Upsertable reprStr strCell server.eq columns primaryKey prior data)
    (hready : Ready server catalog schema table (stagePrefix ++ token) data.columnNames)
    (hprior : base table = some prior) (hne : table ≠ stagePrefix ++ token) :
    Prog.Triple (Fresh base (stagePrefix ++ token) none)
      (upsertTrino server catalog schema table token data primaryKey)
      (fun _ s => ∃ rows, s.tables table = some rows ∧
        rows.Perm (Rows.override (Rows.keyOf primaryKey) prior data.toPylist)) fun _ _ => False := by
  have hcolumns : ∀ name ∈ data.columnNames, name ≠ [] := fun name hname => hready.names name (by simp [hname])
  unfold upsertTrino
  split_ifs with hrows
  · refine Prog.Triple.pure fun s hs => ⟨prior, ?_, ?_⟩
    · rw [hs.tables, hprior]
    · rw [override_toPylist_of_empty hrows]
  obtain ⟨ref, href⟩ := @tableRef_eq_ok catalog schema table (hready.names _ (by simp)) (hready.names _ (by simp))
    (hready.names _ (by simp))
  obtain ⟨quoted, hquoted⟩ := @quoteAll_eq_ok primaryKey fun name hname => hcolumns name (h.key_mem hname)
  obtain ⟨quoted', hquoted'⟩ := quoteAll_eq_ok hcolumns
  rw [lift_bind_of_ok href]
  unfold writeViaStage
  refine Prog.Triple.bind (createStage_ok hsteady hready hprior hne) fun name s hs => ?_
  obtain ⟨rfl, hs⟩ := hs
  have hmerge : mergeStatement table data.columnNames primaryKey (stagePrefix ++ token) =
      .ok (.merge table (stagePrefix ++ token) (mergeClauses data.columnNames primaryKey)) := by
    unfold mergeStatement
    rw [hquoted, hquoted']
    rfl
  rw [lift_bind_of_ok hmerge]
  have hwritten : Prog.Triple (Staged base (stagePrefix ++ token) none (some [])) (do
      insertBatches server (stagePrefix ++ token) data.columnNames data
      executeTrino server (.merge table (stagePrefix ++ token) (mergeClauses data.columnNames primaryKey)))
      (fun _ s => s.tables table =
        some (Rows.merged server.eq (mergeClauses data.columnNames primaryKey) prior data.toPylist))
      fun _ _ => False :=
    Prog.Triple.bind (insertBatches_ok hsteady h.columnList hcolumns) fun _ => mergeStage_ok hsteady h hne hprior
  refine (Prog.Triple.always hwritten (Q := fun _ s => s.tables table =
    some (Rows.merged server.eq (mergeClauses data.columnNames primaryKey) prior data.toPylist)) (fun _ => ?_)
    fun _ s hs => hs.elim).mono (fun s hs => hs) (fun _ s hs => ⟨_, hs, ?_⟩) (fun _ _ hs => hs) s hs
  · exact dropStage_triple fun s ev hs _ hafter => (hafter table hne).trans hs
  · exact (Rows.merge_perm h.comparable (mergeClauses_upserts h.names)).2

end

/-! ## The engines -/

/-- An adapter with its warehouse. -/
inductive UpsertEngine where
  | postgres (server : UpsertServer) (driverError : ExcClass → Bool)
  | duckdb (server : UpsertServer) (driverError : ExcClass → Bool) (guard : Exc → Exc)
  /-- with the other tables of the schema, and the name of the stage -/
  | trino (server : TrinoServer) (catalog schema token : Str) (others : TrinoTables)

/-- What `upsert` leaves: its outcome, the table, and how many statements were sent. -/
structure UpsertEnd where
  result : Except Exc Unit
  rows : Option (List TableRow)
  statements : ℕ

/-- A connection without a transaction. -/
def UpsertSession.start (rows : List TableRow) : UpsertSession := ⟨rows, none, none, []⟩

namespace UpsertEngine

/-- Equality of values in the warehouse. -/
def eq : UpsertEngine → ArrowValue → ArrowValue → Bool
  | postgres server _ => server.eq
  | duckdb server _ _ => server.eq
  | trino server _ _ _ _ => server.eq

section
variable (reprStr : Str → Str) (strCell : Option ArrowValue → Str) (table : Str) (primaryKey : List Str)

/-- `upsert` on a table with these rows. -/
def upsert (prior : List TableRow) (data : ArrowTable) : UpsertEngine → UpsertEnd
  | postgres server driverError =>
    let run := upsertChecked reprStr strCell data primaryKey (pgUpsert server driverError data primaryKey) (.start prior)
    ⟨run.1, some run.2.committed, run.2.sent.length⟩
  | duckdb server driverError guard =>
    let run := upsertChecked reprStr strCell data primaryKey (lakeUpsert server driverError guard data primaryKey)
      (.start prior)
    ⟨run.1, some run.2.committed, run.2.sent.length⟩
  | trino server catalog schema token others =>
    let run := upsertChecked reprStr strCell data primaryKey
      (upsertTrino server catalog schema table token data primaryKey) (.start (Function.update others table (some prior)))
    ⟨run.1, run.2.tables table, run.2.events.length⟩

/-- The warehouse has this table and executes what it can: Postgres knows the key, and on
    Trino the name of the stage is fresh. -/
def Serves (data : ArrowTable) : UpsertEngine → Prop
  | postgres server _ => ∀ c, c ∈ server.primaryKey ↔ c ∈ primaryKey
  | duckdb _ _ _ => True
  | trino server catalog schema token others => Steady server ∧
      Ready server catalog schema table (stagePrefix ++ token) data.columnNames ∧
      others (stagePrefix ++ token) = none ∧ table ≠ stagePrefix ++ token

/-- `upsert` returns, and the table has these rows. -/
def Reaches (engine : UpsertEngine) (prior : List TableRow) (data : ArrowTable) (rows : List TableRow) : Prop :=
  (engine.upsert reprStr strCell table primaryKey prior data).result = .ok () ∧
    (engine.upsert reprStr strCell table primaryKey prior data).rows = some rows

variable {reprStr strCell table primaryKey} {columns : List Str} {prior : List TableRow} {data : ArrowTable}

/-- Behind an accepted check, the engine writes. -/
theorem upsertChecked_of_accepted {σ : Type} (h : ensureUniqueKey reprStr strCell data primaryKey = .ok ())
    (write : Prog Exc σ Unit) : upsertChecked reprStr strCell data primaryKey write = write := by
  unfold upsertChecked
  rw [h]
  rfl

/-- **Every engine** overrides. -/
theorem reaches_override {engine : UpsertEngine}
    (h : Upsertable reprStr strCell engine.eq columns primaryKey prior data)
    (hserves : engine.Serves table primaryKey data) :
    ∃ rows, engine.Reaches reprStr strCell table primaryKey prior data rows ∧
      rows.Perm (Rows.override (Rows.keyOf primaryKey) prior data.toPylist) := by
  unfold Reaches upsert
  cases engine with
  | postgres server driverError =>
    obtain ⟨u, s, hrun, rows, hidle, hperm⟩ :=
      (@pgUpsert_ok server _ _ _ _ _ _ h hserves driverError).returns (s := .start prior) ⟨rfl, rfl⟩
    refine ⟨rows, ?_, hperm⟩
    dsimp only
    rw [upsertChecked_of_accepted h.accepted, hrun]
    exact ⟨rfl, congrArg some hidle.committed⟩
  | duckdb server driverError guard =>
    obtain ⟨u, s, hrun, rows, hidle, hperm⟩ :=
      (@lakeUpsert_ok server _ _ _ _ _ _ h driverError guard).returns (s := .start prior) ⟨rfl, rfl⟩
    refine ⟨rows, ?_, hperm⟩
    dsimp only
    rw [upsertChecked_of_accepted h.accepted, hrun]
    exact ⟨rfl, congrArg some hidle.committed⟩
  | trino server catalog schema token others =>
    obtain ⟨hsteady, hready, habsent, hne⟩ := hserves
    have hfresh : Fresh (Function.update others table (some prior)) (stagePrefix ++ token) none
        (.start (Function.update others table (some prior))) :=
      ⟨rfl, rfl, (Function.update_of_ne hne.symm _ _).trans habsent, rfl⟩
    obtain ⟨u, s, hrun, rows, hrows, hperm⟩ :=
      (upsertTrino_ok hsteady h hready (Function.update_self ..) hne).returns hfresh
    refine ⟨rows, ?_, hperm⟩
    dsimp only
    rw [upsertChecked_of_accepted h.accepted, hrun]
    exact ⟨rfl, hrows⟩

/-- **Refused data** is refused before any statement. -/
theorem upsert_of_refused (engine : UpsertEngine) {e : Exc}
    (h : ensureUniqueKey reprStr strCell data primaryKey = .error e) :
    engine.upsert reprStr strCell table primaryKey prior data = ⟨.error e, some prior, 0⟩ := by
  unfold upsert upsertChecked
  cases engine with
  | postgres server driverError =>
    rw [h]
    rfl
  | duckdb server driverError guard =>
    rw [h]
    rfl
  | trino server catalog schema token others =>
    rw [h]
    exact congrArg (UpsertEnd.mk (.error e) · 0) (Function.update_self ..)

end

end UpsertEngine

/-- **`upsert` means the same on every engine**: it returns, and the table has the prior
    rows whose key is not in the data, and the data; the keys are unique; if every column
    is in the key, only new keys are added; the engine and the order of the data make no
    difference, nor does it make one to write the data in two parts, or twice; and data with
    a repeated key is refused before any statement. -/
theorem upsert_same (reprStr : Str → Str) (strCell : Option ArrowValue → Str) (table : Str)
    (columns primaryKey : List Str) (prior : List TableRow) (data : ArrowTable) (engine : UpsertEngine)
    (h : Upsertable reprStr strCell engine.eq columns primaryKey prior data)
    (hserves : engine.Serves table primaryKey data) :
    ∃ rows, engine.Reaches reprStr strCell table primaryKey prior data rows ∧
      rows.Perm (Rows.override (Rows.keyOf primaryKey) prior data.toPylist) ∧
      Rows.UniqueKeys (Rows.keyOf primaryKey) rows ∧
      ((∀ c ∈ columns, c ∈ primaryKey) →
        rows.Perm (prior ++ Rows.added (Rows.keyOf primaryKey) prior data.toPylist)) ∧
      (∀ (engine' : UpsertEngine) (data' : ArrowTable),
        Upsertable reprStr strCell engine'.eq columns primaryKey prior data' →
        engine'.Serves table primaryKey data' → data'.toPylist.Perm data.toPylist →
        ∃ rows', engine'.Reaches reprStr strCell table primaryKey prior data' rows' ∧ rows'.Perm rows) ∧
      (∀ data₁ data₂ : ArrowTable,
        (∀ part ∈ [data₁, data₂], (∀ c, c ∈ part.columnNames ↔ c ∈ columns) ∧ part.columnNames.Nodup ∧
          ensureUniqueKey reprStr strCell part primaryKey = .ok () ∧ engine.Serves table primaryKey part) →
        data.toPylist.Perm (data₁.toPylist ++ data₂.toPylist) →
        ∃ rows₁ rows₂, engine.Reaches reprStr strCell table primaryKey prior data₁ rows₁ ∧
          engine.Reaches reprStr strCell table primaryKey rows₁ data₂ rows₂ ∧ rows₂.Perm rows) ∧
      (∃ rows', engine.Reaches reprStr strCell table primaryKey rows data rows' ∧ rows'.Perm rows) ∧
      ∀ (engine' : UpsertEngine) (prior' : List TableRow) (data' : ArrowTable),
        ¬ Rows.UniqueKeys (Rows.keyOf primaryKey) data'.toPylist →
        ∃ e, engine'.upsert reprStr strCell table primaryKey prior' data' = ⟨.error e, some prior', 0⟩ := by
  have hdata := uniqueKeys_of_accepted h.accepted
  have hkept : ∀ {rows : List TableRow}, rows.Perm (Rows.override (Rows.keyOf primaryKey) prior data.toPylist) →
      ∀ r ∈ rows, r ∈ prior ++ data.toPylist := fun hrows r hr =>
    List.mem_append.2 ((Rows.mem_override.1 (hrows.mem_iff.1 hr)).imp And.left id)
  obtain ⟨rows, hreaches, hrows⟩ := UpsertEngine.reaches_override h hserves
  have hunique := (Rows.uniqueKeys_override h.unique hdata).perm hrows.symm
  refine ⟨rows, hreaches, hrows, hunique, fun hkey => ?_, fun engine' data' h' hserves' hperm => ?_,
    fun data₁ data₂ hparts hperm => ?_, ?_, fun engine' prior' data' hrepeated => ?_⟩
  · exact hrows.trans (Rows.override_perm_addNew h.unique hdata fun r hr s hs => h.whole hkey hr hs)
  · obtain ⟨rows', hreaches', hrows'⟩ := UpsertEngine.reaches_override h' hserves'
    exact ⟨rows', hreaches', hrows'.trans ((Rows.override_perm hperm).trans hrows.symm)⟩
  · obtain ⟨hnames₁, hdistinct₁, haccepted₁, hserves₁⟩ := hparts data₁ (by simp)
    obtain ⟨hnames₂, hdistinct₂, haccepted₂, hserves₂⟩ := hparts data₂ (by simp)
    have hin₁ : ∀ r ∈ data₁.toPylist, r ∈ data.toPylist := fun r hr => hperm.mem_iff.2 (List.mem_append_left _ hr)
    have hin₂ : ∀ r ∈ data₂.toPylist, r ∈ data.toPylist := fun r hr => hperm.mem_iff.2 (List.mem_append_right _ hr)
    have h₁ := h.of_mem (fun r hr => List.mem_append_left _ hr) h.unique hin₁ hnames₁ hdistinct₁ haccepted₁
    obtain ⟨rows₁, hreaches₁, hrows₁⟩ := UpsertEngine.reaches_override h₁ hserves₁
    have hunique₁ := (Rows.uniqueKeys_override h.unique (uniqueKeys_of_accepted haccepted₁)).perm hrows₁.symm
    have hkept₁ : ∀ r ∈ rows₁, r ∈ prior ++ data.toPylist := fun r hr =>
      List.mem_append.2 ((Rows.mem_override.1 (hrows₁.mem_iff.1 hr)).imp And.left (hin₁ r))
    have h₂ := h.of_mem hkept₁ hunique₁ hin₂ hnames₂ hdistinct₂ haccepted₂
    obtain ⟨rows₂, hreaches₂, hrows₂⟩ := UpsertEngine.reaches_override h₂ hserves₂
    refine ⟨rows₁, rows₂, hreaches₁, hreaches₂, ?_⟩
    calc rows₂
      _ |>.Perm (Rows.override (Rows.keyOf primaryKey) rows₁ data₂.toPylist) := hrows₂
      _ |>.Perm (Rows.override (Rows.keyOf primaryKey) (Rows.override (Rows.keyOf primaryKey) prior data₁.toPylist)
          data₂.toPylist) := Rows.override_perm_left hrows₁
      _ |>.Perm (Rows.override (Rows.keyOf primaryKey) prior (data₁.toPylist ++ data₂.toPylist)) :=
        List.Perm.of_eq (Rows.override_append (hdata.perm hperm)).symm
      _ |>.Perm (Rows.override (Rows.keyOf primaryKey) prior data.toPylist) := Rows.override_perm hperm.symm
      _ |>.Perm rows := hrows.symm
  · have hagain := h.of_mem (hkept hrows) hunique (fun _ hr => hr) h.names h.distinct h.accepted
    obtain ⟨rows', hreaches', hrows'⟩ := UpsertEngine.reaches_override hagain hserves
    refine ⟨rows', hreaches', (hrows'.trans (Rows.override_perm_left hrows)).trans ?_⟩
    rw [Rows.override_self]
    exact hrows.symm
  · cases hcheck : ensureUniqueKey reprStr strCell data' primaryKey with
    | error e => exact ⟨e, engine'.upsert_of_refused hcheck⟩
    | ok u => exact absurd (uniqueKeys_of_accepted hcheck) hrepeated

/-- Two rows, with the keys 1 and 2. -/
def twoKeys : ArrowTable := ⟨2, [
  ⟨py "a", .int true 64, true, fun i => some (if i = 0 then ⟨.int 1, one_typed⟩ else ⟨.int 2, by decide⟩)⟩,
  ⟨py "b", .int true 64, true, fun _ => none⟩]⟩

/-- A row with the key 1. -/
def firstKey : TableRow := fun c => if c = py "a" then some (.int 1) else none

/-- A Postgres server whose table has the key `a`. -/
def keyedServer : UpsertServer where
  eq v w := decide (v = w)
  primaryKey := [py "a"]
  refusal _ := .text .valueError []

theorem twoKeys_upsertable : Upsertable (fun s => s) (fun _ => []) keyedServer.eq [py "a", py "b"] [py "a"] [firstKey]
    twoKeys where
  names c := Iff.rfl
  distinct := by decide
  keyed r hr := by
    rw [List.mem_singleton.1 hr]
    exact ⟨fun c hc => if_neg fun h : c = py "a" => hc (h ▸ List.mem_cons_self), by simp [firstKey]⟩
  unique := List.nodup_singleton _
  nonnull := by
    intro row hrow c hc
    obtain ⟨i, rfl⟩ := (List.mem_ofFn' _ _).1 hrow
    rw [List.mem_singleton.1 hc]
    exact ⟨_, rfl⟩
  equality := fun _ _ _ _ _ _ _ _ _ _ => decide_eq_true_iff
  accepted := by rfl

theorem upsert_same_twoKeys : ∃ rows, (UpsertEngine.postgres keyedServer fun _ => false).Reaches (fun s => s)
    (fun _ => []) (py "t") [py "a"] [firstKey] twoKeys rows ∧
      rows.Perm (Rows.override (Rows.keyOf [py "a"]) [firstKey] twoKeys.toPylist) := by
  obtain ⟨rows, hreaches, hrows, -⟩ := upsert_same (fun s => s) (fun _ => []) (py "t") [py "a", py "b"] [py "a"]
    [firstKey] twoKeys (.postgres keyedServer fun _ => false) twoKeys_upsertable fun c => Iff.rfl
  exact ⟨rows, hreaches, hrows⟩

end ContinuoRuntime
