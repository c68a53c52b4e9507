/-
  `load`, `append` and `_upsert` of the Trino adapter.

  The server has the tables of one schema, by name.  Each statement is one commit: it
  succeeds, or fails without effect, or takes effect and raises all the same; what it
  cannot do, it refuses.  A run keeps the statements it has sent, and the tables behind
  each of them.

  * `executeTrino`: one statement;
  * `createStage`, `insertBatches`, `dropStage`: the stage that all three write first;
  * `loadTrino`, `appendTrino`, `upsertTrino`.
-/
import ContinuoRuntime.Lib.Merge
import ContinuoRuntime.Lib.Program
import ContinuoRuntime.Arrow
import ContinuoRuntime.Python.Replace

namespace ContinuoRuntime

/-! ## The server -/

/-- A row of a table, by column. -/
abbrev TableRow := Rows.Row Str ArrowValue

/-- The tables of a schema. -/
abbrev TrinoTables := Str → Option (List TableRow)

/-- The statements of the writing methods, with the names of their tables. -/
inductive TrinoStatement where
  /-- `SELECT value FROM "table$properties" WHERE key = 'location'` -/
  | selectLocation (table : Str)
  /-- `CREATE TABLE table (LIKE source INCLUDING PROPERTIES) WITH (location = …)` -/
  | createLike (table source location : Str)
  /-- `INSERT INTO table (columns) VALUES (?, …), …`, with so many tuples -/
  | insertValues (table : Str) (columns : List Str) (tuples : ℕ) (params : List (Option ArrowValue))
  /-- `INSERT INTO table (columns) SELECT columns FROM source` -/
  | insertSelect (table source : Str) (columns : List Str)
  /-- `MERGE INTO table AS t USING source AS s ON …` -/
  | merge (table source : Str) (clauses : Rows.MergeClauses Str)
  /-- `ALTER TABLE table RENAME TO name` -/
  | rename (table name : Str)
  | drop (table : Str)

/-- The parameters, in tuples of this width. -/
def tuplesOf (width : ℕ) : ℕ → List (Option ArrowValue) → List (List (Option ArrowValue))
  | 0, _ => []
  | n + 1, params => params.take width :: tuplesOf width n (params.drop width)

/-- The row of a tuple. -/
def tupleRow (columns : List Str) (tuple : List (Option ArrowValue)) : TableRow := fun c =>
  ((columns.zip tuple).lookup c).getD none

/-- A list of columns that an `INSERT` can have. -/
def ColumnList (columns : List Str) : Prop := columns ≠ [] ∧ columns.Nodup

instance (columns : List Str) : Decidable (ColumnList columns) := inferInstanceAs (Decidable (_ ∧ _))

/-- What a statement makes of the tables; `none` if the server refuses it. -/
def TrinoStatement.apply (eq : ArrowValue → ArrowValue → Bool) (tables : TrinoTables) :
    TrinoStatement → Option TrinoTables
  | selectLocation table => (tables table).map fun _ => tables
  | createLike table source _ =>
    if (tables table).isSome ∨ (tables source).isNone then none
    else some (Function.update tables table (some []))
  | insertValues table columns tuples params =>
    if ColumnList columns then (tables table).map fun rows =>
      Function.update tables table (some (rows ++ (tuplesOf columns.length tuples params).map (tupleRow columns)))
    else none
  | insertSelect table source columns =>
    match tables table, tables source with
    | some rows, some new =>
      if ColumnList columns then some (Function.update tables table (some (rows ++ new.map (Rows.pick columns))))
      else none
    | _, _ => none
  | merge table source clauses =>
    match tables table, tables source with
    | some rows, some new =>
      if clauses.on ≠ [] ∧ ColumnList clauses.inserts then
        (Rows.strictMerge eq clauses rows new).map fun rows => Function.update tables table (some rows)
      else none
    | _, _ => none
  | rename table name =>
    if (tables name).isSome then none
    else (tables table).map fun rows => Function.update (Function.update tables table none) name (some rows)
  | drop table => (tables table).map fun _ => Function.update tables table none

/-- How a statement fails that the server could execute; the client's errors are exceptions
    that `except Exception` catches. -/
structure TrinoFault where
  exc : Exc
  tookEffect : Bool
  exception : exc.cls.isException = true

/-- A statement that was sent, what it raised, whether it took effect, and the tables
    behind it. -/
structure TrinoEvent where
  stmt : TrinoStatement
  raised : Option Exc
  applied : Bool
  after : TrinoTables

/-- A run of a writing method. -/
structure TrinoSession where
  tables : TrinoTables
  events : List TrinoEvent
  /-- `stage_ref` of `load` -/
  stageRef : Option Str

/-- `urllib.parse.urlsplit`. -/
structure SplitUrl where
  scheme : Str
  netloc : Str
  path : Str
  query : Str
  fragment : Str

/-- The server, and the library that splits the location. -/
structure TrinoServer where
  /-- equality of values that are not null -/
  eq : ArrowValue → ArrowValue → Bool
  /-- the rows of the location query of a table; `none` is a value that is no text -/
  locations : Str → List (List (Option Str))
  /-- the fault of a statement, by what was sent before -/
  faults : List TrinoEvent → TrinoStatement → Option TrinoFault
  refusal : TrinoStatement → {e : Exc // e.cls.isException = true}
  urlsplit : Str → Except Exc SplitUrl
  urlunsplit : SplitUrl → Str

/-- A part of a writing method. -/
abbrev TrinoProg (α : Type) := Prog Exc TrinoSession α

/-- At the start of a method. -/
def TrinoSession.start (tables : TrinoTables) : TrinoSession := ⟨tables, [], none⟩

/-- A statement was sent. -/
def TrinoSession.log (s : TrinoSession) (event : TrinoEvent) : TrinoSession :=
  { s with tables := event.after, events := s.events ++ [event] }

variable (server : TrinoServer)

/-- `_execute`. -/
def executeTrino (stmt : TrinoStatement) : TrinoProg Unit := fun s =>
  match stmt.apply server.eq s.tables with
  | none =>
    let e := (server.refusal stmt).val
    (.error e, s.log ⟨stmt, some e, false, s.tables⟩)
  | some tables =>
    match server.faults s.events stmt with
    | none => (.ok (), s.log ⟨stmt, none, true, tables⟩)
    | some fault => (.error fault.exc, s.log ⟨stmt, some fault.exc, fault.tookEffect,
        if fault.tookEffect then tables else s.tables⟩)

/-! ## Names -/

/-- `_quote`. -/
def trinoQuote (identifier : Str) : Except Exc Str :=
  if identifier = [] then .error (.text .valueError (py "identifier must not be empty"))
  else .ok ([ch '"'] ++ replace identifier [ch '"'] [ch '"', ch '"'] ++ [ch '"'])

/-- `_table_ref`. -/
def trinoTableRef (catalog schema table : Str) : Except Exc Str := do
  let catalog ← trinoQuote catalog
  let schema ← trinoQuote schema
  let table ← trinoQuote table
  .ok (catalog ++ py "." ++ schema ++ py "." ++ table)

/-- `_STAGE_PREFIX`. -/
def stagePrefix : Str := py "__continuo_stage_"

/-- The private name of the old rows. -/
def oldName (token : Str) : Str := py "__continuo_old_" ++ token

/-- `path.rpartition("/")`, if there is a slash: what stands before the last one. -/
def parentPath (path : Str) : Option Str :=
  if ch '/' ∈ path then some ((path.rdropWhile (· != ch '/')).dropLast) else none

/-- `_sibling_location`. -/
def siblingLocation (location name : Str) : Except Exc Str :=
  if location = [] then .error (.text .valueError (py "table location must not be empty"))
  else do
    let parsed ← server.urlsplit location
    let siblingPath := match parentPath (parsed.path.rdropWhile (· == ch '/')) with
      | some parent => parent ++ py "/" ++ name
      | none => if parsed.netloc ≠ [] ∨ py "/" <+: parsed.path then py "/" ++ name else name
    .ok (server.urlunsplit { parsed with path := siblingPath })

/-! ## The stage -/

section
variable (catalog schema table : Str)

/-- `_table_location`. -/
def tableLocation : TrinoProg Str := do
  let _ ← Prog.lift (trinoTableRef catalog schema (table ++ py "$properties"))
  executeTrino server (.selectLocation table)
  Prog.lift (match server.locations table with
    | [some location :: _] =>
      if location = [] then .error (.text (.other (py "RuntimeError"))
        (py "Iceberg location is empty for " ++ schema ++ py "." ++ table))
      else .ok location
    | _ => .error (.text (.other (py "RuntimeError"))
        (py "could not determine Iceberg location for " ++ schema ++ py "." ++ table)))

/-- `_create_stage`. -/
def createStage (token : Str) : TrinoProg Str := do
  let _ ← Prog.lift (trinoTableRef catalog schema table)
  let stage := stagePrefix ++ token
  let _ ← Prog.lift (trinoTableRef catalog schema stage)
  let location ← tableLocation server catalog schema table
  let stageLocation ← Prog.lift (siblingLocation server location stage)
  executeTrino server (.createLike stage table stageLocation)
  pure stage

/-- `_drop_stage`. -/
def dropStage (stage : Str) : TrinoProg Unit :=
  (executeTrino server (.drop stage)).handle fun e => if e.cls.isException then pure () else Prog.raise e

/-- `data.to_pylist()`; of two columns with one name the last counts. -/
def ArrowTable.toPylist (data : ArrowTable) : List TableRow := List.ofFn fun i name =>
  match (data.columns.filter fun c => c.name = name).getLast? with
  | some column => column.value i
  | none => none

/-- `_INSERT_BATCH_SIZE`. -/
def insertBatchSize : ℕ := 500

/-- The batches of `range(0, len(rows), _INSERT_BATCH_SIZE)`, at most so many. -/
def batchesUpTo : ℕ → List TableRow → List (List TableRow)
  | _, [] => []
  | 0, _ :: _ => []
  | n + 1, row :: rows =>
    (row :: rows).take insertBatchSize :: batchesUpTo n ((row :: rows).drop insertBatchSize)

/-- `_insert_batches`. -/
def insertBatches (stage : Str) (columns : List Str) (data : ArrowTable) : TrinoProg Unit := do
  let rows := data.toPylist
  let _ ← Prog.lift (columns.mapM trinoQuote)
  (batchesUpTo rows.length rows).forM fun batch =>
    executeTrino server (.insertValues stage columns batch.length (batch.flatMap fun row => columns.map row))

/-! ## `load` -/

/-- `stage_ref = …` -/
def setStageRef (stage : Option Str) : TrinoProg Unit := fun s => (.ok (), { s with stageRef := stage })

/-- The inner `try` of `load`. -/
def swapIn (stage old : Str) : TrinoProg Unit := do
  (executeTrino server (.rename stage table)).handle fun e =>
    if e.cls.isException then do
      (executeTrino server (.rename old table)).handle fun e' => if e'.cls.isException then pure () else Prog.raise e'
      Prog.raise e
    else Prog.raise e
  setStageRef none
  executeTrino server (.drop old)

/-- `load`. -/
def loadTrino (token : Str) (data : ArrowTable) : TrinoProg Unit := do
  let columns := data.columnNames
  let _ ← Prog.lift (trinoTableRef catalog schema table)
  let old := oldName token
  let _ ← Prog.lift (trinoTableRef catalog schema old)
  setStageRef none
  Prog.always (do
    let stage ← createStage server catalog schema table token
    setStageRef (some stage)
    let _ ← (if data.numRows ≠ 0 then insertBatches server stage columns data else pure () : TrinoProg Unit)
    executeTrino server (.rename table old)
    swapIn server table stage old) fun s =>
      match s.stageRef with
      | some stage => dropStage server stage s
      | none => (.ok (), s)

/-! ## `append` and `_upsert` -/

/-- `_write_via_stage`. -/
def writeViaStage (token : Str) (data : ArrowTable) (finalStatement : Str → Except Exc TrinoStatement) :
    TrinoProg Unit := do
  let stage ← createStage server catalog schema table token
  Prog.always (do
    insertBatches server stage data.columnNames data
    let stmt ← Prog.lift (finalStatement stage)
    executeTrino server stmt) (dropStage server stage)

/-- `_append_statement`. -/
def appendStatement (columns : List Str) (stage : Str) : Except Exc TrinoStatement := do
  let _ ← columns.mapM trinoQuote
  .ok (.insertSelect table stage columns)

/-- The clauses of `_merge_statement`. -/
def mergeClauses (columns primaryKey : List Str) : Rows.MergeClauses Str where
  on := primaryKey
  updates := columns.filter fun name => name ∉ primaryKey
  inserts := columns

/-- `_merge_statement`. -/
def mergeStatement (columns primaryKey : List Str) (stage : Str) : Except Exc TrinoStatement := do
  let _ ← primaryKey.mapM trinoQuote
  let _ ← columns.mapM trinoQuote
  .ok (.merge table stage (mergeClauses columns primaryKey))

/-- `append`. -/
def appendTrino (token : Str) (data : ArrowTable) : TrinoProg Unit :=
  if data.numRows = 0 then pure ()
  else do
    let _ ← Prog.lift (trinoTableRef catalog schema table)
    writeViaStage server catalog schema table token data (appendStatement table data.columnNames)

/-- `_upsert`. -/
def upsertTrino (token : Str) (data : ArrowTable) (primaryKey : List Str) : TrinoProg Unit :=
  if data.numRows = 0 then pure ()
  else do
    let _ ← Prog.lift (trinoTableRef catalog schema table)
    writeViaStage server catalog schema table token data (mergeStatement table data.columnNames primaryKey)

end

end ContinuoRuntime
