/-
  The validation runner (`validation/runner.py`).

  Up to the adapter, a run either knows what to do or exits: with a block of its own, or
  by an exception that no handler catches.  Behind that, one operation runs on the
  adapter, and `main` prints its block.

  * `ValidationRun.gather`, `choose`: the inputs and the adapter class;
  * `ValidationRun.attempt`: the operation;
  * `ValidationRun.main`: the whole run.
-/
import ContinuoRuntime.Harness.RunNode
import ContinuoRuntime.CsvGate

namespace ContinuoRuntime

/-! ## JSON values in Python -/

namespace Json

/-- `bool(value)`. -/
def truthy : Json Str → Bool
  | null => false
  | bool b => b
  | int i => i ≠ 0
  | float f => !(f.text == py "0.0" || f.text == py "-0.0")
  | str s => s ≠ []
  | arr xs => !xs.isEmpty
  | obj kvs => !kvs.isEmpty

/-- `iter(value)`: the items of a list, the characters of a text, the keys of an object. -/
def iterate : Json Str → Except Exc (List (Json Str))
  | arr xs => .ok xs
  | str s => .ok (s.map fun c => str [c])
  | obj kvs => .ok (kvs.map fun member => str member.1)
  | v => .error (.text .typeError (py "'" ++ v.typeName ++ py "' object is not iterable"))

/-- `value[key]`. -/
def subscript (key : Str) : Json Str → Except Exc (Json Str)
  | obj kvs =>
    match kvs.lookup key with
    | some v => .ok v
    | none => .error (.text (.other (py "KeyError")) (py "'" ++ key ++ py "'"))
  | arr _ => .error (.text .typeError (py "list indices must be integers or slices, not str"))
  | str _ => .error (.text .typeError (py "string indices must be integers, not 'str'"))
  | v => .error (.text .typeError (py "'" ++ v.typeName ++ py "' object is not subscriptable"))

/-- It can be an element of a set. -/
def hashable : Json Str → Bool
  | arr _ | obj _ => false
  | _ => true

end Json

/-! ## What a run meets -/

/-- Everything around a run of the validation runner. -/
structure ValidationRun where
  environ : Str → Option Str
  entryPoints : List EntryPoint
  reprStr : Str → Str
  /-- `make_s3_client()` -/
  s3Client : Except Exc Unit
  /-- the body of an object -/
  getObject : Str → Str → Except Exc Bytes
  /-- the text of a `UnicodeDecodeError` -/
  detail : Bytes → Str
  jsonLoads : Str → Except Exc (Json Str)
  /-- `reader_for(uri).fetch_header_line(uri)` -/
  fetchHeaderLine : CsvUri → Except Exc Str
  /-- `next(csv.reader([line]))` -/
  csvRow : Str → Except Exc (List Str)
  /-- the text of `sorted(values)` -/
  reprSorted : List (Json Str) → Except Exc Str

/-- The statuses of a run that has printed an error. -/
inductive ErrorCode where
  | failure | usage

/-- What `sys.exit` is given. -/
def ErrorCode.value : ErrorCode → ℤ
  | failure => 1
  | usage => 2

/-- How a run ends before there is an adapter: with a block and `sys.exit`, or with an
    exception that nothing catches. -/
inductive Refusal where
  | exit (message : Str) (code : ErrorCode) (uniqueId : Str)
  | raised (e : Exc)

/-- The operations, with their inputs. -/
inductive RunnerOp where
  | ensureSchema | dropSchema
  | buildFromSql (table sql : Str)
  | checkBinds (table sql : Str)
  | buildFromColumns (table : Str) (outputColumns config : Json Str) (csvSource : Str) (reads : Json Str)
  | cloneFromProd (table prodSchema : Str)

/-- What a run is to do. -/
structure RunnerJob where
  schema : Str
  uniqueId : Str
  op : RunnerOp

/-- `_NODE_OPS`. -/
def nodeOps : List Str := ["build_from_sql", "clone_from_prod", "build_from_columns", "check_binds"].map py

/-- `_SCHEMA_OPS`. -/
def schemaOps : List Str := ["ensure_schema", "drop_schema"].map py

namespace ValidationRun

variable (w : ValidationRun)

/-! ## Inputs -/

/-- `_node_id`. -/
def nodeId : Str := (w.environ (py "NODE_ID")).getD []

/-- `_require`. -/
def requireVar (name : Str) : Except Refusal Str :=
  let value := (w.environ name).getD []
  if value = [] then .error (.exit (py "missing required env var " ++ name) .usage w.nodeId) else .ok value

/-- `VALIDATION_OP`. -/
def opName : Str := (w.environ (py "VALIDATION_OP")).getD (py "build_from_sql")

/-- `parse_s3_uri`. -/
def parseS3Uri (uri : Str) : Except Exc (Str × Str) :=
  if ¬ py "s3://" <+: uri then
    .error (.text .valueError (py "invalid S3 URI (must start with s3://): " ++ w.reprStr uri))
  else
    let (bucket, key) := partitionSlash (uri.drop 5)
    if bucket = [] ∨ key = [] then
      .error (.text .valueError (py "invalid S3 URI (missing bucket or key): " ++ w.reprStr uri))
    else .ok (bucket, key)

/-- The text of the object at a URI. -/
def fetchText (uri : Str) : Except Exc Str := do
  let (bucket, key) ← w.parseS3Uri uri
  w.s3Client
  let body ← w.getObject bucket key
  match utf8Decode body with
  | some text => .ok text
  | none => .error (.text .unicodeDecodeError (w.detail body))

/-- `load_candidate_sql`. -/
def loadCandidateSql : Except Exc Str :=
  let uri := (w.environ (py "CANDIDATE_SQL_URI")).getD []
  if uri = [] then .ok [] else w.fetchText uri

/-- `load_candidate_spec`. -/
def loadCandidateSpec : Except Exc (List (Str × Json Str)) := do
  let uri := (w.environ (py "CANDIDATE_SPEC_URI")).getD []
  if uri = [] then .error (.text .valueError (py "CANDIDATE_SPEC_URI is unset or empty"))
  else
    let text ← w.fetchText uri
    match ← w.jsonLoads text with
    | .obj members => .ok members
    | spec => .error (.text .valueError (py "candidate spec must be a JSON object, got " ++ spec.typeName))

end ValidationRun

/-- `except Exception as exc`: log it, print its text, and exit. -/
def reportLoad {α : Type} (code : Exc → ErrorCode) (uniqueId : Str) : Except Exc α → Except Refusal α
  | .ok a => .ok a
  | .error e =>
    if e.cls.isException then
      match e.str with
      | .ok text => .error (.exit text (code e) uniqueId)
      | .error inner => .error (.raised inner)
    else .error (.raised e)

namespace ValidationRun

variable (w : ValidationRun)

/-- What is read from the spec of `build_from_columns`. -/
def specOp (table uniqueId : Str) (spec : List (Str × Json Str)) : Except Refusal RunnerOp :=
  let outputColumns := (spec.lookup (py "output_columns")).getD .null
  let config := (spec.lookup (py "config")).getD .null
  let csvSource := (spec.lookup (py "csv_source")).getD (.str [])
  let reads := (spec.lookup (py "reads")).getD (.arr [])
  if outputColumns.truthy = false then .error (.exit (py "candidate spec has no output_columns") .usage uniqueId)
  else
    match config with
    | .null | .obj _ =>
      match csvSource with
      | .str source =>
        let config := if config.truthy then config else .obj []
        .ok (.buildFromColumns table outputColumns config source reads)
      | v => .error (.exit (py "candidate spec 'csv_source' must be a string, got " ++ v.typeName) .usage uniqueId)
    | v => .error (.exit (py "candidate spec 'config' must be a JSON object, got " ++ v.typeName) .usage uniqueId)

/-- `main` up to the adapter: what it is to do. -/
def gather : Except Refusal RunnerJob := do
  let schema ← w.requireVar (py "DBT_TARGET_SCHEMA")
  let op := w.opName
  if op ∈ nodeOps then
    let table ← w.requireVar (py "TABLE_NAME")
    let uniqueId := orText w.nodeId (py "model." ++ table)
    if op = py "build_from_sql" ∨ op = py "check_binds" then
      let sql ← reportLoad (fun _ => .failure) uniqueId w.loadCandidateSql
      if sql = [] then .error (.exit (py "CANDIDATE_SQL_URI is unset or empty") .usage uniqueId)
      else .ok ⟨schema, uniqueId, if op = py "build_from_sql" then .buildFromSql table sql
        else .checkBinds table sql⟩
    else if op = py "build_from_columns" then
      let spec ← reportLoad (fun e => if e.cls.isValueError then .usage else .failure) uniqueId w.loadCandidateSpec
      let op ← specOp table uniqueId spec
      .ok ⟨schema, uniqueId, op⟩
    else
      let prodSchema ← w.requireVar (py "PROD_SCHEMA")
      .ok ⟨schema, uniqueId, .cloneFromProd table prodSchema⟩
  else
    let uniqueId := orText w.nodeId (py "schema." ++ schema)
    if op ∈ schemaOps then
      .ok ⟨schema, uniqueId, if op = py "ensure_schema" then .ensureSchema else .dropSchema⟩
    else .error (.exit (py "unknown VALIDATION_OP " ++ w.reprStr op) .usage uniqueId)

/-- The adapter class, if it is the only one and its environment is there. -/
def choose (uniqueId : Str) : Except Refusal AdapterClass :=
  match discoverAdapter w.reprStr w.entryPoints with
  | .error e =>
    if e.cls = .adapterDiscoveryError then reportLoad (fun _ => .usage) uniqueId (.error e)
    else .error (.raised e)
  | .ok (engine, cls) =>
    match cls.requiredEnv with
    | .error e => .error (.raised e)
    | .ok required =>
      let missing := required.filter fun name => (w.environ name).getD [] = []
      if missing ≠ [] then
        .error (.exit (py "missing required env for engine " ++ w.reprStr engine ++ py ": " ++
          (py ", ").intercalate missing) .usage uniqueId)
      else .ok cls

/-! ## The csv header -/

/-- `check_header`, of declared names that may be any value. -/
def checkDeclared (header : List Str) (declared : List (Json Str)) : Except Exc Unit :=
  match declared.find? fun v => !v.hashable with
  | some v => .error (.text .typeError (py "unhashable type: '" ++ v.typeName ++ py "'"))
  | none =>
    let missing := declared.filter fun v => match v with
      | .str name => name ∉ header
      | _ => true
    if missing ≠ [] then do
      let text ← w.reprSorted missing
      .error (.text .valueError (py "csv header missing declared column(s): " ++ text))
    else .ok ()

/-- The check of the csv header; there is none without a source. -/
def checkCsvHeader (csvSource : Str) (outputColumns : Json Str) : Except Exc Unit := do
  if csvSource = [] then .ok ()
  else
    let uri ← match parseCsvUri w.reprStr csvSource with
      | .ok uri => .ok uri
      | .error detail => .error (.text .valueError detail)
    let line ← w.fetchHeaderLine uri
    if line = [] then
      .error (.text .valueError (py "csv source has no header line (empty or unreadable): " ++ csvSource))
    else
      let columns ← outputColumns.iterate
      let declared ← columns.mapM (Json.subscript (py "name"))
      let header ← w.csvRow line
      w.checkDeclared header declared

/-! ## The operation -/

end ValidationRun

/-- A call whose value is not used. -/
def invoke (a : Adapter) (call : AdapterCall) : RunProg Unit := do
  let _ ← callAdapter a call
  pure ()

/-- `adapter = adapter_cls.from_env()`. -/
def construct (cls : AdapterClass) : RunProg Adapter := fun s =>
  match cls.fromEnv with
  | .ok a => (.ok a, { s with active := some a, events := s.events ++ [⟨.fromEnv, none⟩] })
  | .error e => (.error e, { s with events := s.events ++ [⟨.fromEnv, some e⟩] })

/-- `logger.error("...%s", exc)`: the logging module swallows what `str(exc)` raises, but
    for a `RecursionError` and what is no `Exception`. -/
def logException (e : Exc) : Except Exc Unit :=
  match e.str with
  | .ok _ => .ok ()
  | .error inner =>
    if inner.cls.isException ∧ inner.cls ≠ .other (py "RecursionError") then .ok () else .error inner

/-- `sys.exit(code)`. -/
def sysExit {α : Type} (code : ErrorCode) : RunProg α :=
  Prog.raise (.text (.systemExit (.int code.value)) (decimalInt code.value))

/-- A run that ends before there is an adapter. -/
def Refusal.settle {α : Type} : Refusal → RunProg α
  | .exit message code uniqueId => do
    printBlock (py "error") message 0 uniqueId
    sysExit code
  | .raised e => Prog.raise e

namespace ValidationRun

variable (w : ValidationRun)

/-- The `try` of `main`. -/
def attempt (job : RunnerJob) (cls : AdapterClass) : RunProg Unit := do
  let a ← construct cls
  match job.op with
  | .ensureSchema => invoke a (.ensureSchema job.schema)
  | .dropSchema => invoke a (.dropSchema job.schema)
  | .buildFromSql table sql => do
    invoke a (.ensureSchema job.schema)
    invoke a (.buildEmptyFromSql job.schema table sql)
  | .checkBinds _ sql => do
    invoke a (.ensureSchema job.schema)
    invoke a (.checkBinds (.str sql))
  | .buildFromColumns table outputColumns config csvSource reads => do
    invoke a (.ensureSchema job.schema)
    Prog.lift (w.checkCsvHeader csvSource outputColumns)
    let sqls ← Prog.lift reads.iterate
    sqls.forM fun sql => invoke a (.checkBinds sql)
    invoke a (.buildEmptyFromColumns job.schema table outputColumns config)
  | .cloneFromProd table prodSchema => do
    invoke a (.ensureSchema job.schema)
    invoke a (.cloneEmptyFromProd job.schema prodSchema table)

/-- `except Exception as exc`. -/
def failed (uniqueId : Str) (e : Exc) : RunProg Unit :=
  if e.cls.isException then do
    Prog.lift (logException e)
    let text ← Prog.lift e.str
    printBlock (py "error") text 0 uniqueId
    sysExit .failure
  else Prog.raise e

/-- The `finally`. -/
def closeRunner : RunProg Unit := fun s =>
  match s.active with
  | none => (.ok (), s)
  | some a => Prog.handle (invoke a .close) (fun e =>
      if e.cls.isException then Prog.lift (logException e) else Prog.raise e) s

/-- `main`. -/
def main : RunProg Unit :=
  match w.gather with
  | .error refusal => refusal.settle
  | .ok job =>
    match w.choose job.uniqueId with
    | .error refusal => refusal.settle
    | .ok cls => do
      Prog.always ((w.attempt job cls).handle (failed job.uniqueId)) closeRunner
      printBlock (py "success") [] 0 job.uniqueId

/-- The status with which the process ends. -/
def exitCode : ℤ := exitStatus ((w.main .start).1.map fun _ => 0)

end ValidationRun

end ContinuoRuntime
