/-
  The producers of `run_node`: a node's script, or its csv source.

  What a script does is a tree: it reads declared reads, each through the adapter, and
  ends with a value or an exception.  Nothing else of it reaches the run.
-/
import ContinuoRuntime.Python.Files
import ContinuoRuntime.Harness.Adapter
import ContinuoRuntime.Contract.Selection

namespace ContinuoRuntime

/-! ## Scripts -/

/-- What `run(ctx)` returned. -/
inductive RunValue where
  | table (table : ArrowTable)
  /-- a pandas `DataFrame`, and what `pa.Table.from_pandas` makes of it -/
  | dataFrame (converted : Except Exc ArrowTable)
  /-- an object with `__arrow_c_stream__`, and what `pa.table` makes of it -/
  | stream (converted : Except Exc ArrowTable)
  | other (typeName : Str)

/-- What is left of a script. -/
inductive Script where
  | ends (outcome : Except Exc RunValue)
  /-- `ctx.read(name)`; the script may catch what it raises -/
  | read (name : Str) (k : Except Exc ArrowTable → Script)

/-- What becomes of the file of a script. -/
inductive ScriptFile where
  /-- `spec_from_file_location` knows no loader for it -/
  | noLoader
  /-- what `exec_module` raised -/
  | raised (e : Exc)
  /-- the attribute `run`, if it is callable -/
  | module (run : Except Exc (Option Script))

/-! ## Paths -/

/-- The parts of `Path(text)`. -/
def pureParts (text : Str) : List Str := (splitSlash text).filter fun part => part ≠ [] ∧ part ≠ py "."

/-- `str` of a path with these parts. -/
def pureText (text : Str) (parts : List Str) : Str :=
  if py "/" <+: text then py "/" ++ (py "/").intercalate parts
  else if parts = [] then py "."
  else (py "/").intercalate parts

/-- `Path(text)`, as a text. -/
def pathOf (text : Str) : Str := pureText text (pureParts text)

/-- `Path(text).parent`. -/
def parentOf (text : Str) : Str := pureText text (pureParts text).dropLast

/-! ## What a run meets -/

/-- Everything around a run of the harness. -/
structure NodeRun where
  /-- the environment that `run_node` is given -/
  env : Str → Option Str
  /-- `os.environ` -/
  environ : Str → Option Str
  /-- the adapter that `run_node` is given -/
  adapter : Option Adapter
  entryPoints : List EntryPoint
  lang : Lang
  parser : SqlParser
  yaml : Str → YamlRun
  /-- the files of a directory, with their texts -/
  files : Str → List (Str × Str)
  /-- `path.resolve()` -/
  resolve : Str → Except Exc Path
  isFile : Path → Bool
  importFile : Path → ScriptFile
  /-- the file that the csv reader fetches -/
  fetchCsv : CsvUri → Except Exc Bytes
  /-- `pyarrow.csv.read_csv` with its column types -/
  readCsv : Bytes → List (Str × ArrowType) → Except Exc ArrowTable
  casts : ArrowCast
  casefold : Str → Str

namespace NodeRun

variable (w : NodeRun)

/-! ## The script producer -/

/-- `resolve_script_path`. -/
def resolveScriptPath (script repoRoot context : Str) : Except Exc Path := do
  if py "/" <+: script then
    contractError (context ++ py ": script path " ++ w.lang.reprStr script ++
      py " must be relative to the repository root")
  else
    let scriptPath ← w.resolve (repoRoot ++ py "/" ++ script)
    let root ← w.resolve repoRoot
    if ¬ root <+: scriptPath then
      contractError (context ++ py ": script path " ++ w.lang.reprStr script ++
        py " escapes the repository root")
    else if w.isFile scriptPath then .ok scriptPath
    else contractError (context ++ py ": script not found: " ++ script)

/-- `load_script`: the `run` of the module. -/
def loadScript (node : Node) (repoRoot : Str) : Except Exc Script := do
  let scriptPath ← w.resolveScriptPath node.script repoRoot node.relation
  match w.importFile scriptPath with
  | .noLoader => contractError (py "cannot load script: " ++ node.script)
  | .raised e => .error (wrapException (fun _ => false) .scriptError (py "script import failed: ") e)
  | .module run =>
    match ← run with
    | none => .error (.text .scriptError (py "script " ++ node.script ++ py " has no callable 'run'"))
    | some script => .ok script

/-- `RunContext.read`, with the results that are kept. -/
def contextRead (a : Adapter) (reads : Dict Str Str) (memo : List (Str × ArrowTable)) (name : Str) :
    RunProg (Except Exc ArrowTable × List (Str × ArrowTable)) :=
  match reads.get? name with
  | none =>
    pure (.error (.text .readError (py "undeclared read " ++ w.lang.reprStr name ++ py ", declared: " ++
      reprList w.lang.reprStr ((reads.items.map Prod.fst).insertionSort (· ≤ ·)))), memo)
  | some sql =>
    match memo.lookup name with
    | some table => pure (.ok table, memo)
    | none =>
      Prog.handle
        (callAdapter a (.fetch sql) >>= fun (table : ArrowTable) => pure (.ok table, (name, table) :: memo))
        fun e => pure (.error (wrapException (fun _ => false) .readError
          (py "declared read " ++ w.lang.reprStr name ++ py " failed: ") e), memo)

/-- `module.run(ctx)`. -/
def runScript (a : Adapter) (reads : Dict Str Str) : Script → List (Str × ArrowTable) → RunProg RunValue
  | .ends outcome, _ => Prog.lift outcome
  | .read name k, memo => do
    let (result, memo) ← w.contextRead a reads memo name
    runScript a reads (k result) memo

/-- `_execute_script`; the text names the class of the exception. -/
def executeScript (a : Adapter) (reads : Dict Str Str) (script : Script) : RunProg RunValue :=
  (w.runScript a reads script []).handle fun e => Prog.raise
    (wrapException ExcClass.isHarness .scriptError (py "run() raised " ++ e.cls.name ++ py ": ") e)

end NodeRun

/-- `to_arrow`. -/
def toArrow : RunValue → Except Exc ArrowTable
  | .table table => .ok table
  | .dataFrame converted => converted
  | .stream converted => converted
  | .other typeName => .error (.text .scriptError
      (py "run() returned " ++ typeName ++ py "; expected an Arrow-convertible value"))

namespace NodeRun

variable (w : NodeRun)

/-- `_produce_from_script`. -/
def produceFromScript (node : Node) (a : Adapter) (appRoot : Str) : RunProg ArrowTable := do
  let script ← Prog.lift (w.loadScript node appRoot)
  let value ← w.executeScript a node.reads script
  Prog.lift (toArrow value)

/-! ## The csv producer -/

/-- `produce_csv`. -/
def produceCsv (node : Node) : Except Exc ArrowTable := do
  let source ← match node.reads.get? (py "csv") with
    | some uri => .ok uri
    | none => .error (.text (.other (py "KeyError")) (py "'csv'"))
  let uri ← match parseCsvUri w.lang.reprStr source with
    | .ok uri => .ok uri
    | .error detail => .error (.text .valueError detail)
  let columnTypes ← node.outputColumns.mapM fun column => do
    let type ← declaredType w.lang.reprStr column
    .ok (column.name, type)
  let parsed := do
    let bytes ← w.fetchCsv uri
    w.readCsv bytes columnTypes
  match parsed with
  | .ok table => .ok table
  | .error e => .error (wrapException (· == .loadError) .loadError
      (py "csv fetch failed for " ++ node.relation ++ py ": ") e)

/-- `_PRODUCERS[node.kind]`. -/
def produce (node : Node) (a : Adapter) (appRoot : Str) : RunProg ArrowTable :=
  match node.kind with
  | .pythonNode | .pythonApi => w.produceFromScript node a appRoot
  | .pythonCsv => Prog.lift (w.produceCsv node)

end NodeRun

end ContinuoRuntime
