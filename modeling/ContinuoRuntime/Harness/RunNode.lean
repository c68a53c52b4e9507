/-
  `run_node` (`harness.py`).

  * `NodeRun.prepare`: all that comes before the adapter is there;
  * `NodeRun.work`: the rest of the `try`, from the config check to the write;
  * `NodeRun.report`, `closeAdapter`: the handlers and the `finally`.
-/
import ContinuoRuntime.Harness.Script

namespace ContinuoRuntime

/-! ## Before the adapter -/

/-- `_require_env`. -/
def requireEnv (reprStr : Str → Str) (env : Str → Option Str) (key : Str) : Except Exc Str :=
  let value := (env key).getD []
  if value = [] then contractError (py "missing required environment variable " ++ reprStr key)
  else .ok value

/-- What is known once an adapter is obtained. -/
structure RunTarget where
  nodeId : Str
  tableName : Str
  targetSchema : Str
  appRoot : Str
  node : Node
  adapter : Adapter

namespace NodeRun

variable (w : NodeRun)

/-- `build_adapter`. -/
def buildAdapter : Except Exc Adapter := do
  let (_, cls) ← discoverAdapter w.lang.reprStr w.entryPoints
  let required ← cls.requiredEnv
  let missing := required.filter fun key => (w.environ key).getD [] = []
  if missing ≠ [] then
    .error (.text .loadError (py "missing required warehouse env: " ++
      reprList w.lang.reprStr (missing.insertionSort (· ≤ ·))))
  else cls.fromEnv

/-- The adapter that was given, or else the installed one. -/
def obtainAdapter : Except Exc Adapter :=
  match w.adapter with
  | some a => .ok a
  | none => match w.buildAdapter with
    | .ok a => .ok a
    | .error e => .error (wrapException ExcClass.isHarness .loadError (py "adapter construction failed: ") e)

/-- `contract_dir`. -/
def contractDir : Str := pathOf (orText ((w.env (py "CONTRACT_DIR")).getD []) (py "/app/contracts"))

/-- `app_root`. -/
def appRoot : Str :=
  let root := (w.env (py "APP_ROOT")).getD []
  if root = [] then parentOf w.contractDir else pathOf root

/-- `run_node` up to the adapter. -/
def prepare : Except Exc RunTarget := do
  let nodeId ← requireEnv w.lang.reprStr w.env (py "NODE_ID")
  let tableName ← requireEnv w.lang.reprStr w.env (py "TABLE_NAME")
  let targetSchema ← requireEnv w.lang.reprStr w.env (py "TARGET_SCHEMA")
  let nodes ← loadContractDir w.lang w.parser (strictLoad w.lang w.yaml) false w.contractDir
    (w.files w.contractDir)
  let node ← selectNode w.lang nodes nodeId
  let adapter ← w.obtainAdapter
  .ok ⟨nodeId, tableName, targetSchema, w.appRoot, node, adapter⟩

end NodeRun

/-! ## Writers -/

/-- The capabilities that an adapter may declare. -/
inductive WriteCapability where
  | append | upsert
  deriving DecidableEq

/-- `isinstance(adapter, capability)`. -/
def Adapter.has (a : Adapter) : WriteCapability → Bool
  | .append => a.appendCapable
  | .upsert => a.upsertCapable

/-- `_Writer`. -/
structure Writer where
  capability : Option WriteCapability
  write : Str → Str → ArrowTable → List Str → AdapterCall

/-- `_WRITERS`. -/
def writers : ModeType → Writer
  | .replace => ⟨none, fun schema table data _ => .load schema table data⟩
  | .append => ⟨some .append, fun schema table data _ => .append schema table data⟩
  | .upsert => ⟨some .upsert, fun schema table data key => .upsert schema table data key⟩

/-- The adapter can write the node's mode. -/
def Adapter.Supports (a : Adapter) (mode : ModeType) : Prop :=
  ∀ capability, (writers mode).capability = some capability → a.has capability = true

/-- `_writer_for`. -/
def writerFor (a : Adapter) (node : Node) : Except Exc Writer :=
  let writer := writers node.modeType
  match writer.capability with
  | none => .ok writer
  | some capability =>
    if a.has capability then .ok writer
    else .error (.text .loadError (a.typeName ++ py " does not support " ++ node.modeType.text))

theorem writerFor_eq_ok_iff {a : Adapter} {node : Node} {writer : Writer} :
    writerFor a node = .ok writer ↔ writer = writers node.modeType ∧ a.Supports node.modeType := by
  unfold writerFor Adapter.Supports
  cases hcap : (writers node.modeType).capability with
  | none =>
    simp only [hcap]
    refine ⟨fun h => ?_, fun h => by rw [h.1]⟩
    cases h
    exact ⟨rfl, fun capability hc => by cases hc⟩
  | some capability =>
    simp only [hcap]
    split_ifs with hhas
    · refine ⟨fun h => ?_, fun h => by rw [h.1]⟩
      cases h
      refine ⟨rfl, fun c hc => ?_⟩
      cases hc
      exact hhas
    · refine ⟨fun h => (by cases h), fun h => absurd (h.2 capability rfl) hhas⟩

/-! ## The calls of a run -/

/-- `_yaml_bool`. -/
def yamlBool (value : Bool) : Str := if value then py "true" else py "false"

/-- `ShapeDiff.message`. -/
def ShapeDiff.message (reprStr : Str → Str) (diff : ShapeDiff) (target : Str) : Str :=
  let missing := if diff.missing = [] then [] else [py "missing column(s) " ++ reprList reprStr diff.missing]
  let unexpected :=
    if diff.unexpected = [] then [] else [py "unexpected column(s) " ++ reprList reprStr diff.unexpected]
  let nullability := diff.nullability.map fun d => py "column " ++ d.name ++ py " is nullable: " ++
    yamlBool d.live ++ py " in the table but nullable: " ++ yamlBool d.declared ++ py " in the contract"
  py "table " ++ target ++ py " does not match the contract's output_columns: " ++
    (py "; ").intercalate (missing ++ unexpected ++ nullability) ++
    py ". An append or upsert table keeps its rows, so its shape cannot change: " ++
    py "write to a new table (a _v2 name) under a new contract"

instance (diff : ShapeDiff) : Decidable diff.IsEmpty := inferInstanceAs (Decidable (_ ∧ _ ∧ _))

namespace RunTarget

variable (t : RunTarget)

/-- The call of `_validate_config_early`. -/
def validateCall : AdapterCall := .validateConfig t.node.config (t.node.outputColumns.map Column.name)

/-- The call of `ensure_table`; a key is passed only if there is one. -/
def ensureCall : AdapterCall :=
  .ensureTable t.targetSchema t.tableName t.node.outputColumns t.node.config
    (if t.node.primaryKey = [] then none else some t.node.primaryKey)

/-- The call of `_check_shape`. -/
def shapeCall : AdapterCall := .tableColumns t.targetSchema t.tableName

/-- The write of the node's `mode_type`. -/
def writeCall (conformed : ArrowTable) : AdapterCall :=
  match t.node.modeType with
  | .replace => .load t.targetSchema t.tableName conformed
  | .append => .append t.targetSchema t.tableName conformed
  | .upsert => .upsert t.targetSchema t.tableName conformed t.node.primaryKey

end RunTarget

namespace NodeRun

variable (w : NodeRun) (t : RunTarget)

/-- `_validate_config_early`. -/
def validateConfigEarly : RunProg Unit :=
  if t.adapter.validates then
    Prog.handle (do
      let _ ← callAdapter t.adapter t.validateCall
      pure ()) fun e => Prog.raise
        (wrapException ExcClass.isHarness .loadError (py "invalid config for " ++ t.node.relation ++ py ": ") e)
  else pure ()

/-- `_check_shape`. -/
def checkShape : RunProg Unit := do
  let live : List LiveColumn ← callAdapter t.adapter (.tableColumns t.targetSchema t.tableName)
  let diff := shapeDiff w.casefold t.node.outputColumns live
  if diff.IsEmpty then pure ()
  else Prog.raise (.text .loadError (diff.message w.lang.reprStr (t.targetSchema ++ py "." ++ t.tableName)))

/-- What the handlers of the write make of an exception. -/
def writeError (e : Exc) : Exc :=
  if e.cls = duplicateKeyClass then
    match e.str with
    | .ok detail => .text .conformError detail
    | .error inner => inner
  else wrapException ExcClass.isHarness .loadError
    (py "failed to write " ++ t.targetSchema ++ py "." ++ t.tableName ++ py ": ") e

/-- The `try` around the write. -/
def writeSection (writer : Writer) (conformed : ArrowTable) : RunProg Unit :=
  Prog.handle (do
    let _ ← callAdapter t.adapter t.ensureCall
    let _ ← (if writer.capability.isSome then w.checkShape t else pure () : RunProg Unit)
    let _ ← callAdapter t.adapter (writer.write t.targetSchema t.tableName conformed t.node.primaryKey)
    pure ()) fun e => Prog.raise (writeError t e)

/-- The `try` of `run_node`, from the adapter on. -/
def work : RunProg ℤ := do
  validateConfigEarly t
  let writer ← Prog.lift (writerFor t.adapter t.node)
  let table ← w.produce t.node t.adapter t.appRoot
  let conformed ← Prog.lift (conform w.casts w.lang.reprStr table t.node.outputColumns t.node.extraColumns)
  w.writeSection t writer conformed
  printBlock (py "success") (py "rows=" ++ decimal conformed.numRows) 0 t.nodeId
  pure 0

/-- `active_adapter = ...`. -/
def setActive (a : Adapter) : RunProg Unit := fun s => (.ok (), { s with active := some a })

/-- The `try` of `run_node`. -/
def tryBody : RunProg ℤ := do
  let t ← Prog.lift w.prepare
  setActive t.adapter
  w.work t

/-- The handlers of `run_node`. -/
def report (nodeId : Str) (e : Exc) : RunProg ℤ :=
  if e.cls.isHarness then do
    let message ← Prog.lift e.sentinelMessage
    printBlock (py "error") message 1 nodeId
    pure 1
  else if e.cls.isException then do
    let detail ← Prog.lift e.format
    printBlock (py "error") (py "ScriptError: unexpected failure: " ++ detail) 1 nodeId
    pure 1
  else Prog.raise e

/-- The `finally` of `run_node`. -/
def closeAdapter : RunProg Unit := fun s =>
  match s.active with
  | none => (.ok (), s)
  | some a => Prog.handle (callAdapter a .close) (fun e =>
      if e.cls.isException then pure () else Prog.raise e) s

/-- `run_node`. -/
def runNode : RunProg ℤ :=
  Prog.always (w.tryBody.handle (report ((w.env (py "NODE_ID")).getD []))) closeAdapter

end NodeRun

/-- A run at its start. -/
def RunState.start : RunState := ⟨none, [], []⟩

/-- The status with which the process ends: that of `sys.exit(run_node(...))`, or
    that of an exception that nothing has caught. -/
def exitStatus : Except Exc ℤ → ℤ
  | .ok n => n
  | .error e =>
    match e.cls with
    | .systemExit .none => 0
    | .systemExit (.int n) => if -2 ^ 63 ≤ n ∧ n < 2 ^ 63 then n % 256 else 255
    | .base name => if name = py "KeyboardInterrupt" then 130 else 1
    | _ => 1

end ContinuoRuntime
