/-
  The contract model (`contract/model.py`): a node and its columns.

  The strings that `parse_node` restricts to a fixed set are enumerations with
  their spelling (`text`).  What else `parse_node` makes sure of and a later
  stage relies on is part of the types: distinct read names, a `config` that is
  a JSON mapping, a primary key only for `upsert`.
-/
import ContinuoRuntime.Python.Json
import ContinuoRuntime.Python.Dict

namespace ContinuoRuntime

/-! ## Fixed sets of strings -/

/-- `KINDS`. -/
inductive Kind where
  | pythonNode | pythonCsv | pythonApi
  deriving DecidableEq

/-- `CRITICALITIES`. -/
inductive Criticality where
  | regulatory | core | secondary
  deriving DecidableEq

/-- `EXTRA_COLUMNS_POLICIES`. -/
inductive ExtraColumns where
  | raise | warn
  deriving DecidableEq

/-- `MODE_TYPES`. -/
inductive ModeType where
  | append | upsert | replace
  deriving DecidableEq

def Kind.text : Kind → Str
  | pythonNode => py "python-node"
  | pythonCsv => py "python-csv"
  | pythonApi => py "python-api"

def Criticality.text : Criticality → Str
  | regulatory => py "REGULATORY"
  | core => py "CORE"
  | secondary => py "SECONDARY"

def ExtraColumns.text : ExtraColumns → Str
  | raise => py "raise"
  | warn => py "warn"

def ModeType.text : ModeType → Str
  | append => py "append"
  | upsert => py "upsert"
  | replace => py "replace"

def Kind.all : List Kind := [.pythonApi, .pythonCsv, .pythonNode]
def Criticality.all : List Criticality := [.core, .regulatory, .secondary]
def ExtraColumns.all : List ExtraColumns := [.raise, .warn]
def ModeType.all : List ModeType := [.append, .replace, .upsert]

theorem Kind.text_inj {a b : Kind} (h : a.text = b.text) : a = b := by
  revert h; cases a <;> cases b <;> decide

theorem Criticality.text_inj {a b : Criticality} (h : a.text = b.text) : a = b := by
  revert h; cases a <;> cases b <;> decide

theorem ExtraColumns.text_inj {a b : ExtraColumns} (h : a.text = b.text) : a = b := by
  revert h; cases a <;> cases b <;> decide

theorem ModeType.text_inj {a b : ModeType} (h : a.text = b.text) : a = b := by
  revert h; cases a <;> cases b <;> decide

/-- `DEFAULT_KIND`. -/
def defaultKind : Kind := .pythonNode

/-- `DEFAULT_MODE_TYPE`. -/
def defaultModeType : ModeType := .replace

/-- `CONTRACT_VERSION`. -/
def contractVersion : ℤ := 1

/-! ## Nodes -/

/-- A column definition in a table. -/
structure Column where
  name : Str
  type : Str
  nullable : Bool
  deriving DecidableEq

/-- A node (task/process) definition. -/
structure Node where
  schema : Str
  table : Str
  owner : Str
  schedule : Str
  criticality : Criticality
  script : Str
  reads : Dict Str Str
  outputColumns : List Column
  description : Str
  extraColumns : ExtraColumns
  config : JsonDict
  contentHash : Option Str
  kind : Kind
  secretRef : Str
  modeType : ModeType
  primaryKey : List Str
  timeoutMinutes : Option ℤ
  /-- only an upsert has a primary key -/
  primaryKey_eq_nil : modeType ≠ .upsert → primaryKey = []

/-- A node without a key, whatever its mode. -/
theorem primaryKey_nil {mode : ModeType} : mode ≠ .upsert → ([] : List Str) = [] := fun _ => rfl

/-- The fully qualified table name. -/
def Node.relation (node : Node) : Str := node.schema ++ py "." ++ node.table

end ContinuoRuntime
