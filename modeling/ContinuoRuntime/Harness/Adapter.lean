/-
  The warehouse adapter as the harness sees it, and what is around a run.

  An adapter answers each call as it likes, from what it was asked before: with a
  value of the type that the call returns, or with any exception.  A run keeps the
  list of these calls, and of the result blocks that it has printed.

  * `discoverAdapter`: the one installed plugin;
  * `callAdapter_spec`: what one call does to a run.
-/
import ContinuoRuntime.Lib.Program
import ContinuoRuntime.Conform
import ContinuoRuntime.Shape
import ContinuoRuntime.ResultBlock

namespace ContinuoRuntime

/-! ## Adapters -/

/-- A call of an adapter method. -/
inductive AdapterCall where
  | validateConfig (config : JsonDict) (columnNames : List Str)
  | fetch (sql : Str)
  | ensureTable (schema table : Str) (columns : List Column) (config : JsonDict)
      (primaryKey : Option (List Str))
  | tableColumns (schema table : Str)
  | load (schema table : Str) (data : ArrowTable)
  | append (schema table : Str) (data : ArrowTable)
  | upsert (schema table : Str) (data : ArrowTable) (primaryKey : List Str)
  | ensureSchema (schema : Str)
  | dropSchema (schema : Str)
  | buildEmptyFromSql (schema table sql : Str)
  | cloneEmptyFromProd (candidateSchema prodSchema table : Str)
  | buildEmptyFromColumns (schema table : Str) (columns config : Json Str)
  | checkBinds (sql : Json Str)
  /-- the class method; only the validation runner lists it -/
  | fromEnv
  | close

namespace AdapterCall

/-- What the method returns. -/
def Reply : AdapterCall → Type
  | fetch _ => ArrowTable
  | tableColumns _ _ => List LiveColumn
  | _ => Unit

/-- The write methods. -/
def isWrite : AdapterCall → Bool
  | load .. | append .. | upsert .. => true
  | _ => false

def isEnsureTable : AdapterCall → Bool
  | ensureTable .. => true
  | _ => false

end AdapterCall

/-- A call, and what it raised. -/
structure AdapterEvent where
  call : AdapterCall
  raised : Option Exc

/-- The call has returned. -/
def AdapterEvent.returned (e : AdapterEvent) : Bool := e.raised.isNone

/-- An adapter object. -/
structure Adapter where
  /-- `type(adapter).__name__` -/
  typeName : Str
  /-- it has a `validate_config` -/
  validates : Bool
  appendCapable : Bool
  upsertCapable : Bool
  answer : List AdapterEvent → (call : AdapterCall) → Except Exc call.Reply

/-- An adapter class. -/
structure AdapterClass where
  requiredEnv : Except Exc (List Str)
  fromEnv : Except Exc Adapter

/-- An entry point; what it loads may be no adapter class. -/
structure EntryPoint where
  name : Str
  load : Except Exc (Option AdapterClass)

/-- `raise AdapterDiscoveryError(msg)`. -/
def discoveryError {α : Type} (msg : Str) : Except Exc α := .error (.text .adapterDiscoveryError msg)

/-- `discover_adapter`. -/
def discoverAdapter (reprStr : Str → Str) (eps : List EntryPoint) : Except Exc (Str × AdapterClass) :=
  match eps with
  | [] => discoveryError (py "no engine adapter installed (entry-point group 'continuo_engine.adapters' is " ++
      py "empty); install exactly one engine package")
  | [ep] =>
    match ep.load with
    | .error exc =>
      if exc.cls.isException then do
        let detail ← exc.format
        discoveryError (py "failed to load adapter entry point " ++ reprStr ep.name ++ py ": " ++ detail)
      else .error exc
    | .ok none => discoveryError (py "entry point " ++ reprStr ep.name ++
        py " does not resolve to a WarehouseAdapter subclass")
    | .ok (some cls) => .ok (ep.name, cls)
  | eps => discoveryError (py "multiple engine adapters installed (" ++
      (py ", ").intercalate ((eps.map EntryPoint.name).insertionSort (· ≤ ·)) ++
      py "); an image must install exactly one")

/-! ## Exceptions -/

/-- `exc.__class__.__name__`. -/
def ExcClass.name : ExcClass → Str
  | contractError => py "ContractError"
  | readError => py "ReadError"
  | scriptError => py "ScriptError"
  | conformError => py "ConformError"
  | loadError => py "LoadError"
  | valueError => py "ValueError"
  | unicodeDecodeError => py "UnicodeDecodeError"
  | unicodeEncodeError => py "UnicodeEncodeError"
  | typeError => py "TypeError"
  | tokenError => py "TokenError"
  | osError => py "OSError"
  | adapterDiscoveryError => py "AdapterDiscoveryError"
  | yamlError => py "YAMLError"
  | systemExit _ => py "SystemExit"
  | other name | base name => name

/-- `err.sentinel_message()`, of a `HarnessError`. -/
def Exc.sentinelMessage : Exc → Except Exc Str
  | text cls msg => .ok (cls.name ++ py ": " ++ msg)
  | custom _ _ _ answer => answer.get

/-- What a handler `except Exception as exc: raise cls(f"{before}{exc}") from exc` raises,
    behind `except` clauses that let the classes of `keep` pass. -/
def wrapException (keep : ExcClass → Bool) (cls : ExcClass) (before : Str) (e : Exc) : Exc :=
  if keep e.cls || !e.cls.isException then e
  else match e.format with
    | .ok detail => .text cls (before ++ detail)
    | .error inner => inner

/-- `DuplicateKeyError`. -/
def duplicateKeyClass : ExcClass := .other (py "DuplicateKeyError")

/-! ## The state of a run -/

/-- A run of the harness. -/
structure RunState where
  /-- `active_adapter` -/
  active : Option Adapter
  events : List AdapterEvent
  /-- the result blocks on stdout, by their fields -/
  printed : List NodeResult

/-- A part of a run. -/
abbrev RunProg (α : Type) := Prog Exc RunState α

/-- A call of the adapter. -/
def callAdapter (a : Adapter) (call : AdapterCall) : RunProg call.Reply := fun s =>
  match a.answer s.events call with
  | .ok reply => (.ok reply, { s with events := s.events ++ [⟨call, none⟩] })
  | .error e => (.error e, { s with events := s.events ++ [⟨call, some e⟩] })

/-- `print(result_block(...))`. -/
def printBlock (status message : Str) (failures : ℤ) (uniqueId : Str) : RunProg Unit := do
  let _ ← Prog.lift (resultBlock status message failures uniqueId)
  fun s => (.ok (), { s with printed := s.printed ++ [⟨status, message, failures, uniqueId⟩] })

variable {a : Adapter} {call : AdapterCall} {s s' : RunState}

theorem callAdapter_ok {reply : call.Reply} (h : callAdapter a call s = (.ok reply, s')) :
    a.answer s.events call = .ok reply ∧ s' = { s with events := s.events ++ [⟨call, none⟩] } := by
  unfold callAdapter at h
  split at h
  · next r hr =>
    cases h
    exact ⟨hr, rfl⟩
  · cases h

theorem callAdapter_error {e : Exc} (h : callAdapter a call s = (.error e, s')) :
    a.answer s.events call = .error e ∧ s' = { s with events := s.events ++ [⟨call, some e⟩] } := by
  unfold callAdapter at h
  split at h
  · cases h
  · next e' he =>
    cases h
    exact ⟨he, rfl⟩

/-- A block is always printed. -/
theorem printBlock_eq {status message uniqueId : Str} {failures : ℤ}
    (hfailures : failures.natAbs < 10 ^ maxIntDigits) :
    printBlock status message failures uniqueId s =
      (.ok (), { s with printed := s.printed ++ [⟨status, message, failures, uniqueId⟩] }) := by
  unfold printBlock
  rw [resultBlock_eq, if_neg (not_le.2 hfailures)]
  rfl

theorem printBlock_success {message uniqueId : Str} : printBlock (py "success") message 0 uniqueId s =
    (.ok (), { s with printed := s.printed ++ [⟨py "success", message, 0, uniqueId⟩] }) :=
  printBlock_eq (Nat.pow_pos (by decide))

theorem printBlock_error {message uniqueId : Str} : printBlock (py "error") message 1 uniqueId s =
    (.ok (), { s with printed := s.printed ++ [⟨py "error", message, 1, uniqueId⟩] }) :=
  printBlock_eq (Nat.one_lt_pow (by decide) (by decide))

end ContinuoRuntime
