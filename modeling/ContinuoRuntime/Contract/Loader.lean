/-
  The contract loader (`contract/loader.py`): a raw YAML mapping is checked and
  becomes a `Node`.

  * `toJson` is the walk of `_validate_config`; `active` holds the containers
    being descended into, and the walk of an accepted value is its JSON tree
    (`toJson_wf`: with distinct keys at every level);
  * `parseNode` is `parse_node`, with the checks in its order;
  * `strictKey` is a round of `_strict_construct_mapping`;
  * `loadContractDir` is `load_contract_dir`, with YAML's parser as a parameter.
-/
import ContinuoRuntime.Contract.Kinds

namespace ContinuoRuntime

variable (L : Lang) (P : SqlParser) (h : Heap)

/-! ## `config` -/

/-- One member of a mapping; `check` walks its value. -/
def configMember (label : Str) (check : Val h.size → Val h.size → Except Exc (Json Str))
    (p : Val h.size × Val h.size) : Except Exc (Str × Json Str) :=
  match p.1 with
  | .str k => do
    let v ← check p.2 p.1
    .ok (k, v)
  | k => contractErrorFor L h (label ++ py ": 'config' keys must be strings, got ") k []

theorem configMember_ok {label : Str} {check : Val h.size → Val h.size → Except Exc (Json Str)}
    {p : Val h.size × Val h.size} {q : Str × Json Str} (hq : configMember L h label check p = .ok q) :
    p.1 = .str q.1 ∧ check p.2 p.1 = .ok q.2 := by
  obtain ⟨k, v⟩ := p
  cases k with
  | str k =>
    obtain ⟨w, hw, hq⟩ := bind_eq_ok.1 hq
    cases hq
    exact ⟨rfl, hw⟩
  | _ => exact absurd hq contractErrorFor_ne_ok

/-- A walked mapping has distinct keys, if its values have. -/
theorem configMembers_wf {label : Str} {check : Val h.size → Val h.size → Except Exc (Json Str)}
    {d : Dict (Val h.size) (Val h.size)} {kvs : List (Str × Json Str)}
    (hk : d.items.mapM (configMember L h label check) = .ok kvs)
    (hcheck : ∀ {v k j}, check v k = .ok j → j.WF) : (Json.obj kvs).WF := by
  refine ⟨d.nodup.mapM (fun p q hq => (configMember_ok L h hq).1) hk,
    Json.wfItems_iff.2 fun q hq => ?_⟩
  obtain ⟨p, -, hp⟩ := exists_of_mem_mapM hk hq
  exact hcheck (configMember_ok L h hp).2

/-- `_check`: `key` is the key that `value` was found under.  Every descent adds
    a container to `active`, so `fuel` does not run out before `active` holds
    every container. -/
def toJson (label : Str) : ℕ → List (Fin h.size) → Val h.size → Val h.size → Except Exc (Json Str)
  | _, _, .none, _ => .ok .null
  | _, _, .bool b, _ => .ok (.bool b)
  | _, _, .int i, _ => .ok (.int i)
  | _, _, .float f, _ => .ok (.float f)
  | _, _, .str s, _ => .ok (.str s)
  | _, _, .other t o x, key => do
    let text ← L.repr h key
    contractErrorFor L h (label ++ py ": 'config' value for " ++ text ++ py " is not JSON-serializable: ")
      (.other t o x) []
  | 0, _, .ref _, key =>
    contractErrorFor L h (label ++ py ": 'config' contains a circular reference at ") key []
  | fuel + 1, active, .ref a, key =>
    if a ∈ active then
      contractErrorFor L h (label ++ py ": 'config' contains a circular reference at ") key []
    else match h.cell a with
      | .dict d => do
        let kvs ← d.items.mapM (configMember L h label fun x k =>
          nestedCall L (active.length + 1) (toJson label fuel (a :: active) x k))
        .ok (.obj kvs)
      | .list xs => do
        let vs ← xs.mapM fun x => nestedCall L (active.length + 1) (toJson label fuel (a :: active) x key)
        .ok (.arr vs)

/-- An accepted value is a JSON tree with distinct keys. -/
theorem toJson_wf {label : Str} : ∀ {fuel : ℕ} {active : List (Fin h.size)} {v key : Val h.size}
    {j : Json Str}, toJson L h label fuel active v key = .ok j → j.WF
  | fuel, active, .none, key, j, hj | fuel, active, .bool _, key, j, hj
  | fuel, active, .int _, key, j, hj | fuel, active, .float _, key, j, hj
  | fuel, active, .str _, key, j, hj => by
    cases fuel <;> (cases hj; trivial)
  | fuel, active, .other t o x, key, j, hj => by
    have hrefuse : toJson L h label fuel active (.other t o x) key ≠ .ok j := by
      intro hok
      cases fuel <;>
        (obtain ⟨_, -, hok⟩ := bind_eq_ok.1 hok; exact absurd hok contractErrorFor_ne_ok)
    exact absurd hj hrefuse
  | 0, active, .ref a, key, j, hj => absurd hj contractErrorFor_ne_ok
  | fuel + 1, active, .ref a, key, j, hj => by
    rw [toJson] at hj
    split at hj
    · exact absurd hj contractErrorFor_ne_ok
    split at hj
    next d hd =>
      obtain ⟨kvs, hkvs, hj⟩ := bind_eq_ok.1 hj
      cases hj
      exact configMembers_wf L h hkvs fun hw => toJson_wf (nestedCall_eq_ok hw)
    next xs hxs =>
      obtain ⟨vs, hvs, hj⟩ := bind_eq_ok.1 hj
      cases hj
      refine Json.wfList_iff.2 fun v hv => ?_
      obtain ⟨x, -, hx⟩ := exists_of_mem_mapM hvs hv
      exact toJson_wf (nestedCall_eq_ok hx)

/-- `_validate_config`. -/
def validateConfig (raw : Val h.size) (label : Str) : Except Exc JsonDict :=
  let refuse := contractError (label ++ py ": 'config' must be a mapping")
  match raw with
  | .none => .ok .empty
  | .ref a => match h.cell a with
    | .list _ => refuse
    | .dict d =>
      match hk : d.items.mapM (configMember L h label fun x k =>
          nestedCall L 1 (toJson L h label h.size [a] x k)) with
      | .error exc => .error exc
      | .ok kvs => .ok ⟨kvs, configMembers_wf L h hk fun hw => toJson_wf L h (nestedCall_eq_ok hw)⟩
  | _ => refuse

/-! ## `primary_key` -/

/-- The entries of `primary_key`; `seen` are the folded names before them. -/
def primaryKeyEntries (columns : List Column) (label : Str) :
    List Str → List (Val h.size) → Except Exc (List Str)
  | _, [] => .ok []
  | seen, entry :: entries =>
    let refuse := contractErrorFor L h (label ++ py ": 'primary_key' entry ") entry
      (py " must be a non-empty string")
    match entry.asStr with
    | none => refuse
    | some name =>
      if isBlank name then refuse
      else if L.lower name ∈ seen then
        contractError (label ++ py ": 'primary_key' names " ++ L.reprStr name ++
          py " more than once (names are compared case-insensitively)")
      else match columns.find? fun column => column.name = name with
        | none => contractError (label ++ py ": 'primary_key' column " ++ L.reprStr name ++
            py " is not in output_columns")
        | some column =>
          if column.nullable then
            contractError (label ++ py ": 'primary_key' column " ++ L.reprStr name ++
              py " must be declared nullable: false")
          else do
            let type ← parseSqlType L.reprStr column.type
            if type.base = py "DOUBLE_PRECISION" then
              contractError (label ++ py ": 'primary_key' column " ++ L.reprStr name ++
                py " is floating-point (" ++ column.type ++
                py "); a floating-point column cannot be a primary key")
            else do
              let names ← primaryKeyEntries columns label (L.lower name :: seen) entries
              .ok (name :: names)

/-- `_validate_primary_key`. -/
def validatePrimaryKey (raw : Dict (Val h.size) (Val h.size)) (mode : ModeType)
    (columns : List Column) (label : Str) :
    Except Exc {key : List Str // mode ≠ .upsert → key = []} :=
  if hm : mode = .upsert then
    match getKey raw (py "primary_key") with
    | none => contractError (label ++ py ": 'primary_key' is required when mode_type is upsert")
    | some value =>
      let refuse := contractError (label ++
        py ": 'primary_key' must be a non-empty list of output column names")
      match h.asList value with
      | none => refuse
      | some entries =>
        if entries = [] then refuse
        else do
          let key ← primaryKeyEntries L h columns label [] entries
          .ok ⟨key, fun hn => absurd hm hn⟩
  else if getKey raw (py "primary_key") ≠ none then
    contractError (label ++ py ": 'primary_key' is only allowed when mode_type is upsert (got " ++
      mode.text ++ py ")")
  else .ok ⟨[], fun _ => rfl⟩

/-! ## `output_columns` -/

/-- One entry of `output_columns`; `columns` are the ones before it. -/
def parseColumn (label : Str) (columns : List Column) (entry : Val h.size) : Except Exc Column :=
  match h.asDict entry with
  | none => contractErrorFor L h (label ++ py ": each 'output_columns' entry must be a mapping, got ")
      entry []
  | some d => do
    let unknown := unknownKeys d ([py "name", py "type", py "nullable"])
    if unknown ≠ [] then do
      let keys ← sortedText L h unknown
      contractError (label ++ py ": output column has unknown key(s) " ++ keys)
    else match (getNone d (py "name")).asStr with
      | none => contractError (label ++ py ": output column missing non-empty 'name'")
      | some name =>
        if isBlank name then contractError (label ++ py ": output column missing non-empty 'name'")
        else match (getNone d (py "type")).asStr with
          | none => contractErrorFor L h (label ++ py ": output column '" ++ name ++
              py "' has unsupported 'type' ") (getNone d (py "type")) []
          | some type =>
            match parseSqlType L.reprStr type with
            | .error exc =>
              if exc.cls = .contractError then do
                let text ← exc.str
                contractError (label ++ py ": output column '" ++ name ++ py "' has unsupported " ++ text)
              else .error exc
            | .ok _ => match (getKey d (py "nullable")).getD (.bool true) with
              | .bool nullable =>
                if columns.any fun column => column.name = name then
                  contractError (label ++ py ": duplicate column '" ++ name ++ py "' in output_columns")
                else .ok ⟨name, type, nullable⟩
              | value => contractErrorFor L h (label ++ py ": output column '" ++ name ++
                  py "' has non-boolean 'nullable' ") value []

/-- The loop over `output_columns`. -/
def parseColumns (label : Str) : List Column → List (Val h.size) → Except Exc (List Column)
  | columns, [] => .ok columns
  | columns, entry :: entries => do
    let column ← parseColumn L h label columns entry
    parseColumns label (columns ++ [column]) entries

/-- What the loader makes sure of in a list of columns. -/
structure ColumnsParsed (columns : List Column) : Prop where
  nodup : (columns.map Column.name).Nodup
  type : ∀ column ∈ columns, ∃ t, parseSqlType L.reprStr column.type = .ok t

theorem parseColumn_eq_ok {label : Str} {columns : List Column} {entry : Val h.size} {column : Column}
    (hc : parseColumn L h label columns entry = .ok column) :
    column.name ∉ columns.map Column.name ∧ ∃ t, parseSqlType L.reprStr column.type = .ok t := by
  unfold parseColumn contractError at hc
  split at hc
  · exact absurd hc contractErrorFor_ne_ok
  dsimp only at hc
  split at hc
  · obtain ⟨_, -, hc⟩ := bind_eq_ok.1 hc
    cases hc
  split at hc
  · cases hc
  split at hc
  · cases hc
  split at hc
  · exact absurd hc contractErrorFor_ne_ok
  split at hc
  · split at hc
    · obtain ⟨_, -, hc⟩ := bind_eq_ok.1 hc
      cases hc
    · cases hc
  next t ht =>
    split at hc
    · split at hc
      · cases hc
      next hfresh =>
        cases hc
        refine ⟨fun hmem => ?_, t, ht⟩
        obtain ⟨other, hother, hname⟩ := List.mem_map.1 hmem
        exact hfresh (List.any_eq_true.2 ⟨other, hother, decide_eq_true hname⟩)
    · exact absurd hc contractErrorFor_ne_ok

theorem parseColumns_eq_ok {label : Str} : ∀ {entries : List (Val h.size)} {before columns : List Column},
    ColumnsParsed L before → parseColumns L h label before entries = .ok columns → ColumnsParsed L columns
  | [], before, columns, hb, hc => by
    cases hc
    exact hb
  | entry :: entries, before, columns, hb, hc => by
    obtain ⟨column, hcol, hc⟩ := bind_eq_ok.1 hc
    obtain ⟨hname, htype⟩ := parseColumn_eq_ok L h hcol
    refine parseColumns_eq_ok ⟨?_, fun c hcm => ?_⟩ hc
    · rw [List.map_append, List.map_cons, List.map_nil, ← List.concat_eq_append, List.nodup_concat]
      exact ⟨hname, hb.nodup⟩
    · rcases List.mem_append.1 hcm with hcm | hcm
      · exact hb.type c hcm
      · obtain rfl := List.mem_singleton.1 hcm
        exact htype

/-! ## Nodes -/

/-- `_ALLOWED_KEYS`. -/
def allowedKeys : List Str :=
  ["schema", "table", "description", "owner", "schedule", "criticality", "kind", "script",
    "extra_columns", "reads", "output_columns", "config", "content_hash", "secret_ref", "mode_type",
    "primary_key", "timeout_minutes"].map py

/-- `MIN_TIMEOUT_MINUTES`. -/
def minTimeoutMinutes : ℤ := 1

/-- `MAX_TIMEOUT_MINUTES`: one week. -/
def maxTimeoutMinutes : ℤ := 10080

/-- `_node_label`. -/
def nodeLabel (raw : Dict (Val h.size) (Val h.size)) (source : Str) : Str :=
  match getNone raw (py "schema"), getNone raw (py "table") with
  | .str schema, .str table =>
    if schema ≠ [] ∧ table ≠ [] then source ++ py " (" ++ schema ++ py "." ++ table ++ py ")"
    else source
  | _, _ => source

/-- A required text field. -/
def requiredText (raw : Dict (Val h.size) (Val h.size)) (label field : Str) : Except Exc Str :=
  let refuse := contractError (label ++ py ": required field '" ++ field ++
    py "' must be a non-empty string")
  match (getNone raw field).asStr with
  | none => refuse
  | some value => if isBlank value then refuse else .ok value

/-- A field that spells a member of a fixed set, listed in `names`. -/
def enumField {α : Type} (all : List α) (text : α → Str) (label field names : Str)
    (value : Val h.size) : Except Exc α :=
  match ofText all text value with
  | some a => .ok a
  | none => contractErrorFor L h (label ++ py ": '" ++ field ++ py "' must be one of " ++ names ++
      py ", got ") value []

/-- `timeout_minutes`. -/
def timeoutField (raw : Dict (Val h.size) (Val h.size)) (label : Str) : Except Exc (Option ℤ) :=
  let refuse value := contractErrorFor L h (label ++
    py ": 'timeout_minutes' must be an integer between 1 and 10080, got ") value []
  match getKey raw (py "timeout_minutes") with
  | none => .ok none
  | some (.int i) =>
    if minTimeoutMinutes ≤ i ∧ i ≤ maxTimeoutMinutes then .ok (some i) else refuse (.int i)
  | some value => refuse value

/-- The script of a node of this kind. -/
def scriptField (raw : Dict (Val h.size) (Val h.size)) (kind : Kind) (label : Str) : Except Exc Str :=
  if kind.rules.scriptRequired then requiredText h raw label (py "script")
  else if getKey raw (py "script") ≠ none then
    contractError (label ++ py ": 'script' is forbidden for kind " ++ kind.text ++
      py " (it is a contract-only kind)")
  else .ok []

/-- `secret_ref` of a node of this kind. -/
def secretField (raw : Dict (Val h.size) (Val h.size)) (kind : Kind) (label : Str) : Except Exc Str :=
  match getKey raw (py "secret_ref") with
  | none => .ok []
  | some value =>
    if kind.rules.secretAllowed then validateSecretRef L h value label
    else contractError (label ++ py ": 'secret_ref' is not allowed for kind " ++ kind.text)

/-- The text of `sorted(rules.mode_types)`. -/
def Kind.modeNames (kind : Kind) : Str :=
  if kind.rules.modeTypes = ModeType.all then py "['append', 'replace', 'upsert']"
  else py "['replace']"

/-- `mode_type` of a node of this kind. -/
def modeField (raw : Dict (Val h.size) (Val h.size)) (kind : Kind) (label : Str) :
    Except Exc ModeType := do
  let mode ← enumField L h ModeType.all ModeType.text label (py "mode_type")
    (py "['append', 'replace', 'upsert']")
    ((getKey raw (py "mode_type")).getD (.str defaultModeType.text))
  if mode ∈ kind.rules.modeTypes then .ok mode
  else contractError (label ++ py ": 'mode_type' " ++ L.reprStr mode.text ++
    py " is not allowed for kind " ++ L.reprStr kind.text ++ py " (allowed: " ++ kind.modeNames ++ py ")")

/-- `output_columns`. -/
def columnsField (raw : Dict (Val h.size) (Val h.size)) (label : Str) : Except Exc (List Column) :=
  let refuse := contractError (label ++ py ": 'output_columns' must be a non-empty list")
  match h.asList (getNone raw (py "output_columns")) with
  | none => refuse
  | some entries => if entries = [] then refuse else parseColumns L h label [] entries

/-- `description`. -/
def descriptionField (raw : Dict (Val h.size) (Val h.size)) (label : Str) : Except Exc Str :=
  match (getKey raw (py "description")).getD (.str []) with
  | .str s => .ok s
  | _ => contractError (label ++ py ": 'description' must be a string")

/-- `content_hash`. -/
def contentHashField (raw : Dict (Val h.size) (Val h.size)) (label : Str) :
    Except Exc (Option Str) :=
  match getNone raw (py "content_hash") with
  | .none => .ok none
  | .str s => .ok (some s)
  | _ => contractError (label ++ py ": 'content_hash' must be a string")

/-- `parse_node`. -/
def parseNode (checkReads : Bool) (value : Val h.size) (source : Str) : Except Exc Node :=
  match h.asDict value with
  | none => contractError (source ++ py ": node must be a mapping, got " ++ h.typeName value)
  | some raw => do
    let label := nodeLabel h raw source
    let unknown := unknownKeys raw allowedKeys
    if unknown ≠ [] then do
      let keys ← sortedText L h unknown
      contractError (label ++ py ": unknown key(s) " ++ keys)
    else
      let kind ← rulesFor L h ((getKey raw (py "kind")).getD (.str defaultKind.text)) label
      let schema ← requiredText h raw label (py "schema")
      let table ← requiredText h raw label (py "table")
      let owner ← requiredText h raw label (py "owner")
      let schedule ← requiredText h raw label (py "schedule")
      let script ← scriptField h raw kind label
      let criticality ← enumField L h Criticality.all Criticality.text label (py "criticality")
        (py "['CORE', 'REGULATORY', 'SECONDARY']") (getNone raw (py "criticality"))
      let extraColumns ← enumField L h ExtraColumns.all ExtraColumns.text label (py "extra_columns")
        (py "['raise', 'warn']") ((getKey raw (py "extra_columns")).getD (.str (py "raise")))
      let reads ← kind.rules.reads.validate L P h label checkReads (getNone raw (py "reads"))
      let secretRef ← secretField L h raw kind label
      let timeoutMinutes ← timeoutField L h raw label
      let modeType ← modeField L h raw kind label
      let columns ← columnsField L h raw label
      let ⟨primaryKey, hkey⟩ ← validatePrimaryKey L h raw modeType columns label
      let description ← descriptionField h raw label
      let config ← validateConfig L h (getNone raw (py "config")) label
      let contentHash ← contentHashField h raw label
      .ok {
        schema, table, owner, schedule, criticality, script, reads, description, extraColumns, config
        contentHash, kind, secretRef, modeType, primaryKey, timeoutMinutes
        outputColumns := columns
        primaryKey_eq_nil := hkey }

/-- What an accepted node was parsed from: every field, and the rule that read
    it. -/
structure ParsedFrom (checkReads : Bool) (value : Val h.size) (source : Str) (node : Node)
    (raw : Dict (Val h.size) (Val h.size)) : Prop where
  mapping : h.asDict value = some raw
  known : unknownKeys raw allowedKeys = []
  kind : rulesFor L h ((getKey raw (py "kind")).getD (.str defaultKind.text)) (nodeLabel h raw source) =
    .ok node.kind
  schema : requiredText h raw (nodeLabel h raw source) (py "schema") = .ok node.schema
  table : requiredText h raw (nodeLabel h raw source) (py "table") = .ok node.table
  reads : node.kind.rules.reads.validate L P h (nodeLabel h raw source) checkReads
    (getNone raw (py "reads")) = .ok node.reads
  modeType : modeField L h raw node.kind (nodeLabel h raw source) = .ok node.modeType
  outputColumns : columnsField L h raw (nodeLabel h raw source) = .ok node.outputColumns
  primaryKey : ∃ hkey, validatePrimaryKey L h raw node.modeType node.outputColumns
    (nodeLabel h raw source) = .ok ⟨node.primaryKey, hkey⟩
  config : validateConfig L h (getNone raw (py "config")) (nodeLabel h raw source) = .ok node.config

theorem parseNode_eq_ok {checkReads : Bool} {value : Val h.size} {source : Str} {node : Node}
    (hn : parseNode L P h checkReads value source = .ok node) :
    ∃ raw, ParsedFrom L P h checkReads value source node raw := by
  unfold parseNode at hn
  split at hn
  · cases hn
  next raw hraw =>
    dsimp only at hn
    split_ifs at hn with hunknown
    · obtain ⟨_, -, hn⟩ := bind_eq_ok.1 hn
      cases hn
    obtain ⟨kind, hkind, hn⟩ := bind_eq_ok.1 hn
    obtain ⟨schema, hschema, hn⟩ := bind_eq_ok.1 hn
    obtain ⟨table, htable, hn⟩ := bind_eq_ok.1 hn
    obtain ⟨owner, -, hn⟩ := bind_eq_ok.1 hn
    obtain ⟨schedule, -, hn⟩ := bind_eq_ok.1 hn
    obtain ⟨script, -, hn⟩ := bind_eq_ok.1 hn
    obtain ⟨criticality, -, hn⟩ := bind_eq_ok.1 hn
    obtain ⟨extraColumns, -, hn⟩ := bind_eq_ok.1 hn
    obtain ⟨reads, hreads, hn⟩ := bind_eq_ok.1 hn
    obtain ⟨secretRef, -, hn⟩ := bind_eq_ok.1 hn
    obtain ⟨timeoutMinutes, -, hn⟩ := bind_eq_ok.1 hn
    obtain ⟨modeType, hmode, hn⟩ := bind_eq_ok.1 hn
    obtain ⟨columns, hcolumns, hn⟩ := bind_eq_ok.1 hn
    obtain ⟨⟨primaryKey, hkeyNil⟩, hkey, hn⟩ := bind_eq_ok.1 hn
    obtain ⟨description, -, hn⟩ := bind_eq_ok.1 hn
    obtain ⟨config, hconfig, hn⟩ := bind_eq_ok.1 hn
    obtain ⟨contentHash, -, hn⟩ := bind_eq_ok.1 hn
    cases hn
    exact ⟨raw, hraw, not_not.1 hunknown, hkind, hschema, htable, hreads, hmode, hcolumns,
      ⟨hkeyNil, hkey⟩, hconfig⟩

theorem columnsField_eq_ok {raw : Dict (Val h.size) (Val h.size)} {label : Str} {columns : List Column}
    (hc : columnsField L h raw label = .ok columns) : ColumnsParsed L columns := by
  unfold columnsField contractError at hc
  dsimp only at hc
  split at hc
  · cases hc
  · split_ifs at hc
    have hnil : ColumnsParsed L [] := ⟨List.nodup_nil, fun c hc => by cases hc⟩
    exact parseColumns_eq_ok L h hnil hc

/-- **The columns of an accepted node.** -/
theorem parseNode_columns {checkReads : Bool} {value : Val h.size} {source : Str} {node : Node}
    (hn : parseNode L P h checkReads value source = .ok node) : ColumnsParsed L node.outputColumns := by
  obtain ⟨raw, hraw⟩ := parseNode_eq_ok L P h hn
  exact columnsField_eq_ok L h hraw.outputColumns

/-! ## Contract directories -/

/-- A parsed YAML document. -/
structure Document where
  heap : Heap
  root : Val heap.size

/-- A key of a mapping, and the keys before it. -/
structure KeyTest where
  heap : Heap
  seen : List (Val heap.size)
  key : Val heap.size
  /-- `key_node.start_mark` -/
  mark : Str

/-- What YAML does with a text: the keys of its mappings, in the order in which they
    are constructed, and how the construction ends if no key is refused. -/
structure YamlRun where
  keys : List KeyTest
  outcome : Except Exc Document

/-- One round of the loop in `_strict_construct_mapping`. -/
def strictKey (test : KeyTest) : Except Exc Unit :=
  let type := test.heap.typeName test.key
  if !test.key.hashable then
    .error (.text .typeError (py "cannot use '" ++ type ++ py "' as a set element (unhashable type: '" ++
      type ++ py "')"))
  else if test.seen.any (L.sameKey test.key) then
    contractErrorFor L test.heap (py "duplicate key ") test.key (py " at " ++ test.mark)
  else .ok ()

/-- `yaml.load(text, Loader=_StrictLoader)`. -/
def strictLoad (yaml : Str → YamlRun) (text : Str) : Except Exc Document := do
  (yaml text).keys.forM (strictKey L)
  (yaml text).outcome

/-- The files of a directory with this suffix, sorted by name. -/
def globSorted (suffix : Str) (files : List (Str × Str)) : List (Str × Str) :=
  sortedItems (files.filter fun file => suffix.isSuffixOf file.1)

/-- `document.get("nodes")`. -/
def documentNodes (name : Str) (doc : Document) : Except Exc (List (Val doc.heap.size)) :=
  let nodes root := match doc.heap.asList (getNone root (py "nodes")) with
    | some nodes => .ok nodes
    | none => contractError (name ++ py ": 'nodes' must be a list")
  match doc.root with
  | .none => nodes Dict.empty
  | root => match doc.heap.asDict root with
    | some root => nodes root
    | none => contractError (name ++ py ": contract document must be a mapping, got " ++
        doc.heap.typeName root)

/-- The loop over the nodes of one document; `nodes` are those before, each with
    the file it came from. -/
def loadNodes (checkReads : Bool) (name : Str) (doc : Document) :
    List (Str × Node) → List (Val doc.heap.size) → Except Exc (List (Str × Node))
  | nodes, [] => .ok nodes
  | nodes, value :: values => do
    let node ← parseNode L P doc.heap checkReads value name
    match nodes.find? fun other => other.2.relation = node.relation with
    | some (source, _) => contractError (py "duplicate node " ++ node.relation ++ py " (in " ++ source ++
        py " and " ++ name ++ py ")")
    | none => loadNodes checkReads name doc (nodes ++ [(name, node)]) values

/-- The loop over the files. -/
def loadFiles (load : Str → Except Exc Document) (checkReads : Bool) :
    List (Str × Node) → List (Str × Str) → Except Exc (List (Str × Node))
  | nodes, [] => .ok nodes
  | nodes, (name, text) :: files =>
    match load text with
    | .error exc =>
      if exc.cls = .contractError then do
        let detail ← exc.format
        contractError (name ++ py ": " ++ detail)
      else if exc.cls = .yamlError then do
        let detail ← exc.format
        contractError (name ++ py ": invalid YAML: " ++ detail)
      else .error exc
    | .ok doc => do
      let values ← documentNodes name doc
      let nodes ← loadNodes L P checkReads name doc nodes values
      loadFiles load checkReads nodes files

/-- `load_contract_dir` of the directory `path`, whose files are `files`; `load`
    is `yaml.load(text, Loader=_StrictLoader)` (`strictLoad`). -/
def loadContractDir (load : Str → Except Exc Document) (checkReads : Bool) (path : Str)
    (files : List (Str × Str)) : Except Exc (List Node) := do
  let nodes ← loadFiles L P load checkReads []
    (globSorted (py ".yml") files ++ globSorted (py ".yaml") files)
  if nodes = [] then contractError (py "no contract files found in " ++ path)
  else .ok (nodes.map Prod.snd)

/-! ## The keys of a document with one node -/

theorem apiFields_keys : NodupKeys ([(.str (py "schema"), .str (py "s")), (.str (py "table"), .str (py "t")),
    (.str (py "owner"), .str (py "o")), (.str (py "schedule"), .str (py "d")),
    (.str (py "criticality"), .str (py "CORE")), (.str (py "kind"), .str (py "python-api")),
    (.str (py "script"), .str (py "x.py")), (.str (py "output_columns"), .ref 1)] : List (Val 5 × Val 5)) := by
  simp only [NodupKeys, List.map_cons, List.map_nil]
  decide +kernel

theorem textColumn_keys : NodupKeys ([(.str (py "name"), .str (py "a")),
    (.str (py "type"), .str (py "TEXT"))] : List (Val 5 × Val 5)) := by
  simp only [NodupKeys, List.map_cons, List.map_nil]
  decide +kernel

theorem nodes_keys : NodupKeys ([(.str (py "nodes"), .ref 4)] : List (Val 5 × Val 5)) := List.nodup_singleton _

end ContinuoRuntime
