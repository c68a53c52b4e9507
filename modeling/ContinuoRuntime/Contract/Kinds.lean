/-
  What a node of each kind must declare (`contract/kinds.py`), with the two
  checks its rules rest on: the single-read gate (`continuo_engine_contract
  /sql.py`) and the csv uri grammar (`csv_source.py`), and the name of a Secret
  (`contract/secret_ref.py`).

  The SQL parser is a parameter: from a text to the kinds of its statements.
-/
import ContinuoRuntime.Contract.Values
import ContinuoRuntime.Contract.Model
import ContinuoRuntime.Contract.Types

namespace ContinuoRuntime

/-! ## The single-read gate -/

/-- What the SQL parser says of a statement: one of `_READ_TYPES`, or another. -/
inductive Statement where
  | select | union | values | subquery
  /-- any other, by its key -/
  | other (key : Str)
  deriving DecidableEq

/-- A SQL parser for one dialect. -/
structure SqlParser where
  /-- its name in messages -/
  name : Str
  /-- `ParseError` is the left answer, any other exception the right one -/
  parse : Str → Except (Str ⊕ Exc) (List (Option Statement))
  /-- `statement.key.upper()` -/
  keyUpper : Str → Str

/-- A SQL parser for the empty text. -/
def emptySql : SqlParser := ⟨py "sqlglot", fun _ => .ok [none], id⟩

/-- `_MAX_EXCERPT`. -/
def maxExcerpt : ℕ := 200

/-- `_excerpt`. -/
def excerpt (text : Str) : Str :=
  let collapsed := joinWords (split text)
  if maxExcerpt < collapsed.length then collapsed.take maxExcerpt ++ py "... (truncated)"
  else collapsed

/-- `ensure_single_read`. -/
def ensureSingleRead (P : SqlParser) (sql : Str) : Except Exc Unit :=
  match P.parse sql with
  | .error (.inr exc) => .error exc
  | .error (.inl detail) => .error (.text .valueError
      (py "check_binds accepts a single read query, and this read does not parse as " ++ P.name ++
        py ": " ++ excerpt sql ++ py " [" ++ excerpt detail ++ py "]"))
  | .ok parsed =>
    let statements := parsed.filterMap id
    match statements with
    | [.other key] => .error (.text .valueError
        (py "check_binds accepts a single read query, but this read is a " ++ P.keyUpper key ++
          py " statement: " ++ excerpt sql))
    | [_] => .ok ()
    | _ => .error (.text .valueError
        (py "check_binds accepts exactly one read query, but this read parses as " ++
          decimal statements.length ++ py " statements: " ++ excerpt sql))

/-! ## csv uris -/

/-- `CsvUri`. -/
inductive CsvUri where
  | s3 (raw bucket key : Str)
  | https (raw : Str)
  deriving DecidableEq

/-- `text.partition("/")`, without the separator. -/
def partitionSlash (text : Str) : Str × Str :=
  (text.takeWhile (· ≠ ch '/'), (text.dropWhile (· ≠ ch '/')).tail)

/-- `parse_csv_uri` on a text; the error is the text of its `ValueError`. -/
def parseCsvUri (reprStr : Str → Str) (uri : Str) : Except Str CsvUri :=
  if py "s3://" <+: uri then
    let (bucket, key) := partitionSlash (uri.drop 5)
    if bucket = [] ∨ key = [] then
      .error (py "invalid s3 csv uri (missing bucket or key): " ++ reprStr uri)
    else .ok (.s3 uri bucket key)
  else if py "https://" <+: uri ∧ (partitionSlash (uri.drop 8)).1 ≠ [] then .ok (.https uri)
  else .error (py "invalid csv uri " ++ reprStr uri ++ py ": must be s3://bucket/key or https://...")

/-! ## Names of Secrets -/

/-- `SECRET_REF_MAX_LEN`. -/
def secretRefMaxLen : ℕ := 253

/-- `[a-z0-9]`. -/
def isLowerAlnum (c : CodePoint) : Bool :=
  (48 ≤ c.val && c.val < 58) || (97 ≤ c.val && c.val < 123)

/-- `SECRET_REF_PATTERN.fullmatch(value)`. -/
def isSecretRef (value : Str) : Bool :=
  (py "continuo-api-").isPrefixOf value &&
    let name := value.drop 13
    name.all (fun c => isLowerAlnum c || c == ch '-') &&
      (name.head?.any isLowerAlnum) && (name.getLast?.any isLowerAlnum)

/-- `validate_secret_ref`. -/
def validateSecretRef (L : Lang) (h : Heap) (value : Val h.size) (label : Str) : Except Exc Str :=
  let refuse := contractErrorFor L h (label ++
    py ": 'secret_ref' must be a Kubernetes Secret name starting " ++
    py "with 'continuo-api-' (lowercase letters, digits, '-'; at most 253 chars), got ") value []
  match value.asStr with
  | none => refuse
  | some s => if secretRefMaxLen < s.length ∨ ¬ isSecretRef s then refuse else .ok s

/-! ## Rules of reads -/

/-- The three reads rules. -/
inductive ReadsRule where
  | sqlReads | csvRead | noReads
  deriving DecidableEq

variable (L : Lang) (P : SqlParser) (h : Heap)

/-- One declared read of a node. -/
def checkRead (label : Str) (checkReads : Bool) (name sql : Val h.size) : Except Exc (Str × Str) :=
  let refuse := contractErrorFor L h (label ++ py ": 'reads' name ") name
    (py " must be a non-empty string")
  match name.asStr with
  | none => refuse
  | some n =>
    if isBlank n then refuse
    else match sql.asStr with
      | none => contractError (label ++ py ": 'reads." ++ n ++ py "' must be a non-empty SQL string")
      | some s =>
        if isBlank s then
          contractError (label ++ py ": 'reads." ++ n ++ py "' must be a non-empty SQL string")
        else if !checkReads then .ok (n, s)
        else match ensureSingleRead P s with
          | .ok () => .ok (n, s)
          | .error exc =>
            if exc.cls.isValueError ∨ exc.cls = .tokenError then do
              let text ← exc.format
              contractError (label ++ py ": 'reads." ++ n ++ py "' must be a single read query (" ++
                text ++ py ")")
            else .error exc

theorem checkRead_key {label : Str} {checkReads : Bool} (p : Val h.size × Val h.size) (q : Str × Str)
    (hq : checkRead L P h label checkReads p.1 p.2 = .ok q) : p.1 = .str q.1 := by
  obtain ⟨name, sql⟩ := p
  unfold checkRead contractError at hq
  dsimp only at hq
  split at hq
  · exact absurd hq contractErrorFor_ne_ok
  next n hn =>
    have hname : name = .str n := by
      cases name <;> simp only [Val.asStr, Option.some.injEq, reduceCtorEq] at hn
      rw [hn]
    split at hq
    · exact absurd hq contractErrorFor_ne_ok
    · split at hq
      · cases hq
      · split at hq
        · cases hq
        · split at hq
          · cases hq; exact hname
          · split at hq
            · cases hq; exact hname
            · split at hq
              · obtain ⟨_, -, hq⟩ := bind_eq_ok.1 hq
                cases hq
              · cases hq

/-- `SqlReads.validate`: a non-empty mapping of read name to single SELECT. -/
def sqlReads (label : Str) (checkReads : Bool) (reads : Val h.size) : Except Exc (Dict Str Str) :=
  let refuse := contractError (label ++ py ": 'reads' must be a non-empty mapping of name -> SQL")
  match h.asDict reads with
  | none => refuse
  | some d =>
    if d.items = [] then refuse
    else match hr : d.items.mapM fun p => checkRead L P h label checkReads p.1 p.2 with
      | .error exc => .error exc
      | .ok kvs => .ok ⟨kvs, d.nodup.mapM (checkRead_key L P h) hr⟩

/-- `CsvRead.validate`: exactly `{csv: <uri>}`. -/
def csvRead (label : Str) (reads : Val h.size) : Except Exc (Dict Str Str) :=
  let refuse := contractError (label ++ py ": a python-csv node's 'reads' must be exactly {csv: <uri>}")
  match h.asDict reads with
  | none => refuse
  | some d => match d.items with
    | [(.str k, uri)] =>
      if k ≠ py "csv" then refuse
      else match uri with
        | .str s => match parseCsvUri L.reprStr s with
          | .ok _ => .ok ⟨[(k, s)], List.nodup_singleton _⟩
          | .error msg => contractError (label ++ py ": invalid csv uri: " ++ msg)
        | _ =>
          -- `parse_csv_uri` raises a `ValueError` of its own, or that of `repr`
          match L.repr h uri with
          | .ok text => contractError (label ++ py ": invalid csv uri: csv uri must be a string, got " ++
              h.typeName uri ++ py ": " ++ text)
          | .error exc =>
            if exc.cls.isValueError ∨ exc.cls = .typeError then do
              let text ← exc.format
              contractError (label ++ py ": invalid csv uri: " ++ text)
            else .error exc
    | _ => refuse

/-- `NoReads.validate`: no declared reads. -/
def noReads (label : Str) (reads : Val h.size) : Except Exc (Dict Str Str) :=
  let refuse := contractError (label ++ py ": a python-api node declares no 'reads' (its script " ++
    py "fetches its own data)")
  match reads with
  | .none => .ok Dict.empty
  | _ => match h.asDict reads with
    | some d => if d.items = [] then .ok Dict.empty else refuse
    | none => refuse

/-- `rules.reads.validate`. -/
def ReadsRule.validate (rule : ReadsRule) (label : Str) (checkReads : Bool) (reads : Val h.size) :
    Except Exc (Dict Str Str) :=
  match rule with
  | sqlReads => ContinuoRuntime.sqlReads L P h label checkReads reads
  | csvRead => ContinuoRuntime.csvRead L h label reads
  | noReads => ContinuoRuntime.noReads h label reads

/-! ## Rules of kinds -/

/-- What a node of one kind must declare. -/
structure KindRules where
  scriptRequired : Bool
  reads : ReadsRule
  secretAllowed : Bool
  modeTypes : List ModeType

/-- `RULES`. -/
def Kind.rules : Kind → KindRules
  | pythonNode => ⟨true, .sqlReads, false, ModeType.all⟩
  | pythonCsv => ⟨false, .csvRead, false, [defaultModeType]⟩
  | pythonApi => ⟨true, .noReads, true, ModeType.all⟩

/-- The member of a fixed set that a value spells. -/
def ofText {α : Type} (all : List α) (text : α → Str) {n : ℕ} : Val n → Option α
  | .str s => all.find? fun a => text a = s
  | _ => none

/-- `rules_for`, with the kind its rules are for. -/
def rulesFor (kind : Val h.size) (label : Str) : Except Exc Kind :=
  match ofText Kind.all Kind.text kind with
  | some k => .ok k
  | none => contractErrorFor L h (label ++
      py ": 'kind' must be one of ['python-api', 'python-csv', 'python-node'], got ") kind []

end ContinuoRuntime
