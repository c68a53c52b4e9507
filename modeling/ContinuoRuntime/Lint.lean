/-
  The script linter (`lint.py`).

  Two passes over the tree: imports first (L1, and the data-access functions
  imported), then SQL texts (L2), calls (L3) and private attributes (L4); dynamic
  imports (L5) come from the closure's own predicate.  A text is reported once:
  the constants that a concatenation or an f-string has folded are remembered by
  their position.
-/
import ContinuoRuntime.Closure
import ContinuoRuntime.Python.Dict

namespace ContinuoRuntime

/-- `FORBIDDEN_DRIVERS`. -/
def forbiddenDrivers : List Str :=
  ["psycopg2", "sqlalchemy", "trino", "snowflake", "pyodbc", "duckdb", "sqlite3", "pymysql", "mysql",
    "clickhouse_driver", "pyhive"].map py

/-- `FORBIDDEN_CALLS`. -/
def forbiddenCalls : List Str :=
  ["read_sql", "read_sql_query", "read_sql_table", "execute", "read_database"].map py

/-! ## SQL texts -/

/-- A character of a pattern, in any case: `re.IGNORECASE` also takes the letters
    that lower to it, or share its lower case. -/
def matchesLetter (letter c : CodePoint) : Bool :=
  c == letter || c.val + 32 == letter.val || (letter == ch 'i' && (c.val == 0x130 || c.val == 0x131)) ||
    (letter == ch 's' && c.val == 0x17F)

/-- What follows a word of a pattern. -/
def dropWord : Str → Str → Option Str
  | [], s => some s
  | _ :: _, [] => none
  | letter :: word, c :: s => if matchesLetter letter c then dropWord word s else none

/-- What follows `\s`. -/
def dropSpace : Str → Option Str
  | [] => none
  | c :: s => if isSpace c then some s else none

/-- Whether `first\s+second\s` is at the start. -/
def matchesPair (first second s : Str) : Bool :=
  ((dropWord first s).bind dropSpace).any fun rest =>
    ((dropWord second (rest.dropWhile isSpace)).bind dropSpace).isSome

/-- Whether `first\s.+?\ssecond\s` is at the start. -/
def matchesAround (first second s : Str) : Bool :=
  ((dropWord first s).bind dropSpace).any fun rest =>
    (rest.tails.drop 1).any fun t => (((dropSpace t).bind (dropWord second)).bind dropSpace).isSome

/-- The alternatives of `SQL_PATTERN`. -/
def matchesSql (s : Str) : Bool :=
  matchesAround (py "select") (py "from") s || matchesPair (py "insert") (py "into") s ||
    matchesAround (py "update") (py "set") s || matchesPair (py "delete") (py "from") s ||
    matchesPair (py "create") (py "table") s

section
variable (isAlnum : CodePoint → Bool)

/-- `\w`. -/
def isWordCode (c : CodePoint) : Bool := isAlnum c || c == ch '_'

/-- `SQL_PATTERN.search(text)`; `boundary`: whether a word could start here. -/
def sqlSearch : (boundary : Bool) → Str → Bool
  | _, [] => false
  | boundary, c :: s => (boundary && matchesSql (c :: s)) || sqlSearch (!isWordCode isAlnum c) s

end

/-! ## Reconstructed texts -/

/-- A text, and the positions of the constants folded into it. -/
abbrev Folded := Str × List Ast.Pos

/-- `_reconstruct_joined_str`. -/
def reconstructJoinedStr (pos : Ast.Pos) (values : List Ast) : Folded :=
  let parts := values.zipIdx.map fun value => match value.1 with
    | .constant _ text => (text, [pos ++ [value.2]])
    | _ => ([ch ' '], [])
  ((parts.map Prod.fst).flatten, (parts.map Prod.snd).flatten)

/-- `collect_parts`. -/
def collectParts : Ast.Pos → Ast → Option Folded
  | pos, .constant _ text => some (text, [pos])
  | pos, .joinedStr _ values => some (reconstructJoinedStr pos values)
  | pos, .binOp _ true left right =>
    match collectParts (pos ++ [0]) left, collectParts (pos ++ [1]) right with
    | some l, some r => some (l.1 ++ r.1, l.2 ++ r.2)
    | _, _ => none
  | _, _ => none

/-- The position of a docstring of this node. -/
def docstringPos (node : Ast.Pos × Ast) : Option Ast.Pos :=
  match node.2 with
  | .scope before (.expr (.constant _ _) :: _) _ => some (node.1 ++ [before.length, 0])
  | _ => none

/-- `_docstring_constant_ids`. -/
def docstringConstants (tree : Ast) : List Ast.Pos := tree.walk.filterMap docstringPos

/-! ## Rules -/

/-- A violation: its line and its text. -/
abbrev Violation := ℕ × Str

/-- L1 for one import. -/
def driverViolation (lineno : ℕ) (name : Str) : List Violation :=
  if rootModule name ∈ forbiddenDrivers then
    [(lineno, py "forbidden warehouse driver import '" ++ rootModule name ++ py "'")]
  else []

/-- The first pass on one node. -/
def importViolations : Ast → List Violation
  | .imports lineno names => names.flatMap fun imported => driverViolation lineno imported.name
  | .importFrom lineno module names =>
    (match module.module? with
      | some name => if name = [] then [] else driverViolation lineno name
      | none => []) ++
    names.filterMap fun imported =>
      if imported.name ∈ forbiddenCalls then
        some (lineno, py "forbidden data-access import '" ++ imported.name ++ py "'")
      else none
  | _ => []

/-- `imported_forbidden_calls`: local names of data-access functions. -/
def importedCalls (tree : Ast) : List Str :=
  tree.nodes.flatMap fun node => match node with
    | .importFrom _ _ names => names.filterMap fun imported =>
        if imported.name ∈ forbiddenCalls then
          some (if imported.asname.getD [] = [] then imported.name else imported.asname.getD [])
        else none
    | _ => []

/-- L2 for one text. -/
def sqlViolation (isAlnum : CodePoint → Bool) (lineno : ℕ) (text : Str) : List Violation :=
  if sqlSearch isAlnum true text then
    [(lineno, py "SQL string literal '" ++ text.take 40 ++ (if 40 < text.length then py "..." else []) ++
      py "'")]
  else []

/-- The second pass on one node: the violations, and the constants folded. -/
def nodeLint (isAlnum : CodePoint → Bool) (calls : List Str) (docstrings consumed : List Ast.Pos)
    (node : Ast.Pos × Ast) : List Violation × List Ast.Pos :=
  match node.2 with
  | .joinedStr lineno values =>
    let folded := reconstructJoinedStr node.1 values
    (sqlViolation isAlnum lineno folded.1, folded.2)
  | .binOp lineno _ _ _ =>
    match collectParts node.1 node.2 with
    | some folded => (sqlViolation isAlnum lineno folded.1, folded.2)
    | none => ([], [])
  | .constant lineno text =>
    (if node.1 ∈ consumed ∨ node.1 ∈ docstrings then [] else sqlViolation isAlnum lineno text, [])
  | .call lineno (.attribute _ _ attr) _ =>
    (if attr ∈ forbiddenCalls then [(lineno, py "forbidden data-access call '" ++ attr ++ py "'")] else [], [])
  | .call lineno (.name _ id) _ =>
    (if id ∈ calls then [(lineno, py "forbidden data-access call '" ++ id ++ py "'")] else [], [])
  | .attribute lineno value attr =>
    let isSelfOrCls := match value with
      | .name _ id => id == py "self" || id == py "cls"
      | _ => false
    (if attr.head? = some (ch '_') ∧ isSelfOrCls = false then
      [(lineno, py "private attribute access '" ++ attr ++ py "'")] else [], [])
  | _ => ([], [])

/-- The second pass. -/
def secondPass (isAlnum : CodePoint → Bool) (calls : List Str) (docstrings : List Ast.Pos) :
    (consumed : List Ast.Pos) → List (Ast.Pos × Ast) → List Violation
  | _, [] => []
  | consumed, node :: nodes =>
    let found := nodeLint isAlnum calls docstrings consumed node
    found.1 ++ secondPass isAlnum calls docstrings (consumed ++ found.2) nodes

/-- The violations of a tree, sorted by line; ties keep their order. -/
def lintTree (isAlnum : CodePoint → Bool) (tree : Ast) : List Violation :=
  sortedItems (tree.nodes.flatMap importViolations ++
    secondPass isAlnum (importedCalls tree) (docstringConstants tree) [] tree.walk ++
    (dynamicImportViolations tree).map fun v =>
      (v.1, py "dynamic import construct '" ++ v.2 ++ py "'"))

/-- `lint_source`. -/
def lintSource (parser : PythonParser) (source filename : Str) : Except Exc (List Str) :=
  match parser.parseText source with
  | .error (.other exc) => .error exc
  | .error (.syntaxError lineno msg) =>
    .ok [filename ++ py ":" ++ lineno ++ py ": syntax error: " ++ msg]
  | .ok tree => .ok ((lintTree parser.isAlnum tree).map fun v =>
      filename ++ py ":" ++ decimal v.1 ++ py ": " ++ v.2)

/-! ## Paths -/

section
variable (parser : PythonParser) (t : FileTree)

/-- The files that `lint_paths` reads for one path. -/
def filesToLint (p : Path) : List Path :=
  match t.find p with
  | none => []
  | some (.dir _) => t.pyFiles p
  | some (.file _) => [p]

/-- The violation for a path that does not exist. -/
def missingPath (p : Path) : List Str :=
  if (t.find p).isSome then [] else [FileTree.pathText p ++ py ": path does not exist"]

/-- The lint of one file. -/
def lintPath (p : Path) : Except Exc (List Str) :=
  match t.readText parser.decodeDetail p with
  | .ok source => lintSource parser source (FileTree.pathText p)
  | .error exc =>
    if exc.cls = .osError ∨ exc.cls = .unicodeDecodeError then do
      let detail ← exc.format
      .ok [FileTree.pathText p ++ py ": unreadable: " ++ detail]
    else .error exc

/-- `lint_paths`. -/
def lintPaths (paths : List Path) : Except Exc (List Str) := do
  let violations ← (paths.flatMap (filesToLint t)).mapM (lintPath parser t)
  .ok (paths.flatMap (missingPath t) ++ violations.flatten)

end

end ContinuoRuntime
