/-
  Python syntax trees (`ast`), as far as the runtime tells their nodes apart.

  What no check looks at is an `other` node with its children; the nodes that
  `ast` adds for a context, an operator or an alias are left out.  The position
  of a node, its child numbers from the root, stands for its `id`.
-/
import ContinuoRuntime.Python.Exc

namespace ContinuoRuntime

/-- `ast.alias`. -/
structure Alias where
  name : Str
  asname : Option Str
  deriving DecidableEq

/-- The module of a `from` import: an absolute name, or one relative to the
    package reached by `walkUp` steps from the file's own (`level - 1`). -/
inductive FromModule where
  | absolute (module : Str)
  | relative (walkUp : ℕ) (module : Option Str)
  deriving DecidableEq

/-- `ast.AST`. -/
inductive Ast where
  | imports (lineno : ℕ) (names : List Alias)
  | importFrom (lineno : ℕ) (module : FromModule) (names : List Alias)
  | name (lineno : ℕ) (id : Str)
  | attribute (lineno : ℕ) (value : Ast) (attr : Str)
  /-- a `Constant` that is a `str` -/
  | constant (lineno : ℕ) (value : Str)
  | joinedStr (lineno : ℕ) (values : List Ast)
  /-- `add`: whether the operator is `+` -/
  | binOp (lineno : ℕ) (add : Bool) (left right : Ast)
  | call (lineno : ℕ) (func : Ast) (args : List Ast)
  /-- an expression statement -/
  | expr (value : Ast)
  /-- a module, class or function: the fields before its body, the body, those
      after -/
  | scope (before body after : List Ast)
  | other (children : List Ast)

namespace Ast

/-- `ast.iter_child_nodes`. -/
def children : Ast → List Ast
  | .imports .. | .importFrom .. | .name .. | .constant .. => []
  | .attribute _ value _ => [value]
  | .joinedStr _ values => values
  | .binOp _ _ left right => [left, right]
  | .call _ func args => func :: args
  | .expr value => [value]
  | .scope before body after => before ++ body ++ after
  | .other children => children

mutual
/-- The number of levels. -/
def depth : Ast → ℕ
  | .imports .. | .importFrom .. | .name .. | .constant .. => 1
  | .attribute _ value _ => depth value + 1
  | .joinedStr _ values => depthAll values + 1
  | .binOp _ _ left right => max (depth left) (depth right) + 1
  | .call _ func args => max (depth func) (depthAll args) + 1
  | .expr value => depth value + 1
  | .scope before body after => max (depthAll before) (max (depthAll body) (depthAll after)) + 1
  | .other children => depthAll children + 1

def depthAll : List Ast → ℕ
  | [] => 0
  | t :: ts => max (depth t) (depthAll ts)
end

/-- A position: the child numbers from the root. -/
abbrev Pos := List ℕ

/-- The children of a node, with their positions. -/
def childrenAt (node : Pos × Ast) : List (Pos × Ast) :=
  node.2.children.zipIdx.map fun child => (node.1 ++ [child.2], child.1)

/-- `n` levels from this one on. -/
def levels : ℕ → List (Pos × Ast) → List (Pos × Ast)
  | 0, _ => []
  | n + 1, level => level ++ levels n (level.flatMap childrenAt)

/-- `ast.walk`: breadth first. -/
def walk (tree : Ast) : List (Pos × Ast) := levels tree.depth [([], tree)]

/-- The nodes of `ast.walk`. -/
def nodes (tree : Ast) : List Ast := tree.walk.map Prod.snd

end Ast

/-- What parsing fails with. -/
inductive ParseError where
  /-- `SyntaxError`, with the text of `exc.lineno` and `exc.msg` -/
  | syntaxError (lineno msg : Str)
  | other (exc : Exc)

/-- What the closure and the linter ask of Python. -/
structure PythonParser where
  /-- `ast.parse` of the bytes of a file -/
  parseBytes : Bytes → Except ParseError Ast
  /-- `ast.parse` of a text -/
  parseText : Str → Except ParseError Ast
  /-- `str.isalnum` of one character -/
  isAlnum : CodePoint → Bool
  /-- the text of the `UnicodeDecodeError` for bytes that are not UTF-8 -/
  decodeDetail : Bytes → Str

end ContinuoRuntime
