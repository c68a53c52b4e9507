/-
  SQL column types: the grammar shared with the adapters
  (`continuo_engine_contract/types.py`) and `parse_sql_type` (`types.py`).

  * `matchType` is the pattern `TYPE_RE`, case-insensitive in ASCII;
  * `parseSqlType` reads precision, scale and length from an accepted text.
-/
import ContinuoRuntime.Python.Exc
import ContinuoRuntime.Python.JsonText

namespace ContinuoRuntime

/-! ## The grammar -/

/-- Upper case, in ASCII only. -/
def asciiUpper (c : CodePoint) : CodePoint :=
  if 97 ≤ c.val ∧ c.val < 123 then Fin.ofNat _ (c.val - 32) else c

/-- `\s`, in ASCII only. -/
def isAsciiSpace (c : CodePoint) : Bool := (9 ≤ c.val && c.val ≤ 13) || c.val == 32

/-- A text that matches the grammar, in upper case. -/
inductive TypeForm where
  | bare (name : Str)
  | decimal (name precision space scale : Str)
  | sized (name length : Str)
  deriving DecidableEq

def bareTypes : List Str :=
  ["BIGINT", "INT", "INTEGER", "DOUBLE PRECISION", "TEXT", "TIMESTAMP", "DATE", "BOOLEAN"].map py

/-- `\d+,\s*\d+\)` to the end of the text. -/
def matchDecimal (name rest : Str) : Option TypeForm :=
  let precision := rest.takeWhile isDigit
  match rest.dropWhile isDigit with
  | [] => none
  | c :: rest =>
    let space := rest.takeWhile isAsciiSpace
    let rest := rest.dropWhile isAsciiSpace
    let scale := rest.takeWhile isDigit
    if c = ch ',' ∧ precision ≠ [] ∧ scale ≠ [] ∧ rest.dropWhile isDigit = [ch ')'] then
      some (.decimal name precision space scale)
    else none

/-- `\d+\)` to the end of the text. -/
def matchSized (name rest : Str) : Option TypeForm :=
  let length := rest.takeWhile isDigit
  if length ≠ [] ∧ rest.dropWhile isDigit = [ch ')'] then some (.sized name length) else none

/-- `TYPE_RE.match(type_str)`. -/
def matchType (s : Str) : Option TypeForm :=
  let u := s.map asciiUpper
  if u ∈ bareTypes then some (.bare u)
  else match u.splitOn (ch '(') with
    | [name, rest] =>
      if name = py "NUMERIC" ∨ name = py "DECIMAL" then matchDecimal name rest
      else if name = py "VARCHAR" ∨ name = py "CHAR" then matchSized name rest
      else none
    | _ => none

/-! ## Parsed types -/

/-- `SqlType`; `base` is the whole text where no branch takes it apart. -/
structure SqlType where
  base : Str
  precision : Option ℕ
  scale : Option ℕ
  length : Option ℕ
  deriving DecidableEq

def SqlType.bare (base : Str) : SqlType := ⟨base, none, none, none⟩

/-- `int(digits)`. -/
def pyInt (digits : Str) : Except Exc ℕ :=
  if digits.length ≤ maxIntDigits then .ok (ofDecimal digits)
  else .error (.text .valueError (py "Exceeds the limit (4300 digits) for integer string conversion: " ++
    py "value has " ++ decimal digits.length ++
    py " digits; use sys.set_int_max_str_digits() to increase the limit"))

/-- `parse_sql_type`; `repr` is Python's. -/
def parseSqlType (repr : Str → Str) (raw : Str) : Except Exc SqlType :=
  let raw := strip raw
  match matchType raw with
  | none => contractError (py "unsupported or invalid SQL type: " ++ repr raw)
  | some (.bare name) =>
    if name = py "DOUBLE PRECISION" then .ok (.bare (py "DOUBLE_PRECISION"))
    else if name = py "INT" then .ok (.bare (py "INTEGER"))
    else .ok (.bare name)
  | some (.decimal _ precision space scale) =>
    -- `.` does not match a newline, so a type with one is not taken apart
    if ch '\n' ∈ space then .ok (.bare (raw.map asciiUpper))
    else do
      let p ← pyInt precision
      let s ← pyInt scale
      if ¬ (1 ≤ p ∧ p ≤ 38) then
        contractError (py "type: NUMERIC precision must be between 1 and 38, got " ++ decimal p)
      else if ¬ s ≤ p then
        contractError (py "type: NUMERIC scale must be between 0 and precision (" ++ decimal p ++
          py "), got " ++ decimal s)
      else .ok ⟨py "NUMERIC", some p, some s, none⟩
  | some (.sized name length) => do
    let n ← pyInt length
    .ok ⟨name, none, none, some n⟩

end ContinuoRuntime
