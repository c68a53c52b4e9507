/-
  The statement of the shared insert path (`_insert_rows` and `_on_conflict` in
  `adapter.py`).

  `execute_values` scans the statement for `%s`, where the rows go, and reads `%%` as
  a percent sign.  The identifiers may hold any percent signs, so the rendered parts
  are escaped.

  * `scanPercent` is the scan;
  * `scan_escapePercent`: an escaped text is read back as it was;
  * `insertStatement_scanned`: **the scan of the statement** finds one slot, between
    the rendered prefix and the rendered suffix.
-/
import ContinuoRuntime.Python.Replace

namespace ContinuoRuntime

/-! ## The statement -/

section
variable (ident : Str → Str)

/-- Names as SQL, with commas; `ident` is the rendering of an `Identifier`. -/
def identifierList (names : List Str) : Str := (py ", ").intercalate (names.map ident)

/-- The `INSERT` up to its values. -/
def insertPrefix (schema table : Str) (columns : List Str) : Str :=
  py "INSERT INTO " ++ ident schema ++ py "." ++ ident table ++ py " (" ++ identifierList ident columns ++ py ")"

/-- `_on_conflict`. -/
def onConflict (columns primaryKey : List Str) : Str :=
  let target := identifierList ident primaryKey
  let updates := columns.filter (· ∉ primaryKey)
  if updates = [] then py "ON CONFLICT (" ++ target ++ py ") DO NOTHING"
  else
    let assignments := (py ", ").intercalate
      (updates.map fun name => ident name ++ py " = EXCLUDED." ++ ident name)
    py "ON CONFLICT (" ++ target ++ py ") DO UPDATE SET " ++ assignments

/-- `text.replace("%", "%%")`. -/
def escapePercent (text : Str) : Str := replace text [ch '%'] [ch '%', ch '%']

/-- The statement that `_insert_rows` hands to `execute_values`. -/
def insertStatement (schema table : Str) (columns : List Str) (suffix : Option Str) : Str :=
  let statement := escapePercent (insertPrefix ident schema table columns) ++ py " VALUES %s"
  match suffix with
  | none => statement
  | some suffix => statement ++ (py " " ++ escapePercent suffix)

end

/-! ## The scan -/

/-- What `execute_values` finds in a statement. -/
inductive SqlPiece where
  /-- a character of the SQL text -/
  | char (c : CodePoint)
  /-- `%s` -/
  | slot
  /-- `%` before another character -/
  | directive (c : CodePoint)
  deriving DecidableEq

/-- A percent sign and the character after it. -/
def percentPiece (c : CodePoint) : SqlPiece :=
  if c = ch '%' then .char c else if c = ch 's' then .slot else .directive c

/-- The scan, from left to right. -/
def scanPercent : Str → List SqlPiece
  | [] => []
  | [c] => [.char c]
  | c :: d :: rest =>
    if c = ch '%' then percentPiece d :: scanPercent rest else .char c :: scanPercent (d :: rest)

theorem scan_char {c : CodePoint} (hc : c ≠ ch '%') (rest : Str) :
    scanPercent (c :: rest) = .char c :: scanPercent rest := by
  cases rest with
  | nil => rfl
  | cons d rest => rw [scanPercent, if_neg hc]

theorem scan_plain {s : Str} (hs : ch '%' ∉ s) (rest : Str) :
    scanPercent (s ++ rest) = s.map .char ++ scanPercent rest := by
  induction s with
  | nil => rfl
  | cons c s ih =>
    have hc : c ≠ ch '%' := fun h => hs (h ▸ List.mem_cons_self)
    rw [List.cons_append, scan_char hc, ih fun h => hs (List.mem_cons_of_mem _ h)]
    rfl

/-- **An escaped text** is read back as it was, whatever stands behind it. -/
theorem scan_escapePercent (s rest : Str) :
    scanPercent (escapePercent s ++ rest) = s.map .char ++ scanPercent rest := by
  rw [escapePercent, replace_singleton]
  induction s with
  | nil => rfl
  | cons c s ih =>
    rw [List.flatMap_cons, List.append_assoc]
    by_cases hc : c = ch '%'
    · -- the doubled sign is one piece, so the scan stays aligned
      subst hc
      rw [if_pos rfl, List.cons_append, List.singleton_append, scanPercent, if_pos rfl, ih]
      rfl
    · rw [if_neg hc, List.singleton_append, scan_char hc, ih]
      rfl

theorem scan_slot (rest : Str) : scanPercent (py "%s" ++ rest) = .slot :: scanPercent rest := rfl

/-- What `_insert_rows` puts behind the values. -/
def suffixText : Option Str → Str
  | none => []
  | some suffix => py " " ++ suffix

theorem scan_insertStatement (ident : Str → Str) (schema table : Str) (columns : List Str)
    (suffix : Option Str) : scanPercent (insertStatement ident schema table columns suffix) =
      (insertPrefix ident schema table columns ++ py " VALUES ").map .char ++ .slot ::
        (suffixText suffix).map .char := by
  have hvalues : ∀ rest, scanPercent (py " VALUES %s" ++ rest) =
      (py " VALUES ").map .char ++ .slot :: scanPercent rest := by
    intro rest
    have hsplit : py " VALUES %s" ++ rest = py " VALUES " ++ (py "%s" ++ rest) := rfl
    rw [hsplit, scan_plain (by decide), scan_slot]
  have hstart : ∀ rest, scanPercent (escapePercent (insertPrefix ident schema table columns) ++
      (py " VALUES %s" ++ rest)) = (insertPrefix ident schema table columns ++ py " VALUES ").map .char ++
        .slot :: scanPercent rest := by
    intro rest
    rw [scan_escapePercent, hvalues, List.map_append, List.append_assoc]
  cases suffix with
  | none =>
    have hend := hstart []
    rw [List.append_nil] at hend
    exact hend
  | some suffix =>
    have hend : scanPercent (py " " ++ escapePercent suffix) = (py " " ++ suffix).map .char := by
      have hescaped := scan_escapePercent suffix []
      rw [List.append_nil] at hescaped
      rw [scan_plain (by decide), hescaped, List.map_append, scanPercent, List.append_nil]
    rw [insertStatement, List.append_assoc, hstart, hend]
    rfl

/-- **The scan of the statement**: one slot and no other directive, between the
    rendered prefix with ` VALUES ` and, for an upsert, a space and the rendered
    `ON CONFLICT`. -/
theorem insertStatement_scanned (ident : Str → Str) (schema table : Str) (columns primaryKey : List Str) :
    scanPercent (insertStatement ident schema table columns none) =
      (insertPrefix ident schema table columns ++ py " VALUES ").map .char ++ [.slot] ∧
    scanPercent (insertStatement ident schema table columns (some (onConflict ident columns primaryKey))) =
      (insertPrefix ident schema table columns ++ py " VALUES ").map .char ++ .slot ::
        (py " " ++ onConflict ident columns primaryKey).map .char :=
  ⟨scan_insertStatement ident schema table columns none, scan_insertStatement ident schema table columns _⟩

/-- A name in double quotes. -/
def quotedPlain (name : Str) : Str := [ch '"'] ++ name ++ [ch '"']

/-- The text behind the slot is not the rendered suffix: a space stands before it. -/
theorem suffix_after_space : scanPercent (insertStatement quotedPlain (py "s") (py "t") [py "a"]
      (some (onConflict quotedPlain [py "a"] [py "a"]))) ≠
    (insertPrefix quotedPlain (py "s") (py "t") [py "a"] ++ py " VALUES ").map .char ++ .slot ::
      (onConflict quotedPlain [py "a"] [py "a"]).map .char := by decide +kernel

/-- A column name of percent signs and an `s`. -/
example : scanPercent (escapePercent (py "%%s") ++ py "%s") =
    [.char (ch '%'), .char (ch '%'), .char (ch 's'), .slot] := by decide +kernel

end ContinuoRuntime
