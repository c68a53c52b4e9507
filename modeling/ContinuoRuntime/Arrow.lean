/-
  Arrow tables (`pyarrow`), as far as the runtime reads and writes them.

  A column gives each row a value of its type or null, so a cell of another type,
  or a column of another length, cannot be built.  What `cast` does to a column of
  another type is a parameter; a column of the target type it leaves alone.
-/
import ContinuoRuntime.Contract.ColumnTypes

namespace ContinuoRuntime

/-! ## Values -/

/-- A value of a column. -/
inductive ArrowValue where
  | bool (b : Bool)
  | int (i : ℤ)
  | float (f : FloatRepr)
  /-- in units of the last digit -/
  | decimal (unscaled : ℤ)
  | text (s : Str)
  | timestamp (ticks : ℤ)
  | date (ticks : ℤ)
  | other (type text : Str)
  deriving DecidableEq

/-- A value of this type. -/
def ArrowValue.hasType : ArrowValue → ArrowType → Bool
  | .bool _, .bool => true
  | .int i, .int true bits => decide (-2 ^ (bits - 1) ≤ i ∧ i < 2 ^ (bits - 1))
  | .int i, .int false bits => decide (0 ≤ i ∧ i < 2 ^ bits)
  | .float _, .float _ => true
  | .decimal u, .decimal128 precision _ => decide (-10 ^ precision < u ∧ u < 10 ^ precision)
  | .text s, .string => s.all fun c => !isSurrogate c
  | .timestamp _, .timestamp _ => true
  | .date _, .date32 | .date _, .date64 => true
  | .other type _, .other name => type == name
  | .other type _, .binary => type == py "binary"
  | _, _ => false

/-- The values of a type. -/
abbrev Typed (type : ArrowType) := {v : ArrowValue // v.hasType type = true}

/-- `str(type)`. -/
def ArrowType.text : ArrowType → Str
  | .null => py "null"
  | .bool => py "bool"
  | .string => py "string"
  | .binary => py "binary"
  | .date32 => py "date32[day]"
  | .date64 => py "date64[ms]"
  | .int signed bits => (if signed then py "int" else py "uint") ++ decimal bits
  | .float 16 => py "halffloat"
  | .float 32 => py "float"
  | .float _ => py "double"
  | .decimal128 precision scale => py "decimal128(" ++ decimal precision ++ py ", " ++ decimal scale ++ py ")"
  | .timestamp .s => py "timestamp[s]"
  | .timestamp .ms => py "timestamp[ms]"
  | .timestamp .us => py "timestamp[us]"
  | .timestamp .ns => py "timestamp[ns]"
  | .other name => name

/-! ## Tables -/

/-- A column of `n` rows. -/
structure ArrowColumn (n : ℕ) where
  name : Str
  type : ArrowType
  nullable : Bool
  cells : Fin n → Option (Typed type)

/-- `pyarrow.Table`. -/
structure ArrowTable where
  numRows : ℕ
  columns : List (ArrowColumn numRows)

/-- What is in a row of a column. -/
def ArrowColumn.value {n : ℕ} (c : ArrowColumn n) (i : Fin n) : Option ArrowValue :=
  (c.cells i).map Subtype.val

namespace ArrowTable

/-- `table.column_names`. -/
def columnNames (t : ArrowTable) : List Str := t.columns.map ArrowColumn.name

/-- `table.column(name)`. -/
def column (t : ArrowTable) (name : Str) : Except Exc (ArrowColumn t.numRows) :=
  match t.columns.filter fun c => c.name = name with
  | [] => .error (.text (.other (py "KeyError")) (py "Field \"" ++ name ++ py "\" does not exist in schema"))
  | [c] => .ok c
  | _ => .error (.text (.other (py "KeyError")) (py "Field \"" ++ name ++
      py "\" exists several times in schema"))

/-- `table.select(names)`. -/
def select (t : ArrowTable) (names : List Str) : Except Exc ArrowTable := do
  let columns ← names.mapM t.column
  .ok ⟨t.numRows, columns⟩

/-- A column is found by its name, if no other has it. -/
theorem column_eq_ok {t : ArrowTable} {c : ArrowColumn t.numRows} (hc : c ∈ t.columns)
    (hn : t.columnNames.Nodup) : t.column c.name = .ok c := by
  have hfilter : t.columns.filter (fun d => d.name = c.name) = [c] := by
    obtain ⟨before, after, hsplit⟩ := List.append_of_mem hc
    rw [columnNames, hsplit, List.map_append, List.map_cons] at hn
    have hnot := List.nodup_middle.1 hn
    rw [List.nodup_cons, List.mem_append, not_or] at hnot
    have hnone : ∀ ds : List (ArrowColumn t.numRows), c.name ∉ ds.map ArrowColumn.name →
        ds.filter (fun d => d.name = c.name) = [] := by
      intro ds hds
      refine List.filter_eq_nil_iff.2 fun d hd => ?_
      rw [decide_eq_true_eq]
      exact fun heq => hds (List.mem_map.2 ⟨d, hd, heq⟩)
    rw [hsplit, List.filter_append, hnone _ hnot.1.1, List.nil_append,
      List.filter_cons_of_pos (by rw [decide_eq_true_eq]), hnone _ hnot.1.2]
  rw [column, hfilter]

theorem mem_of_column {t : ArrowTable} {name : Str} {c : ArrowColumn t.numRows}
    (h : t.column name = .ok c) : c ∈ t.columns ∧ c.name = name := by
  unfold column at h
  split at h
  · cases h
  next d hd =>
    cases h
    have hmem : c ∈ t.columns.filter fun d => d.name = name := hd ▸ List.mem_cons_self
    exact ⟨(List.mem_filter.1 hmem).1, of_decide_eq_true (List.mem_filter.1 hmem).2⟩
  · cases h

/-- **Selecting every column** changes nothing. -/
theorem select_columnNames {t : ArrowTable} (hn : t.columnNames.Nodup) : t.select t.columnNames = .ok t := by
  have hall : t.columnNames.mapM t.column = .ok t.columns := by
    rw [mapM_eq_ok, columnNames, List.forall₂_map_left_iff, List.forall₂_same]
    exact fun c hc => column_eq_ok hc hn
  rw [select, hall]
  rfl

end ArrowTable

/-! ## Casts -/

/-- A field of a schema. -/
structure Field where
  name : Str
  type : ArrowType
  nullable : Bool

/-- `cast(safe=True)` on the values of a column. -/
structure ArrowCast where
  column : {n : ℕ} → (source target : ArrowType) → (Fin n → Option (Typed source)) →
    Except Exc (Fin n → Option (Typed target))
  /-- values of the target type stay -/
  self : ∀ {n : ℕ} (type : ArrowType) (cells : Fin n → Option (Typed type)), column type type cells = .ok cells

/-- Casts that leave a column alone, and refuse every other type. -/
def selfCast : ArrowCast where
  column source target cells :=
    if h : source = target then .ok (h ▸ cells)
    else .error (.text (.other (py "ArrowNotImplementedError")) (py "Unsupported cast"))
  self type cells := by rw [dif_pos rfl]

variable (casts : ArrowCast)

/-- One column of a cast. -/
def castColumn {n : ℕ} (c : ArrowColumn n) (f : Field) : Except Exc (ArrowColumn n) := do
  let cells ← casts.column c.type f.type c.cells
  if f.nullable = false ∧ ∃ i, cells i = none then
    .error (.text .valueError (py "Casting field '" ++ f.name ++ py "' with null values to non-nullable"))
  else .ok ⟨f.name, f.type, f.nullable, cells⟩

/-- `table.cast(schema)`. -/
def ArrowTable.cast (t : ArrowTable) (fields : List Field) : Except Exc ArrowTable :=
  if t.columnNames ≠ fields.map Field.name then
    .error (.text .valueError (py "Target schema's field names are not matching the table's field names"))
  else do
    let columns ← (t.columns.zip fields).mapM fun p => castColumn casts p.1 p.2
    .ok ⟨t.numRows, columns⟩

end ContinuoRuntime
