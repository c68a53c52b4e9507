/-
  The output-shape enforcer (`conform` in `conform.py`).

  * `conform_spec`: a table that `conform` returns has the declared columns, in
    order, with the declared types, nulls and lengths;
  * `conform_eq_self`: it returns such a table unchanged.
-/
import ContinuoRuntime.Arrow

namespace ContinuoRuntime

/-- `raise ConformError(msg)`. -/
def conformError {α : Type} (msg : Str) : Except Exc α := .error (.text .conformError msg)

/-- `pa.types.is_timestamp`. -/
def ArrowType.isTimestamp : ArrowType → Bool
  | .timestamp _ => true
  | .other name => (py "timestamp[").isPrefixOf name
  | _ => false

/-- `pa.types.is_floating`. -/
def ArrowType.isFloating : ArrowType → Bool
  | .float _ => true
  | _ => false

/-- `pa.types.is_decimal`. -/
def ArrowType.isDecimal : ArrowType → Bool
  | .decimal128 _ _ => true
  | _ => false

/-- `pa.types.is_date`. -/
def ArrowType.isDate : ArrowType → Bool
  | .date32 | .date64 => true
  | _ => false

/-- `_reject_lossy_cast`. -/
def rejectLossyCast (name : Str) (source target : ArrowType) : Except Exc Unit :=
  let refused := py "column " ++ name ++ py ": cannot cast " ++ source.text ++ py " to " ++ target.text
  if target.isDecimal ∧ source.isFloating then
    conformError (refused ++ py "; casting a floating-point column to a decimal type is not lossless " ++
      py "(pyarrow silently rounds to the target scale) -- source must be an integer, decimal, or " ++
      py "string column")
  else if target = .bool ∧ source ≠ .bool then
    conformError (refused ++ py "; casting a non-boolean column to BOOLEAN is not lossless (pyarrow " ++
      py "coerces truthiness instead of requiring an actual boolean value)")
  else if target.isDate ∧ source.isTimestamp then
    conformError (refused ++ py "; casting a TIMESTAMP column to DATE is not lossless (pyarrow silently " ++
      py "truncates the time-of-day component)")
  else .ok ()

/-- The exceptions of a cast that `conform` reports as its own. -/
def isCastError (c : ExcClass) : Bool :=
  c.isValueError || c == .other (py "ArrowInvalid") || c == .other (py "ArrowNotImplementedError") ||
    c == .other (py "ArrowTypeError")

/-- `pc.utf8_length(column)`, without the nulls. -/
def textLengths {n : ℕ} (c : ArrowColumn n) : List ℕ :=
  (List.finRange n).filterMap fun i => match c.value i with
    | some (.text s) => some s.length
    | _ => none

/-- `pc.max(pc.utf8_length(column))`. -/
def maxLength {n : ℕ} (c : ArrowColumn n) : Option ℕ := (textLengths c).max?

section
variable (casts : ArrowCast) (reprStr : Str → Str)

/-- The Arrow type of a declared column. -/
def declaredType (column : Column) : Except Exc ArrowType := do
  let t ← parseSqlType reprStr column.type
  arrowType reprStr t

/-- The schema of the declared columns. -/
def declaredFields (nullable : Column → Bool) (columns : List Column) : Except Exc (List Field) :=
  columns.mapM fun column => do
    let type ← declaredType reprStr column
    .ok ⟨column.name, type, nullable column⟩

/-- The checks on the values of one declared column. -/
def checkColumn (table : ArrowTable) (column : Column) : Except Exc Unit := do
  let c ← table.column column.name
  if column.nullable = false ∧ ∃ i, c.cells i = none then
    conformError (py "column " ++ column.name ++ py " is declared nullable: false but contains nulls")
  else do
    let t ← parseSqlType reprStr column.type
    match t.length, maxLength c with
    | some length, some longest =>
      if length < longest then
        conformError (py "column " ++ column.name ++ py ": value length " ++ decimal longest ++
          py " exceeds " ++ t.base ++ py "(" ++ decimal length ++ py ")")
      else .ok ()
    | _, _ => .ok ()

/-- The cast to the declared types, as `conform` reports its failure. -/
def castDeclared (table : ArrowTable) (target : List Field) : Except Exc ArrowTable :=
  match table.cast casts target with
  | .ok table => .ok table
  | .error exc =>
    if isCastError exc.cls then do
      let detail ← exc.format
      conformError (py "strict cast to declared schema failed: " ++ detail)
    else .error exc

/-- The refused casts of one target field. -/
def rejectLossyField (table : ArrowTable) (field : Field) : Except Exc Unit := do
  let source ← table.column field.name
  rejectLossyCast field.name source.type field.type

/-- `conform`. -/
def conform (table : ArrowTable) (columns : List Column) (extraColumns : ExtraColumns) :
    Except Exc ArrowTable := do
  let declared := columns.map Column.name
  let dups := ((table.columnNames.dedup.filter fun n => 1 < table.columnNames.count n)).insertionSort (· ≤ ·)
  if dups ≠ [] then
    conformError (py "dataframe has duplicate column(s): " ++ reprList reprStr dups)
  else
    let extra := table.columnNames.filter fun n => n ∉ declared
    if extra ≠ [] ∧ extraColumns = .raise then
      conformError (py "dataframe has undeclared column(s): " ++ reprList reprStr extra ++ py "; declared: " ++
        reprList reprStr declared)
    else
      let missing := declared.filter fun n => n ∉ table.columnNames
      if missing ≠ [] then
        conformError (py "dataframe is missing column(s): " ++ reprList reprStr missing)
      else do
        let table ← table.select declared
        let target ← declaredFields reprStr (fun _ => true) columns
        target.forM (rejectLossyField table)
        let table ← castDeclared casts table target
        columns.forM (checkColumn reprStr table)
        let declaredSchema ← declaredFields reprStr Column.nullable columns
        table.cast casts declaredSchema

/-! ## Tables of the declared shape -/

/-- A column as declared. -/
structure ColumnConforms {n : ℕ} (column : Column) (c : ArrowColumn n) : Prop where
  name : c.name = column.name
  nullable : c.nullable = column.nullable
  type : declaredType reprStr column = .ok c.type
  notNull : column.nullable = false → ∀ i, c.cells i ≠ none
  length : ∀ t, parseSqlType reprStr column.type = .ok t → ∀ len, t.length = some len →
    ∀ i s, c.value i = some (.text s) → s.length ≤ len

/-- A table with the declared columns, in order. -/
def Declared (columns : List Column) (table : ArrowTable) : Prop :=
  List.Forall₂ (ColumnConforms reprStr) columns table.columns

variable {casts reprStr}

theorem Declared.columnNames {columns : List Column} {table : ArrowTable}
    (h : Declared reprStr columns table) : table.columnNames = columns.map Column.name := by
  unfold Declared at h
  unfold ArrowTable.columnNames
  generalize table.columns = cs at h ⊢
  induction h with
  | nil => rfl
  | cons hc _ ih => rw [List.map_cons, List.map_cons, ih, hc.name]

/-! ### One column -/

theorem castColumn_eq_ok {n : ℕ} {c c' : ArrowColumn n} {f : Field} (h : castColumn casts c f = .ok c') :
    c'.name = f.name ∧ c'.type = f.type ∧ c'.nullable = f.nullable ∧
      (f.nullable = false → ∀ i, c'.cells i ≠ none) := by
  obtain ⟨cells, -, h⟩ := bind_eq_ok.1 h
  split_ifs at h with hnull
  cases h
  refine ⟨rfl, rfl, rfl, fun hf i hi => hnull ⟨hf, i, hi⟩⟩

/-- A cast to the type of the column keeps its values. -/
theorem castColumn_self {n : ℕ} {c : ArrowColumn n} {nullable : Bool}
    (hnull : nullable = false → ∀ i, c.cells i ≠ none) :
    castColumn casts c ⟨c.name, c.type, nullable⟩ = .ok { c with nullable := nullable } := by
  rw [castColumn, casts.self]
  dsimp only [bind, Except.bind]
  rw [if_neg]
  rintro ⟨hf, i, hi⟩
  exact hnull hf i hi

theorem castColumn_value {n : ℕ} {c c' : ArrowColumn n} {f : Field} (h : castColumn casts c f = .ok c')
    (htype : f.type = c.type) : c'.value = c.value := by
  obtain ⟨name, type, nullable⟩ := f
  dsimp only at htype
  subst htype
  obtain ⟨cells, hcells, h⟩ := bind_eq_ok.1 h
  rw [casts.self] at hcells
  cases hcells
  split_ifs at h
  cases h
  rfl

theorem le_maxLength {n : ℕ} {c : ArrowColumn n} {i : Fin n} {s : Str} (h : c.value i = some (.text s)) :
    ∃ longest, maxLength c = some longest ∧ s.length ≤ longest := by
  have hmem : s.length ∈ textLengths c := by
    refine List.mem_filterMap.2 ⟨i, List.mem_finRange i, ?_⟩
    rw [h]
  rw [maxLength]
  cases hmax : (textLengths c).max? with
  | none =>
    rw [List.max?_eq_none_iff.1 hmax] at hmem
    cases hmem
  | some longest => exact ⟨longest, rfl, (List.max?_eq_some_iff.1 hmax).2 _ hmem⟩

/-- The longest text is one of the texts. -/
theorem exists_of_maxLength {n : ℕ} {c : ArrowColumn n} {longest : ℕ} (h : maxLength c = some longest) :
    ∃ i s, c.value i = some (.text s) ∧ s.length = longest := by
  obtain ⟨i, -, hi⟩ := List.mem_filterMap.1 (List.max?_eq_some_iff.1 h).1
  split at hi
  next s hs => exact ⟨i, s, hs, Option.some.inj hi⟩
  · cases hi

/-- **The checks on a column**: no nulls and no long texts. -/
theorem checkColumn_eq_ok_iff {table : ArrowTable} {column : Column} {c : ArrowColumn table.numRows}
    (hc : table.column column.name = .ok c) :
    checkColumn reprStr table column = .ok () ↔
      (column.nullable = false → ∀ i, c.cells i ≠ none) ∧
        ∃ t, parseSqlType reprStr column.type = .ok t ∧ ∀ len, t.length = some len →
          ∀ longest, maxLength c = some longest → longest ≤ len := by
  rw [checkColumn, hc]
  dsimp only [bind, Except.bind, conformError]
  split_ifs with hnull
  · refine ⟨fun h => (by cases h), ?_⟩
    rintro ⟨hno, -⟩
    obtain ⟨hf, i, hi⟩ := hnull
    exact absurd hi (hno hf i)
  · have hno : column.nullable = false → ∀ i, c.cells i ≠ none := fun hf i hi => hnull ⟨hf, i, hi⟩
    cases parseSqlType reprStr column.type with
    | error exc => exact ⟨fun h => (by cases h), fun ⟨_, _, h, _⟩ => (by cases h)⟩
    | ok t =>
      dsimp only
      constructor
      · intro h
        refine ⟨hno, t, rfl, fun len hlen longest hlong => ?_⟩
        rw [hlen, hlong] at h
        dsimp only at h
        split_ifs at h with hle
        omega
      · rintro ⟨-, t', ht', hle⟩
        cases ht'
        split
        next len longest hlen hlong =>
          have := hle len hlen longest hlong
          rw [if_neg (by omega)]
        · rfl

/-! ### The whole table -/

theorem declaredFields_eq_ok {nullable : Column → Bool} {columns : List Column} {fields : List Field}
    (h : declaredFields reprStr nullable columns = .ok fields) :
    List.Forall₂ (fun column f => f.name = column.name ∧ f.nullable = nullable column ∧
      declaredType reprStr column = .ok f.type) columns fields := by
  refine (mapM_eq_ok.1 h).imp fun column f hf => ?_
  obtain ⟨type, htype, hf⟩ := bind_eq_ok.1 hf
  cases hf
  exact ⟨rfl, rfl, htype⟩

theorem castColumns_eq_ok {n : ℕ} {R : Column → Field → Prop} {Q : Column → ArrowColumn n → Prop} :
    ∀ {columns : List Column} {fields : List Field} {sources cs : List (ArrowColumn n)},
      List.Forall₂ Q columns sources → List.Forall₂ R columns fields →
      List.Forall₂ (fun p c' => castColumn casts p.1 p.2 = .ok c') (sources.zip fields) cs →
      List.Forall₂ (fun column c' => ∃ c f, Q column c ∧ R column f ∧ castColumn casts c f = .ok c') columns cs
  | [], [], [], [], .nil, .nil, .nil => .nil
  | _ :: _, _ :: _, _ :: _, _ :: _, .cons hq hqs, .cons hr hrs, .cons hc hcs =>
    .cons ⟨_, _, hq, hr, hc⟩ (castColumns_eq_ok hqs hrs hcs)

/-- **A cast**, column by column. -/
theorem cast_eq_ok {columns : List Column} {R : Column → Field → Prop} {t t' : ArrowTable}
    {Q : Column → ArrowColumn t.numRows → Prop} {fields : List Field}
    (hcols : List.Forall₂ Q columns t.columns) (hfields : List.Forall₂ R columns fields)
    (h : t.cast casts fields = .ok t') : ∃ cs : List (ArrowColumn t.numRows), t' = ⟨t.numRows, cs⟩ ∧
      List.Forall₂ (fun column c' => ∃ c f, Q column c ∧ R column f ∧ castColumn casts c f = .ok c')
        columns cs := by
  unfold ArrowTable.cast at h
  split_ifs at h
  obtain ⟨cs, hcs, h⟩ := bind_eq_ok.1 h
  cases h
  exact ⟨cs, rfl, castColumns_eq_ok hcols hfields (mapM_eq_ok.1 hcs)⟩

theorem castDeclared_eq_ok {table t' : ArrowTable} {target : List Field}
    (h : castDeclared casts table target = .ok t') : table.cast casts target = .ok t' := by
  unfold castDeclared conformError at h
  split at h
  next t hcast => exact hcast.trans h
  next exc _ =>
    split_ifs at h
    obtain ⟨_, -, h⟩ := bind_eq_ok.1 h
    cases h

/-- The columns of a cast to the declared fields. -/
theorem columnNames_eq {columns : List Column} {n : ℕ} {cs : List (ArrowColumn n)}
    (h : List.Forall₂ (fun (column : Column) c => c.name = column.name) columns cs) :
    cs.map ArrowColumn.name = columns.map Column.name := by
  induction h with
  | nil => rfl
  | cons hc _ ih => rw [List.map_cons, List.map_cons, ih, hc]

/-- **What `conform` returns** is a table of the declared shape. -/
theorem conform_spec {table out : ArrowTable} {columns : List Column} {extraColumns : ExtraColumns}
    (hn : (columns.map Column.name).Nodup)
    (h : conform casts reprStr table columns extraColumns = .ok out) : Declared reprStr columns out := by
  unfold conform conformError at h
  dsimp only at h
  split_ifs at h
  obtain ⟨selected, hselect, h⟩ := bind_eq_ok.1 h
  obtain ⟨target, htarget, h⟩ := bind_eq_ok.1 h
  obtain ⟨-, -, h⟩ := bind_eq_ok.1 h
  obtain ⟨converted, hcast, h⟩ := bind_eq_ok.1 h
  obtain ⟨⟨⟩, hchecks, h⟩ := bind_eq_ok.1 h
  obtain ⟨schema, hschema, h⟩ := bind_eq_ok.1 h
  obtain ⟨chosen, hchosen, hselect⟩ := bind_eq_ok.1 hselect
  cases hselect
  -- the first cast gives the declared names and types
  have hfound := mapM_eq_ok.1 hchosen
  rw [List.forall₂_map_left_iff] at hfound
  obtain ⟨cs, rfl, hcs⟩ := cast_eq_ok hfound (declaredFields_eq_ok htarget) (castDeclared_eq_ok hcast)
  have hnames : cs.map ArrowColumn.name = columns.map Column.name := by
    refine columnNames_eq (hcs.imp ?_)
    rintro column c ⟨_, f, -, ⟨hname, -⟩, hc⟩
    rw [(castColumn_eq_ok hc).1, hname]
  have hdistinct : (ArrowTable.columnNames ⟨table.numRows, cs⟩).Nodup := by
    rw [ArrowTable.columnNames, hnames]
    exact hn
  -- the checks find each column under its name
  have hcol : List.Forall₂ (fun column c => declaredType reprStr column = .ok c.type ∧
      (column.nullable = false → ∀ i, c.cells i ≠ none) ∧
      ∃ t, parseSqlType reprStr column.type = .ok t ∧ ∀ len, t.length = some len →
        ∀ longest, maxLength c = some longest → longest ≤ len) columns cs := by
    refine List.forall₂_iff_get.2 ⟨hcs.length_eq, fun i hi hi' => ?_⟩
    obtain ⟨_, f, -, ⟨hname, -, htype⟩, hc⟩ := hcs.get hi hi'
    obtain ⟨hcname, hctype, -, -⟩ := castColumn_eq_ok hc
    have hlookup : ArrowTable.column ⟨table.numRows, cs⟩ (columns.get ⟨i, hi⟩).name =
        .ok (cs.get ⟨i, hi'⟩) := by
      rw [← hname, ← hcname]
      exact ArrowTable.column_eq_ok (List.get_mem cs ⟨i, hi'⟩) hdistinct
    have hcheck := forM_eq_ok.1 hchecks _ (List.get_mem columns ⟨i, hi⟩)
    refine ⟨hctype ▸ htype, (checkColumn_eq_ok_iff hlookup).1 hcheck⟩
  -- the second cast only restores the nullability
  obtain ⟨cs', rfl, hcs'⟩ := cast_eq_ok hcol (declaredFields_eq_ok hschema) h
  refine hcs'.imp ?_
  rintro column c' ⟨c, f, ⟨htype, hnotNull, t, ht, hlength⟩, ⟨hname, hnullable, hftype⟩, hc⟩
  obtain ⟨hname', htype', hnullable', hnotNull'⟩ := castColumn_eq_ok hc
  have hsame : f.type = c.type := Except.ok.inj (hftype.symm.trans htype)
  refine ⟨hname'.trans hname, hnullable'.trans hnullable, htype' ▸ hftype,
    fun hcn => hnotNull' (hnullable.trans hcn), ?_⟩
  intro t' ht' len hlen i s hs
  obtain rfl := Except.ok.inj (ht.symm.trans ht')
  rw [castColumn_value hc hsame] at hs
  obtain ⟨longest, hlong, hle⟩ := le_maxLength hs
  exact hle.trans (hlength len hlen longest hlong)

theorem Declared.exists_column {columns : List Column} {table : ArrowTable} (h : Declared reprStr columns table)
    {c : ArrowColumn table.numRows} (hc : c ∈ table.columns) :
    ∃ column ∈ columns, ColumnConforms reprStr column c := by
  obtain ⟨i, hi, rfl⟩ := List.getElem_of_mem hc
  have hi' : i < columns.length := List.Forall₂.length_eq h ▸ hi
  exact ⟨_, List.getElem_mem hi', List.Forall₂.get h hi' hi⟩

theorem Declared.exists_arrow {columns : List Column} {table : ArrowTable} (h : Declared reprStr columns table)
    {column : Column} (hc : column ∈ columns) : ∃ c ∈ table.columns, ColumnConforms reprStr column c := by
  obtain ⟨i, hi, rfl⟩ := List.getElem_of_mem hc
  have hi' : i < table.columns.length := List.Forall₂.length_eq h ▸ hi
  exact ⟨_, List.getElem_mem hi', List.Forall₂.get h hi hi'⟩

/-- A type is no lossy cast of itself. -/
theorem rejectLossyCast_self (name : Str) (type : ArrowType) : rejectLossyCast name type type = .ok () := by
  unfold rejectLossyCast
  dsimp only
  split_ifs with hdec hbool hdate
  · cases type <;> simp [ArrowType.isDecimal, ArrowType.isFloating] at hdec
  · exact absurd hbool.1 hbool.2
  · cases type <;> simp [ArrowType.isDate, ArrowType.isTimestamp] at hdate
  · rfl

/-- The schema of a table of the declared shape. -/
theorem declaredFields_of_declared {columns : List Column} {table : ArrowTable}
    (h : Declared reprStr columns table) {nullable : Column → Bool} {nullable' : ArrowColumn table.numRows → Bool}
    (hnull : ∀ column c, ColumnConforms reprStr column c → nullable column = nullable' c) :
    declaredFields reprStr nullable columns = .ok (table.columns.map fun c => ⟨c.name, c.type, nullable' c⟩) := by
  refine mapM_eq_ok.2 (List.forall₂_map_right_iff.2 (h.imp fun column c hc => ?_))
  rw [hc.type, hc.name, hnull column c hc]
  rfl

/-- **A cast to the types a table has** only sets the nullability. -/
theorem cast_eq_self {n : ℕ} {sources : List (ArrowColumn n)} {before after : ArrowColumn n → Bool}
    (hnull : ∀ c ∈ sources, after c = false → ∀ i, c.cells i ≠ none) :
    ArrowTable.cast casts ⟨n, sources.map fun c => { c with nullable := before c }⟩
        (sources.map fun c => ⟨c.name, c.type, after c⟩) =
      .ok ⟨n, sources.map fun c => { c with nullable := after c }⟩ := by
  have hnames : ArrowTable.columnNames ⟨n, sources.map fun c => { c with nullable := before c }⟩ =
      (sources.map fun c : ArrowColumn n => (⟨c.name, c.type, after c⟩ : Field)).map Field.name := by
    simp only [ArrowTable.columnNames, List.map_map]
    rfl
  have hcolumns : ((sources.map fun c : ArrowColumn n => { c with nullable := before c }).zip
      (sources.map fun c => (⟨c.name, c.type, after c⟩ : Field))).mapM (fun p => castColumn casts p.1 p.2) =
        .ok (sources.map fun c => { c with nullable := after c }) := by
    rw [List.zip_map', mapM_eq_ok, List.forall₂_map_left_iff, List.forall₂_map_right_iff, List.forall₂_same]
    intro c hc
    have hself : castColumn casts { c with nullable := before c } ⟨c.name, c.type, after c⟩ =
        .ok { { c with nullable := before c } with nullable := after c } := castColumn_self (hnull c hc)
    exact hself
  rw [ArrowTable.cast, if_neg (not_not.2 hnames), hcolumns]
  rfl

/-- **A table of the declared shape** is returned unchanged. -/
theorem conform_eq_self {table : ArrowTable} {columns : List Column} {extraColumns : ExtraColumns}
    (hn : (columns.map Column.name).Nodup) (h : Declared reprStr columns table) :
    conform casts reprStr table columns extraColumns = .ok table := by
  have hnames := h.columnNames
  have hdistinct : table.columnNames.Nodup := hnames ▸ hn
  have hdups : (table.columnNames.dedup.filter fun n => 1 < table.columnNames.count n) = [] := by
    refine List.filter_eq_nil_iff.2 fun name _ => ?_
    have hcount := List.nodup_iff_count_le_one.1 hdistinct name
    simp only [decide_eq_true_eq]
    omega
  have hextra : (table.columnNames.filter fun n => n ∉ columns.map Column.name) = [] := by
    rw [hnames]
    exact List.filter_eq_nil_iff.2 fun name hname => by simpa using hname
  have hmissing : ((columns.map Column.name).filter fun n => n ∉ table.columnNames) = [] := by
    rw [hnames]
    exact List.filter_eq_nil_iff.2 fun name hname => by simpa using hname
  have hselect : table.select (columns.map Column.name) = .ok table :=
    hnames ▸ ArrowTable.select_columnNames hdistinct
  -- first with every column nullable, then as declared
  have htarget : declaredFields reprStr (fun _ => true) columns =
      .ok (table.columns.map fun c => ⟨c.name, c.type, true⟩) :=
    declaredFields_of_declared h fun _ _ _ => rfl
  have hschema : declaredFields reprStr Column.nullable columns =
      .ok (table.columns.map fun c => ⟨c.name, c.type, c.nullable⟩) :=
    declaredFields_of_declared h fun _ _ hc => hc.nullable.symm
  have hlossy : (table.columns.map fun c => (⟨c.name, c.type, true⟩ : Field)).forM (rejectLossyField table) =
      .ok () := by
    refine forM_eq_ok.2 fun f hf => ?_
    obtain ⟨c, hc, rfl⟩ := List.mem_map.1 hf
    rw [rejectLossyField, ArrowTable.column_eq_ok hc hdistinct]
    exact rejectLossyCast_self _ _
  have hcast : castDeclared casts table (table.columns.map fun c => ⟨c.name, c.type, true⟩) =
      .ok ⟨table.numRows, table.columns.map fun c => { c with nullable := true }⟩ := by
    have hself : ArrowTable.cast casts ⟨table.numRows, table.columns.map fun c => { c with nullable := c.nullable }⟩
        (table.columns.map fun c => ⟨c.name, c.type, true⟩) =
          .ok ⟨table.numRows, table.columns.map fun c => { c with nullable := true }⟩ :=
      cast_eq_self fun c _ hf => by cases hf
    rw [List.map_id'] at hself
    rw [castDeclared, hself]
  have hchecks : columns.forM (checkColumn reprStr
      ⟨table.numRows, table.columns.map fun c => { c with nullable := true }⟩) = .ok () := by
    refine forM_eq_ok.2 fun column hcolumn => ?_
    obtain ⟨c, hc, hconf⟩ := h.exists_arrow hcolumn
    have hlookup : ArrowTable.column ⟨table.numRows, table.columns.map fun c => { c with nullable := true }⟩
        column.name = .ok { c with nullable := true } := by
      have hmem : { c with nullable := true } ∈
          table.columns.map fun c : ArrowColumn table.numRows => { c with nullable := true } :=
        List.mem_map.2 ⟨c, hc, rfl⟩
      have hsame : ArrowTable.columnNames
          ⟨table.numRows, table.columns.map fun c => { c with nullable := true }⟩ = table.columnNames := by
        rw [ArrowTable.columnNames, List.map_map]
        rfl
      rw [← hconf.name]
      exact @ArrowTable.column_eq_ok ⟨table.numRows, _⟩ _ hmem (hsame ▸ hdistinct)
    obtain ⟨t, ht, -⟩ := bind_eq_ok.1 hconf.type
    refine (checkColumn_eq_ok_iff hlookup).2 ⟨hconf.notNull, t, ht, fun len hlen longest hlong => ?_⟩
    obtain ⟨i, s, hs, rfl⟩ := exists_of_maxLength hlong
    exact hconf.length t ht len hlen i s hs
  have hfinal : ArrowTable.cast casts ⟨table.numRows, table.columns.map fun c => { c with nullable := true }⟩
      (table.columns.map fun c => ⟨c.name, c.type, c.nullable⟩) = .ok table := by
    have hself : ArrowTable.cast casts ⟨table.numRows, table.columns.map fun c => { c with nullable := true }⟩
        (table.columns.map fun c => ⟨c.name, c.type, c.nullable⟩) =
          .ok ⟨table.numRows, table.columns.map fun c => { c with nullable := c.nullable }⟩ := by
      refine cast_eq_self fun c hc hf => ?_
      obtain ⟨column, -, hconf⟩ := h.exists_column hc
      exact hconf.notNull (hconf.nullable ▸ hf)
    rwa [List.map_id'] at hself
  unfold conform
  dsimp only
  rw [hdups, hextra, hmissing, List.insertionSort_nil, if_neg (not_not.2 rfl),
    if_neg (fun hx => hx.1 rfl), if_neg (not_not.2 rfl), hselect]
  dsimp only [bind, Except.bind]
  rw [htarget]
  dsimp only
  rw [hlossy]
  dsimp only
  rw [hcast]
  dsimp only
  rw [hchecks]
  dsimp only
  rw [hschema]
  exact hfinal

end

end ContinuoRuntime
