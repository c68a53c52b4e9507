/-
  What `conform` accepts, and what it makes of it.

  `conform` is its structural check followed by the casts and the checks on the
  values.  A selected table is a list of rows, one for each declared column: the
  column, the input column of its name and the type it is cast to.  Every stage
  is a condition on each of them.

  * `structuralCheck_eq_ok_iff`: which names pass the structural check;
  * `conformRest_cases`: which values pass the rest, and with what result;
  * `conform_exact`: what `conform` returns on which table.
-/
import ContinuoRuntime.Conform

namespace ContinuoRuntime

/-! ## The structural check -/

/-- What a stage of `conform` does: give a result or raise `ConformError`. -/
def Reports {α : Type} (x : Except Exc α) : Prop :=
  (∃ a, x = .ok a) ∨ ∃ msg, x = .error (.text .conformError msg)

theorem reports_conformError {α : Type} (msg : Str) : Reports (conformError msg : Except Exc α) :=
  .inr ⟨msg, rfl⟩

theorem reports_ok {α : Type} (a : α) : Reports (.ok a : Except Exc α) := .inl ⟨a, rfl⟩

/-- A loop over checks that report. -/
theorem reports_forM {α : Type} {f : α → Except Exc Unit} : ∀ {xs : List α},
    (∀ x ∈ xs, Reports (f x)) → Reports (xs.forM f)
  | [], _ => reports_ok ()
  | x :: xs, h => by
    have hcons : (x :: xs).forM f = f x >>= fun _ => xs.forM f := rfl
    rw [hcons]
    rcases h x List.mem_cons_self with ⟨⟨⟩, hx⟩ | ⟨msg, hx⟩
    · rw [hx]
      exact reports_forM fun y hy => h y (List.mem_cons_of_mem _ hy)
    · rw [hx]
      exact .inr ⟨msg, rfl⟩

/-- A stage that reports and does not succeed. -/
theorem Reports.exists_error {α : Type} {x : Except Exc α} (hx : Reports x) (h : ∀ a, x ≠ .ok a) :
    ∃ msg, x = .error (.text .conformError msg) := by
  rcases hx with ⟨a, hx⟩ | herror
  · exact absurd hx (h a)
  · exact herror

section
variable (reprStr : Str → Str) (names declared : List Str)

/-- The message on repeated names. -/
def duplicateMessage : Str :=
  py "dataframe has duplicate column(s): " ++
    reprList reprStr ((names.dedup.filter fun n => 1 < names.count n).insertionSort (· ≤ ·))

/-- The message on undeclared names. -/
def undeclaredMessage : Str :=
  py "dataframe has undeclared column(s): " ++ reprList reprStr (names.filter fun n => n ∉ declared) ++
    py "; declared: " ++ reprList reprStr declared

/-- The message on missing names. -/
def missingMessage : Str :=
  py "dataframe is missing column(s): " ++ reprList reprStr (declared.filter fun n => n ∉ names)

/-- The checks of `conform` on the names. -/
def structuralCheck (extraColumns : ExtraColumns) : Except Exc Unit :=
  if ¬ names.Nodup then conformError (duplicateMessage reprStr names)
  else if (∃ n ∈ names, n ∉ declared) ∧ extraColumns = .raise then
    conformError (undeclaredMessage reprStr names declared)
  else if ∃ n ∈ declared, n ∉ names then conformError (missingMessage reprStr names declared)
  else .ok ()

end

section
variable (casts : ArrowCast) (reprStr : Str → Str)

/-- `conform` after the checks on the names. -/
def conformRest (table : ArrowTable) (columns : List Column) : Except Exc ArrowTable := do
  let table ← table.select (columns.map Column.name)
  let target ← declaredFields reprStr (fun _ => true) columns
  target.forM (rejectLossyField table)
  let table ← castDeclared casts table target
  columns.forM (checkColumn reprStr table)
  let declaredSchema ← declaredFields reprStr Column.nullable columns
  table.cast casts declaredSchema

variable {casts reprStr}

/-- No name is repeated exactly if none is counted twice. -/
theorem duplicates_eq_nil_iff {names : List Str} :
    (names.dedup.filter fun n => 1 < names.count n).insertionSort (· ≤ ·) = [] ↔ names.Nodup := by
  have hperm := List.perm_insertionSort (· ≤ ·) (names.dedup.filter fun n => 1 < names.count n)
  rw [← List.length_eq_zero_iff, hperm.length_eq, List.length_eq_zero_iff, List.filter_eq_nil_iff,
    List.nodup_iff_count_le_one]
  constructor
  · intro h n
    by_cases hn : n ∈ names
    · have hle := h n (List.mem_dedup.2 hn)
      rw [decide_eq_true_eq] at hle
      omega
    · rw [List.count_eq_zero_of_not_mem hn]
      omega
  · intro h n _
    have hle := h n
    rw [decide_eq_true_eq]
    omega

theorem filter_ne_nil_iff {names : List Str} {p : Str → Bool} :
    names.filter p ≠ [] ↔ ∃ n ∈ names, p n = true := by
  rw [Ne, List.filter_eq_nil_iff]
  push Not
  rfl

/-- **The two parts of `conform`.** -/
theorem conform_eq (table : ArrowTable) (columns : List Column) (extraColumns : ExtraColumns) :
    conform casts reprStr table columns extraColumns =
      structuralCheck reprStr table.columnNames (columns.map Column.name) extraColumns >>= fun _ =>
        conformRest casts reprStr table columns := by
  have hextra : (table.columnNames.filter fun n => n ∉ columns.map Column.name) ≠ [] ∧ extraColumns = .raise ↔
      (∃ n ∈ table.columnNames, n ∉ columns.map Column.name) ∧ extraColumns = .raise := by
    simp only [filter_ne_nil_iff, decide_eq_true_eq]
  have hmissing : ((columns.map Column.name).filter fun n => n ∉ table.columnNames) ≠ [] ↔
      ∃ n ∈ columns.map Column.name, n ∉ table.columnNames := by
    simp only [filter_ne_nil_iff, decide_eq_true_eq]
  unfold conform structuralCheck
  dsimp only
  by_cases hdup : table.columnNames.Nodup
  · rw [if_neg (not_not.2 (duplicates_eq_nil_iff.2 hdup)), if_neg (not_not.2 hdup)]
    by_cases hx : (∃ n ∈ table.columnNames, n ∉ columns.map Column.name) ∧ extraColumns = .raise
    · rw [if_pos (hextra.2 hx), if_pos hx]
      rfl
    · rw [if_neg (hx ∘ hextra.1), if_neg hx]
      by_cases hm : ∃ n ∈ columns.map Column.name, n ∉ table.columnNames
      · rw [if_pos (hmissing.2 hm), if_pos hm]
        rfl
      · rw [if_neg (hm ∘ hmissing.1), if_neg hm]
        rfl
  · rw [if_pos (hdup ∘ duplicates_eq_nil_iff.1), if_pos hdup]
    rfl

/-- **The names `conform` accepts.** -/
theorem structuralCheck_eq_ok_iff {names declared : List Str} {extraColumns : ExtraColumns} :
    structuralCheck reprStr names declared extraColumns = .ok () ↔
      names.Nodup ∧ (extraColumns = .raise → ∀ n ∈ names, n ∈ declared) ∧ ∀ n ∈ declared, n ∈ names := by
  rw [structuralCheck, conformError, conformError, conformError]
  constructor
  · intro h
    split_ifs at h with hdup hextra hmissing
    refine ⟨hdup, ?_, ?_⟩
    · intro hraise n hn
      by_contra hnot
      exact hextra ⟨⟨n, hn, hnot⟩, hraise⟩
    · intro n hn
      by_contra hnot
      exact hmissing ⟨n, hn, hnot⟩
  · rintro ⟨hdup, hextra, hmissing⟩
    rw [if_neg (not_not.2 hdup), if_neg, if_neg]
    · rintro ⟨n, hn, hnot⟩
      exact hnot (hmissing n hn)
    · rintro ⟨⟨n, hn, hnot⟩, hraise⟩
      exact hnot (hextra hraise n hn)

theorem reports_structuralCheck (names declared : List Str) (extraColumns : ExtraColumns) :
    Reports (structuralCheck reprStr names declared extraColumns) := by
  rw [structuralCheck]
  split_ifs
  · exact reports_conformError _
  · exact reports_conformError _
  · exact reports_ok ()
  · exact reports_conformError _

/-! ## Rows of the declaration -/

/-- What a safe cast does to the values of a column: raise an error of Arrow or
    keep the nulls where they are. -/
structure SafeCast (casts : ArrowCast) : Prop where
  raises : ∀ {n : ℕ} {source target : ArrowType} {cells : Fin n → Option (Typed source)} {e : Exc},
    casts.column source target cells = .error e → ∃ c msg, e = .text c msg ∧ isCastError c = true
  nulls : ∀ {n : ℕ} {source target : ArrowType} {cells : Fin n → Option (Typed source)}
    {cells' : Fin n → Option (Typed target)}, casts.column source target cells = .ok cells' →
    ∀ i, cells' i = none ↔ cells i = none

/-- A cast fails with an error that `conform` reports as its own. -/
theorem cast_eq_error (hcasts : SafeCast casts) {table : ArrowTable} {fields : List Field} {e : Exc}
    (h : table.cast casts fields = .error e) : ∃ c msg, e = .text c msg ∧ isCastError c = true := by
  unfold ArrowTable.cast at h
  split_ifs at h
  · cases h
    exact ⟨_, _, rfl, by decide⟩
  · rcases bind_eq_error.1 h with h | ⟨_, -, h⟩
    · obtain ⟨p, -, hp⟩ := exists_of_mapM_eq_error h
      rcases bind_eq_error.1 hp with hp | ⟨cells, -, hp⟩
      · exact hcasts.raises hp
      · split_ifs at hp
        cases hp
        exact ⟨_, _, rfl, by decide⟩
    · cases h

theorem castDeclared_eq_error {table : ArrowTable} {fields : List Field} {c : ExcClass} {msg : Str}
    (h : table.cast casts fields = .error (.text c msg)) (hc : isCastError c = true) :
    castDeclared casts table fields = conformError (py "strict cast to declared schema failed: " ++ msg) := by
  have hcls : isCastError (Exc.text c msg).cls = true := hc
  rw [castDeclared, h]
  dsimp only
  rw [if_pos hcls]
  rfl

theorem reports_castDeclared (hcasts : SafeCast casts) (table : ArrowTable) (fields : List Field) :
    Reports (castDeclared casts table fields) := by
  cases h : table.cast casts fields with
  | ok out =>
    rw [castDeclared, h]
    exact reports_ok out
  | error e =>
    obtain ⟨c, msg, rfl, hc⟩ := cast_eq_error hcasts h
    rw [castDeclared_eq_error h hc]
    exact reports_conformError _

/-- The source and target types whose cast loses values silently. -/
def ForbiddenCast (source target : ArrowType) : Prop :=
  (target.isDecimal = true ∧ source.isFloating = true) ∨ (target = .bool ∧ source ≠ .bool) ∨
    (target.isDate = true ∧ source.isTimestamp = true)

/-- A declared column, the input column of its name and the type to cast it to. -/
structure Selected (n : ℕ) where
  column : Column
  source : ArrowColumn n
  type : ArrowType

namespace Selected

variable {n : ℕ}

/-- The field of a declared column. -/
def field (nullable : Column → Bool) (r : Selected n) : Field := ⟨r.column.name, r.type, nullable r.column⟩

/-- The column with its values cast. -/
def cast (nullable : Column → Bool) (r : Selected n) (cells : Fin n → Option (Typed r.type)) : ArrowColumn n :=
  ⟨r.column.name, r.type, nullable r.column, cells⟩

/-- The column and its values as declared. -/
structure Found (reprStr : Str → Str) (sources : List (ArrowColumn n)) (r : Selected n) : Prop where
  mem : r.source ∈ sources
  name : r.source.name = r.column.name
  type : declaredType reprStr r.column = .ok r.type

/-- The values do not exceed the declared length. -/
def FitsLength (reprStr : Str → Str) (r : Selected n) (cells : Fin n → Option (Typed r.type)) : Prop :=
  ∀ t, parseSqlType reprStr r.column.type = .ok t → ∀ length, t.length = some length →
    ∀ i s, (cells i).map Subtype.val = some (.text s) → s.length ≤ length

end Selected

/-- A selected column that `conform` accepts, cast. -/
structure Good (casts : ArrowCast) (reprStr : Str → Str) {n : ℕ} (r : Selected n)
    (cells : Fin n → Option (Typed r.type)) : Prop where
  lossless : ¬ ForbiddenCast r.source.type r.type
  cast : casts.column r.source.type r.type r.source.cells = .ok cells
  notNull : r.column.nullable = false → ∀ i, r.source.cells i ≠ none
  length : r.FitsLength reprStr cells

theorem rejectLossyCast_eq_ok_iff {name : Str} {source target : ArrowType} :
    rejectLossyCast name source target = .ok () ↔ ¬ ForbiddenCast source target := by
  unfold rejectLossyCast ForbiddenCast conformError
  dsimp only
  split_ifs with hdec hbool hdate
  · exact ⟨fun h => (by cases h), fun h => absurd (.inl hdec) h⟩
  · exact ⟨fun h => (by cases h), fun h => absurd (.inr (.inl hbool)) h⟩
  · exact ⟨fun h => (by cases h), fun h => absurd (.inr (.inr hdate)) h⟩
  · refine ⟨fun _ => ?_, fun _ => rfl⟩
    rintro (h | h | h)
    · exact hdec h
    · exact hbool h
    · exact hdate h

theorem reports_rejectLossyCast (name : Str) (source target : ArrowType) :
    Reports (rejectLossyCast name source target) := by
  unfold rejectLossyCast
  dsimp only
  split_ifs
  · exact reports_conformError _
  · exact reports_conformError _
  · exact reports_conformError _
  · exact reports_ok ()

/-- Every element of a list, paired with what it has. -/
theorem exists_map_eq {α β : Type} {P : β → Prop} {f : β → α} : ∀ {xs : List α},
    (∀ x ∈ xs, ∃ y, f y = x ∧ P y) → ∃ ys : List β, ys.map f = xs ∧ ∀ y ∈ ys, P y
  | [], _ => ⟨[], rfl, fun _ h => by cases h⟩
  | x :: xs, h => by
    obtain ⟨y, rfl, hy⟩ := h x List.mem_cons_self
    obtain ⟨ys, rfl, hys⟩ := exists_map_eq fun z hz => h z (List.mem_cons_of_mem _ hz)
    exact ⟨y :: ys, rfl, List.forall_mem_cons.2 ⟨hy, hys⟩⟩

/-- **The selection**, row by row. -/
theorem exists_selected {table : ArrowTable} {columns : List Column}
    (hpresent : ∀ n ∈ columns.map Column.name, n ∈ table.columnNames)
    (htypes : ∀ column ∈ columns, ∃ type, declaredType reprStr column = .ok type) :
    ∃ rows : List (Selected table.numRows), rows.map Selected.column = columns ∧
      ∀ r ∈ rows, r.Found reprStr table.columns := by
  refine exists_map_eq fun column hcolumn => ?_
  obtain ⟨source, hsource, hname⟩ := List.mem_map.1 (hpresent _ (List.mem_map_of_mem hcolumn))
  obtain ⟨type, htype⟩ := htypes column hcolumn
  exact ⟨⟨column, source, type⟩, rfl, hsource, hname, htype⟩

theorem declaredFields_rows {n : ℕ} {sources : List (ArrowColumn n)} {rows : List (Selected n)}
    (hrows : ∀ r ∈ rows, r.Found reprStr sources) (nullable : Column → Bool) :
    declaredFields reprStr nullable (rows.map Selected.column) = .ok (rows.map (Selected.field nullable)) := by
  rw [declaredFields, mapM_eq_ok, List.forall₂_map_left_iff, List.forall₂_map_right_iff, List.forall₂_same]
  intro r hr
  rw [(hrows r hr).type]
  rfl

theorem select_rows {table : ArrowTable} (hdistinct : table.columnNames.Nodup)
    {rows : List (Selected table.numRows)} (hrows : ∀ r ∈ rows, r.Found reprStr table.columns) :
    table.select ((rows.map Selected.column).map Column.name) =
      .ok ⟨table.numRows, rows.map Selected.source⟩ := by
  have hall : ((rows.map Selected.column).map Column.name).mapM table.column =
      .ok (rows.map Selected.source) := by
    rw [List.map_map, mapM_eq_ok, List.forall₂_map_left_iff, List.forall₂_map_right_iff, List.forall₂_same]
    intro r hr
    have hfound := ArrowTable.column_eq_ok (hrows r hr).mem hdistinct
    rw [(hrows r hr).name] at hfound
    exact hfound
  rw [ArrowTable.select, hall]
  rfl

/-! ## The stages, row by row -/

section
variable {n : ℕ} {rows : List (Selected n)}

/-- A column of a table of rows, by the name of its row. -/
theorem column_rows {g : Selected n → ArrowColumn n} (hg : ∀ r ∈ rows, (g r).name = r.column.name)
    (hn : (rows.map fun r => r.column.name).Nodup) {r : Selected n} (hr : r ∈ rows) :
    ArrowTable.column ⟨n, rows.map g⟩ r.column.name = .ok (g r) := by
  have hnames : ArrowTable.columnNames ⟨n, rows.map g⟩ = rows.map fun r => r.column.name := by
    rw [ArrowTable.columnNames, List.map_map]
    exact List.map_congr_left hg
  have hmem : g r ∈ ArrowTable.columns ⟨n, rows.map g⟩ := List.mem_map_of_mem hr
  rw [← hg r hr]
  exact ArrowTable.column_eq_ok hmem (hnames ▸ hn)

variable (hn : (rows.map fun r => r.column.name).Nodup)
include hn

theorem rejectLossyField_row (hname : ∀ r ∈ rows, r.source.name = r.column.name) {nullable : Column → Bool}
    {r : Selected n} (hr : r ∈ rows) :
    rejectLossyField ⟨n, rows.map Selected.source⟩ (r.field nullable) =
      rejectLossyCast r.column.name r.source.type r.type := by
  have hlookup : ArrowTable.column ⟨n, rows.map Selected.source⟩ r.column.name = .ok r.source :=
    column_rows hname hn hr
  rw [rejectLossyField]
  change ArrowTable.column ⟨n, rows.map Selected.source⟩ r.column.name >>= _ = _
  rw [hlookup]
  rfl

/-- **The refused casts**: none of the rows has one, or `ConformError`. -/
theorem rejectLossy_rows (hname : ∀ r ∈ rows, r.source.name = r.column.name) (nullable : Column → Bool) :
    (rows.map (Selected.field nullable)).forM (rejectLossyField ⟨n, rows.map Selected.source⟩) = .ok () ∧
        (∀ r ∈ rows, ¬ ForbiddenCast r.source.type r.type) ∨
      (∃ msg, (rows.map (Selected.field nullable)).forM (rejectLossyField ⟨n, rows.map Selected.source⟩) =
        .error (.text .conformError msg)) ∧ ∃ r ∈ rows, ForbiddenCast r.source.type r.type := by
  by_cases hall : ∀ r ∈ rows, ¬ ForbiddenCast r.source.type r.type
  · refine .inl ⟨forM_eq_ok.2 fun f hf => ?_, hall⟩
    obtain ⟨r, hr, rfl⟩ := List.mem_map.1 hf
    rw [rejectLossyField_row hn hname hr]
    exact rejectLossyCast_eq_ok_iff.2 (hall r hr)
  · right
    push Not at hall
    obtain ⟨r, hr, hforbidden⟩ := hall
    refine ⟨(reports_forM fun f hf => ?_).exists_error fun _ hok => ?_, r, hr, hforbidden⟩
    · obtain ⟨q, hq, rfl⟩ := List.mem_map.1 hf
      rw [rejectLossyField_row hn hname hq]
      exact reports_rejectLossyCast _ _ _
    · have hone := forM_eq_ok.1 hok _ (List.mem_map_of_mem hr)
      rw [rejectLossyField_row hn hname hr] at hone
      exact rejectLossyCast_eq_ok_iff.1 hone hforbidden

omit hn in
/-- **The cast of the rows**: all succeed, or `ConformError`. -/
theorem castDeclared_rows (hcasts : SafeCast casts) (hname : ∀ r ∈ rows, r.source.name = r.column.name) :
    (∃ cells : (r : Selected n) → Fin n → Option (Typed r.type),
      (∀ r ∈ rows, casts.column r.source.type r.type r.source.cells = .ok (cells r)) ∧
      castDeclared casts ⟨n, rows.map Selected.source⟩ (rows.map (Selected.field fun _ => true)) =
        .ok ⟨n, rows.map fun r => r.cast (fun _ => true) (cells r)⟩) ∨
    (∃ msg, castDeclared casts ⟨n, rows.map Selected.source⟩ (rows.map (Selected.field fun _ => true)) =
        .error (.text .conformError msg)) ∧
      ∃ r ∈ rows, ∀ cells, casts.column r.source.type r.type r.source.cells ≠ .ok cells := by
  have hnames : ArrowTable.columnNames ⟨n, rows.map Selected.source⟩ =
      (rows.map (Selected.field fun _ => true)).map Field.name := by
    rw [ArrowTable.columnNames, List.map_map, List.map_map]
    exact List.map_congr_left hname
  by_cases hall : ∀ r ∈ rows, ∃ cells, casts.column r.source.type r.type r.source.cells = .ok cells
  · left
    have hchoice : ∀ r : Selected n, ∃ cells : Fin n → Option (Typed r.type), r ∈ rows →
        casts.column r.source.type r.type r.source.cells = .ok cells := by
      intro r
      by_cases hr : r ∈ rows
      · obtain ⟨cells, hcells⟩ := hall r hr
        exact ⟨cells, fun _ => hcells⟩
      · exact ⟨fun _ => none, fun h => absurd h hr⟩
    choose cells hcells using hchoice
    have hcolumns : ((rows.map Selected.source).zip (rows.map (Selected.field fun _ => true))).mapM
        (fun p => castColumn casts p.1 p.2) = .ok (rows.map fun r => r.cast (fun _ => true) (cells r)) := by
      rw [List.zip_map', mapM_eq_ok, List.forall₂_map_left_iff, List.forall₂_map_right_iff, List.forall₂_same]
      intro r hr
      have hone : castColumn casts r.source (r.field fun _ => true) =
          .ok (r.cast (fun _ => true) (cells r)) := by
        rw [castColumn]
        change casts.column r.source.type r.type r.source.cells >>= _ = _
        rw [hcells r hr]
        dsimp only [bind, Except.bind]
        rw [if_neg fun h => Bool.noConfusion h.1]
        rfl
      exact hone
    refine ⟨cells, hcells, ?_⟩
    rw [castDeclared, ArrowTable.cast, if_neg (not_not.2 hnames)]
    dsimp only
    rw [hcolumns]
    rfl
  · right
    push Not at hall
    refine ⟨(reports_castDeclared hcasts _ _).exists_error fun out hout => ?_, hall⟩
    obtain ⟨r, hr, hfails⟩ := hall
    have hcast := castDeclared_eq_ok hout
    rw [ArrowTable.cast, if_neg (not_not.2 hnames)] at hcast
    obtain ⟨cs, hcs, -⟩ := bind_eq_ok.1 hcast
    rw [List.zip_map'] at hcs
    obtain ⟨c', -, hc'⟩ := mem_mapM_of_mem hcs (List.mem_map_of_mem hr)
    obtain ⟨cells, hcells, -⟩ := bind_eq_ok.1 hc'
    exact hfails cells hcells

/-- What the checks on the values ask of a row. -/
theorem checkColumn_row {sources : List (ArrowColumn n)} (hrows : ∀ r ∈ rows, r.Found reprStr sources)
    (cells : (r : Selected n) → Fin n → Option (Typed r.type)) {r : Selected n} (hr : r ∈ rows) :
    (checkColumn reprStr ⟨n, rows.map fun r => r.cast (fun _ => true) (cells r)⟩ r.column = .ok () ↔
      (r.column.nullable = false → ∀ i, cells r i ≠ none) ∧ r.FitsLength reprStr (cells r)) ∧
    Reports (checkColumn reprStr ⟨n, rows.map fun r => r.cast (fun _ => true) (cells r)⟩ r.column) := by
  have hlookup : ArrowTable.column ⟨n, rows.map fun r => r.cast (fun _ => true) (cells r)⟩ r.column.name =
      .ok (r.cast (fun _ => true) (cells r)) :=
    column_rows (fun _ _ => rfl) hn hr
  obtain ⟨t, ht, -⟩ := bind_eq_ok.1 (hrows r hr).type
  constructor
  · rw [checkColumn_eq_ok_iff hlookup]
    refine and_congr_right fun _ => ?_
    constructor
    · rintro ⟨t', ht', hle⟩ t'' ht'' length hlength i s hs
      obtain rfl := Except.ok.inj (ht'.symm.trans ht'')
      obtain ⟨longest, hlong, hsle⟩ :=
        le_maxLength (show (r.cast (fun _ => true) (cells r)).value i = some (.text s) from hs)
      exact hsle.trans (hle length hlength longest hlong)
    · intro hfits
      refine ⟨t, ht, fun length hlength longest hlong => ?_⟩
      obtain ⟨i, s, hs, rfl⟩ := exists_of_maxLength hlong
      exact hfits t ht length hlength i s hs
  · rw [checkColumn, hlookup]
    dsimp only [bind, Except.bind]
    split_ifs
    · exact reports_conformError _
    · rw [ht]
      dsimp only
      split
      · split_ifs
        · exact reports_conformError _
        · exact reports_ok ()
      · exact reports_ok ()

/-- **The checks on the values**: all rows pass, or `ConformError`. -/
theorem checkColumns_rows {sources : List (ArrowColumn n)} (hrows : ∀ r ∈ rows, r.Found reprStr sources)
    (cells : (r : Selected n) → Fin n → Option (Typed r.type)) :
    (rows.map Selected.column).forM (checkColumn reprStr
          ⟨n, rows.map fun r => r.cast (fun _ => true) (cells r)⟩) = .ok () ∧
        (∀ r ∈ rows, (r.column.nullable = false → ∀ i, cells r i ≠ none) ∧ r.FitsLength reprStr (cells r)) ∨
      (∃ msg, (rows.map Selected.column).forM (checkColumn reprStr
          ⟨n, rows.map fun r => r.cast (fun _ => true) (cells r)⟩) = .error (.text .conformError msg)) ∧
        ∃ r ∈ rows, ¬ ((r.column.nullable = false → ∀ i, cells r i ≠ none) ∧
          r.FitsLength reprStr (cells r)) := by
  by_cases hall : ∀ r ∈ rows, (r.column.nullable = false → ∀ i, cells r i ≠ none) ∧
      r.FitsLength reprStr (cells r)
  · refine .inl ⟨forM_eq_ok.2 fun column hcolumn => ?_, hall⟩
    obtain ⟨r, hr, rfl⟩ := List.mem_map.1 hcolumn
    exact (checkColumn_row hn hrows cells hr).1.2 (hall r hr)
  · right
    rw [not_forall₂] at hall
    obtain ⟨r, hr, hbad⟩ := hall
    refine ⟨(reports_forM fun column hcolumn => ?_).exists_error fun _ hok => ?_, r, hr, hbad⟩
    · obtain ⟨q, hq, rfl⟩ := List.mem_map.1 hcolumn
      exact (checkColumn_row hn hrows cells hq).2
    · exact hbad ((checkColumn_row hn hrows cells hr).1.1 (forM_eq_ok.1 hok _ (List.mem_map_of_mem hr)))

omit hn in
/-- The last cast only sets the nullability. -/
theorem cast_nullable_rows (cells : (r : Selected n) → Fin n → Option (Typed r.type))
    (hnull : ∀ r ∈ rows, r.column.nullable = false → ∀ i, cells r i ≠ none) :
    ArrowTable.cast casts ⟨n, rows.map fun r => r.cast (fun _ => true) (cells r)⟩
        (rows.map (Selected.field Column.nullable)) =
      .ok ⟨n, rows.map fun r => r.cast Column.nullable (cells r)⟩ := by
  have hself : ArrowTable.cast casts
      ⟨n, (rows.map fun r => r.cast Column.nullable (cells r)).map fun c => { c with nullable := true }⟩
      ((rows.map fun r => r.cast Column.nullable (cells r)).map fun c => ⟨c.name, c.type, c.nullable⟩) =
        .ok ⟨n, (rows.map fun r => r.cast Column.nullable (cells r)).map fun c =>
          { c with nullable := c.nullable }⟩ := by
    refine cast_eq_self fun c hc => ?_
    obtain ⟨r, hr, rfl⟩ := List.mem_map.1 hc
    exact hnull r hr
  rw [List.map_map, List.map_map, List.map_map] at hself
  exact hself

end

/-- **What `conform` does with a table that has the declared columns.** -/
theorem conformRest_cases (hcasts : SafeCast casts) {table : ArrowTable} {rows : List (Selected table.numRows)}
    (hdistinct : table.columnNames.Nodup) (hn : (rows.map fun r => r.column.name).Nodup)
    (hrows : ∀ r ∈ rows, r.Found reprStr table.columns) :
    (∃ cells : (r : Selected table.numRows) → Fin table.numRows → Option (Typed r.type),
      (∀ r ∈ rows, Good casts reprStr r (cells r)) ∧
      conformRest casts reprStr table (rows.map Selected.column) =
        .ok ⟨table.numRows, rows.map fun r => r.cast Column.nullable (cells r)⟩) ∨
    (∃ msg, conformRest casts reprStr table (rows.map Selected.column) = .error (.text .conformError msg)) ∧
      ∃ r ∈ rows, ∀ cells, ¬ Good casts reprStr r cells := by
  have hname : ∀ r ∈ rows, r.source.name = r.column.name := fun r hr => (hrows r hr).name
  rw [conformRest, select_rows hdistinct hrows, declaredFields_rows hrows, declaredFields_rows hrows]
  dsimp only [bind, Except.bind]
  rcases rejectLossy_rows hn hname fun _ => true with ⟨hlossy, hlossless⟩ | ⟨⟨msg, hlossy⟩, r, hr, hforbidden⟩
  · rw [hlossy]
    dsimp only
    rcases castDeclared_rows hcasts hname with ⟨cells, hcells, hcast⟩ | ⟨⟨msg, hcast⟩, r, hr, hfails⟩
    · rw [hcast]
      dsimp only
      rcases checkColumns_rows hn hrows cells with ⟨hcheck, hvalues⟩ | ⟨⟨msg, hcheck⟩, r, hr, hbad⟩
      · rw [hcheck]
        dsimp only
        refine .inl ⟨cells, fun r hr => ⟨hlossless r hr, hcells r hr, ?_, (hvalues r hr).2⟩,
          cast_nullable_rows cells fun r hr => (hvalues r hr).1⟩
        intro hnullable i hnone
        exact (hvalues r hr).1 hnullable i ((hcasts.nulls (hcells r hr) i).2 hnone)
      · rw [hcheck]
        refine .inr ⟨⟨msg, rfl⟩, r, hr, fun cells' hgood => hbad ?_⟩
        obtain rfl := Except.ok.inj ((hcells r hr).symm.trans hgood.cast)
        exact ⟨fun hnullable i hnone =>
          hgood.notNull hnullable i ((hcasts.nulls hgood.cast i).1 hnone), hgood.length⟩
    · rw [hcast]
      exact .inr ⟨⟨msg, rfl⟩, r, hr, fun cells hgood => hfails cells hgood.cast⟩
  · rw [hlossy]
    exact .inr ⟨⟨msg, rfl⟩, r, hr, fun _ hgood => hgood.lossless hforbidden⟩

/-! ## The whole of `conform` -/

variable (casts reprStr)

/-- **What `conform` asks of a table**: the names, and for each declared column the
    values of the input column of its name. -/
structure Conformable (table : ArrowTable) (columns : List Column) (extraColumns : ExtraColumns) : Prop where
  distinct : table.columnNames.Nodup
  declared : extraColumns = .raise → ∀ n ∈ table.columnNames, n ∈ columns.map Column.name
  present : ∀ n ∈ columns.map Column.name, n ∈ table.columnNames
  good : ∀ r : Selected table.numRows, r.column ∈ columns → r.Found reprStr table.columns →
    ∃ cells, Good casts reprStr r cells

/-- The declared column, with the values of the input column of its name cast. -/
structure CastOf {n : ℕ} (sources : List (ArrowColumn n)) (column : Column) (c : ArrowColumn n) : Prop where
  name : c.name = column.name
  nullable : c.nullable = column.nullable
  type : declaredType reprStr column = .ok c.type
  cells : ∃ source ∈ sources, source.name = column.name ∧
    casts.column source.type c.type source.cells = .ok c.cells

variable {casts reprStr}

/-- A column of a table with distinct names is the only one of its name. -/
theorem eq_of_name {n : ℕ} {sources : List (ArrowColumn n)} (hdistinct : (sources.map ArrowColumn.name).Nodup)
    {c d : ArrowColumn n} (hc : c ∈ sources) (hd : d ∈ sources) (h : c.name = d.name) : c = d := by
  have hfirst := @ArrowTable.column_eq_ok ⟨n, sources⟩ c hc hdistinct
  have hsecond := @ArrowTable.column_eq_ok ⟨n, sources⟩ d hd hdistinct
  rw [h] at hfirst
  exact Except.ok.inj (hfirst.symm.trans hsecond)

theorem Selected.Found.eq_of_column {n : ℕ} {sources : List (ArrowColumn n)}
    (hdistinct : (sources.map ArrowColumn.name).Nodup) {r q : Selected n} (hr : r.Found reprStr sources)
    (hq : q.Found reprStr sources) (h : r.column = q.column) : r = q := by
  obtain ⟨column, source, type⟩ := r
  obtain ⟨column', source', type'⟩ := q
  dsimp only at h
  subst h
  obtain rfl := eq_of_name hdistinct hr.mem hq.mem (hr.name.trans hq.name.symm)
  obtain rfl : type = type' := Except.ok.inj (hr.type.symm.trans hq.type)
  rfl

/-- The declared column determines the output column. -/
theorem CastOf.unique {n : ℕ} {sources : List (ArrowColumn n)}
    (hdistinct : (sources.map ArrowColumn.name).Nodup) {column : Column} {c d : ArrowColumn n}
    (hc : CastOf casts reprStr sources column c) (hd : CastOf casts reprStr sources column d) : c = d := by
  obtain ⟨source, hsource, hname, hcells⟩ := hc.cells
  obtain ⟨source', hsource', hname', hcells'⟩ := hd.cells
  obtain rfl := eq_of_name hdistinct hsource hsource' (hname.trans hname'.symm)
  have hn : c.name = d.name := hc.name.trans hd.name.symm
  have hb : c.nullable = d.nullable := hc.nullable.trans hd.nullable.symm
  have ht : c.type = d.type := Except.ok.inj (hc.type.symm.trans hd.type)
  obtain ⟨cname, ctype, cnullable, ccells⟩ := c
  obtain ⟨dname, dtype, dnullable, dcells⟩ := d
  dsimp only at hn hb ht hcells hcells'
  subst hn hb ht
  obtain rfl := Except.ok.inj (hcells.symm.trans hcells')
  rfl

/-- Conformity to the declaration is a matter of the declared columns. -/
theorem Conformable.of_mem {columns : List Column} {extraColumns : ExtraColumns} {n : ℕ}
    {sources sources' : List (ArrowColumn n)} (h : Conformable casts reprStr ⟨n, sources⟩ columns extraColumns)
    (hmem : ∀ c : ArrowColumn n, c.name ∈ columns.map Column.name → (c ∈ sources ↔ c ∈ sources'))
    (hdistinct : (sources'.map ArrowColumn.name).Nodup)
    (hdeclared : extraColumns = .raise → ∀ c ∈ sources', c ∈ sources) :
    Conformable casts reprStr ⟨n, sources'⟩ columns extraColumns := by
  refine ⟨hdistinct, fun hraise name hname => ?_, fun name hname => ?_, fun r hr hfound => ?_⟩
  · obtain ⟨c, hc, rfl⟩ := List.mem_map.1 hname
    exact h.declared hraise _ (List.mem_map_of_mem (hdeclared hraise c hc))
  · obtain ⟨c, hc, rfl⟩ := List.mem_map.1 (h.present name hname)
    exact List.mem_map_of_mem ((hmem c hname).1 hc)
  · have hname : r.source.name ∈ columns.map Column.name := hfound.name ▸ List.mem_map_of_mem hr
    exact h.good r hr ⟨(hmem r.source hname).2 hfound.mem, hfound.name, hfound.type⟩

section
variable {columns : List Column} (hcasts : SafeCast casts) (hn : (columns.map Column.name).Nodup)
  (htypes : ∀ column ∈ columns, ∃ type, declaredType reprStr column = .ok type)
include hcasts hn htypes

/-- **The outcome of `conform`**: a table of the casts, or `ConformError`. -/
theorem conform_cases (extraColumns : ExtraColumns) (table : ArrowTable) :
    Conformable casts reprStr table columns extraColumns ∧
        (∃ cs, conform casts reprStr table columns extraColumns = .ok ⟨table.numRows, cs⟩ ∧
          List.Forall₂ (CastOf casts reprStr table.columns) columns cs) ∨
      ¬ Conformable casts reprStr table columns extraColumns ∧
        ∃ msg, conform casts reprStr table columns extraColumns = .error (.text .conformError msg) := by
  rw [conform_eq]
  rcases @reports_structuralCheck reprStr table.columnNames (columns.map Column.name) extraColumns with
    ⟨⟨⟩, hstruct⟩ | ⟨msg, hstruct⟩
  · obtain ⟨hdistinct, hdeclared, hpresent⟩ := structuralCheck_eq_ok_iff.1 hstruct
    obtain ⟨rows, rfl, hrows⟩ := exists_selected hpresent htypes
    rw [List.map_map] at hn
    rw [hstruct]
    rcases conformRest_cases hcasts hdistinct hn hrows with ⟨cells, hgood, hout⟩ | ⟨⟨msg, hout⟩, r, hr, hbad⟩
    · refine .inl ⟨⟨hdistinct, hdeclared, hpresent, fun q hq hfound => ?_⟩, _, hout, ?_⟩
      · obtain ⟨r, hr, hcolumn⟩ := List.mem_map.1 hq
        obtain rfl := (hrows r hr).eq_of_column hdistinct hfound hcolumn
        exact ⟨_, hgood r hr⟩
      · rw [List.forall₂_map_left_iff, List.forall₂_map_right_iff, List.forall₂_same]
        intro r hr
        exact ⟨rfl, rfl, (hrows r hr).type, r.source, (hrows r hr).mem, (hrows r hr).name, (hgood r hr).cast⟩
    · refine .inr ⟨fun hconf => ?_, msg, hout⟩
      obtain ⟨cells, hgood⟩ := hconf.good r (List.mem_map_of_mem hr) (hrows r hr)
      exact hbad cells hgood
  · rw [hstruct]
    refine .inr ⟨fun hconf => ?_, msg, rfl⟩
    have hok := (@structuralCheck_eq_ok_iff reprStr _ _ _).2 ⟨hconf.distinct, hconf.declared, hconf.present⟩
    rw [hok] at hstruct
    cases hstruct

/-- `conform` returns exactly on the tables it asks for. -/
theorem exists_conform_iff {extraColumns : ExtraColumns} {table : ArrowTable} :
    (∃ out, conform casts reprStr table columns extraColumns = .ok out) ↔
      Conformable casts reprStr table columns extraColumns := by
  rcases conform_cases hcasts hn htypes extraColumns table with ⟨hconf, cs, hout, -⟩ | ⟨hconf, msg, hout⟩
  · exact ⟨fun _ => hconf, fun _ => ⟨_, hout⟩⟩
  · refine ⟨?_, fun h => absurd h hconf⟩
    rintro ⟨out, hok⟩
    rw [hout] at hok
    cases hok

/-- **Two inputs with the same declared columns** have one output. -/
theorem conform_congr {extraColumns : ExtraColumns} {n : ℕ} {sources sources' : List (ArrowColumn n)}
    (hsame : Conformable casts reprStr ⟨n, sources⟩ columns extraColumns ↔
      Conformable casts reprStr ⟨n, sources'⟩ columns extraColumns)
    (hmem : ∀ c : ArrowColumn n, c.name ∈ columns.map Column.name → (c ∈ sources ↔ c ∈ sources'))
    (out : ArrowTable) : conform casts reprStr ⟨n, sources⟩ columns extraColumns = .ok out ↔
      conform casts reprStr ⟨n, sources'⟩ columns extraColumns = .ok out := by
  rcases conform_cases hcasts hn htypes extraColumns ⟨n, sources⟩ with ⟨hconf, cs, hout, hcs⟩ | ⟨hconf, msg, hout⟩
  · rcases conform_cases hcasts hn htypes extraColumns ⟨n, sources'⟩ with
      ⟨hconf', cs', hout', hcs'⟩ | ⟨hconf', -⟩
    · have hmoved : List.Forall₂ (CastOf casts reprStr sources) columns cs' := by
        refine List.forall₂_iff_get.2 ⟨hcs'.length_eq, fun i hi hi' => ?_⟩
        obtain ⟨hname, hnullable, htype, source, hsource, hsname, hcells⟩ := hcs'.get hi hi'
        refine ⟨hname, hnullable, htype, source, (hmem source ?_).2 hsource, hsname, hcells⟩
        rw [hsname]
        exact List.mem_map_of_mem (List.get_mem columns ⟨i, hi⟩)
      have hunique : Relator.RightUnique (CastOf casts reprStr sources) :=
        fun _ _ _ hc hd => hc.unique hconf.distinct hd
      have heq : cs = cs' := List.right_unique_forall₂' hunique hcs hmoved
      rw [hout, hout', heq]
    · exact absurd (hsame.1 hconf) hconf'
  · rcases conform_cases hcasts hn htypes extraColumns ⟨n, sources'⟩ with ⟨hconf', -⟩ | ⟨-, msg', hout'⟩
    · exact absurd (hsame.2 hconf') hconf
    · rw [hout, hout']
      exact ⟨fun h => (by cases h), fun h => (by cases h)⟩

/-- The order of the input columns does not matter. -/
theorem conform_perm {extraColumns : ExtraColumns} {n : ℕ} {sources sources' : List (ArrowColumn n)}
    (hperm : sources.Perm sources') (out : ArrowTable) :
    conform casts reprStr ⟨n, sources⟩ columns extraColumns = .ok out ↔
      conform casts reprStr ⟨n, sources'⟩ columns extraColumns = .ok out := by
  have hnames := hperm.map ArrowColumn.name
  refine conform_congr hcasts hn htypes ⟨fun h => ?_, fun h => ?_⟩ (fun c _ => hperm.mem_iff) out
  · exact h.of_mem (fun c _ => hperm.mem_iff) (hnames.nodup_iff.1 h.distinct) fun _ c hc => hperm.mem_iff.2 hc
  · exact h.of_mem (fun c _ => hperm.symm.mem_iff) (hnames.nodup_iff.2 h.distinct) fun _ c hc =>
      hperm.mem_iff.1 hc

/-- Under `warn`, undeclared columns do not matter, if they repeat no name. -/
theorem conform_append {n : ℕ} {sources added : List (ArrowColumn n)}
    (hundeclared : ∀ c ∈ added, c.name ∉ columns.map Column.name)
    (hfresh : (sources.map ArrowColumn.name).Nodup → ((sources ++ added).map ArrowColumn.name).Nodup)
    (out : ArrowTable) : conform casts reprStr ⟨n, sources ++ added⟩ columns .warn = .ok out ↔
      conform casts reprStr ⟨n, sources⟩ columns .warn = .ok out := by
  have hmem : ∀ c : ArrowColumn n, c.name ∈ columns.map Column.name → (c ∈ sources ++ added ↔ c ∈ sources) := by
    intro c hc
    rw [List.mem_append, or_iff_left_of_imp]
    exact fun hadded => absurd hc (hundeclared c hadded)
  refine conform_congr hcasts hn htypes ⟨fun h => ?_, fun h => ?_⟩ hmem out
  · have hdistinct := h.distinct
    rw [ArrowTable.columnNames, List.map_append] at hdistinct
    exact h.of_mem hmem hdistinct.of_append_left fun hraise => by cases hraise
  · exact h.of_mem (fun c hc => (hmem c hc).symm) (hfresh h.distinct) fun hraise => by cases hraise

end

/-- **The specification of `conform`.** -/
theorem conform_exact (hcasts : SafeCast casts) {columns : List Column} (_hne : columns ≠ [])
    (hn : (columns.map Column.name).Nodup)
    (htypes : ∀ column ∈ columns, ∃ type, declaredType reprStr column = .ok type)
    (extraColumns : ExtraColumns) (table : ArrowTable) :
    ((∃ out, conform casts reprStr table columns extraColumns = .ok out) ↔
      Conformable casts reprStr table columns extraColumns) ∧
    (¬ Conformable casts reprStr table columns extraColumns →
      ∃ msg, conform casts reprStr table columns extraColumns = .error (.text .conformError msg)) ∧
    (∀ out, conform casts reprStr table columns extraColumns = .ok out → ∃ cs, out = ⟨table.numRows, cs⟩ ∧
      List.Forall₂ (CastOf casts reprStr table.columns) columns cs) ∧
    (∀ permuted, table.columns.Perm permuted → ∀ out,
      conform casts reprStr ⟨table.numRows, permuted⟩ columns extraColumns = .ok out ↔
        conform casts reprStr table columns extraColumns = .ok out) ∧
    (extraColumns = .warn → ∀ added : List (ArrowColumn table.numRows),
      (∀ c ∈ added, c.name ∉ columns.map Column.name) →
      (table.columnNames.Nodup → ((table.columns ++ added).map ArrowColumn.name).Nodup) → ∀ out,
      conform casts reprStr ⟨table.numRows, table.columns ++ added⟩ columns extraColumns = .ok out ↔
        conform casts reprStr table columns extraColumns = .ok out) := by
  refine ⟨exists_conform_iff hcasts hn htypes, fun hnot => ?_, fun out hout => ?_, fun permuted hperm out => ?_, ?_⟩
  · rcases conform_cases hcasts hn htypes extraColumns table with ⟨hconf, -⟩ | ⟨-, herror⟩
    · exact absurd hconf hnot
    · exact herror
  · rcases conform_cases hcasts hn htypes extraColumns table with ⟨-, cs, hok, hcs⟩ | ⟨-, msg, herror⟩
    · rw [hok] at hout
      exact ⟨cs, (Except.ok.inj hout).symm, hcs⟩
    · rw [herror] at hout
      cases hout
  · exact (conform_perm hcasts hn htypes hperm out).symm
  · rintro rfl added hundeclared hfresh out
    exact conform_append hcasts hn htypes hundeclared hfresh out

theorem safeCast_selfCast : SafeCast selfCast where
  raises {n source target cells e} h := by
    unfold selfCast at h
    dsimp only at h
    split_ifs at h
    cases h
    exact ⟨_, _, rfl, by decide⟩
  nulls {n source target cells cells'} h i := by
    unfold selfCast at h
    dsimp only at h
    split_ifs at h with heq
    subst heq
    cases h
    exact Iff.rfl

/-- A `BIGINT` column of one row. -/
def bigintColumn (name : Str) : ArrowColumn 1 := ⟨name, .int true 64, true, fun _ => some ⟨.int 7, by decide⟩⟩

/-- An undeclared column in front changes nothing. -/
theorem conform_exact_bigint :
    Conformable selfCast id ⟨1, [bigintColumn (py "a")]⟩ [⟨py "a", py "BIGINT", false⟩] .warn ∧
      ∀ out, conform selfCast id ⟨1, [bigintColumn (py "a"), bigintColumn (py "b")]⟩
          [⟨py "a", py "BIGINT", false⟩] .warn = .ok out ↔
        conform selfCast id ⟨1, [bigintColumn (py "a")]⟩ [⟨py "a", py "BIGINT", false⟩] .warn = .ok out := by
  obtain ⟨hreturns, -, -, -, hadded⟩ := @conform_exact selfCast id safeCast_selfCast
    [⟨py "a", py "BIGINT", false⟩] (List.cons_ne_nil _ _) (by decide) (List.forall_mem_singleton.2 ⟨_, rfl⟩)
    .warn ⟨1, [bigintColumn (py "a")]⟩
  exact ⟨hreturns.1 ⟨_, rfl⟩, hadded rfl [bigintColumn (py "b")] (by decide) (by decide)⟩

/-- **A column added twice**: undeclared and to be dropped, and yet refused. -/
theorem conform_added_twice :
    (∃ out, conform selfCast id ⟨1, [bigintColumn (py "a")]⟩ [⟨py "a", py "BIGINT", false⟩] .warn = .ok out) ∧
      conform selfCast id ⟨1, [bigintColumn (py "a"), bigintColumn (py "b"), bigintColumn (py "b")]⟩
          [⟨py "a", py "BIGINT", false⟩] .warn =
        .error (.text .conformError (py "dataframe has duplicate column(s): [b]")) :=
  ⟨⟨_, rfl⟩, rfl⟩

end

end ContinuoRuntime
