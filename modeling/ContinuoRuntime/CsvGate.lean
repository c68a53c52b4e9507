/-
  The csv header at release time and at run time: `check_header` of
  `csv_source.py`, which the validation runner calls, and the structural check of
  `conform`.

  * `checkHeader_eq_ok_iff`: the gate asks for presence only;
  * `checkHeader_predicts`: what a run then does with the same header.
-/
import ContinuoRuntime.ConformSpec

namespace ContinuoRuntime

section
variable (reprStr : Str → Str)

/-- `check_header`: the header columns that are not declared, as a set. -/
def checkHeader (headerCols declaredCols : List Str) : Except Exc (List Str) :=
  let missing := declaredCols.filter fun c => c ∉ headerCols
  if missing ≠ [] then
    .error (.text .valueError (py "csv header missing declared column(s): " ++
      reprList reprStr (missing.insertionSort (· ≤ ·))))
  else .ok (headerCols.dedup.filter fun c => c ∉ declaredCols)

variable {reprStr}

/-- **The gate** accepts exactly the headers with every declared column. -/
theorem checkHeader_eq_ok_iff {headerCols declaredCols extras : List Str} :
    checkHeader reprStr headerCols declaredCols = .ok extras ↔
      (∀ c ∈ declaredCols, c ∈ headerCols) ∧ extras = headerCols.dedup.filter fun c => c ∉ declaredCols := by
  have hmissing : (declaredCols.filter fun c => c ∉ headerCols) ≠ [] ↔ ¬ ∀ c ∈ declaredCols, c ∈ headerCols := by
    simp only [filter_ne_nil_iff, decide_eq_true_eq]
    push Not
    rfl
  unfold checkHeader
  dsimp only
  by_cases hall : ∀ c ∈ declaredCols, c ∈ headerCols
  · rw [if_neg fun h => hmissing.1 h hall]
    exact ⟨fun h => ⟨hall, (Except.ok.inj h).symm⟩, fun h => h.2 ▸ rfl⟩
  · rw [if_pos (hmissing.2 hall)]
    exact ⟨fun h => (by cases h), fun h => absurd h.1 hall⟩

end

/-! ## Structural errors -/

/-- An error of `conform` on the names of the table, as only these messages speak of
    the dataframe: duplicate, undeclared or missing columns. -/
def Structural (e : Exc) : Prop := ∃ detail, e = .text .conformError (py "dataframe " ++ detail)

/-- Any other error. -/
def Unstructural (e : Exc) : Prop := ¬ Structural e

theorem unstructural_of_cls {e : Exc} (h : e.cls ≠ .conformError) : Unstructural e := by
  rintro ⟨detail, rfl⟩
  exact h rfl

theorem isException_of_isCastError {c : ExcClass} (h : isCastError c = true) : c.isException = true := by
  cases c <;> first | rfl | cases h

theorem unstructural_of_head {c : CodePoint} {msg : Str} (h : c ≠ ch 'd') :
    Unstructural (.text .conformError (c :: msg)) := by
  rintro ⟨detail, heq⟩
  exact h (List.head_eq_of_cons_eq (Exc.text.inj heq).2)

/-! ### The errors on values -/

section
variable {casts : ArrowCast} {reprStr : Str → Str} {expected : Exc → Prop}
  (htext : ∀ cls msg, cls.isException = true → Unstructural (.text cls msg) → expected (.text cls msg))
include htext

theorem not_escapes_conformError {α : Type} {c : CodePoint} {msg : Str} (h : c ≠ ch 'd') :
    ¬ Escapes expected (conformError (c :: msg) : Except Exc α) := by
  rw [conformError, escapes_error, not_not]
  exact htext _ _ rfl (unstructural_of_head h)

theorem not_escapes_error {α : Type} {cls : ExcClass} {msg : Str} (hexception : cls.isException = true)
    (h : cls ≠ .conformError) : ¬ Escapes expected (.error (.text cls msg) : Except Exc α) := by
  rw [escapes_error, not_not]
  exact htext _ _ hexception (unstructural_of_cls h)

theorem not_escapes_column (table : ArrowTable) (name : Str) : ¬ Escapes expected (table.column name) := by
  rw [ArrowTable.column]
  split
  · exact not_escapes_error htext rfl (by decide)
  · exact not_escapes_ok
  · exact not_escapes_error htext rfl (by decide)

theorem not_escapes_pyInt (s : Str) : ¬ Escapes expected (pyInt s) := by
  unfold pyInt
  split_ifs
  · exact not_escapes_ok
  · exact not_escapes_error htext rfl (by decide)

theorem not_escapes_parseSqlType (raw : Str) : ¬ Escapes expected (parseSqlType reprStr raw) := by
  unfold parseSqlType contractError
  dsimp only
  split
  · exact not_escapes_error htext rfl (by decide)
  · split_ifs <;> exact not_escapes_ok
  · split_ifs
    · exact not_escapes_ok
    · refine not_escapes_bind (not_escapes_pyInt htext _) fun p _ =>
        not_escapes_bind (not_escapes_pyInt htext _) fun s _ => ?_
      split_ifs
      · exact not_escapes_ok
      · exact not_escapes_error htext rfl (by decide)
      · exact not_escapes_error htext rfl (by decide)
  · exact not_escapes_bind (not_escapes_pyInt htext _) fun _ _ => not_escapes_ok

theorem not_escapes_declaredType (column : Column) : ¬ Escapes expected (declaredType reprStr column) := by
  refine not_escapes_bind (not_escapes_parseSqlType htext _) fun t _ => ?_
  unfold arrowType paDecimal128
  split_ifs
  all_goals first | exact not_escapes_ok | exact not_escapes_error htext rfl (by decide) | skip
  split
  · split_ifs
    · exact not_escapes_ok
    · exact not_escapes_error htext rfl (by decide)
  · exact not_escapes_error htext rfl (by decide)

theorem not_escapes_declaredFields (nullable : Column → Bool) (columns : List Column) :
    ¬ Escapes expected (declaredFields reprStr nullable columns) :=
  not_escapes_mapM fun _ _ => not_escapes_bind (not_escapes_declaredType htext _) fun _ _ => not_escapes_ok

theorem not_escapes_cast (hcasts : SafeCast casts) (table : ArrowTable) (fields : List Field) :
    ¬ Escapes expected (table.cast casts fields) := by
  rintro ⟨e, he, hnot⟩
  obtain ⟨c, msg, rfl, hc⟩ := cast_eq_error hcasts he
  refine hnot (htext _ _ (isException_of_isCastError hc) (unstructural_of_cls fun heq => ?_))
  obtain rfl : c = .conformError := heq
  exact absurd hc (by decide)

theorem not_escapes_castDeclared (hcasts : SafeCast casts) (table : ArrowTable) (fields : List Field) :
    ¬ Escapes expected (castDeclared casts table fields) := by
  cases h : table.cast casts fields with
  | ok out =>
    rw [castDeclared, h]
    exact not_escapes_ok
  | error e =>
    obtain ⟨c, msg, rfl, hc⟩ := cast_eq_error hcasts h
    rw [castDeclared_eq_error h hc]
    exact not_escapes_conformError htext (by decide)

theorem not_escapes_rejectLossyCast (name : Str) (source target : ArrowType) :
    ¬ Escapes expected (rejectLossyCast name source target) := by
  unfold rejectLossyCast
  dsimp only
  split_ifs
  · exact not_escapes_conformError htext (by decide)
  · exact not_escapes_conformError htext (by decide)
  · exact not_escapes_conformError htext (by decide)
  · exact not_escapes_ok

theorem not_escapes_checkColumn (table : ArrowTable) (column : Column) :
    ¬ Escapes expected (checkColumn reprStr table column) := by
  refine not_escapes_bind (not_escapes_column htext _ _) fun c _ => ?_
  split_ifs
  · exact not_escapes_conformError htext (by decide)
  · refine not_escapes_bind (not_escapes_parseSqlType htext _) fun t _ => ?_
    split
    · split_ifs
      · exact not_escapes_conformError htext (by decide)
      · exact not_escapes_ok
    · exact not_escapes_ok

/-- **After the checks on the names**, no error is about them. -/
theorem not_escapes_conformRest (hcasts : SafeCast casts) (table : ArrowTable) (columns : List Column) :
    ¬ Escapes expected (conformRest casts reprStr table columns) := by
  refine not_escapes_bind ?_ fun selected _ => not_escapes_bind (not_escapes_declaredFields htext _ _) fun target _ =>
    not_escapes_bind ?_ fun _ _ => not_escapes_bind (not_escapes_castDeclared htext hcasts _ _) fun converted _ =>
      not_escapes_bind (not_escapes_forM fun _ _ => not_escapes_checkColumn htext _ _) fun _ _ =>
        not_escapes_bind (not_escapes_declaredFields htext _ _) fun _ _ => not_escapes_cast htext hcasts _ _
  · exact not_escapes_bind (not_escapes_mapM fun _ _ => not_escapes_column htext _ _) fun _ _ => not_escapes_ok
  · exact not_escapes_forM fun _ _ => not_escapes_bind (not_escapes_column htext _ _) fun _ _ =>
      not_escapes_rejectLossyCast htext _ _ _

end

/-! ## Gate and run -/

section
variable {casts : ArrowCast} {reprStr : Str → Str}

/-- The structural check of `conform` speaks of the dataframe only. -/
theorem structural_of_structuralCheck {names declared : List Str} {extraColumns : ExtraColumns} {e : Exc}
    (h : structuralCheck reprStr names declared extraColumns = .error e) : Structural e := by
  unfold structuralCheck at h
  split_ifs at h
  all_goals
    cases h
    exact ⟨_, rfl⟩

/-- **`conform` fails on the names** exactly if its structural check does. -/
theorem conform_structural_iff (hcasts : SafeCast casts) {table : ArrowTable} {columns : List Column}
    {extraColumns : ExtraColumns} {e : Exc} :
    conform casts reprStr table columns extraColumns = .error e ∧ Structural e ↔
      structuralCheck reprStr table.columnNames (columns.map Column.name) extraColumns = .error e := by
  rw [conform_eq, bind_eq_error]
  constructor
  · rintro ⟨h | ⟨-, -, h⟩, hstruct⟩
    · exact h
    · exact absurd ⟨e, h, not_not.2 hstruct⟩ (not_escapes_conformRest (fun _ _ _ h => h) hcasts table columns)
  · exact fun h => ⟨.inl h, structural_of_structuralCheck h⟩

/-- **What the gate tells of the run**, on a table with the header as its columns:
    a refused header is refused again, and an accepted one only if it repeats a
    name or has an undeclared one under `raise`. -/
theorem checkHeader_predicts (hcasts : SafeCast casts) (table : ArrowTable) (columns : List Column)
    (extraColumns : ExtraColumns) :
    (∀ e, checkHeader reprStr table.columnNames (columns.map Column.name) = .error e →
      ∃ e', conform casts reprStr table columns extraColumns = .error e' ∧ Structural e') ∧
    ∀ extras, checkHeader reprStr table.columnNames (columns.map Column.name) = .ok extras →
      (¬ table.columnNames.Nodup → conform casts reprStr table columns extraColumns =
        .error (.text .conformError (duplicateMessage reprStr table.columnNames))) ∧
      (table.columnNames.Nodup → extraColumns = .raise → extras ≠ [] →
        conform casts reprStr table columns extraColumns = .error (.text .conformError
          (undeclaredMessage reprStr table.columnNames (columns.map Column.name)))) ∧
      (table.columnNames.Nodup → (extraColumns = .raise → extras = []) →
        ¬ ∃ e, conform casts reprStr table columns extraColumns = .error e ∧ Structural e) := by
  refine ⟨fun e he => ?_, fun extras hextras => ?_⟩
  · cases hstruct : structuralCheck reprStr table.columnNames (columns.map Column.name) extraColumns with
    | error e' => exact ⟨e', (conform_structural_iff hcasts).2 hstruct⟩
    | ok =>
      obtain ⟨-, -, hpresent⟩ := structuralCheck_eq_ok_iff.1 hstruct
      have hok := (@checkHeader_eq_ok_iff reprStr _ _ _).2 ⟨hpresent, rfl⟩
      rw [hok] at he
      cases he
  · obtain ⟨hpresent, rfl⟩ := checkHeader_eq_ok_iff.1 hextras
    have hextra : (table.columnNames.dedup.filter fun c => c ∉ columns.map Column.name) ≠ [] ↔
        ∃ n ∈ table.columnNames, n ∉ columns.map Column.name := by
      simp only [filter_ne_nil_iff, List.mem_dedup, decide_eq_true_eq]
    refine ⟨fun hdup => ?_, fun hdistinct hraise hne => ?_, fun hdistinct hnone => ?_⟩
    · refine ((conform_structural_iff hcasts).2 ?_).1
      rw [structuralCheck, if_pos hdup]
      rfl
    · refine ((conform_structural_iff hcasts).2 ?_).1
      rw [structuralCheck, if_neg (not_not.2 hdistinct), if_pos ⟨hextra.1 hne, hraise⟩]
      rfl
    · rintro ⟨e, he⟩
      have hok := (@structuralCheck_eq_ok_iff reprStr table.columnNames (columns.map Column.name)
        extraColumns).2 ⟨hdistinct, fun hraise n hn => ?_, hpresent⟩
      · rw [(conform_structural_iff hcasts).1 he] at hok
        cases hok
      · by_contra hnot
        exact hextra.2 ⟨n, hn, hnot⟩ (hnone hraise)

end

/-- A header in another order, with one undeclared column. -/
theorem checkHeader_predicts_extra :
    checkHeader id [py "b", py "a"] [py "a"] = .ok [py "b"] ∧
      conform selfCast id ⟨1, [bigintColumn (py "b"), bigintColumn (py "a")]⟩ [⟨py "a", py "BIGINT", true⟩] .raise =
        .error (.text .conformError (py "dataframe has undeclared column(s): [b]; declared: [a]")) := by
  have hgate : checkHeader id [py "b", py "a"] [py "a"] = .ok [py "b"] := rfl
  exact ⟨hgate, ((@checkHeader_predicts selfCast id safeCast_selfCast
    ⟨1, [bigintColumn (py "b"), bigintColumn (py "a")]⟩ [⟨py "a", py "BIGINT", true⟩] .raise).2 _ hgate).2.1
      (by decide) rfl (List.cons_ne_nil _ _)⟩

/-- **A header with a repeated name** passes the gate, and no run accepts it. -/
theorem repeatedHeader_accepted :
    checkHeader id [py "a", py "a"] [py "a"] = .ok [] ∧
      conform selfCast id ⟨1, [bigintColumn (py "a"), bigintColumn (py "a")]⟩ [⟨py "a", py "BIGINT", true⟩] .warn =
        .error (.text .conformError (py "dataframe has duplicate column(s): [a]")) :=
  ⟨rfl, rfl⟩

end ContinuoRuntime
