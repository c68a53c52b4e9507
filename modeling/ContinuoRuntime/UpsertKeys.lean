/-
  The upsert key check (`ensure_unique_key` in `keys.py`) and the keys of the
  warehouse.

  * `ensureUniqueKey_eq_ok_iff`: the check passes exactly if no two rows have one
    key, value by value;
  * `SameKey`: two rows whose keys the warehouse takes for equal;
  * `upsertKeys_distinct_iff`: the check is as fine as the warehouse exactly for
    the nodes without a `CHAR` key column that holds a character.
-/
import ContinuoRuntime.Conform

namespace ContinuoRuntime

/-! ## The check -/

/-- The key of a row. -/
def rowKey {n : ℕ} (key : List (ArrowColumn n)) (i : Fin n) : List (Option ArrowValue) :=
  key.map fun c => c.value i

/-- `group_by(..).aggregate([([], "count_all")])`, in the order of first rows. -/
def groupCounts {K : Type} [DecidableEq K] (keys : List K) : List (K × ℕ) :=
  keys.reverse.dedup.reverse.map fun k => (k, keys.count k)

/-- `_SHOWN_KEYS`. -/
def shownKeys : ℕ := 5

/-- The names of the floating-point types. -/
def floatingTypes : List Str := ["halffloat", "float", "double"].map py

section
variable (reprStr : Str → Str) (strCell : Option ArrowValue → Str)

/-- The message of a `DuplicateKeyError`. -/
def duplicateKeyText (primaryKey : List Str) (counts : List (List (Option ArrowValue) × ℕ)) : Str :=
  let repeated := counts.filter fun row => 1 < row.2
  let shown := (py "; ").intercalate ((repeated.take shownKeys).map fun row =>
    py "(" ++ (py ", ").intercalate (row.1.map strCell) ++ py ") appears " ++ decimal row.2 ++ py " times")
  let more := if shownKeys < repeated.length then
      py "; and " ++ decimal (repeated.length - shownKeys) ++ py " more repeated key(s)"
    else []
  py "primary key (" ++ (py ", ").intercalate primaryKey ++ py ") is not unique in the rows to write: " ++
    shown ++ more ++ py "; nothing was written"

/-- The check, on the key columns. -/
def ensureUniqueColumns {n : ℕ} (primaryKey : List Str) (key : List (ArrowColumn n)) : Except Exc Unit :=
  let floating := (key.filter fun c => c.type.text ∈ floatingTypes).map ArrowColumn.name
  if floating ≠ [] then
    .error (.text .valueError (py "primary key column(s) " ++ reprList reprStr floating ++
      py " are floating-point; floating-point columns cannot be a primary key because the warehouse " ++
      py "treats values like 0.0 and -0.0 as equal while this check would see them as distinct"))
  else if n < 2 then .ok ()
  else
    let counts := groupCounts ((List.finRange n).map (rowKey key))
    if counts.length = n then .ok ()
    else .error (.text (.other (py "DuplicateKeyError")) (duplicateKeyText strCell primaryKey counts))

/-- `ensure_unique_key`. -/
def ensureUniqueKey (data : ArrowTable) (primaryKey : List Str) : Except Exc Unit :=
  if primaryKey = [] then
    .error (.text .valueError (py "primary_key must name at least one column"))
  else
    let missing := primaryKey.filter fun name => name ∉ data.columnNames
    if missing ≠ [] then
      .error (.text .valueError (py "primary key column(s) " ++ reprList reprStr missing ++
        py " are not in the data's columns " ++ reprList reprStr data.columnNames))
    else do
      let key ← primaryKey.mapM data.column
      ensureUniqueColumns reprStr strCell primaryKey key

/-- There are as many groups as rows exactly if no key is repeated. -/
theorem length_groupCounts_iff {K : Type} [DecidableEq K] {keys : List K} :
    (groupCounts keys).length = keys.length ↔ keys.Nodup := by
  rw [groupCounts, List.length_map, List.length_reverse, ← List.nodup_reverse, ← keys.length_reverse]
  constructor
  · intro h
    rw [← (List.dedup_sublist keys.reverse).eq_of_length h]
    exact List.nodup_dedup _
  · intro h
    rw [List.dedup_eq_self.2 h]

variable {reprStr strCell}

theorem ensureUniqueColumns_eq_ok_iff {n : ℕ} {primaryKey : List Str} {key : List (ArrowColumn n)} :
    ensureUniqueColumns reprStr strCell primaryKey key = .ok () ↔
      (∀ c ∈ key, c.type.text ∉ floatingTypes) ∧ Function.Injective (rowKey key) := by
  have hfloat : (key.filter fun c => c.type.text ∈ floatingTypes).map ArrowColumn.name = [] ↔
      ∀ c ∈ key, c.type.text ∉ floatingTypes := by
    rw [List.map_eq_nil_iff, List.filter_eq_nil_iff]
    exact forall₂_congr fun c _ => by rw [decide_eq_true_eq]
  have hrows : (groupCounts ((List.finRange n).map (rowKey key))).length = n ↔
      Function.Injective (rowKey key) := by
    have hlength := @length_groupCounts_iff _ _ ((List.finRange n).map (rowKey key))
    rw [List.length_map, List.length_finRange] at hlength
    rw [hlength, List.nodup_map_iff_inj_on (List.nodup_finRange _)]
    exact ⟨fun h i j hij => h i (List.mem_finRange i) j (List.mem_finRange j) hij,
      fun h i _ j _ hij => h hij⟩
  rw [← hfloat, ← hrows]
  unfold ensureUniqueColumns
  dsimp only
  split_ifs with hf hfew hcounts
  · exact ⟨fun h => (by cases h), fun h => absurd h.1 hf⟩
  · refine ⟨fun _ => ⟨not_not.1 hf, ?_⟩, fun _ => rfl⟩
    rw [hrows]
    intro i j _
    exact Fin.ext (by omega)
  · exact ⟨fun _ => ⟨not_not.1 hf, hcounts⟩, fun _ => rfl⟩
  · exact ⟨fun h => (by cases h), fun h => absurd h.2 hcounts⟩

/-- **The check passes** exactly if every key column is there, none is
    floating-point, and no two rows have one key. -/
theorem ensureUniqueKey_eq_ok_iff {data : ArrowTable} {primaryKey : List Str} :
    ensureUniqueKey reprStr strCell data primaryKey = .ok () ↔ primaryKey ≠ [] ∧
      ∃ key, primaryKey.mapM data.column = .ok key ∧ (∀ c ∈ key, c.type.text ∉ floatingTypes) ∧
        Function.Injective (rowKey key) := by
  unfold ensureUniqueKey
  dsimp only
  split_ifs with hnil hmissing
  · exact ⟨fun h => (by cases h), fun h => absurd hnil h.1⟩
  · refine ⟨fun h => (by cases h), ?_⟩
    rintro ⟨-, key, hkey, -⟩
    refine absurd (List.filter_eq_nil_iff.2 fun name hname => ?_) hmissing
    obtain ⟨c, -, hc⟩ := mem_mapM_of_mem hkey hname
    obtain ⟨hmem, rfl⟩ := ArrowTable.mem_of_column hc
    rw [decide_eq_true_eq, not_not]
    exact List.mem_map.2 ⟨c, hmem, rfl⟩
  · rw [bind_eq_ok]
    simp only [ensureUniqueColumns_eq_ok_iff]
    exact ⟨fun h => ⟨hnil, h⟩, fun h => h.2⟩

end

/-! ## Keys of the warehouse -/

/-- A text without its trailing spaces. -/
def rstripSpaces (s : Str) : Str := s.rdropWhile (· == ch ' ')

/-- `0.0` and `-0.0`. -/
def FloatRepr.isZero (f : FloatRepr) : Bool := f.text == py "0.0" || f.text == py "-0.0"

/-- Two values that the warehouse takes for equal, in a column of this base type. -/
def SameValue (base : Str) : ArrowValue → ArrowValue → Prop
  | .text s, .text t => if base = py "CHAR" then rstripSpaces s = rstripSpaces t else s = t
  | .float f, .float g => f = g ∨ f.isZero = true ∧ g.isZero = true
  | v, w => v = w

/-- Two rows whose keys the warehouse takes for equal; a null is equal to nothing. -/
def SameKey (reprStr : Str → Str) (columns : List Column) (primaryKey : List Str) (table : ArrowTable)
    (i j : Fin table.numRows) : Prop :=
  ∀ column ∈ columns, column.name ∈ primaryKey → ∀ c ∈ table.columns, c.name = column.name →
    ∀ t, parseSqlType reprStr column.type = .ok t →
      ∃ v w, c.value i = some v ∧ c.value j = some w ∧ SameValue t.base v w

/-! ## Accepted nodes -/

section
variable (L : Lang) (P : SqlParser) (h : Heap)

/-- What the loader checks of a key name. -/
def KeyColumn (columns : List Column) (name : Str) : Prop :=
  ∃ column ∈ columns, column.name = name ∧ column.nullable = false ∧
    ∃ t, parseSqlType L.reprStr column.type = .ok t ∧ t.base ≠ py "DOUBLE_PRECISION"

theorem primaryKeyEntries_spec {columns : List Column} {label : Str} :
    ∀ {entries : List (Val h.size)} {seen names : List Str},
      primaryKeyEntries L h columns label seen entries = .ok names →
        names.length = entries.length ∧ ∀ name ∈ names, KeyColumn L columns name
  | [], seen, names, hk => by
    cases hk
    exact ⟨rfl, fun name hname => by cases hname⟩
  | entry :: entries, seen, names, hk => by
    unfold primaryKeyEntries contractError at hk
    dsimp only at hk
    split at hk
    · exact absurd hk contractErrorFor_ne_ok
    split at hk
    · exact absurd hk contractErrorFor_ne_ok
    split at hk
    · cases hk
    split at hk
    · cases hk
    next column hfind =>
      split at hk
      · cases hk
      next hnull =>
        obtain ⟨t, ht, hk⟩ := bind_eq_ok.1 hk
        split at hk
        · cases hk
        next hbase =>
          obtain ⟨rest, hrest, hk⟩ := bind_eq_ok.1 hk
          cases hk
          obtain ⟨hlen, hall⟩ := primaryKeyEntries_spec hrest
          refine ⟨by rw [List.length_cons, List.length_cons, hlen], List.forall_mem_cons.2 ⟨?_, hall⟩⟩
          exact ⟨column, List.mem_of_find?_eq_some hfind, by simpa using List.find?_some hfind,
            by simpa using hnull, t, ht, hbase⟩

/-- **The key of an upsert node**: at least one column, each declared not null and not
    floating-point. -/
theorem parseNode_primaryKey {checkReads : Bool} {value : Val h.size} {source : Str} {node : Node}
    (hn : parseNode L P h checkReads value source = .ok node) (hm : node.modeType = .upsert) :
    node.primaryKey ≠ [] ∧ ∀ name ∈ node.primaryKey, KeyColumn L node.outputColumns name := by
  obtain ⟨raw, hraw⟩ := parseNode_eq_ok L P h hn
  obtain ⟨hkeyNil, hkey⟩ := hraw.primaryKey
  unfold validatePrimaryKey contractError at hkey
  rw [dif_pos hm] at hkey
  dsimp only at hkey
  split at hkey
  · cases hkey
  split at hkey
  · cases hkey
  split_ifs at hkey with hempty
  obtain ⟨key, hentries, hkey⟩ := bind_eq_ok.1 hkey
  obtain ⟨hlen, hall⟩ := primaryKeyEntries_spec L h hentries
  have heq : key = node.primaryKey := congrArg Subtype.val (Except.ok.inj hkey)
  rw [← heq]
  refine ⟨fun hnil => hempty ?_, hall⟩
  rw [hnil] at hlen
  exact List.length_eq_zero_iff.1 hlen.symm

end

/-! ## A table with two keys that differ in a space -/

/-- A value of every declared type. -/
def ArrowType.zero : ArrowType → ArrowValue
  | .int _ _ => .int 0
  | .float _ => .float ⟨py "0.0", by decide⟩
  | .decimal128 _ _ => .decimal 0
  | .string => .text []
  | .timestamp _ => .timestamp 0
  | .date32 => .date 0
  | _ => .bool false

theorem hasType_zero {reprStr : Str → Str} {t : SqlType} {a : ArrowType} (h : arrowType reprStr t = .ok a) :
    a.zero.hasType a = true := by
  unfold arrowType at h
  split_ifs at h
  · cases h; rfl
  · cases h; rfl
  · cases h; rfl
  · split at h
    · unfold paDecimal128 at h
      split_ifs at h
      cases h
      simp [ArrowType.zero, ArrowValue.hasType]
    · cases h
  · cases h; rfl
  · cases h; rfl
  · cases h; rfl
  · cases h; rfl
  · cases h; rfl
  · cases h; rfl

theorem base_of_float {reprStr : Str → Str} {t : SqlType} {a : ArrowType} {f : FloatRepr}
    (h : arrowType reprStr t = .ok a) (hf : (ArrowValue.float f).hasType a = true) :
    t.base = py "DOUBLE_PRECISION" := by
  by_contra hbase
  unfold arrowType at h
  rw [if_neg hbase] at h
  split_ifs at h
  · cases h; cases hf
  · cases h; cases hf
  · split at h
    · unfold paDecimal128 at h
      split_ifs at h
      cases h; cases hf
    · cases h
  · cases h; cases hf
  · cases h; cases hf
  · cases h; cases hf
  · cases h; cases hf
  · cases h; cases hf
  · cases h; cases hf

/-- The Arrow type of a declared column, if it has one. -/
def arrowOf (reprStr : Str → Str) (column : Column) : ArrowType :=
  match declaredType reprStr column with
  | .ok a => a
  | .error _ => .null

theorem declaredType_arrowOf {reprStr : Str → Str} {column : Column}
    (h : ∃ a, declaredType reprStr column = .ok a) :
    declaredType reprStr column = .ok (arrowOf reprStr column) := by
  obtain ⟨a, ha⟩ := h
  rw [arrowOf, ha]

/-- A cell, if the value has the type. -/
def cellOf (type : ArrowType) (v : ArrowValue) : Option (Typed type) :=
  if h : v.hasType type = true then some ⟨v, h⟩ else none

/-- Two rows of zeros, but for a space in the second row of column `k`. -/
def spaceColumn (k : Str) (column : Column) (type : ArrowType) : ArrowColumn 2 where
  name := column.name
  type := type
  nullable := column.nullable
  cells i := cellOf type (if column.name = k ∧ i = 1 then .text (py " ") else type.zero)

/-- A table of such columns. -/
def spaceTable (reprStr : Str → Str) (k : Str) (columns : List Column) : ArrowTable :=
  ⟨2, columns.map fun column => spaceColumn k column (arrowOf reprStr column)⟩

theorem spaceColumn_value {k : Str} {column : Column} {type : ArrowType} {i : Fin 2}
    (hzero : type.zero.hasType type = true) (hk : column.name = k → type = .string) :
    (spaceColumn k column type).value i =
      some (if column.name = k ∧ i = 1 then .text (py " ") else type.zero) := by
  have htyped : ArrowValue.hasType (if column.name = k ∧ i = 1 then .text (py " ") else type.zero) type = true := by
    split_ifs with hi
    · rw [hk hi.1]
      rfl
    · exact hzero
  rw [ArrowColumn.value, spaceColumn]
  dsimp only
  rw [cellOf, dif_pos htyped]
  rfl

section
variable {reprStr : Str → Str} {columns : List Column} {k : Str}

/-- **That table has the declared shape**, if every type has an Arrow type and column
    `k` holds texts of a character. -/
theorem declared_spaceTable (htypes : ∀ column ∈ columns, ∃ a, declaredType reprStr column = .ok a)
    (hk : ∀ column ∈ columns, column.name = k → arrowOf reprStr column = .string ∧
      ∀ t, parseSqlType reprStr column.type = .ok t → ∀ len, t.length = some len → 1 ≤ len) :
    Declared reprStr columns (spaceTable reprStr k columns) := by
  refine List.forall₂_map_right_iff.2 (List.forall₂_same.2 fun column hcolumn => ?_)
  have hdecl := declaredType_arrowOf (htypes column hcolumn)
  obtain ⟨t, ht, ha⟩ := bind_eq_ok.1 hdecl
  have hvalue : ∀ i, (spaceColumn k column (arrowOf reprStr column)).value i =
      some (if column.name = k ∧ i = 1 then .text (py " ") else (arrowOf reprStr column).zero) :=
    fun _ => spaceColumn_value (hasType_zero ha) fun hn => (hk column hcolumn hn).1
  refine ⟨rfl, rfl, hdecl, fun _ i hi => ?_, fun t' ht' len hlen i s hs => ?_⟩
  · have hv := hvalue i
    unfold ArrowColumn.value at hv
    rw [hi] at hv
    cases hv
  · replace hs := (hvalue i).symm.trans hs
    split_ifs at hs with hspace
    · cases hs
      exact (hk column hcolumn hspace.1).2 t' ht' len hlen
    · cases harrow : arrowOf reprStr column <;> rw [harrow] at hs <;> cases hs
      exact Nat.zero_le _

end

/-! ## How fine the check is -/

/-- A `CHAR` column of at least one character. -/
def HoldsChar (reprStr : Str → Str) (column : Column) : Prop :=
  ∃ t, parseSqlType reprStr column.type = .ok t ∧ t.base = py "CHAR" ∧ t.length ≠ some 0

section
variable {L : Lang} {P : SqlParser} {h : Heap}

/-- **As fine as the warehouse**: rows that pass the check have keys the warehouse
    tells apart, if no key column is a `CHAR` that holds a character. -/
theorem keys_distinct {columns : List Column} {primaryKey : List Str} {table : ArrowTable}
    {strCell : Option ArrowValue → Str} (hn : (columns.map Column.name).Nodup)
    (hkey : ∀ name ∈ primaryKey, KeyColumn L columns name)
    (hchar : ∀ column ∈ columns, column.name ∈ primaryKey → ¬ HoldsChar L.reprStr column)
    (hdecl : Declared L.reprStr columns table)
    (hcheck : ensureUniqueKey L.reprStr strCell table primaryKey = .ok ()) {i j : Fin table.numRows}
    (hsame : SameKey L.reprStr columns primaryKey table i j) : i = j := by
  obtain ⟨-, key, hcols, -, hinj⟩ := ensureUniqueKey_eq_ok_iff.1 hcheck
  refine hinj (List.map_congr_left fun c hc => ?_)
  obtain ⟨name, hname, hfound⟩ := exists_of_mem_mapM hcols hc
  obtain ⟨hmem, rfl⟩ := ArrowTable.mem_of_column hfound
  obtain ⟨column, hcolumn, hconf⟩ := hdecl.exists_column hmem
  obtain ⟨t, ht, ha⟩ := bind_eq_ok.1 hconf.type
  have hcname : column.name ∈ primaryKey := hconf.name ▸ hname
  have hbase : t.base ≠ py "DOUBLE_PRECISION" := by
    obtain ⟨column', hcolumn', hname', -, t', ht', hbase⟩ := hkey _ hcname
    obtain rfl := List.inj_on_of_nodup_map hn hcolumn' hcolumn hname'
    exact Except.ok.inj (ht.symm.trans ht') ▸ hbase
  obtain ⟨v, w, hv, hw, hvw⟩ := hsame column hcolumn hcname c hmem hconf.name t ht
  rw [hv, hw]
  have htyped : v.hasType c.type = true := by
    obtain ⟨cell, -, rfl⟩ := Option.map_eq_some_iff.1 hv
    exact cell.2
  cases v with
  | text s =>
    cases w with
    | text s' =>
      unfold SameValue at hvw
      split_ifs at hvw with hc
      · -- such a column holds empty texts only
        have hzero : t.length = some 0 := by
          by_contra hne
          exact hchar column hcolumn hcname ⟨t, ht, hc, hne⟩
        have hs := hconf.length t ht 0 hzero i s hv
        have hs' := hconf.length t ht 0 hzero j s' hw
        rw [List.length_eq_zero_iff.1 (Nat.le_zero.1 hs), List.length_eq_zero_iff.1 (Nat.le_zero.1 hs')]
      · rw [hvw]
    | _ => exact absurd hvw (by simp [SameValue])
  | float f => exact absurd (base_of_float ha htyped) hbase
  | _ =>
    simp only [SameValue] at hvw
    rw [hvw]

theorem arrowType_char {reprStr : Str → Str} {t : SqlType} {a : ArrowType} (hbase : t.base = py "CHAR")
    (ha : arrowType reprStr t = .ok a) : a = .string := by
  obtain ⟨base, precision, scale, length⟩ := t
  obtain rfl : base = py "CHAR" := hbase
  exact (Except.ok.inj ha).symm

/-- A type that is not floating-point has another name. -/
theorem text_notMem_floatingTypes {reprStr : Str → Str} {t : SqlType} {a : ArrowType}
    (h : arrowType reprStr t = .ok a) (hbase : t.base ≠ py "DOUBLE_PRECISION") : a.text ∉ floatingTypes := by
  unfold arrowType at h
  rw [if_neg hbase] at h
  split_ifs at h
  · cases h; decide +kernel
  · cases h; decide +kernel
  · split at h
    · unfold paDecimal128 at h
      split_ifs at h
      cases h
      intro hmem
      have htake : (py "de") ∈ floatingTypes.map (List.take 2) := List.mem_map.2 ⟨_, hmem, rfl⟩
      exact absurd htake (by decide +kernel)
    · cases h
  · cases h; decide +kernel
  · cases h; decide +kernel
  · cases h; decide +kernel
  · cases h; decide +kernel
  · cases h; decide +kernel
  · cases h; decide +kernel

theorem sameValue_self (base : Str) (v : ArrowValue) : SameValue base v v := by
  cases v with
  | text s =>
    unfold SameValue
    split_ifs <;> rfl
  | float f => exact .inl rfl
  | _ => rfl

/-- A space is nothing at the end of a text. -/
theorem rstripSpaces_space : rstripSpaces (py " ") = rstripSpaces [] := by decide

/-- **Too fine**: with a `CHAR` key column of a character, rows that differ in a
    trailing space only pass `conform` and the check. -/
theorem exists_sameKey {columns : List Column} {primaryKey : List Str} (extraColumns : ExtraColumns)
    (casts : ArrowCast) (strCell : Option ArrowValue → Str) (hn : (columns.map Column.name).Nodup)
    (hne : primaryKey ≠ []) (hkey : ∀ name ∈ primaryKey, KeyColumn L columns name)
    (hnl : ∀ column ∈ columns, ch '\n' ∉ strip column.type)
    (htypes : ∀ column ∈ columns, ∃ t, parseSqlType L.reprStr column.type = .ok t)
    {column : Column} (hcolumn : column ∈ columns) (hname : column.name ∈ primaryKey)
    (hchar : HoldsChar L.reprStr column) :
    ∃ table : ArrowTable, conform casts L.reprStr table columns extraColumns = .ok table ∧
      ensureUniqueKey L.reprStr strCell table primaryKey = .ok () ∧
      ∃ i j, SameKey L.reprStr columns primaryKey table i j ∧ i ≠ j := by
  obtain ⟨t, ht, hbase, hlen⟩ := hchar
  have hdecls : ∀ c ∈ columns, ∃ a, declaredType L.reprStr c = .ok a := by
    intro c hc
    obtain ⟨s, hs⟩ := htypes c hc
    obtain ⟨a, ha⟩ := (arrowType_defined_iff hs).2 (hnl c hc)
    exact ⟨a, bind_eq_ok.2 ⟨s, hs, ha⟩⟩
  have hk : ∀ c ∈ columns, c.name = column.name → arrowOf L.reprStr c = .string ∧
      ∀ s, parseSqlType L.reprStr c.type = .ok s → ∀ len, s.length = some len → 1 ≤ len := by
    intro c hc hcn
    obtain rfl := List.inj_on_of_nodup_map hn hc hcolumn hcn
    refine ⟨?_, fun s hs len hl => ?_⟩
    · obtain ⟨s, hs, ha⟩ := bind_eq_ok.1 (declaredType_arrowOf (hdecls c hc))
      obtain rfl := Except.ok.inj (ht.symm.trans hs)
      exact arrowType_char hbase ha
    · obtain rfl := Except.ok.inj (ht.symm.trans hs)
      refine Nat.one_le_iff_ne_zero.2 fun h0 => hlen (h0 ▸ hl)
  have hdecl := declared_spaceTable hdecls hk
  have hdistinct : (spaceTable L.reprStr column.name columns).columnNames.Nodup := hdecl.columnNames ▸ hn
  -- the cells of the table
  have hvalue : ∀ c ∈ columns, ∀ i, (spaceColumn column.name c (arrowOf L.reprStr c)).value i =
      some (if c.name = column.name ∧ i = 1 then .text (py " ") else (arrowOf L.reprStr c).zero) := by
    intro c hc i
    obtain ⟨s, -, ha⟩ := bind_eq_ok.1 (declaredType_arrowOf (hdecls c hc))
    exact spaceColumn_value (hasType_zero ha) fun hcn => (hk c hc hcn).1
  have hlookup : ∀ c ∈ columns, (spaceTable L.reprStr column.name columns).column c.name =
      .ok (spaceColumn column.name c (arrowOf L.reprStr c)) :=
    fun c hc => @ArrowTable.column_eq_ok (spaceTable L.reprStr column.name columns)
      (spaceColumn column.name c (arrowOf L.reprStr c)) (List.mem_map.2 ⟨c, hc, rfl⟩) hdistinct
  refine ⟨_, conform_eq_self hn hdecl, ensureUniqueKey_eq_ok_iff.2 ⟨hne, ?_⟩, (0 : Fin 2),
    (1 : Fin 2), ?_, show (0 : Fin 2) ≠ 1 by decide⟩
  · obtain ⟨key, hcols⟩ : ∃ key, primaryKey.mapM (spaceTable L.reprStr column.name columns).column = .ok key := by
      refine exists_mapM_eq_ok fun name hn' => ?_
      obtain ⟨c, hc, rfl, -⟩ := hkey name hn'
      exact ⟨_, hlookup c hc⟩
    refine ⟨key, hcols, fun c hc => ?_, ?_⟩
    · obtain ⟨name, hn', hfound⟩ := exists_of_mem_mapM hcols hc
      obtain ⟨d, hd, rfl, -, s, hs, hdp⟩ := hkey name hn'
      rw [hlookup d hd] at hfound
      cases hfound
      obtain ⟨s', hs', ha⟩ := bind_eq_ok.1 (declaredType_arrowOf (hdecls d hd))
      obtain rfl := Except.ok.inj (hs.symm.trans hs')
      exact text_notMem_floatingTypes ha hdp
    · have hmem : spaceColumn column.name column (arrowOf L.reprStr column) ∈ key := by
        obtain ⟨c, hc, hfound⟩ := mem_mapM_of_mem hcols hname
        rw [hlookup column hcolumn] at hfound
        cases hfound
        exact hc
      have hzero : (arrowOf L.reprStr column).zero = .text [] := by rw [(hk column hcolumn rfl).1]; rfl
      have hcells : ∀ i j : Fin 2, (if column.name = column.name ∧ i = 1 then ArrowValue.text (py " ") else .text []) =
          (if column.name = column.name ∧ j = 1 then .text (py " ") else .text []) → i = j := by
        simp only [true_and]
        decide
      intro i j hij
      have hcell := ((hvalue column hcolumn i).symm.trans (List.map_inj_left.1 hij _ hmem)).trans
        (hvalue column hcolumn j)
      rw [hzero] at hcell
      exact hcells i j (Option.some.inj hcell)
  · intro c hc hcn d hd hdn s hs
    obtain ⟨c', hc', rfl⟩ := List.mem_map.1 hd
    obtain rfl := List.inj_on_of_nodup_map hn hc' hc hdn
    refine ⟨_, _, hvalue c' hc' 0, hvalue c' hc' 1, ?_⟩
    rw [if_neg (by simp)]
    split_ifs with hspace
    · obtain rfl := List.inj_on_of_nodup_map hn hc' hcolumn hspace.1
      obtain rfl := Except.ok.inj (ht.symm.trans hs)
      rw [(hk c' hc' rfl).1, ArrowType.zero, SameValue, if_pos hbase]
      exact rstripSpaces_space.symm
    · exact sameValue_self _ _

/-- **The key check is as fine as the warehouse** exactly for the upsert nodes without
    a `CHAR` key column that holds a character, and those no table conforms to. -/
theorem upsertKeys_distinct_iff (L : Lang) (P : SqlParser) (h : Heap) (checkReads : Bool)
    (value : Val h.size) (source : Str) (node : Node) (casts : ArrowCast)
    (strCell : Option ArrowValue → Str)
    (hn : parseNode L P h checkReads value source = .ok node) (hm : node.modeType = .upsert) :
    (∀ table out : ArrowTable,
        conform casts L.reprStr table node.outputColumns node.extraColumns = .ok out →
        ensureUniqueKey L.reprStr strCell out node.primaryKey = .ok () →
        ∀ i j, SameKey L.reprStr node.outputColumns node.primaryKey out i j → i = j) ↔
      (∃ column ∈ node.outputColumns, ch '\n' ∈ strip column.type) ∨
        ∀ column ∈ node.outputColumns, column.name ∈ node.primaryKey → ¬ HoldsChar L.reprStr column := by
  have hdistinct := (parseNode_columns L P h hn).nodup
  obtain ⟨hne, hkey⟩ := parseNode_primaryKey L P h hn hm
  constructor
  · intro hfine
    by_contra hnot
    push Not at hnot
    obtain ⟨hnl, column, hcolumn, hname, hchar⟩ := hnot
    obtain ⟨table, hconform, hcheck, i, j, hsame, hij⟩ := exists_sameKey node.extraColumns casts strCell
      hdistinct hne hkey hnl (parseNode_columns L P h hn).type hcolumn hname hchar
    exact hij (hfine table table hconform hcheck i j hsame)
  · rintro (⟨column, hcolumn, hnl⟩ | hchar) table out hconform hcheck i j hsame
    · -- no table conforms to a type without an Arrow type
      obtain ⟨c, -, hconf⟩ := (conform_spec hdistinct hconform).exists_arrow hcolumn
      obtain ⟨t, ht, ha⟩ := bind_eq_ok.1 hconf.type
      exact absurd hnl ((arrowType_defined_iff ht).1 ⟨_, ha⟩)
    · exact keys_distinct hdistinct hkey hchar (conform_spec hdistinct hconform) hcheck hsame

end

/-- A `python-api` upsert node whose key is one column of this type. -/
def upsertHeap (type : Str) : Heap where
  size := 4
  cell
    | 0 => .dict ⟨[(.str (py "schema"), .str (py "s")), (.str (py "table"), .str (py "t")),
        (.str (py "owner"), .str (py "o")), (.str (py "schedule"), .str (py "d")),
        (.str (py "criticality"), .str (py "CORE")), (.str (py "kind"), .str (py "python-api")),
        (.str (py "script"), .str (py "x.py")), (.str (py "output_columns"), .ref 1),
        (.str (py "mode_type"), .str (py "upsert")), (.str (py "primary_key"), .ref 3)],
        by simp only [NodupKeys, List.map_cons, List.map_nil]; decide +kernel⟩
    | 1 => .list [.ref 2]
    | 2 => .dict ⟨[(.str (py "name"), .str (py "a")), (.str (py "type"), .str type),
        (.str (py "nullable"), .bool false)],
        by simp only [NodupKeys, List.map_cons, List.map_nil]; decide +kernel⟩
    | 3 => .list [.str (py "a")]

def upsertNode (type : Str) : Node where
  schema := py "s"
  table := py "t"
  owner := py "o"
  schedule := py "d"
  criticality := .core
  script := py "x.py"
  reads := .empty
  outputColumns := [⟨py "a", type, false⟩]
  description := []
  extraColumns := .raise
  config := .empty
  contentHash := none
  kind := .pythonApi
  secretRef := []
  modeType := .upsert
  primaryKey := [py "a"]
  timeoutMinutes := none
  primaryKey_eq_nil := fun hm => absurd rfl hm

/-- A `BIGINT` key is checked as finely as the warehouse compares it. -/
theorem upsertKeys_distinct_bigint :
    (∀ table out : ArrowTable,
        conform selfCast plainLang.reprStr table (upsertNode (py "BIGINT")).outputColumns
            (upsertNode (py "BIGINT")).extraColumns = .ok out →
        ensureUniqueKey plainLang.reprStr (fun _ => []) out (upsertNode (py "BIGINT")).primaryKey = .ok () →
        ∀ i j, SameKey plainLang.reprStr (upsertNode (py "BIGINT")).outputColumns
          (upsertNode (py "BIGINT")).primaryKey out i j → i = j) ↔
      (∃ column ∈ (upsertNode (py "BIGINT")).outputColumns, ch '\n' ∈ strip column.type) ∨
        ∀ column ∈ (upsertNode (py "BIGINT")).outputColumns,
          column.name ∈ (upsertNode (py "BIGINT")).primaryKey → ¬ HoldsChar plainLang.reprStr column :=
  upsertKeys_distinct_iff plainLang emptySql (upsertHeap (py "BIGINT")) true (.ref (0 : Fin 4)) (py "c.yml")
    (upsertNode (py "BIGINT")) selfCast (fun _ => []) rfl rfl

/-- **Two keys that are one**: a `CHAR(1)` key holds an empty text and a space; the
    table conforms, the check passes, and the warehouse takes them for equal. -/
theorem charKeys_equal :
    parseNode plainLang emptySql (upsertHeap (py "CHAR(1)")) true (.ref (0 : Fin 4)) (py "c.yml") =
        .ok (upsertNode (py "CHAR(1)")) ∧
      ∃ table : ArrowTable,
        conform selfCast plainLang.reprStr table (upsertNode (py "CHAR(1)")).outputColumns .raise = .ok table ∧
        ensureUniqueKey plainLang.reprStr (fun _ => []) table [py "a"] = .ok () ∧
        ∃ i j, SameKey plainLang.reprStr (upsertNode (py "CHAR(1)")).outputColumns [py "a"] table i j ∧
          i ≠ j := by
  have hnode : parseNode plainLang emptySql (upsertHeap (py "CHAR(1)")) true (.ref (0 : Fin 4)) (py "c.yml") =
      .ok (upsertNode (py "CHAR(1)")) := rfl
  obtain ⟨hne, hkey⟩ := parseNode_primaryKey plainLang emptySql _ hnode rfl
  refine ⟨hnode, exists_sameKey .raise selfCast (fun _ => []) (parseNode_columns _ _ _ hnode).nodup hne hkey
    (fun c hc => ?_) (parseNode_columns _ _ _ hnode).type (List.mem_singleton.2 rfl)
    (List.mem_singleton.2 rfl) ⟨_, rfl, rfl, ?_⟩⟩
  · rw [List.mem_singleton.1 hc]
    decide +kernel
  · decide +kernel

end ContinuoRuntime
