/-
  One column type from the contract to the write (`types.py`, and
  `continuo_engine_contract/types.py` as every adapter calls it).

  The loader accepts a type after trimming and stores it as written.  Later
  stages read it again: `arrow_type(parse_sql_type(...))` when the output is
  conformed, and `validate_column_type`, untrimmed, in the DDL of an adapter.

  * `matchType_text`: an accepted text is its form, spelled out;
  * `arrowType_defined_iff`, `validateColumnType_iff`: what each stage asks for;
  * `storedType_accepted_iff`: both accept exactly the stored types without
    surrounding white space and without a newline.
-/
import ContinuoRuntime.Contract.Loader

namespace ContinuoRuntime

/-! ## Arrow types -/

/-- The unit of a timestamp. -/
inductive TimeUnit where
  | s | ms | us | ns
  deriving DecidableEq

/-- `pyarrow.DataType`, as far as the runtime tells types apart. -/
inductive ArrowType where
  | null | bool | string | binary | date32 | date64
  | int (signed : Bool) (bits : ℕ)
  | float (bits : ℕ)
  | decimal128 (precision scale : ℕ)
  | timestamp (unit : TimeUnit)
  | other (name : Str)
  deriving DecidableEq

/-- `repr` of an optional number. -/
def reprOption : Option ℕ → Str
  | none => py "None"
  | some n => decimal n

/-- `repr` of a `SqlType`. -/
def SqlType.repr (reprStr : Str → Str) (t : SqlType) : Str :=
  py "SqlType(base=" ++ reprStr t.base ++ py ", precision=" ++ reprOption t.precision ++ py ", scale=" ++
    reprOption t.scale ++ py ", length=" ++ reprOption t.length ++ py ")"

/-- `pa.decimal128(precision, scale)`. -/
def paDecimal128 (precision scale : ℕ) : Except Exc ArrowType :=
  if 1 ≤ precision ∧ precision ≤ 38 then .ok (.decimal128 precision scale)
  else .error (.text .valueError (py "precision should be between 1 and 38"))

/-- `arrow_type`. -/
def arrowType (reprStr : Str → Str) (t : SqlType) : Except Exc ArrowType :=
  if t.base = py "BIGINT" then .ok (.int true 64)
  else if t.base = py "INTEGER" then .ok (.int true 32)
  else if t.base = py "DOUBLE_PRECISION" then .ok (.float 64)
  else if t.base = py "NUMERIC" then
    match t.precision, t.scale with
    | some precision, some scale => paDecimal128 precision scale
    | _, _ => .error (.text .valueError (py "NUMERIC requires precision and scale, got " ++ t.repr reprStr))
  else if t.base = py "VARCHAR" then .ok .string
  else if t.base = py "CHAR" then .ok .string
  else if t.base = py "TEXT" then .ok .string
  else if t.base = py "TIMESTAMP" then .ok (.timestamp .us)
  else if t.base = py "DATE" then .ok .date32
  else if t.base = py "BOOLEAN" then .ok .bool
  else .error (.text .valueError (py "unknown SQL type base: " ++ t.base))

/-- `validate_column_type`. -/
def validateColumnType (reprStr : Str → Str) (typeStr : Str) : Except Exc Unit :=
  if (matchType typeStr).isSome then .ok ()
  else .error (.text .valueError (py "unsupported or invalid SQL type: " ++ reprStr typeStr))

/-! ## Accepted texts -/

/-- The text that has this form. -/
def TypeForm.text : TypeForm → Str
  | .bare name => name
  | .decimal name precision space scale =>
    name ++ ch '(' :: (precision ++ ch ',' :: (space ++ (scale ++ [ch ')'])))
  | .sized name length => name ++ ch '(' :: (length ++ [ch ')'])

/-- What the parts of a form are. -/
def TypeForm.Valid : TypeForm → Prop
  | .bare name => name ∈ bareTypes
  | .decimal name precision space scale => (name = py "NUMERIC" ∨ name = py "DECIMAL") ∧
      (∀ c ∈ precision, isDigit c = true) ∧ (∀ c ∈ space, isAsciiSpace c = true) ∧
      ∀ c ∈ scale, isDigit c = true
  | .sized name length => (name = py "VARCHAR" ∨ name = py "CHAR") ∧ ∀ c ∈ length, isDigit c = true

theorem matchDecimal_text {name rest : Str} {f : TypeForm} (hname : name = py "NUMERIC" ∨ name = py "DECIMAL")
    (h : matchDecimal name rest = some f) : f.Valid ∧ f.text = name ++ ch '(' :: rest := by
  unfold matchDecimal at h
  dsimp only at h
  split at h
  · cases h
  next c tail hsplit =>
    split_ifs at h with hshape
    obtain ⟨rfl, -, -, hclose⟩ := hshape
    cases h
    refine ⟨⟨hname, fun d hd => List.mem_takeWhile_imp hd, fun d hd => List.mem_takeWhile_imp hd,
      fun d hd => List.mem_takeWhile_imp hd⟩, ?_⟩
    have hrest : rest = rest.takeWhile isDigit ++ ch ',' :: tail := by
      rw [← hsplit, List.takeWhile_append_dropWhile]
    have htail : tail = tail.takeWhile isAsciiSpace ++ ((tail.dropWhile isAsciiSpace).takeWhile isDigit ++
        [ch ')']) := by
      rw [← hclose, List.takeWhile_append_dropWhile, List.takeWhile_append_dropWhile]
    rw [TypeForm.text, ← htail, ← hrest]

theorem matchSized_text {name rest : Str} {f : TypeForm} (hname : name = py "VARCHAR" ∨ name = py "CHAR")
    (h : matchSized name rest = some f) : f.Valid ∧ f.text = name ++ ch '(' :: rest := by
  unfold matchSized at h
  dsimp only at h
  split_ifs at h with hshape
  cases h
  refine ⟨⟨hname, fun d hd => List.mem_takeWhile_imp hd⟩, ?_⟩
  rw [TypeForm.text, ← hshape.2, List.takeWhile_append_dropWhile]

/-- **An accepted text** is its form, spelled out in upper case. -/
theorem matchType_text {s : Str} {f : TypeForm} (h : matchType s = some f) :
    f.Valid ∧ f.text = s.map asciiUpper := by
  unfold matchType at h
  dsimp only at h
  split_ifs at h with hbare
  · cases h
    exact ⟨hbare, rfl⟩
  · split at h
    next name rest hsplit =>
      have htext : s.map asciiUpper = name ++ ch '(' :: rest := by
        have hjoin : [ch '('].intercalate ((s.map asciiUpper).splitOn (ch '(')) = s.map asciiUpper :=
          List.intercalate_splitOn _
        rw [hsplit, List.intercalate_cons_cons, List.intercalate_singleton] at hjoin
        rw [← hjoin, List.append_assoc, List.singleton_append]
      rw [htext]
      split_ifs at h with hnum hsized
      · exact matchDecimal_text hnum h
      · exact matchSized_text hsized h
    · cases h

theorem asciiUpper_eq_newline {c : CodePoint} : asciiUpper c = ch '\n' ↔ c = ch '\n' := by
  unfold asciiUpper
  split_ifs with hc
  · have hlt : c.val - 32 < 0x110000 := by omega
    constructor
    · intro h
      have hv := congrArg Fin.val h
      rw [Fin.val_ofNat, Nat.mod_eq_of_lt hlt, show (ch '\n').val = 10 from rfl] at hv
      omega
    · rintro rfl
      exact absurd hc (by decide)
  · exact Iff.rfl

theorem isSpace_asciiUpper (c : CodePoint) : isSpace (asciiUpper c) = isSpace c := by
  unfold asciiUpper
  split_ifs with hc
  · have hlt : c.val - 32 < 0x110000 := by omega
    have hnot : ∀ n, 64 < n → n < 123 → isSpaceCode n = false := by
      intro n h1 h2
      simp only [isSpaceCode, Bool.or_eq_false_iff, Bool.and_eq_false_iff, decide_eq_false_iff_not,
        beq_eq_false_iff_ne]
      omega
    rw [isSpace, isSpace, Fin.val_ofNat, Nat.mod_eq_of_lt hlt, hnot _ (by omega) (by omega),
      hnot _ (by omega) (by omega)]
  · rfl

theorem digit_ne_newline {c : CodePoint} (h : isDigit c = true) : c ≠ ch '\n' := by
  rintro rfl
  exact absurd h (by decide)

/-- A newline in an accepted text stands in the space after the comma. -/
theorem newline_mem_iff {s : Str} {f : TypeForm} (h : matchType s = some f) : ch '\n' ∈ s ↔
    ∃ name precision space scale, f = .decimal name precision space scale ∧ ch '\n' ∈ space := by
  obtain ⟨hvalid, htext⟩ := matchType_text h
  have hup : ch '\n' ∈ s ↔ ch '\n' ∈ f.text := by
    rw [htext, List.mem_map]
    exact ⟨fun hs => ⟨_, hs, by decide⟩, fun ⟨c, hc, hce⟩ => asciiUpper_eq_newline.1 hce ▸ hc⟩
  rw [hup]
  cases f with
  | bare name =>
    have hnone : ∀ t ∈ bareTypes, ch '\n' ∉ t := by decide +kernel
    exact ⟨fun hn => absurd hn (hnone name hvalid), fun ⟨_, _, _, _, hf, _⟩ => by cases hf⟩
  | decimal name precision space scale =>
    obtain ⟨hname, hp, -, hs⟩ := hvalid
    have hn : ch '\n' ∉ name := by rcases hname with rfl | rfl <;> decide
    constructor
    · intro hmem
      simp only [TypeForm.text, List.mem_append, List.mem_cons, List.not_mem_nil, or_false] at hmem
      refine ⟨_, _, _, _, rfl, ?_⟩
      rcases hmem with hmem | hmem | hmem | hmem | hmem | hmem | hmem
      · exact absurd hmem hn
      · exact absurd hmem (by decide)
      · exact absurd rfl (digit_ne_newline (hp _ hmem))
      · exact absurd hmem (by decide)
      · exact hmem
      · exact absurd rfl (digit_ne_newline (hs _ hmem))
      · exact absurd hmem (by decide)
    · rintro ⟨_, _, _, _, hf, hmem⟩
      cases hf
      simp [TypeForm.text, hmem]
  | sized name length =>
    obtain ⟨hname, hl⟩ := hvalid
    have hn : ch '\n' ∉ name := by rcases hname with rfl | rfl <;> decide
    refine ⟨fun hmem => ?_, fun ⟨_, _, _, _, hf, _⟩ => by cases hf⟩
    simp only [TypeForm.text, List.mem_append, List.mem_cons, List.not_mem_nil, or_false] at hmem
    rcases hmem with hmem | hmem | hmem | hmem
    · exact absurd hmem hn
    · exact absurd hmem (by decide)
    · exact absurd rfl (digit_ne_newline (hl _ hmem))
    · exact absurd hmem (by decide)

/-- The first and last characters of an accepted text are not white space. -/
theorem ends_of_matchType {s : Str} {f : TypeForm} (h : matchType s = some f) :
    (∀ c ∈ s.head?, isSpace c = false) ∧ ∀ c ∈ s.getLast?, isSpace c = false := by
  obtain ⟨hvalid, htext⟩ := matchType_text h
  have hends : (∀ c ∈ f.text.head?, isSpace c = false) ∧ ∀ c ∈ f.text.getLast?, isSpace c = false := by
    cases f with
    | bare name =>
      have hall : bareTypes.all (fun t => t.head?.all (!isSpace ·) && t.getLast?.all (!isSpace ·)) = true := by
        decide +kernel
      have ht := List.all_eq_true.1 hall name hvalid
      rw [Bool.and_eq_true, Option.all_eq_true, Option.all_eq_true] at ht
      exact ⟨fun c hc => by simpa using ht.1 c hc, fun c hc => by simpa using ht.2 c hc⟩
    | decimal name precision space scale =>
      refine ⟨?_, fun c hc => ?_⟩
      · rcases hvalid.1 with rfl | rfl <;> (intro c hc; cases hc; decide)
      · rw [show (TypeForm.decimal name precision space scale).text = (name ++ ch '(' ::
          (precision ++ ch ',' :: (space ++ scale))) ++ [ch ')'] by simp [TypeForm.text],
          List.getLast?_concat] at hc
        cases hc
        decide
    | sized name length =>
      refine ⟨?_, fun c hc => ?_⟩
      · rcases hvalid.1 with rfl | rfl <;> (intro c hc; cases hc; decide)
      · rw [show (TypeForm.sized name length).text = (name ++ ch '(' :: length) ++ [ch ')'] by
          simp [TypeForm.text], List.getLast?_concat] at hc
        cases hc
        decide
  rw [htext] at hends
  constructor
  · intro c hc
    rw [← isSpace_asciiUpper]
    exact hends.1 _ (by rw [List.head?_map]; exact Option.mem_map_of_mem _ hc)
  · intro c hc
    rw [← isSpace_asciiUpper]
    exact hends.2 _ (by rw [List.getLast?_map]; exact Option.mem_map_of_mem _ hc)

/-- Nothing to trim. -/
theorem strip_eq_self {s : Str} (hhead : ∀ c ∈ s.head?, isSpace c = false)
    (hlast : ∀ c ∈ s.getLast?, isSpace c = false) : strip s = s := by
  have hdrop : s.dropWhile isSpace = s := by
    cases s with
    | nil => rfl
    | cons c s => exact List.dropWhile_cons_of_neg (by simp [hhead c rfl])
  rw [strip, hdrop, List.rdropWhile]
  have hrev : s.reverse.dropWhile isSpace = s.reverse := by
    rw [← List.head?_reverse] at hlast
    cases hs : s.reverse with
    | nil => rfl
    | cons c t => exact List.dropWhile_cons_of_neg (by simp [hlast c (by rw [hs]; rfl)])
  rw [hrev, List.reverse_reverse]

/-! ## What each stage asks for -/

variable {reprStr : Str → Str}

/-- **In the DDL**, an accepted type is valid exactly if there was nothing to
    trim. -/
theorem validateColumnType_iff {s : Str} {t : SqlType} (h : parseSqlType reprStr s = .ok t) :
    validateColumnType reprStr s = .ok () ↔ strip s = s := by
  have haccepted : (matchType (strip s)).isSome = true := by
    unfold parseSqlType contractError at h
    dsimp only at h
    split at h
    · cases h
    all_goals next hm => rw [hm]; rfl
  constructor
  · intro hv
    unfold validateColumnType at hv
    split_ifs at hv with hs
    obtain ⟨f, hf⟩ := Option.isSome_iff_exists.1 hs
    exact strip_eq_self (ends_of_matchType hf).1 (ends_of_matchType hf).2
  · intro hs
    rw [hs] at haccepted
    rw [validateColumnType, if_pos haccepted]

/-- The bases with an Arrow type. -/
def arrowBases : List Str :=
  ["BIGINT", "INTEGER", "DOUBLE_PRECISION", "NUMERIC", "VARCHAR", "CHAR", "TEXT", "TIMESTAMP", "DATE",
    "BOOLEAN"].map py

theorem base_of_arrowType {t : SqlType} {a : ArrowType} (h : arrowType reprStr t = .ok a) :
    t.base ∈ arrowBases := by
  by_contra hn
  simp only [arrowBases, List.map_cons, List.map_nil, List.mem_cons, List.not_mem_nil, or_false,
    not_or] at hn
  obtain ⟨h1, h2, h3, h4, h5, h6, h7, h8, h9, h10⟩ := hn
  rw [arrowType, if_neg h1, if_neg h2, if_neg h3, if_neg h4, if_neg h5, if_neg h6, if_neg h7, if_neg h8,
    if_neg h9, if_neg h10] at h
  cases h

/-- **In the schema**, an accepted type has an Arrow type exactly if it holds no
    newline. -/
theorem arrowType_defined_iff {s : Str} {t : SqlType} (h : parseSqlType reprStr s = .ok t) :
    (∃ a, arrowType reprStr t = .ok a) ↔ ch '\n' ∉ strip s := by
  unfold parseSqlType contractError at h
  dsimp only at h
  split at h
  · cases h
  next name hm =>
    have hno : ch '\n' ∉ strip s := fun hmem => by
      obtain ⟨_, _, _, _, hf, -⟩ := (newline_mem_iff hm).1 hmem
      cases hf
    refine ⟨fun _ => hno, fun _ => ?_⟩
    have hname : name ∈ bareTypes := (matchType_text hm).1
    simp only [bareTypes, List.map_cons, List.map_nil, List.mem_cons, List.not_mem_nil, or_false] at hname
    rcases hname with rfl | rfl | rfl | rfl | rfl | rfl | rfl | rfl <;> (cases h; exact ⟨_, rfl⟩)
  next name precision space scale hm =>
    have hiff : ch '\n' ∈ strip s ↔ ch '\n' ∈ space := by
      rw [newline_mem_iff hm]
      exact ⟨fun ⟨_, _, _, _, hf, hmem⟩ => by cases hf; exact hmem, fun hmem => ⟨_, _, _, _, rfl, hmem⟩⟩
    rw [hiff]
    split_ifs at h with hnl
    · -- the text is taken for a base, which no base is
      cases h
      refine ⟨fun ⟨a, ha⟩ => ?_, fun hn => absurd hnl hn⟩
      have hbase := base_of_arrowType ha
      have hnone : ∀ base ∈ arrowBases, ch '\n' ∉ base := by decide +kernel
      exact absurd (List.mem_map.2 ⟨_, hiff.2 hnl, by decide⟩) (hnone _ hbase)
    · obtain ⟨p, -, h⟩ := bind_eq_ok.1 h
      obtain ⟨q, -, h⟩ := bind_eq_ok.1 h
      split at h
      · cases h
      next hp =>
        split at h
        · cases h
        · cases h
          exact ⟨fun _ => hnl, fun _ => ⟨.decimal128 p q, if_pos (not_not.1 hp)⟩⟩
  next name length hm =>
    have hno : ch '\n' ∉ strip s := fun hmem => by
      obtain ⟨_, _, _, _, hf, -⟩ := (newline_mem_iff hm).1 hmem
      cases hf
    refine ⟨fun _ => hno, fun _ => ?_⟩
    obtain ⟨n, -, h⟩ := bind_eq_ok.1 h
    cases h
    rcases (matchType_text hm).1.1 with rfl | rfl <;> exact ⟨_, rfl⟩

/-! ## Stored types -/

theorem typedHeap_keys : NodupKeys ([(.str (py "schema"), .str (py "s")), (.str (py "table"), .str (py "t")),
    (.str (py "owner"), .str (py "o")), (.str (py "schedule"), .str (py "d")),
    (.str (py "criticality"), .str (py "CORE")), (.str (py "kind"), .str (py "python-api")),
    (.str (py "script"), .str (py "x.py")), (.str (py "output_columns"), .ref 1)] : List (Val 3 × Val 3)) := by
  simp only [NodupKeys, List.map_cons, List.map_nil]
  decide +kernel

theorem typedColumn_keys (type : Str) : NodupKeys ([(.str (py "name"), .str (py "a")),
    (.str (py "type"), .str type)] : List (Val 3 × Val 3)) := by
  simp only [NodupKeys, List.map_cons, List.map_nil]
  decide +kernel

/-- A `python-api` node with one column of this type, as YAML constructs it. -/
def typedHeap (type : Str) : Heap where
  size := 3
  cell
    | 0 => .dict ⟨[(.str (py "schema"), .str (py "s")), (.str (py "table"), .str (py "t")),
        (.str (py "owner"), .str (py "o")), (.str (py "schedule"), .str (py "d")),
        (.str (py "criticality"), .str (py "CORE")), (.str (py "kind"), .str (py "python-api")),
        (.str (py "script"), .str (py "x.py")), (.str (py "output_columns"), .ref 1)], typedHeap_keys⟩
    | 1 => .list [.ref 2]
    | 2 => .dict ⟨[(.str (py "name"), .str (py "a")), (.str (py "type"), .str type)], typedColumn_keys type⟩

/-- The address of the node in `typedHeap`. -/
def typedRoot (type : Str) : Val (typedHeap type).size := .ref (0 : Fin 3)

/-- **One type grammar**, from the contract to the write: a stored type has an
    Arrow type and is valid in every DDL exactly if it has no surrounding white
    space and no newline. -/
theorem storedType_accepted_iff (L : Lang) (P : SqlParser) (h : Heap) (checkReads : Bool)
    (value : Val h.size) (source : Str) (node : Node) (column : Column)
    (hn : parseNode L P h checkReads value source = .ok node) (hc : column ∈ node.outputColumns) :
    ((∃ t a, parseSqlType L.reprStr column.type = .ok t ∧ arrowType L.reprStr t = .ok a) ∧
        validateColumnType L.reprStr column.type = .ok ()) ↔
      strip column.type = column.type ∧ ch '\n' ∉ column.type := by
  obtain ⟨t, ht⟩ := (parseNode_columns L P h hn).type column hc
  rw [validateColumnType_iff ht]
  constructor
  · rintro ⟨⟨t', a, ht', ha⟩, hs⟩
    obtain rfl := Except.ok.inj (ht.symm.trans ht')
    exact ⟨hs, hs ▸ (arrowType_defined_iff ht).1 ⟨a, ha⟩⟩
  · rintro ⟨hs, hnl⟩
    obtain ⟨a, ha⟩ := (arrowType_defined_iff ht).2 (hs.symm ▸ hnl)
    exact ⟨⟨t, a, ht, ha⟩, hs⟩

/-- The column that `typedHeap` declares. -/
def typedNode (type : Str) : Node where
  schema := py "s"
  table := py "t"
  owner := py "o"
  schedule := py "d"
  criticality := .core
  script := py "x.py"
  reads := .empty
  outputColumns := [⟨py "a", type, true⟩]
  description := []
  extraColumns := .raise
  config := .empty
  contentHash := none
  kind := .pythonApi
  secretRef := []
  modeType := .replace
  primaryKey := []
  timeoutMinutes := none
  primaryKey_eq_nil := primaryKey_nil

/-- A `TEXT` column is accepted at every stage. -/
theorem storedType_accepted_text :
    ((∃ t a, parseSqlType plainLang.reprStr (py "TEXT") = .ok t ∧ arrowType plainLang.reprStr t = .ok a) ∧
        validateColumnType plainLang.reprStr (py "TEXT") = .ok ()) ↔
      strip (py "TEXT") = py "TEXT" ∧ ch '\n' ∉ py "TEXT" :=
  storedType_accepted_iff plainLang emptySql (typedHeap (py "TEXT")) true (typedRoot _) (py "c.yml")
    (typedNode (py "TEXT")) ⟨py "a", py "TEXT", true⟩ rfl (List.mem_singleton.2 rfl)

/-- **Accepted, then refused**: the loader takes a type that the DDL refuses, and one
    that has no Arrow type. -/
theorem storedType_refused_later :
    (∃ node, parseNode plainLang emptySql (typedHeap (py "TEXT ")) true (typedRoot _) (py "c.yml") = .ok node ∧
      ∃ column ∈ node.outputColumns, column.type = py "TEXT " ∧
        validateColumnType plainLang.reprStr column.type ≠ .ok ()) ∧
    ∃ node, parseNode plainLang emptySql (typedHeap (py "NUMERIC(3,\n2)")) true (typedRoot _) (py "c.yml") =
        .ok node ∧
      ∃ column ∈ node.outputColumns, column.type = py "NUMERIC(3,\n2)" ∧
        ∃ t, parseSqlType plainLang.reprStr column.type = .ok t ∧
          ¬ ∃ a, arrowType plainLang.reprStr t = .ok a := by
  refine ⟨⟨typedNode (py "TEXT "), rfl, _, List.mem_singleton.2 rfl, rfl, fun h => ?_⟩,
    typedNode (py "NUMERIC(3,\n2)"), rfl, _, List.mem_singleton.2 rfl, rfl,
    .bare (py "NUMERIC(3,\n2)"), rfl, fun ⟨a, ha⟩ => ?_⟩
  · cases h
  · cases ha

end ContinuoRuntime
