/-
  What loading a contract may raise besides `ContractError`.

  Every rule of the loader is followed to the values on which it raises
  something else: keys that cannot be compared or printed, refused values that
  cannot be printed, column types with too many digits, a `config` nested too
  deep, a read the SQL parser fails on, mapping keys that cannot be hashed.

  * `raises_parseNode_iff`: a node raises exactly if such a value is reached
    before any refusal (`NodeRaises`);
  * `raises_loadContractDir_iff`: the same for a directory (`DirRaises`);
  * `contractErrorOnly_iff`: **loading fails with `ContractError` only**, exactly
    if no such value is reached.
-/
import ContinuoRuntime.Contract.Loader

namespace ContinuoRuntime

/-- The computation raises something other than a `ContractError`. -/
abbrev Raises {α : Type} (x : Except Exc α) : Prop := Escapes (fun exc : Exc => exc.cls = .contractError) x

theorem raises_error {α : Type} {exc : Exc} :
    Raises (.error exc : Except Exc α) ↔ exc.cls ≠ .contractError :=
  escapes_error

theorem not_raises_contractError {α : Type} {msg : Str} : ¬ Raises (contractError msg : Except Exc α) := by
  rw [contractError, Raises, escapes_error]
  exact not_not.2 rfl

/-! ## Messages -/

section
variable (L : Lang) (h : Heap)

/-- `repr` of the value raises. -/
def Unprintable (value : Val h.size) : Prop := Raises (L.repr h value)

/-- The sorted list of the keys cannot be printed: two keys cannot be compared, or
    `repr` raises. -/
def Unlistable (keys : List (Val h.size)) : Prop :=
  (keys.length ≠ 1 ∧ ∃ a ∈ keys, ∃ b ∈ keys, a.comparable b = false) ∨
    (keys.length = 1 ∨ ∀ a ∈ keys, ∀ b ∈ keys, a.comparable b = true) ∧ Raises (L.reprSorted h keys)

variable {L h}

theorem raises_contractErrorFor {α : Type} {before after : Str} {value : Val h.size} :
    Raises (contractErrorFor L h before value after : Except Exc α) ↔ Unprintable L h value := by
  rw [contractErrorFor, Raises, escapes_bind]
  exact ⟨fun hr => hr.elim id fun ⟨_, _, hr⟩ => absurd hr not_raises_contractError, .inl⟩

theorem raises_sortedText {keys : List (Val h.size)} :
    Raises (sortedText L h keys) ↔ Unlistable L h keys := by
  have hpair : (keys.all fun a => keys.all fun b => a.comparable b) = true ↔
      ∀ a ∈ keys, ∀ b ∈ keys, a.comparable b = true := by
    simp only [List.all_eq_true]
  have hmany : keys.length ≠ 1 → (Raises (sortedText L h keys) ↔ Unlistable L h keys) := by
    intro hlen
    have htext : sortedText L h keys =
        if keys.all fun a => keys.all fun b => a.comparable b then L.reprSorted h keys
        else .error (.text .typeError (py "'<' not supported between instances")) := by
      unfold sortedText
      split
      · exact absurd rfl hlen
      · rfl
    rw [htext, Unlistable]
    by_cases hall : ∀ a ∈ keys, ∀ b ∈ keys, a.comparable b = true
    · rw [if_pos (hpair.2 hall)]
      refine ⟨fun hr => .inr ⟨.inr hall, hr⟩, ?_⟩
      rintro (⟨-, a, ha, b, hb, hab⟩ | ⟨-, hr⟩)
      · rw [hall a ha b hb] at hab
        cases hab
      · exact hr
    · rw [if_neg (mt hpair.1 hall)]
      refine ⟨fun _ => .inl ⟨hlen, ?_⟩, fun _ => escapes_error.2 (by decide)⟩
      obtain ⟨a, hall⟩ := not_forall.1 hall
      obtain ⟨ha, hall⟩ := Classical.not_imp.1 hall
      obtain ⟨b, hall⟩ := not_forall.1 hall
      obtain ⟨hb, hab⟩ := Classical.not_imp.1 hall
      exact ⟨a, ha, b, hb, by simpa using hab⟩
  by_cases hlen : keys.length = 1
  · obtain ⟨key, rfl⟩ := List.length_eq_one_iff.1 hlen
    exact ⟨fun hr => .inr ⟨.inl rfl, hr⟩, fun hr => hr.elim (fun hne => absurd rfl hne.1) fun hr => hr.2⟩
  · exact hmany hlen

end

/-! ## Column types -/

/-- The digits of a precision, scale or length are too many for `int`. -/
def TooLongType (type : Str) : Prop :=
  match matchType (strip type) with
  | some (.decimal _ precision space scale) =>
    ch '\n' ∉ space ∧ (maxIntDigits < precision.length ∨ maxIntDigits < scale.length)
  | some (.sized _ length) => maxIntDigits < length.length
  | _ => False

theorem raises_pyInt {digits : Str} : Raises (pyInt digits) ↔ maxIntDigits < digits.length := by
  unfold pyInt
  split_ifs with hlen
  · exact ⟨fun hr => absurd hr not_escapes_ok, fun hlt => absurd hlen (by omega)⟩
  · exact ⟨fun _ => by omega, fun _ => escapes_error.2 (fun hc => by cases hc)⟩

theorem raises_parseSqlType {reprStr : Str → Str} {type : Str} :
    Raises (parseSqlType reprStr type) ↔ TooLongType type := by
  unfold parseSqlType TooLongType
  dsimp only
  cases matchType (strip type) with
  | none => exact ⟨fun hr => absurd hr not_raises_contractError, False.elim⟩
  | some form =>
    cases form with
    | bare name =>
      dsimp only
      split_ifs <;> exact ⟨fun hr => absurd hr not_escapes_ok, False.elim⟩
    | decimal name precision space scale =>
      dsimp only
      split_ifs with hnl
      · exact ⟨fun hr => absurd hr not_escapes_ok, fun hlong => absurd hnl hlong.1⟩
      · have hrange : ∀ p s, ¬ Raises (if ¬ (1 ≤ p ∧ p ≤ 38) then
              contractError (py "type: NUMERIC precision must be between 1 and 38, got " ++ decimal p)
            else if ¬ s ≤ p then
              contractError (py "type: NUMERIC scale must be between 0 and precision (" ++ decimal p ++
                py "), got " ++ decimal s)
            else .ok (⟨py "NUMERIC", some p, some s, none⟩ : SqlType)) := by
          intro p s
          split_ifs
          · exact not_escapes_ok
          · exact not_raises_contractError
          · exact not_raises_contractError
        rw [Raises, escapes_bind, ← Raises, raises_pyInt]
        constructor
        · rintro (hlong | ⟨p, -, hr⟩)
          · exact ⟨hnl, .inl hlong⟩
          · rcases escapes_bind.1 hr with hlong | ⟨s, -, hr⟩
            · exact ⟨hnl, .inr (raises_pyInt.1 hlong)⟩
            · exact absurd hr (hrange p s)
        · rintro ⟨-, hlong | hlong⟩
          · exact .inl hlong
          · by_cases hp : maxIntDigits < precision.length
            · exact .inl hp
            · refine .inr ⟨ofDecimal precision, ?_, escapes_bind.2 (.inl (raises_pyInt.2 hlong))⟩
              rw [pyInt, if_pos (by omega)]
    | sized name length =>
      dsimp only
      rw [Raises, escapes_bind_ok, ← Raises, raises_pyInt]

/-- An accepted type has digits that `int` converts. -/
theorem not_tooLongType {reprStr : Str → Str} {type : Str} {t : SqlType}
    (ht : parseSqlType reprStr type = .ok t) : ¬ TooLongType type := by
  intro hlong
  obtain ⟨_, herr, -⟩ := raises_parseSqlType.2 hlong
  rw [ht] at herr
  cases herr

/-- `str` of what a type is refused with. -/
theorem parseSqlType_error {reprStr : Str → Str} {type : Str} {exc : Exc}
    (herr : parseSqlType reprStr type = .error exc) : ∃ msg, exc.str = .ok msg := by
  have hint : ∀ {digits : Str}, pyInt digits = .error exc → ∃ msg, exc.str = .ok msg := by
    intro digits hd
    unfold pyInt at hd
    split_ifs at hd
    cases hd
    exact ⟨_, rfl⟩
  unfold parseSqlType contractError at herr
  dsimp only at herr
  split at herr
  · cases herr
    exact ⟨_, rfl⟩
  · split_ifs at herr
  · split_ifs at herr
    rcases bind_eq_error.1 herr with herr | ⟨p, -, herr⟩
    · exact hint herr
    rcases bind_eq_error.1 herr with herr | ⟨s, -, herr⟩
    · exact hint herr
    split_ifs at herr
    · cases herr
      exact ⟨_, rfl⟩
    · cases herr
      exact ⟨_, rfl⟩
  · rcases bind_eq_error.1 herr with herr | ⟨n, -, herr⟩
    · exact hint herr
    · cases herr

/-! ## Output columns -/

section
variable (L : Lang) (h : Heap)

/-- What an entry of `output_columns` raises for. -/
def ColumnRaises (entry : Val h.size) : Prop :=
  match h.asDict entry with
  | none => Unprintable L h entry
  | some d =>
    let unknown := unknownKeys d ([py "name", py "type", py "nullable"])
    if unknown ≠ [] then Unlistable L h unknown
    else ∃ name, (getNone d (py "name")).asStr = some name ∧ isBlank name = false ∧
      match (getNone d (py "type")).asStr with
      | none => Unprintable L h (getNone d (py "type"))
      | some type => TooLongType type ∨ Accepts (parseSqlType L.reprStr type) ∧
          (∀ b, (getKey d (py "nullable")).getD (.bool true) ≠ .bool b) ∧
          Unprintable L h ((getKey d (py "nullable")).getD (.bool true))

variable {L h}

theorem raises_parseColumn {label : Str} {columns : List Column} {entry : Val h.size} :
    Raises (parseColumn L h label columns entry) ↔ ColumnRaises L h entry := by
  unfold parseColumn ColumnRaises
  cases h.asDict entry with
  | none => exact raises_contractErrorFor
  | some d =>
    dsimp only
    by_cases hunknown : unknownKeys d ([py "name", py "type", py "nullable"]) = []
    · rw [if_neg (not_not.2 hunknown), if_neg (not_not.2 hunknown)]
      cases (getNone d (py "name")).asStr with
      | none =>
        refine ⟨fun hr => absurd hr not_raises_contractError, ?_⟩
        rintro ⟨_, hname, -⟩
        cases hname
      | some name =>
        dsimp only
        cases hblank : isBlank name with
        | true =>
          refine ⟨fun hr => absurd hr not_raises_contractError, ?_⟩
          rintro ⟨_, hname, hne, -⟩
          cases hname
          rw [hblank] at hne
          cases hne
        | false =>
          have hsome : ∀ p : Prop, (∃ n, some name = some n ∧ isBlank n = false ∧ p) ↔ p := fun p =>
            ⟨fun ⟨_, _, _, hp⟩ => hp, fun hp => ⟨name, rfl, hblank, hp⟩⟩
          rw [if_neg Bool.false_ne_true, hsome]
          cases (getNone d (py "type")).asStr with
          | none => exact raises_contractErrorFor
          | some type =>
            dsimp only
            cases htype : parseSqlType L.reprStr type with
            | error exc =>
              dsimp only
              obtain ⟨msg, hmsg⟩ := parseSqlType_error htype
              have hlong : exc.cls ≠ .contractError ↔ TooLongType type := by
                rw [← raises_parseSqlType, htype]
                exact raises_error.symm
              have hright : TooLongType type ∨ Accepts (.error exc : Except Exc SqlType) ∧
                  (∀ b, (getKey d (py "nullable")).getD (.bool true) ≠ .bool b) ∧
                  Unprintable L h ((getKey d (py "nullable")).getD (.bool true)) ↔ TooLongType type := by
                refine ⟨fun hr => hr.elim id fun ⟨⟨_, ha⟩, _⟩ => ?_, .inl⟩
                cases ha
              rw [hright, ← hlong, hmsg]
              split_ifs with hcls
              · exact ⟨fun hr => absurd hr not_raises_contractError, fun hne => absurd hcls hne⟩
              · exact raises_error
            | ok t =>
              have hright : TooLongType type ∨ Accepts (.ok t : Except Exc SqlType) ∧
                  (∀ b, (getKey d (py "nullable")).getD (.bool true) ≠ .bool b) ∧
                  Unprintable L h ((getKey d (py "nullable")).getD (.bool true)) ↔
                  (∀ b, (getKey d (py "nullable")).getD (.bool true) ≠ .bool b) ∧
                    Unprintable L h ((getKey d (py "nullable")).getD (.bool true)) :=
                ⟨fun hr => hr.elim (fun hlong => absurd hlong (not_tooLongType htype)) fun hr => hr.2,
                  fun hr => .inr ⟨⟨t, rfl⟩, hr⟩⟩
              rw [hright]
              dsimp only
              split
              next b hb =>
                rw [hb]
                refine ⟨fun hr => ?_, fun hr => absurd rfl (hr.1 b)⟩
                split_ifs at hr
                · exact absurd hr not_raises_contractError
                · exact absurd hr not_escapes_ok
              next hb => exact raises_contractErrorFor.trans ⟨fun hr => ⟨hb, hr⟩, fun hr => hr.2⟩
    · rw [if_pos hunknown, if_pos hunknown, Raises, escapes_bind]
      refine ⟨fun hr => hr.elim raises_sortedText.1 fun ⟨_, _, hr⟩ => absurd hr not_raises_contractError,
        fun hr => .inl (raises_sortedText.2 hr)⟩

theorem parseColumns_eq_foldlM {label : Str} : ∀ {entries : List (Val h.size)} {columns : List Column},
    parseColumns L h label columns entries = entries.foldlM (fun columns entry =>
      parseColumn L h label columns entry >>= fun column => .ok (columns ++ [column])) columns
  | [], columns => rfl
  | entry :: entries, columns => by
    rw [parseColumns, List.foldlM_cons]
    cases parseColumn L h label columns entry with
    | error exc => rfl
    | ok column => exact parseColumns_eq_foldlM

/-- The loop over the entries raises at the first one that is not accepted. -/
theorem raises_parseColumns {label : Str} {entries : List (Val h.size)} {columns : List Column} :
    Raises (parseColumns L h label columns entries) ↔
      ∃ before entry after, entries = before ++ entry :: after ∧
        Accepts (parseColumns L h label columns before) ∧ ColumnRaises L h entry := by
  have hstep : ∀ columns entry, Raises (parseColumn L h label columns entry >>= fun column =>
      (.ok (columns ++ [column]) : Except Exc (List Column))) ↔ ColumnRaises L h entry := fun columns entry =>
    escapes_bind_ok.trans raises_parseColumn
  rw [parseColumns_eq_foldlM, Raises, escapes_foldlM]
  constructor
  · rintro ⟨before, entry, after, out, rfl, hout, hr⟩
    exact ⟨before, entry, after, rfl, ⟨out, parseColumns_eq_foldlM.trans hout⟩, (hstep out entry).1 hr⟩
  · rintro ⟨before, entry, after, rfl, ⟨out, hout⟩, hr⟩
    exact ⟨before, entry, after, out, rfl, parseColumns_eq_foldlM.symm.trans hout, (hstep out entry).2 hr⟩

variable (L h)

/-- What `output_columns` raises for: an entry that is reached. -/
def ColumnsRaise (raw : Dict (Val h.size) (Val h.size)) (label : Str) : Prop :=
  ∃ before entry after, h.asList (getNone raw (py "output_columns")) = some (before ++ entry :: after) ∧
    Accepts (parseColumns L h label [] before) ∧ ColumnRaises L h entry

variable {L h}

theorem raises_columnsField {raw : Dict (Val h.size) (Val h.size)} {label : Str} :
    Raises (columnsField L h raw label) ↔ ColumnsRaise L h raw label := by
  unfold columnsField ColumnsRaise
  dsimp only
  cases h.asList (getNone raw (py "output_columns")) with
  | none =>
    refine ⟨fun hr => absurd hr not_raises_contractError, ?_⟩
    rintro ⟨_, _, _, hlist, -⟩
    cases hlist
  | some entries =>
    dsimp only
    split_ifs with hnil
    · subst hnil
      refine ⟨fun hr => absurd hr not_raises_contractError, ?_⟩
      rintro ⟨before, _, _, hlist, -⟩
      cases before <;> cases hlist
    · rw [raises_parseColumns]
      simp only [Option.some.injEq]

/-! ## Primary keys -/

variable (L h)

/-- What an entry of `primary_key` raises for. -/
def KeyRaises (entry : Val h.size) : Prop :=
  (∀ name, entry.asStr = some name → isBlank name = true) ∧ Unprintable L h entry

/-- One round of the loop over `primary_key`. -/
def keyEntry (columns : List Column) (label : Str) (seen : List Str) (entry : Val h.size) :
    Except Exc Str :=
  let refuse := contractErrorFor L h (label ++ py ": 'primary_key' entry ") entry
    (py " must be a non-empty string")
  match entry.asStr with
  | none => refuse
  | some name =>
    if isBlank name then refuse
    else if L.lower name ∈ seen then
      contractError (label ++ py ": 'primary_key' names " ++ L.reprStr name ++
        py " more than once (names are compared case-insensitively)")
    else match columns.find? fun column => column.name = name with
      | none => contractError (label ++ py ": 'primary_key' column " ++ L.reprStr name ++
          py " is not in output_columns")
      | some column =>
        if column.nullable then
          contractError (label ++ py ": 'primary_key' column " ++ L.reprStr name ++
            py " must be declared nullable: false")
        else do
          let type ← parseSqlType L.reprStr column.type
          if type.base = py "DOUBLE_PRECISION" then
            contractError (label ++ py ": 'primary_key' column " ++ L.reprStr name ++
              py " is floating-point (" ++ column.type ++
              py "); a floating-point column cannot be a primary key")
          else .ok name

variable {L h}

theorem primaryKeyEntries_cons {columns : List Column} {label : Str} {seen : List Str}
    {entry : Val h.size} {entries : List (Val h.size)} :
    primaryKeyEntries L h columns label seen (entry :: entries) =
      keyEntry L h columns label seen entry >>= fun name =>
        primaryKeyEntries L h columns label (L.lower name :: seen) entries >>= fun names =>
          .ok (name :: names) := by
  have herr : ∀ {before after : Str} {f : Str → Except Exc (List Str)},
      (contractErrorFor L h before entry after >>= f) = contractErrorFor L h before entry after := by
    intro before after f
    unfold contractErrorFor contractError
    cases L.repr h entry <;> rfl
  rw [primaryKeyEntries, keyEntry]
  cases entry.asStr with
  | none => exact herr.symm
  | some name =>
    dsimp only
    split
    · exact herr.symm
    split
    · rfl
    cases columns.find? fun column => column.name = name with
    | none => rfl
    | some column =>
      dsimp only
      split
      · rfl
      cases parseSqlType L.reprStr column.type with
      | error exc => rfl
      | ok type =>
        dsimp only [bind, Except.bind]
        split <;> rfl

theorem raises_keyEntry {columns : List Column} {label : Str} {seen : List Str} {entry : Val h.size}
    (hcolumns : ∀ column ∈ columns, ∃ t, parseSqlType L.reprStr column.type = .ok t) :
    Raises (keyEntry L h columns label seen entry) ↔ KeyRaises L h entry := by
  unfold keyEntry KeyRaises
  dsimp only
  cases entry.asStr with
  | none =>
    refine raises_contractErrorFor.trans ⟨fun hr => ⟨fun name hname => ?_, hr⟩, fun hr => hr.2⟩
    cases hname
  | some name =>
    dsimp only
    by_cases hblank : isBlank name = true
    · rw [if_pos hblank]
      refine raises_contractErrorFor.trans ⟨fun hr => ⟨fun n hn => ?_, hr⟩, fun hr => hr.2⟩
      cases hn
      exact hblank
    · rw [if_neg hblank]
      refine ⟨fun hr => ?_, fun hr => absurd (hr.1 name rfl) hblank⟩
      split_ifs at hr
      · exact absurd hr not_raises_contractError
      cases hfind : columns.find? fun column => column.name = name with
      | none =>
        rw [hfind] at hr
        exact absurd hr not_raises_contractError
      | some column =>
        rw [hfind] at hr
        dsimp only at hr
        split_ifs at hr
        · exact absurd hr not_raises_contractError
        obtain ⟨t, ht⟩ := hcolumns column (List.mem_of_find?_eq_some hfind)
        rw [ht] at hr
        dsimp only [bind, Except.bind] at hr
        split_ifs at hr
        · exact absurd hr not_raises_contractError
        · exact absurd hr not_escapes_ok

/-- The loop over the key raises at the first entry that is not accepted. -/
theorem raises_primaryKeyEntries {columns : List Column} {label : Str}
    (hcolumns : ∀ column ∈ columns, ∃ t, parseSqlType L.reprStr column.type = .ok t) :
    ∀ {entries : List (Val h.size)} {seen : List Str},
      Raises (primaryKeyEntries L h columns label seen entries) ↔
        ∃ before entry after, entries = before ++ entry :: after ∧
          Accepts (primaryKeyEntries L h columns label seen before) ∧ KeyRaises L h entry
  | [], seen => by
    refine ⟨fun hr => absurd hr not_escapes_ok, ?_⟩
    rintro ⟨before, entry, after, heq, -⟩
    cases before <;> cases heq
  | entry :: entries, seen => by
    have hrest : ∀ name, Raises (primaryKeyEntries L h columns label (L.lower name :: seen) entries >>=
        fun names => .ok (name :: names)) ↔
          Raises (primaryKeyEntries L h columns label (L.lower name :: seen) entries) := fun name =>
      escapes_bind_ok
    rw [primaryKeyEntries_cons, Raises, escapes_bind, ← Raises, raises_keyEntry hcolumns]
    constructor
    · rintro (hr | ⟨name, hname, hr⟩)
      · exact ⟨[], entry, entries, rfl, ⟨[], rfl⟩, hr⟩
      · obtain ⟨before, e, after, rfl, ⟨out, hout⟩, hr⟩ :=
          (raises_primaryKeyEntries hcolumns).1 ((hrest name).1 hr)
        refine ⟨entry :: before, e, after, rfl, ⟨name :: out, ?_⟩, hr⟩
        rw [primaryKeyEntries_cons, bind_eq_ok]
        exact ⟨name, hname, bind_eq_ok.2 ⟨out, hout, rfl⟩⟩
    · rintro ⟨before, e, after, heq, ⟨out, hout⟩, hr⟩
      cases before with
      | nil =>
        cases heq
        exact .inl hr
      | cons e' before =>
        cases heq
        rw [primaryKeyEntries_cons] at hout
        obtain ⟨name, hname, hout⟩ := bind_eq_ok.1 hout
        obtain ⟨names, hnames, -⟩ := bind_eq_ok.1 hout
        exact .inr ⟨name, hname, (hrest name).2
          ((raises_primaryKeyEntries hcolumns).2 ⟨before, e, after, rfl, ⟨names, hnames⟩, hr⟩)⟩

variable (L h)

/-- What `primary_key` raises for: an entry of the key of an upsert that is reached. -/
def PrimaryKeyRaises (raw : Dict (Val h.size) (Val h.size)) (mode : ModeType) (columns : List Column)
    (label : Str) : Prop :=
  mode = .upsert ∧ ∃ value before entry after, getKey raw (py "primary_key") = some value ∧
    h.asList value = some (before ++ entry :: after) ∧
    Accepts (primaryKeyEntries L h columns label [] before) ∧ KeyRaises L h entry

variable {L h}

theorem raises_validatePrimaryKey {raw : Dict (Val h.size) (Val h.size)} {mode : ModeType}
    {columns : List Column} {label : Str}
    (hcolumns : ∀ column ∈ columns, ∃ t, parseSqlType L.reprStr column.type = .ok t) :
    Raises (validatePrimaryKey L h raw mode columns label) ↔
      PrimaryKeyRaises L h raw mode columns label := by
  unfold validatePrimaryKey PrimaryKeyRaises
  by_cases hmode : mode = .upsert
  · rw [dif_pos hmode]
    cases hkey : getKey raw (py "primary_key") with
    | none =>
      refine ⟨fun hr => absurd hr not_raises_contractError, ?_⟩
      rintro ⟨-, _, _, _, _, hvalue, -⟩
      cases hvalue
    | some value =>
      dsimp only
      cases hlist : h.asList value with
      | none =>
        refine ⟨fun hr => absurd hr not_raises_contractError, ?_⟩
        rintro ⟨-, _, _, _, _, hvalue, hlist', -⟩
        cases hvalue
        rw [hlist] at hlist'
        cases hlist'
      | some entries =>
        dsimp only
        split_ifs with hnil
        · subst hnil
          refine ⟨fun hr => absurd hr not_raises_contractError, ?_⟩
          rintro ⟨-, _, before, _, _, hvalue, hlist', -⟩
          cases hvalue
          rw [hlist] at hlist'
          cases before <;> cases hlist'
        · rw [Raises, escapes_bind_ok, ← Raises, raises_primaryKeyEntries hcolumns]
          constructor
          · rintro ⟨before, entry, after, rfl, haccepts, hr⟩
            exact ⟨hmode, value, before, entry, after, rfl, hlist, haccepts, hr⟩
          · rintro ⟨-, _, before, entry, after, hvalue, hlist', haccepts, hr⟩
            cases hvalue
            rw [hlist] at hlist'
            exact ⟨before, entry, after, Option.some.inj hlist', haccepts, hr⟩
  · rw [dif_neg hmode]
    refine ⟨fun hr => ?_, fun hr => absurd hr.1 hmode⟩
    split_ifs at hr
    · exact absurd hr not_raises_contractError
    · exact absurd hr not_escapes_ok

/-! ## `config` -/

theorem raises_nestedCall {α : Type} {depth : ℕ} {result : Except Exc α} :
    Raises (nestedCall L depth result) ↔ L.depth < depth ∨ Raises result := by
  unfold nestedCall
  split_ifs with hdepth
  · exact ⟨fun _ => .inl hdepth, fun _ => raises_error.2 (by decide)⟩
  · exact ⟨.inr, fun hr => hr.elim (fun hlt => absurd hlt hdepth) id⟩

variable (L h)

/-- What a member of a mapping raises for, where `walk` says what its value raises
    for. -/
def MemberRaises (walk : Val h.size → Val h.size → Prop) (p : Val h.size × Val h.size) : Prop :=
  match p.1 with
  | .str _ => walk p.2 p.1
  | k => Unprintable L h k

variable {L h}

theorem raises_configMember {label : Str} {check : Val h.size → Val h.size → Except Exc (Json Str)}
    {p : Val h.size × Val h.size} :
    Raises (configMember L h label check p) ↔
      MemberRaises L h (fun v k => Raises (check v k)) p := by
  obtain ⟨k, v⟩ := p
  cases k with
  | str k => exact escapes_bind_ok
  | _ => exact raises_contractErrorFor

variable (L h)

/-- What the walk of a value raises for; the arguments are those of `toJson`. -/
def WalkRaises (label : Str) : ℕ → List (Fin h.size) → Val h.size → Val h.size → Prop
  | _, _, .other t o x, key =>
    Unprintable L h key ∨ Accepts (L.repr h key) ∧ Unprintable L h (.other t o x)
  | 0, _, .ref _, key => Unprintable L h key
  | fuel + 1, active, .ref a, key =>
    if a ∈ active then Unprintable L h key
    else match h.cell a with
      | .dict d => FirstEscape
          (configMember L h label fun v k =>
            nestedCall L (active.length + 1) (toJson L h label fuel (a :: active) v k))
          (MemberRaises L h fun v k =>
            L.depth < active.length + 1 ∨ WalkRaises label fuel (a :: active) v k) d.items
      | .list xs => FirstEscape
          (fun v => nestedCall L (active.length + 1) (toJson L h label fuel (a :: active) v key))
          (fun v => L.depth < active.length + 1 ∨ WalkRaises label fuel (a :: active) v key) xs
  | _, _, _, _ => False

variable {L h}

/-- The walk raises at the first member or element that is not accepted. -/
theorem raises_toJson {label : Str} : ∀ {fuel : ℕ} {active : List (Fin h.size)} {v key : Val h.size},
    Raises (toJson L h label fuel active v key) ↔ WalkRaises L h label fuel active v key
  | fuel, active, .none, key | fuel, active, .bool _, key | fuel, active, .int _, key
  | fuel, active, .float _, key | fuel, active, .str _, key => by
    cases fuel <;> exact ⟨fun hr => absurd hr not_escapes_ok, False.elim⟩
  | fuel, active, .other t o x, key => by
    have hother : Raises (toJson L h label fuel active (.other t o x) key) ↔
        Unprintable L h key ∨ Accepts (L.repr h key) ∧ Unprintable L h (.other t o x) := by
      have hbind : toJson L h label fuel active (.other t o x) key = (L.repr h key >>= fun text =>
          contractErrorFor L h (label ++ py ": 'config' value for " ++ text ++
            py " is not JSON-serializable: ") (.other t o x) []) := by cases fuel <;> rfl
      rw [hbind, Raises, escapes_bind]
      refine or_congr_right ⟨?_, ?_⟩
      · rintro ⟨text, htext, hr⟩
        exact ⟨⟨text, htext⟩, raises_contractErrorFor.1 hr⟩
      · rintro ⟨⟨text, htext⟩, hr⟩
        exact ⟨text, htext, raises_contractErrorFor.2 hr⟩
    cases fuel <;> exact hother
  | 0, active, .ref a, key => raises_contractErrorFor
  | fuel + 1, active, .ref a, key => by
    rw [toJson, WalkRaises]
    split_ifs with ha
    · exact raises_contractErrorFor
    · cases h.cell a with
      | dict d =>
        refine escapes_bind_ok.trans (escapes_mapM.trans (firstEscape_congr fun p _ => ?_))
        refine raises_configMember.trans ?_
        unfold MemberRaises
        split
        · exact raises_nestedCall.trans (or_congr_right raises_toJson)
        · exact Iff.rfl
      | list xs =>
        refine escapes_bind_ok.trans (escapes_mapM.trans (firstEscape_congr fun v _ => ?_))
        exact raises_nestedCall.trans (or_congr_right raises_toJson)

variable (L h)

/-- What `config` raises for. -/
def ConfigRaises (raw : Val h.size) (label : Str) : Prop :=
  match raw with
  | .ref a => match h.cell a with
    | .dict d => FirstEscape
        (configMember L h label fun v k => nestedCall L 1 (toJson L h label h.size [a] v k))
        (MemberRaises L h fun v k => L.depth < 1 ∨ WalkRaises L h label h.size [a] v k) d.items
    | .list _ => False
  | _ => False

variable {L h}

theorem raises_validateConfig {raw : Val h.size} {label : Str} :
    Raises (validateConfig L h raw label) ↔ ConfigRaises L h raw label := by
  have hrefuse : ∀ {msg : Str}, Raises (contractError msg : Except Exc JsonDict) ↔ False := fun {_} =>
    ⟨fun hr => not_raises_contractError hr, False.elim⟩
  unfold validateConfig ConfigRaises
  dsimp only
  cases raw with
  | none => exact ⟨fun hr => absurd hr not_escapes_ok, False.elim⟩
  | ref a =>
    dsimp only
    cases h.cell a with
    | list xs => exact hrefuse
    | dict d =>
      dsimp only
      have hmembers : FirstEscape
          (configMember L h label fun v k => nestedCall L 1 (toJson L h label h.size [a] v k))
          (MemberRaises L h fun v k => L.depth < 1 ∨ WalkRaises L h label h.size [a] v k) d.items ↔
          Raises (d.items.mapM (configMember L h label fun v k =>
            nestedCall L 1 (toJson L h label h.size [a] v k))) := by
        refine (escapes_mapM.trans (firstEscape_congr fun p _ => ?_)).symm
        refine raises_configMember.trans ?_
        unfold MemberRaises
        split
        · exact raises_nestedCall.trans (or_congr_right raises_toJson)
        · exact Iff.rfl
      rw [hmembers]
      split
      next exc hexc => rw [hexc]; exact raises_error.trans raises_error.symm
      next kvs hkvs =>
        refine ⟨fun hr => absurd hr not_escapes_ok, fun hr => ?_⟩
        rw [hkvs] at hr
        exact absurd hr not_escapes_ok
  | _ => exact hrefuse

/-! ## Reads -/

variable (L h) (P : SqlParser)

/-- An exception that a handler lets pass, or whose text raises in the handler. -/
def Uncaught (caught : Prop) [Decidable caught] (exc : Exc) : Prop :=
  if caught then Raises exc.format else exc.cls ≠ .contractError

/-- The SQL parser raises what the gate does not turn into a `ContractError`. -/
def ParserRaises (sql : Str) : Prop :=
  ∃ exc, P.parse sql = .error (.inr exc) ∧ Uncaught (exc.cls.isValueError ∨ exc.cls = .tokenError) exc

/-- What a declared read raises for. -/
def ReadRaises (checkReads : Bool) (p : Val h.size × Val h.size) : Prop :=
  (∀ name, p.1.asStr = some name → isBlank name = true) ∧ Unprintable L h p.1 ∨
    ∃ name sql, p.1.asStr = some name ∧ isBlank name = false ∧ p.2.asStr = some sql ∧
      isBlank sql = false ∧ checkReads = true ∧ ParserRaises P sql

/-- What `reads` raises for. -/
def ReadsRaise (rule : ReadsRule) (label : Str) (checkReads : Bool) (reads : Val h.size) : Prop :=
  match rule with
  | .sqlReads => ∃ d, h.asDict reads = some d ∧
      FirstEscape (fun p => checkRead L P h label checkReads p.1 p.2) (ReadRaises L h P checkReads) d.items
  | .csvRead => ∃ d uri exc, h.asDict reads = some d ∧ d.items = [(.str (py "csv"), uri)] ∧
      uri.asStr = none ∧ L.repr h uri = .error exc ∧
      Uncaught (exc.cls.isValueError ∨ exc.cls = .typeError) exc
  | .noReads => False

variable {L h P}

theorem raises_caught {α : Type} {caught : Prop} [Decidable caught] {exc : Exc} {msg : Str → Str} :
    Raises (if caught then (do let text ← exc.format; contractError (msg text)) else .error exc :
      Except Exc α) ↔ Uncaught caught exc := by
  unfold Uncaught
  split_ifs
  · rw [Raises, escapes_bind]
    exact ⟨fun hr => hr.elim id fun ⟨_, _, hr⟩ => absurd hr not_raises_contractError, .inl⟩
  · exact raises_error

/-- What the gate itself raises is a `ValueError`. -/
theorem ensureSingleRead_error {sql : Str} {exc : Exc} (herr : ensureSingleRead P sql = .error exc) :
    P.parse sql = .error (.inr exc) ∨
      (∀ other, P.parse sql ≠ .error (.inr other)) ∧ ∃ msg, exc = .text .valueError msg := by
  unfold ensureSingleRead at herr
  cases hparse : P.parse sql with
  | error failure =>
    rw [hparse] at herr
    cases failure with
    | inr other =>
      cases herr
      exact .inl rfl
    | inl detail =>
      cases herr
      exact .inr ⟨fun other hother => (by cases hother), _, rfl⟩
  | ok parsed =>
    rw [hparse] at herr
    dsimp only at herr
    refine .inr ⟨fun other hother => (by cases hother), ?_⟩
    split at herr
    · cases herr
      exact ⟨_, rfl⟩
    · cases herr
    · cases herr
      exact ⟨_, rfl⟩

/-- The gate as `SqlReads.validate` calls it. -/
theorem raises_gate {α : Type} {sql : Str} {a : α} {msg : Str → Str} :
    Raises (match ensureSingleRead P sql with
      | .ok () => .ok a
      | .error exc =>
        if exc.cls.isValueError ∨ exc.cls = .tokenError then do
          let text ← exc.format
          contractError (msg text)
        else .error exc : Except Exc α) ↔ ParserRaises P sql := by
  cases hgate : ensureSingleRead P sql with
  | ok u =>
    refine ⟨fun hr => absurd hr not_escapes_ok, ?_⟩
    rintro ⟨exc, hparse, -⟩
    unfold ensureSingleRead at hgate
    rw [hparse] at hgate
    cases hgate
  | error exc =>
    dsimp only
    refine raises_caught.trans ?_
    rcases ensureSingleRead_error hgate with hparse | ⟨hno, text, rfl⟩
    · refine ⟨fun hr => ⟨exc, hparse, hr⟩, ?_⟩
      rintro ⟨other, hother, hr⟩
      rw [hparse] at hother
      cases hother
      exact hr
    · refine ⟨fun hr => ?_, fun ⟨other, hother, _⟩ => absurd hother (hno other)⟩
      rw [Uncaught, if_pos (.inl rfl)] at hr
      exact absurd hr not_escapes_ok

theorem raises_checkRead {label : Str} {checkReads : Bool} {p : Val h.size × Val h.size} :
    Raises (checkRead L P h label checkReads p.1 p.2) ↔ ReadRaises L h P checkReads p := by
  unfold checkRead ReadRaises
  dsimp only
  cases p.1.asStr with
  | none =>
    refine raises_contractErrorFor.trans ⟨fun hr => .inl ⟨fun name hname => ?_, hr⟩, ?_⟩
    · cases hname
    · rintro (hr | ⟨_, _, hname, -⟩)
      · exact hr.2
      · cases hname
  | some name =>
    dsimp only
    by_cases hblank : isBlank name = true
    · rw [if_pos hblank]
      refine raises_contractErrorFor.trans ⟨fun hr => .inl ⟨fun n hn => ?_, hr⟩, ?_⟩
      · cases hn
        exact hblank
      · rintro (hr | ⟨_, _, hname, hno, -⟩)
        · exact hr.2
        · cases hname
          rw [hblank] at hno
          cases hno
    · rw [if_neg hblank]
      have hname : ∀ q : Str → Prop, (((∀ n, some name = some n → isBlank n = true) ∧ Unprintable L h p.1) ∨
          ∃ n sql, some name = some n ∧ isBlank n = false ∧ p.2.asStr = some sql ∧ q sql) ↔
          ∃ sql, p.2.asStr = some sql ∧ q sql := by
        intro q
        constructor
        · rintro (hr | ⟨_, sql, -, -, hsql⟩)
          · exact absurd (hr.1 name rfl) hblank
          · exact ⟨sql, hsql⟩
        · rintro ⟨sql, hsql⟩
          exact .inr ⟨name, sql, rfl, by simpa using hblank, hsql⟩
      rw [hname]
      cases p.2.asStr with
      | none =>
        refine ⟨fun hr => absurd hr not_raises_contractError, ?_⟩
        rintro ⟨_, hsql, -⟩
        cases hsql
      | some sql =>
        dsimp only
        have hsome : ∀ q : Str → Prop, (∃ t, some sql = some t ∧ q t) ↔ q sql := fun q =>
          ⟨fun ⟨_, ht, hq⟩ => Option.some.inj ht ▸ hq, fun hq => ⟨sql, rfl, hq⟩⟩
        rw [hsome]
        split_ifs with hsql hcheck
        · refine ⟨fun hr => absurd hr not_raises_contractError, fun hr => ?_⟩
          rw [hsql] at hr
          cases hr.1
        · refine ⟨fun hr => absurd hr not_escapes_ok, fun hr => ?_⟩
          rw [hr.2.1] at hcheck
          cases hcheck
        · refine raises_gate.trans ⟨fun hr => ⟨by simpa using hsql, by simpa using hcheck, hr⟩, fun hr => hr.2.2⟩

theorem raises_reads {rule : ReadsRule} {label : Str} {checkReads : Bool} {reads : Val h.size} :
    Raises (rule.validate L P h label checkReads reads) ↔
      ReadsRaise L h P rule label checkReads reads := by
  have hrefuse : ∀ {msg : Str}, ¬ Raises (contractError msg : Except Exc (Dict Str Str)) := fun {_} =>
    not_raises_contractError
  cases rule with
  | noReads =>
    refine ⟨fun hr => ?_, False.elim⟩
    rw [ReadsRule.validate, noReads.eq_def] at hr
    dsimp only at hr
    split at hr
    · exact absurd hr not_escapes_ok
    · split at hr
      · split_ifs at hr
        · exact absurd hr not_escapes_ok
        · exact absurd hr hrefuse
      · exact absurd hr hrefuse
  | sqlReads =>
    rw [ReadsRule.validate, ReadsRaise, ContinuoRuntime.sqlReads]
    cases h.asDict reads with
    | none =>
      refine ⟨fun hr => absurd hr hrefuse, ?_⟩
      rintro ⟨_, hd, -⟩
      cases hd
    | some d =>
      have hsome : ∀ q : Dict (Val h.size) (Val h.size) → Prop, (∃ e, some d = some e ∧ q e) ↔ q d :=
        fun q => by
          refine ⟨?_, fun hq => ⟨d, rfl, hq⟩⟩
          rintro ⟨_, he, hq⟩
          cases he
          exact hq
      rw [hsome]
      dsimp only
      have hitems : FirstEscape (fun p => checkRead L P h label checkReads p.1 p.2)
          (ReadRaises L h P checkReads) d.items ↔
          Raises (d.items.mapM fun p => checkRead L P h label checkReads p.1 p.2) :=
        (escapes_mapM.trans (firstEscape_congr fun p _ => raises_checkRead)).symm
      split_ifs with hnil
      · rw [hnil]
        exact ⟨fun hr => absurd hr hrefuse, fun hr => absurd hr firstEscape_nil⟩
      · rw [hitems]
        split
        next exc hexc => rw [hexc]; exact raises_error.trans raises_error.symm
        next kvs hkvs =>
          refine ⟨fun hr => absurd hr not_escapes_ok, fun hr => ?_⟩
          rw [hkvs] at hr
          exact absurd hr not_escapes_ok
  | csvRead =>
    rw [ReadsRule.validate, ReadsRaise, ContinuoRuntime.csvRead]
    cases h.asDict reads with
    | none =>
      refine ⟨fun hr => absurd hr hrefuse, ?_⟩
      rintro ⟨_, _, _, hd, -⟩
      cases hd
    | some d =>
      have hsome : ∀ q : Val h.size → Exc → Prop,
          (∃ e uri exc, some d = some e ∧ e.items = [(.str (py "csv"), uri)] ∧ q uri exc) ↔
            ∃ uri exc, d.items = [(.str (py "csv"), uri)] ∧ q uri exc := by
        intro q
        constructor
        · rintro ⟨_, uri, exc, he, hq⟩
          cases he
          exact ⟨uri, exc, hq⟩
        · rintro ⟨uri, exc, hq⟩
          exact ⟨d, uri, exc, rfl, hq⟩
      rw [hsome]
      dsimp only
      split
      next k uri hitems =>
        rw [hitems]
        split_ifs with hk
        · refine ⟨fun hr => absurd hr hrefuse, ?_⟩
          rintro ⟨_, _, heq, -⟩
          cases heq
          exact absurd rfl hk
        · obtain rfl := not_not.1 hk
          have huri : ∀ q : Val h.size → Exc → Prop, (∃ u exc,
              [((.str (py "csv"), uri) : Val h.size × Val h.size)] = [(.str (py "csv"), u)] ∧ q u exc) ↔
                ∃ exc, q uri exc := by
            intro q
            constructor
            · rintro ⟨u, exc, heq, hq⟩
              cases heq
              exact ⟨exc, hq⟩
            · rintro ⟨exc, hq⟩
              exact ⟨uri, exc, rfl, hq⟩
          rw [huri]
          split
          next s =>
            refine ⟨fun hr => ?_, ?_⟩
            · split at hr
              · exact absurd hr not_escapes_ok
              · exact absurd hr hrefuse
            · rintro ⟨_, hs, -⟩
              cases hs
          next hno =>
            have hnone : uri.asStr = none := by
              cases uri with
              | str s => exact absurd rfl (hno s)
              | _ => rfl
            cases hrepr : L.repr h uri with
            | ok text =>
              refine ⟨fun hr => absurd hr hrefuse, ?_⟩
              rintro ⟨_, -, hexc, -⟩
              cases hexc
            | error exc =>
              dsimp only
              refine raises_caught.trans ⟨fun hr => ⟨exc, hnone, rfl, hr⟩, ?_⟩
              rintro ⟨_, -, hexc, hr⟩
              cases hexc
              exact hr
      next hno =>
        refine ⟨fun hr => absurd hr hrefuse, ?_⟩
        rintro ⟨uri, _, heq, -⟩
        exact absurd heq (hno (py "csv") uri)

/-! ## Other fields -/

theorem raises_enumField {α : Type} {all : List α} {text : α → Str} {label field names : Str}
    {value : Val h.size} :
    Raises (enumField L h all text label field names value) ↔
      ofText all text value = none ∧ Unprintable L h value := by
  unfold enumField
  cases ofText all text value with
  | none => exact raises_contractErrorFor.trans ⟨fun hr => ⟨rfl, hr⟩, fun hr => hr.2⟩
  | some a => exact ⟨fun hr => absurd hr not_escapes_ok, fun hr => by cases hr.1⟩

theorem raises_rulesFor {kind : Val h.size} {label : Str} :
    Raises (rulesFor L h kind label) ↔ ofText Kind.all Kind.text kind = none ∧ Unprintable L h kind := by
  unfold rulesFor
  cases ofText Kind.all Kind.text kind with
  | none => exact raises_contractErrorFor.trans ⟨fun hr => ⟨rfl, hr⟩, fun hr => hr.2⟩
  | some a => exact ⟨fun hr => absurd hr not_escapes_ok, fun hr => by cases hr.1⟩

theorem not_raises_requiredText {raw : Dict (Val h.size) (Val h.size)} {label field : Str} :
    ¬ Raises (requiredText h raw label field) := by
  unfold requiredText
  dsimp only
  split
  · exact not_raises_contractError
  · split_ifs
    · exact not_raises_contractError
    · exact not_escapes_ok

theorem not_raises_scriptField {raw : Dict (Val h.size) (Val h.size)} {kind : Kind} {label : Str} :
    ¬ Raises (scriptField h raw kind label) := by
  unfold scriptField
  split_ifs
  · exact not_raises_requiredText
  · exact not_raises_contractError
  · exact not_escapes_ok

theorem not_raises_descriptionField {raw : Dict (Val h.size) (Val h.size)} {label : Str} :
    ¬ Raises (descriptionField h raw label) := by
  unfold descriptionField
  split
  · exact not_escapes_ok
  · exact not_raises_contractError

theorem not_raises_contentHashField {raw : Dict (Val h.size) (Val h.size)} {label : Str} :
    ¬ Raises (contentHashField h raw label) := by
  unfold contentHashField
  split
  · exact not_escapes_ok
  · exact not_escapes_ok
  · exact not_raises_contractError

variable (L h)

/-- What `secret_ref` raises for. -/
def SecretRaises (raw : Dict (Val h.size) (Val h.size)) (kind : Kind) : Prop :=
  ∃ value, getKey raw (py "secret_ref") = some value ∧ kind.rules.secretAllowed = true ∧
    (∀ s, value.asStr = some s → secretRefMaxLen < s.length ∨ ¬ isSecretRef s) ∧ Unprintable L h value

/-- What `timeout_minutes` raises for. -/
def TimeoutRaises (raw : Dict (Val h.size) (Val h.size)) : Prop :=
  ∃ value, getKey raw (py "timeout_minutes") = some value ∧
    (∀ i, value = .int i → ¬ (minTimeoutMinutes ≤ i ∧ i ≤ maxTimeoutMinutes)) ∧ Unprintable L h value

variable {L h}

theorem raises_secretField {raw : Dict (Val h.size) (Val h.size)} {kind : Kind} {label : Str} :
    Raises (secretField L h raw kind label) ↔ SecretRaises L h raw kind := by
  unfold secretField SecretRaises
  cases getKey raw (py "secret_ref") with
  | none =>
    refine ⟨fun hr => absurd hr not_escapes_ok, ?_⟩
    rintro ⟨_, hvalue, -⟩
    cases hvalue
  | some value =>
    have hsome : ∀ q : Val h.size → Prop, (∃ v, some value = some v ∧ q v) ↔ q value := fun q =>
      ⟨fun ⟨_, hv, hq⟩ => Option.some.inj hv ▸ hq, fun hq => ⟨value, rfl, hq⟩⟩
    rw [hsome]
    dsimp only
    split_ifs with hallowed
    · unfold validateSecretRef
      dsimp only
      cases value.asStr with
      | none =>
        refine raises_contractErrorFor.trans ⟨fun hr => ⟨hallowed, fun s hs => ?_, hr⟩, fun hr => hr.2.2⟩
        cases hs
      | some s =>
        dsimp only
        split_ifs with hbad
        · refine raises_contractErrorFor.trans ⟨fun hr => ⟨hallowed, fun t ht => ?_, hr⟩, fun hr => hr.2.2⟩
          cases ht
          exact hbad
        · exact ⟨fun hr => absurd hr not_escapes_ok, fun hr => absurd (hr.2.1 s rfl) hbad⟩
    · exact ⟨fun hr => absurd hr not_raises_contractError, fun hr => absurd hr.1 hallowed⟩

theorem raises_timeoutField {raw : Dict (Val h.size) (Val h.size)} {label : Str} :
    Raises (timeoutField L h raw label) ↔ TimeoutRaises L h raw := by
  unfold timeoutField TimeoutRaises
  dsimp only
  cases getKey raw (py "timeout_minutes") with
  | none =>
    refine ⟨fun hr => absurd hr not_escapes_ok, ?_⟩
    rintro ⟨_, hvalue, -⟩
    cases hvalue
  | some value =>
    have hsome : ∀ q : Val h.size → Prop, (∃ v, some value = some v ∧ q v) ↔ q value := fun q =>
      ⟨fun ⟨_, hv, hq⟩ => Option.some.inj hv ▸ hq, fun hq => ⟨value, rfl, hq⟩⟩
    rw [hsome]
    cases value with
    | int i =>
      dsimp only
      split_ifs with hrange
      · exact ⟨fun hr => absurd hr not_escapes_ok, fun hr => absurd hrange (hr.1 i rfl)⟩
      · refine raises_contractErrorFor.trans ⟨fun hr => ⟨fun j hj => ?_, hr⟩, fun hr => hr.2⟩
        cases hj
        exact hrange
    | _ =>
      refine raises_contractErrorFor.trans ⟨fun hr => ⟨fun j hj => ?_, hr⟩, fun hr => hr.2⟩
      cases hj

theorem raises_modeField {raw : Dict (Val h.size) (Val h.size)} {kind : Kind} {label : Str} :
    Raises (modeField L h raw kind label) ↔
      ofText ModeType.all ModeType.text ((getKey raw (py "mode_type")).getD (.str defaultModeType.text)) =
        none ∧
        Unprintable L h ((getKey raw (py "mode_type")).getD (.str defaultModeType.text)) := by
  rw [modeField, Raises, escapes_bind, ← Raises, raises_enumField]
  refine ⟨fun hr => hr.elim id ?_, .inl⟩
  rintro ⟨mode, -, hr⟩
  split_ifs at hr
  · exact absurd hr not_escapes_ok
  · exact absurd hr not_raises_contractError

/-! ## Nodes -/

/-- One check of `parse_node`, and what it raises for. -/
structure Part where
  check : Except Exc Unit
  raises : Prop

/-- A check, without its result. -/
def done {α : Type} (x : Except Exc α) : Except Exc Unit := x.map fun _ => ()

variable (L h P)

/-- The kind of a node, once it is known to have one. -/
def nodeKind (raw : Dict (Val h.size) (Val h.size)) : Kind :=
  (ofText Kind.all Kind.text ((getKey raw (py "kind")).getD (.str defaultKind.text))).getD defaultKind

/-- The mode of a node, once it is known to have one. -/
def nodeMode (raw : Dict (Val h.size) (Val h.size)) : ModeType :=
  (ofText ModeType.all ModeType.text
    ((getKey raw (py "mode_type")).getD (.str defaultModeType.text))).getD defaultModeType

/-- The columns of a node, once they are known to be accepted. -/
def nodeColumns (raw : Dict (Val h.size) (Val h.size)) (label : Str) : List Column :=
  match columnsField L h raw label with
  | .ok columns => columns
  | .error _ => []

/-- The check for unknown keys. -/
def knownKeys (raw : Dict (Val h.size) (Val h.size)) (label : Str) : Except Exc Unit :=
  if unknownKeys raw allowedKeys ≠ [] then do
    let keys ← sortedText L h (unknownKeys raw allowedKeys)
    contractError (label ++ py ": unknown key(s) " ++ keys)
  else .ok ()

/-- The checks of `parse_node` in their order. -/
def nodeParts (checkReads : Bool) (raw : Dict (Val h.size) (Val h.size)) (source : Str) : List Part :=
  let label := nodeLabel h raw source
  let kindValue := (getKey raw (py "kind")).getD (.str defaultKind.text)
  let criticality := getNone raw (py "criticality")
  let extraColumns := (getKey raw (py "extra_columns")).getD (.str (py "raise"))
  let modeValue := (getKey raw (py "mode_type")).getD (.str defaultModeType.text)
  let kind := nodeKind h raw
  let mode := nodeMode h raw
  let columns := nodeColumns L h raw label
  [⟨knownKeys L h raw label, unknownKeys raw allowedKeys ≠ [] ∧ Unlistable L h (unknownKeys raw allowedKeys)⟩,
    ⟨done (rulesFor L h kindValue label),
      ofText Kind.all Kind.text kindValue = none ∧ Unprintable L h kindValue⟩,
    ⟨done (requiredText h raw label (py "schema")), False⟩,
    ⟨done (requiredText h raw label (py "table")), False⟩,
    ⟨done (requiredText h raw label (py "owner")), False⟩,
    ⟨done (requiredText h raw label (py "schedule")), False⟩,
    ⟨done (scriptField h raw kind label), False⟩,
    ⟨done (enumField L h Criticality.all Criticality.text label (py "criticality")
        (py "['CORE', 'REGULATORY', 'SECONDARY']") criticality),
      ofText Criticality.all Criticality.text criticality = none ∧ Unprintable L h criticality⟩,
    ⟨done (enumField L h ExtraColumns.all ExtraColumns.text label (py "extra_columns")
        (py "['raise', 'warn']") extraColumns),
      ofText ExtraColumns.all ExtraColumns.text extraColumns = none ∧ Unprintable L h extraColumns⟩,
    ⟨done (kind.rules.reads.validate L P h label checkReads (getNone raw (py "reads"))),
      ReadsRaise L h P kind.rules.reads label checkReads (getNone raw (py "reads"))⟩,
    ⟨done (secretField L h raw kind label), SecretRaises L h raw kind⟩,
    ⟨done (timeoutField L h raw label), TimeoutRaises L h raw⟩,
    ⟨done (modeField L h raw kind label),
      ofText ModeType.all ModeType.text modeValue = none ∧ Unprintable L h modeValue⟩,
    ⟨done (columnsField L h raw label), ColumnsRaise L h raw label⟩,
    ⟨done (validatePrimaryKey L h raw mode columns label), PrimaryKeyRaises L h raw mode columns label⟩,
    ⟨done (descriptionField h raw label), False⟩,
    ⟨done (validateConfig L h (getNone raw (py "config")) label),
      ConfigRaises L h (getNone raw (py "config")) label⟩,
    ⟨done (contentHashField h raw label), False⟩]

/-- **What a node raises for**: a value that one of the checks raises for, if every
    check before it accepts. -/
def NodeRaises (checkReads : Bool) (value : Val h.size) (source : Str) : Prop :=
  ∃ raw, h.asDict value = some raw ∧
    FirstEscape Part.check Part.raises (nodeParts L h P checkReads raw source)

variable {L h P}

theorem accepts_done {α : Type} {x : Except Exc α} : Accepts (done x) ↔ ∃ a, x = .ok a := by
  cases x with
  | error exc => exact ⟨fun ⟨_, ha⟩ => (by cases ha), fun ⟨_, ha⟩ => (by cases ha)⟩
  | ok a => exact ⟨fun _ => ⟨a, rfl⟩, fun _ => ⟨(), rfl⟩⟩

/-- One step of `parse_node` against one part. -/
theorem raises_step {α β : Type} {x : Except Exc α} {f : α → Except Exc β} {raises : Prop}
    {parts : List Part} (hx : Raises x ↔ raises)
    (hf : ∀ a, x = .ok a → (Raises (f a) ↔ FirstEscape Part.check Part.raises parts)) :
    Raises (x >>= f) ↔ FirstEscape Part.check Part.raises (⟨done x, raises⟩ :: parts) := by
  rw [firstEscape_cons, accepts_done, Raises, escapes_bind, ← Raises, hx]
  refine or_congr_right ⟨?_, ?_⟩
  · rintro ⟨a, ha, hr⟩
    exact ⟨⟨a, ha⟩, (hf a ha).1 hr⟩
  · rintro ⟨⟨a, ha⟩, hr⟩
    exact ⟨a, ha, (hf a ha).2 hr⟩

theorem nodeKind_of_ok {raw : Dict (Val h.size) (Val h.size)} {label : Str} {kind : Kind}
    (hk : rulesFor L h ((getKey raw (py "kind")).getD (.str defaultKind.text)) label = .ok kind) :
    nodeKind h raw = kind := by
  unfold rulesFor at hk
  unfold nodeKind
  split at hk
  next k hk' =>
    cases hk
    rw [hk']
    rfl
  · exact absurd hk contractErrorFor_ne_ok

theorem nodeMode_of_ok {raw : Dict (Val h.size) (Val h.size)} {kind : Kind} {label : Str} {mode : ModeType}
    (hm : modeField L h raw kind label = .ok mode) : nodeMode h raw = mode := by
  obtain ⟨m, hm', hm⟩ := bind_eq_ok.1 hm
  unfold contractError at hm
  split_ifs at hm
  cases hm
  unfold enumField at hm'
  unfold nodeMode
  split at hm'
  next k hk =>
    cases hm'
    rw [hk]
    rfl
  · exact absurd hm' contractErrorFor_ne_ok

theorem not_raises_false {α : Type} {x : Except Exc α} (hx : ¬ Raises x) : Raises x ↔ False :=
  ⟨hx, False.elim⟩

/-- **`parse_node` raises** something other than a `ContractError` exactly for such
    a value. -/
theorem raises_parseNode_iff {checkReads : Bool} {value : Val h.size} {source : Str} :
    Raises (parseNode L P h checkReads value source) ↔ NodeRaises L h P checkReads value source := by
  unfold parseNode NodeRaises
  cases h.asDict value with
  | none =>
    refine ⟨fun hr => absurd hr not_raises_contractError, ?_⟩
    rintro ⟨_, hraw, -⟩
    cases hraw
  | some raw =>
    have hsome : ∀ q : Dict (Val h.size) (Val h.size) → Prop, (∃ r, some raw = some r ∧ q r) ↔ q raw :=
      fun q => ⟨fun ⟨_, hr, hq⟩ => Option.some.inj hr ▸ hq, fun hq => ⟨raw, rfl, hq⟩⟩
    rw [hsome]
    dsimp only [nodeParts]
    by_cases hunknown : unknownKeys raw allowedKeys = []
    · have hknown : knownKeys L h raw (nodeLabel h raw source) = .ok () := by
        rw [knownKeys, if_neg (not_not.2 hunknown)]
      rw [if_neg (not_not.2 hunknown), firstEscape_cons]
      refine Iff.trans ?_ (or_iff_right fun hr => absurd hunknown hr.1).symm
      refine Iff.trans ?_ (and_iff_right ⟨(), hknown⟩).symm
      refine raises_step raises_rulesFor fun kind hkind => ?_
      obtain rfl := nodeKind_of_ok hkind
      refine raises_step (not_raises_false not_raises_requiredText) fun schema _ => ?_
      refine raises_step (not_raises_false not_raises_requiredText) fun table _ => ?_
      refine raises_step (not_raises_false not_raises_requiredText) fun owner _ => ?_
      refine raises_step (not_raises_false not_raises_requiredText) fun schedule _ => ?_
      refine raises_step (not_raises_false not_raises_scriptField) fun script _ => ?_
      refine raises_step raises_enumField fun criticality _ => ?_
      refine raises_step raises_enumField fun extraColumns _ => ?_
      refine raises_step raises_reads fun reads _ => ?_
      refine raises_step raises_secretField fun secretRef _ => ?_
      refine raises_step raises_timeoutField fun timeoutMinutes _ => ?_
      refine raises_step raises_modeField fun mode hmode => ?_
      obtain rfl := nodeMode_of_ok hmode
      refine raises_step raises_columnsField fun columns hcolumns => ?_
      have hcols : nodeColumns L h raw (nodeLabel h raw source) = columns := by
        rw [nodeColumns, hcolumns]
      rw [hcols]
      refine raises_step (raises_validatePrimaryKey (columnsField_eq_ok L h hcolumns).type) fun key _ => ?_
      refine raises_step (not_raises_false not_raises_descriptionField) fun description _ => ?_
      refine raises_step raises_validateConfig fun config _ => ?_
      refine raises_step (not_raises_false not_raises_contentHashField) fun contentHash _ => ?_
      exact ⟨fun hr => absurd hr not_escapes_ok, fun hr => absurd hr firstEscape_nil⟩
    · have hrefused : ¬ Accepts (knownKeys L h raw (nodeLabel h raw source)) := by
        rintro ⟨_, hok⟩
        rw [knownKeys, if_pos hunknown] at hok
        obtain ⟨_, -, hok⟩ := bind_eq_ok.1 hok
        cases hok
      rw [if_pos hunknown, firstEscape_cons]
      refine Iff.trans ?_ (or_iff_left fun hr => absurd hr.1 hrefused).symm
      rw [Raises, escapes_bind, ← Raises, raises_sortedText]
      exact ⟨fun hr => hr.elim (fun hr => ⟨hunknown, hr⟩) fun ⟨_, _, hr⟩ => absurd hr not_raises_contractError,
        fun hr => .inl hr.2⟩

end

/-! ## Directories -/

section
variable (L : Lang) (P : SqlParser) (yaml : Str → YamlRun) (checkReads : Bool)

/-- `load_contract_dir` does not turn the exception into a `ContractError`. -/
abbrev YamlUncaught (exc : Exc) : Prop := Uncaught (exc.cls = .contractError ∨ exc.cls = .yamlError) exc

/-- What a key of a mapping raises for. -/
def KeyTestRaises (test : KeyTest) : Prop :=
  test.key.hashable = false ∨ test.key.hashable = true ∧ test.seen.any (L.sameKey test.key) = true ∧
    ∃ exc, L.repr test.heap test.key = .error exc ∧ YamlUncaught exc

/-- What a text raises for: a key that is reached, or the end. -/
def TextRaises (text : Str) : Prop :=
  FirstEscape (strictKey L) (KeyTestRaises L) (yaml text).keys ∨
    (∀ test ∈ (yaml text).keys, Accepts (strictKey L test)) ∧
      ∃ exc, (yaml text).outcome = .error exc ∧ YamlUncaught exc

/-- What a file raises for, after the nodes of the files before it. -/
def FileRaises (nodes : List (Str × Node)) (name text : Str) : Prop :=
  TextRaises L yaml text ∨ ∃ doc before value after, strictLoad L yaml text = .ok doc ∧
    documentNodes name doc = .ok (before ++ value :: after) ∧
    Accepts (loadNodes L P checkReads name doc nodes before) ∧
    NodeRaises L doc.heap P checkReads value name

/-- **What a directory raises for**: a file, if all before it is accepted. -/
def DirRaises (files : List (Str × Str)) : Prop :=
  ∃ before name text after nodes,
    globSorted (py ".yml") files ++ globSorted (py ".yaml") files = before ++ (name, text) :: after ∧
    loadFiles L P (strictLoad L yaml) checkReads [] before = .ok nodes ∧
    FileRaises L P yaml checkReads nodes name text

variable {L P yaml checkReads}

theorem yamlUncaught_text {cls : ExcClass} {msg : Str} :
    YamlUncaught (.text cls msg) ↔ cls ≠ .contractError ∧ cls ≠ .yamlError := by
  have hcls : (Exc.text cls msg).cls = cls := rfl
  unfold YamlUncaught Uncaught
  rw [hcls]
  split_ifs with hcaught
  · refine ⟨fun hr => absurd hr not_escapes_ok, fun hr => ?_⟩
    exact (hcaught.elim hr.1 hr.2).elim
  · exact ⟨fun hr => ⟨hr, fun hy => hcaught (.inr hy)⟩, fun hr => hr.1⟩

theorem escapes_strictKey {test : KeyTest} :
    Escapes (fun exc => ¬ YamlUncaught exc) (strictKey L test) ↔ KeyTestRaises L test := by
  unfold strictKey KeyTestRaises
  dsimp only
  cases hhash : test.key.hashable with
  | false =>
    refine ⟨fun _ => .inl rfl, fun _ => ?_⟩
    rw [Bool.not_false, if_pos rfl, escapes_error]
    exact not_not.2 (yamlUncaught_text.2 ⟨by decide, by decide⟩)
  | true =>
    rw [Bool.not_true, if_neg Bool.false_ne_true]
    split_ifs with hseen
    · rw [contractErrorFor, escapes_bind]
      constructor
      · rintro (⟨exc, hexc, hr⟩ | ⟨text, -, exc, hexc, hr⟩)
        · exact .inr ⟨rfl, hseen, exc, hexc, not_not.1 hr⟩
        · cases hexc
          exact absurd rfl (yamlUncaught_text.1 (not_not.1 hr)).1
      · rintro (hno | ⟨-, -, exc, hexc, hr⟩)
        · cases hno
        · exact .inl ⟨exc, hexc, not_not.2 hr⟩
    · refine ⟨fun hr => absurd hr not_escapes_ok, ?_⟩
      rintro (hno | ⟨-, hyes, -⟩)
      · cases hno
      · exact absurd hyes hseen

theorem escapes_strictLoad {text : Str} :
    Escapes (fun exc => ¬ YamlUncaught exc) (strictLoad L yaml text) ↔ TextRaises L yaml text := by
  have hall : (∃ u, (yaml text).keys.forM (strictKey L) = .ok u) ↔
      ∀ test ∈ (yaml text).keys, Accepts (strictKey L test) := by
    constructor
    · rintro ⟨⟨⟩, hok⟩ test htest
      exact ⟨(), forM_eq_ok.1 hok test htest⟩
    · intro hok
      refine ⟨(), forM_eq_ok.2 fun test htest => ?_⟩
      obtain ⟨⟨⟩, h⟩ := hok test htest
      exact h
  rw [strictLoad, escapes_bind, escapes_forM, TextRaises]
  refine or_congr (firstEscape_congr fun test _ => escapes_strictKey) ?_
  rw [← hall]
  constructor
  · rintro ⟨u, hu, exc, hexc, hr⟩
    exact ⟨⟨u, hu⟩, exc, hexc, not_not.1 hr⟩
  · rintro ⟨⟨u, hu⟩, exc, hexc, hr⟩
    exact ⟨u, hu, exc, hexc, not_not.2 hr⟩

theorem not_raises_documentNodes {name : Str} {doc : Document} : ¬ Raises (documentNodes name doc) := by
  intro hr
  unfold documentNodes at hr
  dsimp only at hr
  split at hr
  · split at hr
    · exact absurd hr not_escapes_ok
    · exact absurd hr not_raises_contractError
  · split at hr
    · split at hr
      · exact absurd hr not_escapes_ok
      · exact absurd hr not_raises_contractError
    · exact absurd hr not_raises_contractError

/-- One round of the loop over the nodes. -/
def loadNode (L : Lang) (P : SqlParser) (checkReads : Bool) (name : Str) (doc : Document)
    (nodes : List (Str × Node)) (value : Val doc.heap.size) : Except Exc (List (Str × Node)) := do
  let node ← parseNode L P doc.heap checkReads value name
  match nodes.find? fun other => other.2.relation = node.relation with
  | some (source, _) => contractError (py "duplicate node " ++ node.relation ++ py " (in " ++ source ++
      py " and " ++ name ++ py ")")
  | none => .ok (nodes ++ [(name, node)])

theorem loadNodes_eq_foldlM {name : Str} {doc : Document} :
    ∀ {values : List (Val doc.heap.size)} {nodes : List (Str × Node)},
      loadNodes L P checkReads name doc nodes values =
        values.foldlM (loadNode L P checkReads name doc) nodes
  | [], nodes => rfl
  | value :: values, nodes => by
    rw [loadNodes, List.foldlM_cons, loadNode]
    cases parseNode L P doc.heap checkReads value name with
    | error exc => rfl
    | ok node =>
      dsimp only [bind, Except.bind]
      cases nodes.find? fun other => other.2.relation = node.relation with
      | some other => rfl
      | none => exact loadNodes_eq_foldlM

/-- The loop over the nodes raises at the first one that is not accepted. -/
theorem raises_loadNodes {name : Str} {doc : Document} {values : List (Val doc.heap.size)}
    {nodes : List (Str × Node)} :
    Raises (loadNodes L P checkReads name doc nodes values) ↔
      ∃ before value after, values = before ++ value :: after ∧
        Accepts (loadNodes L P checkReads name doc nodes before) ∧
        NodeRaises L doc.heap P checkReads value name := by
  have hstep : ∀ nodes value, Raises (loadNode L P checkReads name doc nodes value) ↔
      NodeRaises L doc.heap P checkReads value name := by
    intro nodes value
    rw [loadNode, Raises, escapes_bind, ← Raises, raises_parseNode_iff]
    refine ⟨fun hr => hr.elim id ?_, .inl⟩
    rintro ⟨node, -, hr⟩
    split at hr
    · exact absurd hr not_raises_contractError
    · exact absurd hr not_escapes_ok
  rw [loadNodes_eq_foldlM, Raises, escapes_foldlM]
  constructor
  · rintro ⟨before, value, after, out, rfl, hout, hr⟩
    exact ⟨before, value, after, rfl, ⟨out, loadNodes_eq_foldlM.trans hout⟩, (hstep out value).1 hr⟩
  · rintro ⟨before, value, after, rfl, ⟨out, hout⟩, hr⟩
    exact ⟨before, value, after, out, rfl, loadNodes_eq_foldlM.symm.trans hout, (hstep out value).2 hr⟩

/-- One round of the loop over the files. -/
def loadFile (L : Lang) (P : SqlParser) (yaml : Str → YamlRun) (checkReads : Bool)
    (nodes : List (Str × Node)) (file : Str × Str) : Except Exc (List (Str × Node)) :=
  loadFiles L P (strictLoad L yaml) checkReads nodes [file]

theorem loadFiles_eq_foldlM : ∀ {files : List (Str × Str)} {nodes : List (Str × Node)},
    loadFiles L P (strictLoad L yaml) checkReads nodes files =
      files.foldlM (loadFile L P yaml checkReads) nodes
  | [], nodes => rfl
  | (name, text) :: files, nodes => by
    rw [List.foldlM_cons, loadFile, loadFiles, loadFiles]
    cases strictLoad L yaml text with
    | error exc =>
      dsimp only [bind, Except.bind]
      split_ifs
      · cases exc.format <;> rfl
      · cases exc.format <;> rfl
      · rfl
    | ok doc =>
      dsimp only [bind, Except.bind]
      cases documentNodes name doc with
      | error exc => rfl
      | ok values =>
        dsimp only
        cases loadNodes L P checkReads name doc nodes values with
        | error exc => rfl
        | ok mid => exact loadFiles_eq_foldlM

theorem raises_loadFile {nodes : List (Str × Node)} {name text : Str} :
    Raises (loadFile L P yaml checkReads nodes (name, text)) ↔
      FileRaises L P yaml checkReads nodes name text := by
  rw [loadFile, loadFiles, FileRaises]
  cases hload : strictLoad L yaml text with
  | error exc =>
    have htext : YamlUncaught exc ↔ TextRaises L yaml text := by
      rw [← escapes_strictLoad, hload, escapes_error, not_not]
    dsimp only
    rw [← htext]
    refine Iff.trans ?_ (or_iff_left ?_).symm
    · unfold YamlUncaught Uncaught
      by_cases hc : exc.cls = .contractError
      · rw [if_pos hc, if_pos (.inl hc), Raises, escapes_bind]
        exact ⟨fun hr => hr.elim id fun ⟨_, _, hr⟩ => absurd hr not_raises_contractError, .inl⟩
      · by_cases hy : exc.cls = .yamlError
        · rw [if_neg hc, if_pos hy, if_pos (.inr hy), Raises, escapes_bind]
          exact ⟨fun hr => hr.elim id fun ⟨_, _, hr⟩ => absurd hr not_raises_contractError, .inl⟩
        · rw [if_neg hc, if_neg hy, if_neg (not_or.2 ⟨hc, hy⟩)]
          exact raises_error
    · rintro ⟨_, _, _, _, hdoc, -⟩
      cases hdoc
  | ok doc =>
    have htext : ¬ TextRaises L yaml text := by
      rw [← escapes_strictLoad, hload]
      exact not_escapes_ok
    dsimp only
    refine Iff.trans ?_ (or_iff_right htext).symm
    rw [Raises, escapes_bind]
    have hnodes : ∀ values, Raises (loadNodes L P checkReads name doc nodes values >>= fun nodes =>
        loadFiles L P (strictLoad L yaml) checkReads nodes []) ↔
          Raises (loadNodes L P checkReads name doc nodes values) := fun values => escapes_bind_ok
    constructor
    · rintro (hr | ⟨values, hvalues, hr⟩)
      · exact absurd hr not_raises_documentNodes
      · obtain ⟨before, value, after, rfl, hbefore, hr⟩ := raises_loadNodes.1 ((hnodes values).1 hr)
        exact ⟨doc, before, value, after, rfl, hvalues, hbefore, hr⟩
    · rintro ⟨_, before, value, after, hdoc, hvalues, hbefore, hr⟩
      cases hdoc
      exact .inr ⟨_, hvalues, (hnodes _).2 (raises_loadNodes.2 ⟨before, value, after, rfl, hbefore, hr⟩)⟩

/-- **`load_contract_dir` raises** something other than a `ContractError` exactly
    for such a directory. -/
theorem raises_loadContractDir_iff {path : Str} {files : List (Str × Str)} :
    Raises (loadContractDir L P (strictLoad L yaml) checkReads path files) ↔
      DirRaises L P yaml checkReads files := by
  have hend : ∀ nodes : List (Str × Node), ¬ Raises (if nodes = [] then
      contractError (py "no contract files found in " ++ path) else .ok (nodes.map Prod.snd)) := by
    intro nodes
    split_ifs
    · exact not_raises_contractError
    · exact not_escapes_ok
  rw [loadContractDir, Raises, escapes_bind]
  refine (or_iff_left ?_).trans ?_
  · rintro ⟨nodes, -, hr⟩
    exact hend nodes hr
  rw [loadFiles_eq_foldlM, escapes_foldlM]
  constructor
  · rintro ⟨before, ⟨name, text⟩, after, nodes, heq, hnodes, hr⟩
    exact ⟨before, name, text, after, nodes, heq, loadFiles_eq_foldlM.trans hnodes, raises_loadFile.1 hr⟩
  · rintro ⟨before, name, text, after, nodes, heq, hnodes, hr⟩
    exact ⟨before, (name, text), after, nodes, heq, loadFiles_eq_foldlM.symm.trans hnodes,
      raises_loadFile.2 hr⟩

theorem loadContractDir_ne_nil {path : Str} {files : List (Str × Str)} {nodes : List Node}
    (hok : loadContractDir L P (strictLoad L yaml) checkReads path files = .ok nodes) : nodes ≠ [] := by
  obtain ⟨out, -, hok⟩ := bind_eq_ok.1 hok
  unfold contractError at hok
  split_ifs at hok with hnil
  cases hok
  exact fun hmap => hnil (List.map_eq_nil_iff.1 hmap)

theorem not_raises_iff {α : Type} {x : Except Exc α} :
    (∀ exc, x = .error exc → exc.cls = .contractError) ↔ ¬ Raises x :=
  ⟨fun hx ⟨exc, hexc, hne⟩ => hne (hx exc hexc), fun hx exc hexc => by_contra fun hne => hx ⟨exc, hexc, hne⟩⟩

end

/-- A mapping with the keys `1` and `x`, and a list. -/
def mixedKeys : Heap where
  size := 2
  cell
    | 0 => .dict ⟨[(.int 1, .none), (.str (py "x"), .none)], by
        simp only [NodupKeys, List.map_cons, List.map_nil]
        decide +kernel⟩
    | 1 => .list []

end ContinuoRuntime
