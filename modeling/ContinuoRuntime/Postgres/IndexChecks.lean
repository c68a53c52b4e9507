/-
  `_validated_indexes` fails closed: it raises before any statement, or returns
  the entries in order.

  * `Normalizes`: what a returned entry has of the declared one;
  * `validatedIndexes_normalizes`: every returned list;
  * `escapes_validatedIndexes`: the errors that are not `ValueError`, from the
    value that a message quotes;
  * `failsClosed_iff`: when every error is one.
-/
import ContinuoRuntime.Postgres.Session

namespace ContinuoRuntime

/-! ## Returned entries -/

/-- The entries that a config declares. -/
def DeclaredEntries (config : Json Str) (entries : List (Json Str)) : Prop :=
  config = .null ∧ entries = [] ∨
    ∃ members, config = .obj members ∧ (∀ p ∈ members, p.1 = py "indexes") ∧
      (members.lookup (py "indexes")).getD (.arr []) = .arr entries

/-- What an entry says of one key, `null` when it says nothing. -/
def entryField (entry : Json Str) (key : Str) : Json Str :=
  match entry with
  | .obj members => (members.lookup key).getD .null
  | _ => .null

/-- The normalized form of an entry, for a table with these columns. -/
structure Normalizes (columnNames : List Str) (entry : Json Str) (index : PgIndex) : Prop where
  columns : entryField entry (py "columns") = .arr (index.columns.map .str)
  columns_ne : index.columns ≠ []
  declared : ∀ c ∈ index.columns, c ≠ [] ∧ c ∈ columnNames
  unique : entryField entry (py "unique") = .bool index.unique ∨
    entryField entry (py "unique") = .null ∧ index.unique = false
  type : entryField entry (py "type") = .str index.type.text ∨
    entryField entry (py "type") = .null ∧ index.type = .btree
  allowed : index.type ∈ IndexType.all
  unique_btree : index.unique = true → index.type = .btree
  single_column : index.type ∈ singleColumnIndexTypes → index.columns.length = 1
  name_ne : index.name ≠ []
  name_fits : Fits index.name

section
variable {reprStr : Str → Str} {reprJson : Json Str → Except Exc Str}

theorem nonemptyTexts_eq_some : ∀ {vs : List (Json Str)} {cs : List Str}, nonemptyTexts vs = some cs →
    vs = cs.map .str ∧ ∀ c ∈ cs, c ≠ [] := by
  intro vs
  induction vs with
  | nil =>
    intro cs h
    cases h
    exact ⟨rfl, by simp⟩
  | cons v vs ih =>
    intro cs h
    unfold nonemptyTexts at h
    split at h
    · cases ‹_ :: _ = []›
    · next c s vs' heq =>
      cases heq
      obtain ⟨rest, hrest, rfl⟩ := Option.map_eq_some_iff.1 h
      obtain ⟨rfl, hne⟩ := ih hrest
      exact ⟨rfl, List.forall_mem_cons.2 ⟨List.cons_ne_nil _ _, hne⟩⟩
    · cases h

theorem valueErrorFor_ne_ok {α : Type} {before after : Str} {value : Json Str} {a : α} :
    valueErrorFor reprJson before value after ≠ .ok a := by
  intro h
  obtain ⟨_, -, h⟩ := bind_eq_ok.1 h
  cases h

theorem indexColumns_eq_ok {value : Json Str} {columnNames : List Str}
    {columns : { columns : List Str // columns ≠ [] }}
    (h : indexColumns reprStr reprJson value columnNames = .ok columns) :
    value = .arr (columns.val.map .str) ∧ ∀ c ∈ columns.val, c ≠ [] ∧ c ∈ columnNames := by
  unfold indexColumns at h
  dsimp only at h
  split at h
  · next vs =>
    split at h
    · next c cs htexts =>
      obtain ⟨rfl, hne⟩ := nonemptyTexts_eq_some htexts
      split_ifs at h with hmissing
      · cases h
        refine ⟨rfl, fun d hd => ⟨hne d hd, by_contra fun hnot => ?_⟩⟩
        exact List.filter_eq_nil_iff.1 hmissing d hd (decide_eq_true hnot)
      · cases h
    · exact absurd h valueErrorFor_ne_ok
  · exact absurd h valueErrorFor_ne_ok

theorem indexUnique_eq_ok {value : Option (Json Str)} {unique : Bool}
    (h : indexUnique reprJson value = .ok unique) :
    value = some (.bool unique) ∨ value = none ∧ unique = false := by
  unfold indexUnique at h
  split at h
  · cases h
    exact .inr ⟨rfl, rfl⟩
  · cases h
    exact .inl rfl
  · exact absurd h valueErrorFor_ne_ok

theorem IndexType.ofJson_eq_some {value : Json Str} {type : IndexType}
    (h : IndexType.ofJson value = some type) : value = .str type.text := by
  unfold IndexType.ofJson at h
  split at h
  · have hfound := List.find?_some h
    rw [of_decide_eq_true hfound]
  · cases h

theorem indexType_eq_ok {value : Option (Json Str)} {type : IndexType}
    (h : indexType reprJson value = .ok type) :
    value = some (.str type.text) ∨ value = none ∧ type = .btree := by
  unfold indexType at h
  split at h
  · cases h
    exact .inr ⟨rfl, rfl⟩
  · next value =>
    split at h
    · next found hfound =>
      cases h
      exact .inl (congrArg some (IndexType.ofJson_eq_some hfound))
    · exact absurd h valueErrorFor_ne_ok

theorem ensureKnownKeys_eq_ok {config : Json Str} {known : List Str} {engine «where» : Str}
    {members : List (Str × Json Str)} (h : ensureKnownKeys reprStr config known engine «where» = .ok members) :
    config = .obj members ∧ ∀ p ∈ members, p.1 ∈ known := by
  unfold ensureKnownKeys at h
  split at h
  · next kvs =>
    dsimp only at h
    split_ifs at h with hunknown
    · cases h
      refine ⟨rfl, fun p hp => by_contra fun hnot => ?_⟩
      have hkey : p.1 ∈ (members.map Prod.fst).filter fun key => key ∉ known :=
        List.mem_filter.2 ⟨List.mem_map_of_mem hp, decide_eq_true hnot⟩
      rw [List.map_eq_nil_iff.1 hunknown] at hkey
      cases hkey
    · cases h
    · cases h
  · cases h

/-- What the check of one entry has made sure of. -/
theorem indexEntry_eq_ok {columnNames : List Str} {entry : Json Str} {e : IndexEntry}
    (h : indexEntry reprStr reprJson columnNames entry = .ok e) :
    entryField entry (py "columns") = .arr (e.columns.map .str) ∧
      (∀ c ∈ e.columns, c ≠ [] ∧ c ∈ columnNames) ∧
      (entryField entry (py "unique") = .bool e.unique ∨
        entryField entry (py "unique") = .null ∧ e.unique = false) ∧
      (entryField entry (py "type") = .str e.type.text ∨
        entryField entry (py "type") = .null ∧ e.type = .btree) ∧
      ∀ name, e.given = some name → name ≠ [] := by
  obtain ⟨members, hmembers, h⟩ := bind_eq_ok.1 h
  obtain ⟨columns, hcolumns, h⟩ := bind_eq_ok.1 h
  obtain ⟨unique, hunique, h⟩ := bind_eq_ok.1 h
  obtain ⟨type, htype, h⟩ := bind_eq_ok.1 h
  split_ifs at h
  · cases h
  · cases h
  obtain ⟨given, hgiven, h⟩ := bind_eq_ok.1 h
  cases h
  obtain ⟨rfl, -⟩ := ensureKnownKeys_eq_ok hmembers
  obtain ⟨hvalue, hdeclared⟩ := indexColumns_eq_ok hcolumns
  refine ⟨hvalue, hdeclared, ?_, ?_, fun name hname => ?_⟩
  · rcases indexUnique_eq_ok hunique with hu | ⟨hu, rfl⟩
    · exact .inl (by rw [entryField, hu]; rfl)
    · exact .inr ⟨by rw [entryField, hu]; rfl, rfl⟩
  · rcases indexType_eq_ok htype with ht | ⟨ht, rfl⟩
    · exact .inl (by rw [entryField, ht]; rfl)
    · exact .inr ⟨by rw [entryField, ht]; rfl, rfl⟩
  · dsimp only at hname
    subst hname
    unfold indexNameField at hgiven
    split at hgiven
    · cases hgiven
    · cases hgiven
    · cases hgiven
      exact List.cons_ne_nil _ _
    · exact absurd hgiven valueErrorFor_ne_ok

theorem validatedIndex_normalizes {table : Str} {columnNames : List Str} {entry : Json Str} {index : PgIndex}
    (h : validatedIndex reprStr reprJson table columnNames entry = .ok index) :
    Normalizes columnNames entry index := by
  have hfits := fits_of_validatedIndex h
  obtain ⟨e, he, h⟩ := bind_eq_ok.1 h
  obtain ⟨name, hname, h⟩ := bind_eq_ok.1 h
  cases h
  obtain ⟨hcolumns, hdeclared, hunique, htype, hgiven⟩ := indexEntry_eq_ok he
  refine ⟨hcolumns, e.columns_ne, hdeclared, hunique, htype, ?_, e.unique_type, fun hsingle => ?_, ?_, hfits⟩
  · cases e.type <;> decide
  · exact le_antisymm (e.single_column hsingle) (List.length_pos_of_ne_nil e.columns_ne)
  · unfold IndexEntry.name at hname
    cases hg : e.given with
    | some given =>
      rw [hg] at hname
      exact truncate_ne_nil hname (hgiven given hg)
    | none =>
      rw [hg] at hname
      exact indexName_ne_nil hname

theorem rawIndexes_eq_ok {config : Json Str} {entries : List (Json Str)}
    (h : rawIndexes reprStr config = .ok entries) : DeclaredEntries config entries := by
  unfold rawIndexes at h
  split at h
  · cases h
    exact .inl ⟨rfl, rfl⟩
  · obtain ⟨members, hmembers, hentries⟩ := bind_eq_ok.1 h
    obtain ⟨rfl, hkeys⟩ := ensureKnownKeys_eq_ok hmembers
    split at hentries
    · next entries' heq =>
      cases hentries
      exact .inr ⟨members, rfl, fun p hp => List.mem_singleton.1 (hkeys p hp), heq⟩
    · cases hentries

/-- **Every returned list** has the declared entries, normalized and in order,
    under distinct names. -/
theorem validatedIndexes_normalizes {config : Json Str} {table : Str} {columnNames : List Str}
    {indexes : List PgIndex} (h : validatedIndexes reprStr reprJson config table columnNames = .ok indexes) :
    ∃ entries, DeclaredEntries config entries ∧ List.Forall₂ (Normalizes columnNames) entries indexes ∧
      (indexes.map PgIndex.name).Nodup := by
  have hnodup := (validatedIndexes_eq_ok h).1
  obtain ⟨entries, hentries, h⟩ := bind_eq_ok.1 h
  obtain ⟨normalized, hmap, h⟩ := bind_eq_ok.1 h
  obtain ⟨_, -, h⟩ := bind_eq_ok.1 h
  cases h
  exact ⟨entries, rawIndexes_eq_ok hentries,
    (mapM_eq_ok.1 hmap).imp fun _ _ => validatedIndex_normalizes, hnodup⟩

/-! ## Quoted values -/

/-- `isinstance(exc, ValueError)`. -/
def IsValueError (e : Exc) : Prop := e.cls.isValueError = true

theorem not_escapes_valueError {α : Type} {msg : Str} :
    ¬ Escapes IsValueError (valueError msg : Except Exc α) := by
  rintro ⟨e, h, he⟩
  cases h
  exact he rfl

theorem escapes_valueErrorFor {α : Type} {before after : Str} {value : Json Str} :
    Escapes IsValueError (valueErrorFor reprJson before value after : Except Exc α) ↔
      Escapes IsValueError (reprJson value) := by
  rw [valueErrorFor, escapes_bind]
  refine ⟨fun h => h.elim id ?_, .inl⟩
  rintro ⟨text, -, h⟩
  exact absurd h not_escapes_valueError

variable (reprStr reprJson)

/-- The check of an entry stops with a message that quotes this value. -/
inductive Quotes (columnNames : List Str) : Json Str → Json Str → Prop
  | columns {members value} : (∀ p ∈ members, p.1 ∈ knownIndexKeys) →
      value = entryField (.obj members) (py "columns") →
      (∀ c cs, (∀ d ∈ c :: cs, d ≠ []) → value ≠ .arr ((c :: cs).map .str)) →
      Quotes columnNames (.obj members) value
  | unique {members columns value} : (∀ p ∈ members, p.1 ∈ knownIndexKeys) →
      indexColumns reprStr reprJson (entryField (.obj members) (py "columns")) columnNames = .ok columns →
      members.lookup (py "unique") = some value → (∀ b, value ≠ .bool b) →
      Quotes columnNames (.obj members) value
  | type {members columns unique value} : (∀ p ∈ members, p.1 ∈ knownIndexKeys) →
      indexColumns reprStr reprJson (entryField (.obj members) (py "columns")) columnNames = .ok columns →
      indexUnique reprJson (members.lookup (py "unique")) = .ok unique →
      members.lookup (py "type") = some value → IndexType.ofJson value = none →
      Quotes columnNames (.obj members) value
  | name {members columns unique type value} : (∀ p ∈ members, p.1 ∈ knownIndexKeys) →
      indexColumns reprStr reprJson (entryField (.obj members) (py "columns")) columnNames = .ok columns →
      indexUnique reprJson (members.lookup (py "unique")) = .ok unique →
      indexType reprJson (members.lookup (py "type")) = .ok type →
      (unique = true → type = uniqueIndexType) → (type ∈ singleColumnIndexTypes → columns.val.length ≤ 1) →
      members.lookup (py "name") = some value → value ≠ .null → (∀ c s, value ≠ .str (c :: s)) →
      Quotes columnNames (.obj members) value

variable {reprStr reprJson}

theorem nonemptyTexts_map : ∀ {cs : List Str}, (∀ c ∈ cs, c ≠ []) → nonemptyTexts (cs.map .str) = some cs := by
  intro cs
  induction cs with
  | nil => intro _; rfl
  | cons c cs ih =>
    intro h
    obtain ⟨hc, hcs⟩ := List.forall_mem_cons.1 h
    obtain ⟨d, s, rfl⟩ := List.exists_cons_of_ne_nil hc
    rw [List.map_cons, nonemptyTexts, ih hcs]
    rfl

theorem escapes_indexColumns {value : Json Str} {columnNames : List Str} :
    Escapes IsValueError (indexColumns reprStr reprJson value columnNames) ↔
      (∀ c cs, (∀ d ∈ c :: cs, d ≠ []) → value ≠ .arr ((c :: cs).map .str)) ∧
        Escapes IsValueError (reprJson value) := by
  by_cases hgood : ∃ c cs, (∀ d ∈ c :: cs, d ≠ []) ∧ value = .arr ((c :: cs).map .str)
  · obtain ⟨c, cs, hne, rfl⟩ := hgood
    refine ⟨fun h => ?_, fun h => absurd rfl (h.1 c cs hne)⟩
    unfold indexColumns at h
    dsimp only at h
    rw [nonemptyTexts_map hne] at h
    dsimp only at h
    split_ifs at h
    · exact absurd h not_escapes_ok
    · exact absurd h not_escapes_valueError
  · have hbad : ∀ c cs, (∀ d ∈ c :: cs, d ≠ []) → value ≠ .arr ((c :: cs).map .str) :=
      fun c cs hne heq => hgood ⟨c, cs, hne, heq⟩
    rw [and_iff_right hbad]
    unfold indexColumns
    dsimp only
    split
    · split
      · next c cs htexts =>
        obtain ⟨rfl, hne⟩ := nonemptyTexts_eq_some htexts
        exact absurd rfl (hbad c cs hne)
      · exact escapes_valueErrorFor
    · exact escapes_valueErrorFor

theorem escapes_indexUnique {value : Option (Json Str)} :
    Escapes IsValueError (indexUnique reprJson value) ↔
      ∃ v, value = some v ∧ (∀ b, v ≠ .bool b) ∧ Escapes IsValueError (reprJson v) := by
  unfold indexUnique
  split
  · exact ⟨fun h => absurd h not_escapes_ok, fun ⟨_, h, _⟩ => (by cases h)⟩
  · next b =>
    refine ⟨fun h => absurd h not_escapes_ok, ?_⟩
    rintro ⟨v, heq, hv, -⟩
    cases heq
    exact absurd rfl (hv b)
  · next v hv =>
    rw [escapes_valueErrorFor]
    constructor
    · exact fun h => ⟨v, rfl, fun b hb => hv b hb, h⟩
    · rintro ⟨w, heq, -, h⟩
      cases heq
      exact h

theorem escapes_indexType {value : Option (Json Str)} :
    Escapes IsValueError (indexType reprJson value) ↔
      ∃ v, value = some v ∧ IndexType.ofJson v = none ∧ Escapes IsValueError (reprJson v) := by
  unfold indexType
  split
  · exact ⟨fun h => absurd h not_escapes_ok, fun ⟨_, h, _⟩ => (by cases h)⟩
  · next v =>
    split
    · next type htype =>
      refine ⟨fun h => absurd h not_escapes_ok, ?_⟩
      rintro ⟨w, heq, hnone, -⟩
      cases heq
      rw [htype] at hnone
      cases hnone
    · next hnone =>
      rw [escapes_valueErrorFor]
      constructor
      · exact fun h => ⟨v, rfl, hnone, h⟩
      · rintro ⟨w, heq, -, h⟩
        cases heq
        exact h

theorem escapes_indexNameField {value : Option (Json Str)} :
    Escapes IsValueError (indexNameField reprJson value) ↔
      ∃ v, value = some v ∧ v ≠ .null ∧ (∀ c s, v ≠ .str (c :: s)) ∧ Escapes IsValueError (reprJson v) := by
  unfold indexNameField
  split
  · exact ⟨fun h => absurd h not_escapes_ok, fun ⟨_, h, _⟩ => (by cases h)⟩
  · refine ⟨fun h => absurd h not_escapes_ok, ?_⟩
    rintro ⟨v, heq, hnull, -⟩
    cases heq
    exact absurd rfl hnull
  · next c s =>
    refine ⟨fun h => absurd h not_escapes_ok, ?_⟩
    rintro ⟨v, heq, -, hstr, -⟩
    cases heq
    exact absurd rfl (hstr c s)
  · next v hnull hstr =>
    rw [escapes_valueErrorFor]
    constructor
    · exact fun h => ⟨v, rfl, fun hv => hnull hv, fun c s hv => hstr c s hv, h⟩
    · rintro ⟨w, heq, -, -, h⟩
      cases heq
      exact h

theorem not_escapes_ensureKnownKeys {config : Json Str} {known : List Str} {engine «where» : Str} :
    ¬ Escapes IsValueError (ensureKnownKeys reprStr config known engine «where») := by
  intro h
  unfold ensureKnownKeys at h
  split at h
  · dsimp only at h
    split_ifs at h
    · exact not_escapes_ok h
    · exact not_escapes_valueError h
    · exact not_escapes_valueError h
  · exact not_escapes_valueError h

theorem ensureKnownKeys_of_known {members : List (Str × Json Str)} {known : List Str} {engine «where» : Str}
    (h : ∀ p ∈ members, p.1 ∈ known) :
    ensureKnownKeys reprStr (.obj members) known engine «where» = .ok members := by
  have hunknown : (members.map Prod.fst).filter (fun key => key ∉ known) = [] := by
    refine List.filter_eq_nil_iff.2 fun key hkey => ?_
    obtain ⟨p, hp, rfl⟩ := List.mem_map.1 hkey
    simp [h p hp]
  rw [ensureKnownKeys, hunknown]
  rfl

/-- **One entry**: an error that is no `ValueError` is the quoted value's. -/
theorem escapes_indexEntry {columnNames : List Str} {entry : Json Str} :
    Escapes IsValueError (indexEntry reprStr reprJson columnNames entry) ↔
      ∃ v, Quotes reprStr reprJson columnNames entry v ∧ Escapes IsValueError (reprJson v) := by
  constructor
  · intro h
    rcases escapes_bind.1 h with h | ⟨members, hmembers, h₁⟩
    · exact absurd h not_escapes_ensureKnownKeys
    obtain ⟨rfl, hknown⟩ := ensureKnownKeys_eq_ok hmembers
    rcases escapes_bind.1 h₁ with h₁ | ⟨columns, hcolumns, h₂⟩
    · obtain ⟨hbad, hv⟩ := escapes_indexColumns.1 h₁
      exact ⟨_, .columns hknown rfl hbad, hv⟩
    rcases escapes_bind.1 h₂ with h₂ | ⟨unique, hunique, h₃⟩
    · obtain ⟨v, hlookup, hbad, hv⟩ := escapes_indexUnique.1 h₂
      exact ⟨v, .unique hknown hcolumns hlookup hbad, hv⟩
    rcases escapes_bind.1 h₃ with h₃ | ⟨type, htype, h₄⟩
    · obtain ⟨v, hlookup, hbad, hv⟩ := escapes_indexType.1 h₃
      exact ⟨v, .type hknown hcolumns hunique hlookup hbad, hv⟩
    split_ifs at h₄ with hu hs
    · exact absurd h₄ not_escapes_valueError
    · exact absurd h₄ not_escapes_valueError
    rcases escapes_bind.1 h₄ with h₄ | ⟨given, -, h₅⟩
    · obtain ⟨v, hlookup, hnull, hbad, hv⟩ := escapes_indexNameField.1 h₄
      exact ⟨v, .name hknown hcolumns hunique htype (fun hu' => by_contra fun ht => hu ⟨hu', ht⟩)
        (fun ht => not_lt.1 fun hl => hs ⟨ht, hl⟩) hlookup hnull hbad, hv⟩
    · exact absurd h₅ not_escapes_ok
  · rintro ⟨v, hquotes, hv⟩
    unfold indexEntry
    cases hquotes with
    | columns hknown hvalue hbad =>
      refine escapes_bind.2 (.inr ⟨_, ensureKnownKeys_of_known hknown, escapes_bind.2 (.inl ?_)⟩)
      subst hvalue
      exact escapes_indexColumns.2 ⟨hbad, hv⟩
    | unique hknown hcolumns hlookup hbad =>
      refine escapes_bind.2 (.inr ⟨_, ensureKnownKeys_of_known hknown, escapes_bind.2 (.inr ⟨_, hcolumns,
        escapes_bind.2 (.inl ?_)⟩)⟩)
      exact escapes_indexUnique.2 ⟨v, hlookup, hbad, hv⟩
    | type hknown hcolumns hunique hlookup hbad =>
      refine escapes_bind.2 (.inr ⟨_, ensureKnownKeys_of_known hknown, escapes_bind.2 (.inr ⟨_, hcolumns,
        escapes_bind.2 (.inr ⟨_, hunique, escapes_bind.2 (.inl ?_)⟩)⟩)⟩)
      exact escapes_indexType.2 ⟨v, hlookup, hbad, hv⟩
    | name hknown hcolumns hunique htype hu hs hlookup hnull hbad =>
      refine escapes_bind.2 (.inr ⟨_, ensureKnownKeys_of_known hknown, escapes_bind.2 (.inr ⟨_, hcolumns,
        escapes_bind.2 (.inr ⟨_, hunique, escapes_bind.2 (.inr ⟨_, htype, ?_⟩)⟩)⟩)⟩)
      rw [dif_neg fun h => h.2 (hu h.1), dif_neg fun h => absurd (hs h.1) (not_le.2 h.2)]
      exact escapes_bind.2 (.inl (escapes_indexNameField.2 ⟨v, hlookup, hnull, hbad, hv⟩))

theorem not_escapes_encode {s : Str} : ¬ Escapes IsValueError (encode s) := by
  rintro ⟨e, h, he⟩
  unfold encode at h
  split at h
  · cases h
  · cases h
    exact he rfl

theorem not_escapes_name {table : Str} {e : IndexEntry} : ¬ Escapes IsValueError (e.name table) := by
  intro h
  unfold IndexEntry.name at h
  cases hgiven : e.given with
  | some given =>
    rw [hgiven] at h
    rcases escapes_bind.1 h with h | ⟨encoded, -, h⟩
    · exact not_escapes_encode h
    · split_ifs at h
      · exact not_escapes_ok h
      · exact not_escapes_ok h
  | none =>
    rw [hgiven] at h
    rcases escapes_bind.1 h with h | ⟨encoded, -, h⟩
    · exact not_escapes_encode h
    · dsimp only at h
      split_ifs at h
      · exact not_escapes_ok h
      · exact not_escapes_ok h

theorem escapes_validatedIndex {table : Str} {columnNames : List Str} {entry : Json Str} :
    Escapes IsValueError (validatedIndex reprStr reprJson table columnNames entry) ↔
      ∃ v, Quotes reprStr reprJson columnNames entry v ∧ Escapes IsValueError (reprJson v) := by
  rw [validatedIndex, escapes_bind, ← escapes_indexEntry]
  refine ⟨fun h => h.elim id ?_, .inl⟩
  rintro ⟨e, -, h⟩
  exact absurd (escapes_bind_ok.1 h) not_escapes_name

theorem not_escapes_checkIndexNames : ∀ {indexes : List PgIndex} {seen : List Str},
    ¬ Escapes IsValueError (checkIndexNames reprStr seen indexes) := by
  intro indexes
  induction indexes with
  | nil => exact fun h => not_escapes_ok h
  | cons index indexes ih =>
    intro seen h
    rw [checkIndexNames] at h
    split_ifs at h
    · exact not_escapes_valueError h
    · exact ih h

theorem not_escapes_rawIndexes {config : Json Str} : ¬ Escapes IsValueError (rawIndexes reprStr config) := by
  intro h
  unfold rawIndexes at h
  split at h
  · exact not_escapes_ok h
  · rcases escapes_bind.1 h with h | ⟨members, -, h⟩
    · exact not_escapes_ensureKnownKeys h
    · split at h
      · exact not_escapes_ok h
      · exact not_escapes_valueError h

/-- The first entry that is refused quotes a value whose `repr` raises something
    other than `ValueError`. -/
def QuotesUnprintable (reprStr : Str → Str) (reprJson : Json Str → Except Exc Str) (config : Json Str)
    (table : Str) (columnNames : List Str) : Prop :=
  ∃ entries, rawIndexes reprStr config = .ok entries ∧
    FirstEscape (validatedIndex reprStr reprJson table columnNames)
      (fun entry => ∃ v, Quotes reprStr reprJson columnNames entry v ∧ Escapes IsValueError (reprJson v)) entries

theorem escapes_validatedIndexes {config : Json Str} {table : Str} {columnNames : List Str} :
    Escapes IsValueError (validatedIndexes reprStr reprJson config table columnNames) ↔
      QuotesUnprintable reprStr reprJson config table columnNames := by
  have hentries : ∀ entries : List (Json Str),
      Escapes IsValueError (entries.mapM (validatedIndex reprStr reprJson table columnNames)) ↔
        FirstEscape (validatedIndex reprStr reprJson table columnNames)
          (fun entry => ∃ v, Quotes reprStr reprJson columnNames entry v ∧
            Escapes IsValueError (reprJson v)) entries :=
    fun entries => escapes_mapM.trans (firstEscape_congr fun entry _ => escapes_validatedIndex)
  constructor
  · intro h
    rcases escapes_bind.1 h with h | ⟨entries, hraw, h⟩
    · exact absurd h not_escapes_rawIndexes
    rcases escapes_bind.1 h with h | ⟨normalized, -, h⟩
    · exact ⟨entries, hraw, (hentries entries).1 h⟩
    · exact absurd (escapes_bind_ok.1 h) not_escapes_checkIndexNames
  · rintro ⟨entries, hraw, h⟩
    exact escapes_bind.2 (.inr ⟨entries, hraw, escapes_bind.2 (.inl ((hentries entries).2 h))⟩)

end

/-! ## Failing closed -/

/-- The check returns normalized entries or raises a `ValueError`; when it raises,
    the methods that call it raise with the session as it was, nothing sent. -/
def FailsClosed (reprStr : Str → Str) (reprJson : Json Str → Except Exc Str) (config : Json Str)
    (table : Str) (columnNames : List Str) : Prop :=
  ((∃ indexes, validatedIndexes reprStr reprJson config table columnNames = .ok indexes ∧
      ∃ entries, DeclaredEntries config entries ∧ List.Forall₂ (Normalizes columnNames) entries indexes ∧
        (indexes.map PgIndex.name).Nodup) ∨
    ∃ e, validatedIndexes reprStr reprJson config table columnNames = .error e ∧ IsValueError e) ∧
  ∀ e, validatedIndexes reprStr reprJson config table columnNames = .error e →
    ∀ (server : PgServer) (s : PgSession) (columns : List Column), columns.map Column.name = columnNames →
      (∀ primaryKey, ensureTable reprStr reprJson server ⟨table, columns, config, primaryKey⟩ s =
        (.error e, s)) ∧
      ∃ e', buildEmptyFromColumns reprStr reprJson server table columns config s = (.error e', s)

/-- **The check fails closed** unless the first refused entry quotes a value whose
    `repr` raises something other than `ValueError`. -/
theorem failsClosed_iff (reprStr : Str → Str) (reprJson : Json Str → Except Exc Str) (config : Json Str)
    (table : Str) (columnNames : List Str) :
    FailsClosed reprStr reprJson config table columnNames ↔
      ¬ QuotesUnprintable reprStr reprJson config table columnNames := by
  have hsent : ∀ e, validatedIndexes reprStr reprJson config table columnNames = .error e →
      ∀ (server : PgServer) (s : PgSession) (columns : List Column), columns.map Column.name = columnNames →
        (∀ primaryKey, ensureTable reprStr reprJson server ⟨table, columns, config, primaryKey⟩ s =
          (.error e, s)) ∧
        ∃ e', buildEmptyFromColumns reprStr reprJson server table columns config s = (.error e', s) := by
    rintro e he server s columns rfl
    exact ⟨fun primaryKey => ensureTable_refused (checked_of_refused he) s,
      buildEmptyFromColumns_refused he s⟩
  rw [← escapes_validatedIndexes, FailsClosed, and_iff_left hsent]
  rcases h : validatedIndexes reprStr reprJson config table columnNames with e | indexes
  · rw [escapes_error, not_not]
    constructor
    · rintro (⟨indexes, heq, -⟩ | ⟨e', heq, he⟩)
      · cases heq
      · cases heq
        exact he
    · exact fun he => .inr ⟨e, rfl, he⟩
  · refine ⟨fun _ => not_escapes_ok, fun _ => .inl ⟨indexes, rfl, validatedIndexes_normalizes h⟩⟩

/-! ### A value nested too deep -/

/-- `repr(value)`, on a stack that takes so many nested calls. -/
def Json.repr (reprStr : Str → Str) : ℕ → Json Str → Except Exc Str
  | 0, _ => .error recursionError
  | _ + 1, .null => .ok (py "None")
  | _ + 1, .bool b => .ok (if b then py "True" else py "False")
  | _ + 1, .int i =>
    if (decimal i.natAbs).length ≤ maxIntDigits then .ok ((if i < 0 then py "-" else []) ++ decimal i.natAbs)
    else valueError (py "Exceeds the limit (4300 digits) for integer string conversion")
  | _ + 1, .float f => .ok f.text
  | _ + 1, .str s => .ok (reprStr s)
  | depth + 1, .arr vs => do
    let texts ← vs.mapM (Json.repr reprStr depth)
    .ok (py "[" ++ commaJoin texts ++ py "]")
  | depth + 1, .obj members => do
    let texts ← members.mapM fun p => do
      let text ← Json.repr reprStr depth p.2
      .ok (reprStr p.1 ++ py ": " ++ text)
    .ok (py "\x7b" ++ commaJoin texts ++ py "\x7d")

/-- `[[…[None]…]]`. -/
def nested : ℕ → Json Str
  | 0 => .null
  | n + 1 => .arr [nested n]

theorem repr_nested (reprStr : Str → Str) (n : ℕ) : (nested n).repr reprStr n = .error recursionError := by
  induction n with
  | zero => rfl
  | succ n ih =>
    rw [nested, Json.repr, List.mapM_cons, ih]
    rfl

/-- A config with one index, on a list nested so deep. -/
def nestedConfig (n : ℕ) : Json Str :=
  .obj [(py "indexes", .arr [.obj [(py "columns", nested n)]])]

theorem validatedIndexes_nested (reprStr : Str → Str) (n : ℕ) :
    validatedIndexes reprStr (Json.repr reprStr (n + 2)) (nestedConfig (n + 2)) (py "t") [] =
      .error recursionError := by
  have hcolumns : indexColumns reprStr (Json.repr reprStr (n + 2)) (nested (n + 2)) [] =
      .error recursionError := by
    have hrefused : indexColumns reprStr (Json.repr reprStr (n + 2)) (nested (n + 2)) [] =
        valueErrorFor (Json.repr reprStr (n + 2))
          (py "index 'columns' must be a non-empty list of column names, got ") (nested (n + 2)) [] := rfl
    rw [hrefused, valueErrorFor, repr_nested]
    rfl
  have hentry : validatedIndex reprStr (Json.repr reprStr (n + 2)) (py "t") []
      (.obj [(py "columns", nested (n + 2))]) = .error recursionError := by
    have hknown : ensureKnownKeys reprStr (.obj [(py "columns", nested (n + 2))]) knownIndexKeys
        (py "postgres") (py "config 'indexes' entry") = .ok [(py "columns", nested (n + 2))] :=
      ensureKnownKeys_of_known fun p hp => List.mem_singleton.1 hp ▸ List.mem_cons_self
    have hlookup : ([(py "columns", nested (n + 2))].lookup (py "columns")).getD .null = nested (n + 2) := rfl
    rw [validatedIndex, indexEntry, hknown]
    simp only [bind, Except.bind, hlookup, hcolumns]
  have hraw : rawIndexes reprStr (nestedConfig (n + 2)) = .ok [.obj [(py "columns", nested (n + 2))]] := by
    rw [nestedConfig, rawIndexes, ensureKnownKeys_of_known fun p hp =>
      List.mem_singleton.1 hp ▸ List.mem_cons_self]
    · rfl
    · exact fun h => by cases h
  rw [validatedIndexes, hraw]
  simp only [bind, Except.bind, List.mapM_cons, hentry]

/-- An index on a list nested 1000 deep, on a stack of 1000 calls. -/
theorem recursionError_escapes : ¬ ∀ (reprStr : Str → Str) (depth : ℕ) (config : Json Str) (table : Str)
    (columnNames : List Str), FailsClosed reprStr (Json.repr reprStr depth) config table columnNames := by
  intro h
  have hraises := validatedIndexes_nested id 998
  rcases (h id 1000 (nestedConfig 1000) (py "t") []).1 with ⟨indexes, heq, -⟩ | ⟨e, heq, he⟩
  · cases hraises.symm.trans heq
  · cases hraises.symm.trans heq
    cases he

end ContinuoRuntime
