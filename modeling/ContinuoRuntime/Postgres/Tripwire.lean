/-
  The early check of a config (`validate_config`) and the check of `ensure_table`.

  Both run `_validated_indexes`; the early one with the table name `_`.  The
  names that entries without a `name` get depend on the table, and with them the
  check for two entries of one name.

  * `validatedIndexes_refused_iff`: what refuses a config, table or not;
  * `validateConfig_agrees_iff`: when the two checks agree.
-/
import ContinuoRuntime.Postgres.Indexes

namespace ContinuoRuntime

section
variable (reprStr : Str → Str) (reprJson : Json Str → Except Exc Str)

/-- `validate_config`. -/
def validateConfigEarly (config : Json Str) (columnNames : List Str) : Except Exc Unit := do
  let _ ← validatedIndexes reprStr reprJson config (py "_") columnNames
  .ok ()

/-- The entries of a config, as far as they do not depend on the table. -/
def indexEntries (config : Json Str) (columnNames : List Str) : Except Exc (List IndexEntry) := do
  let entries ← rawIndexes reprStr config
  entries.mapM (indexEntry reprStr reprJson columnNames)

end

/-! ## Names -/

/-- The columns as a derived name has them. -/
def IndexEntry.joined (entry : IndexEntry) : Str := (py "_").intercalate entry.columns

/-- The text of an entry's name can be encoded, the table apart. -/
def IndexEntry.Encodes (entry : IndexEntry) : Prop :=
  match entry.given with
  | some name => (utf8 name).isSome
  | none => (utf8 entry.joined).isSome

/-- Two entries whose names do not clash whatever the table: two given names, or
    the columns of two entries without a name. -/
def IndexEntry.Apart (e e' : IndexEntry) : Prop :=
  match e.given, e'.given with
  | some name, some name' => truncateExplicitIdentifier name ≠ truncateExplicitIdentifier name'
  | none, none => e.joined ≠ e'.joined
  | _, _ => True

/-- Two entries whose names do not clash on this table: a derived name with a
    given one, or with the name that the digest gives other columns. -/
def IndexEntry.ApartOn (table : Str) (e e' : IndexEntry) : Prop :=
  match e.given, e'.given with
  | some _, some _ => True
  | none, none => e.joined = e'.joined ∨ indexName table e.columns ≠ indexName table e'.columns
  | _, _ => e.name table ≠ e'.name table

/-- The names do not clash whatever the table. -/
def FixedNamesApart (entries : List IndexEntry) : Prop :=
  (∀ e ∈ entries, e.Encodes) ∧ entries.Pairwise IndexEntry.Apart

/-- The derived names can be encoded and do not clash on this table. -/
def DerivedNamesApart (table : Str) (entries : List IndexEntry) : Prop :=
  (∀ e ∈ entries, e.given = none → (utf8 table).isSome) ∧ entries.Pairwise (IndexEntry.ApartOn table)

theorem encode_ok_iff {s : Str} : (∃ bs, encode s = .ok bs) ↔ (utf8 s).isSome := by
  unfold encode
  cases utf8 s with
  | none => exact ⟨fun ⟨_, h⟩ => (by cases h), fun h => (by cases h)⟩
  | some bs => exact ⟨fun _ => rfl, fun _ => ⟨bs, rfl⟩⟩

theorem truncate_ok_iff {name : Str} : (∃ stored, truncateExplicitIdentifier name = .ok stored) ↔
    (utf8 name).isSome := by
  rw [← encode_ok_iff]
  constructor
  · rintro ⟨stored, h⟩
    obtain ⟨encoded, hencoded, -⟩ := bind_eq_ok.1 h
    exact ⟨encoded, hencoded⟩
  · rintro ⟨encoded, hencoded⟩
    rw [truncateExplicitIdentifier, hencoded]
    by_cases hle : encoded.length ≤ maxIdentifierBytes
    · exact ⟨name, if_pos hle⟩
    · exact ⟨_, if_neg hle⟩

theorem utf8_isSome_iff : ∀ {s : Str}, (utf8 s).isSome ↔ ∀ c ∈ s, (utf8Char c).isSome := by
  intro s
  induction s with
  | nil => simp [utf8]
  | cons c s ih =>
    rw [List.forall_mem_cons, ← ih, utf8, utf8, Option.isSome_map, Option.isSome_map, List.mapM_cons]
    cases utf8Char c with
    | none => simp
    | some bytes => cases s.mapM utf8Char <;> simp

theorem utf8_isSome_append {s t : Str} : (utf8 (s ++ t)).isSome ↔ (utf8 s).isSome ∧ (utf8 t).isSome := by
  simp only [utf8_isSome_iff, List.mem_append, or_imp, forall_and]

theorem indexName_ok_iff {table : Str} {columns : List Str} :
    (∃ name, indexName table columns = .ok name) ↔
      (utf8 table).isSome ∧ (utf8 ((py "_").intercalate columns)).isSome := by
  have hencode : (∃ name, indexName table columns = .ok name) ↔
      ∃ bs, encode (py "ix_" ++ table ++ py "_" ++ (py "_").intercalate columns) = .ok bs := by
    constructor
    · rintro ⟨name, h⟩
      obtain ⟨encoded, hencoded, -⟩ := bind_eq_ok.1 h
      exact ⟨encoded, hencoded⟩
    · rintro ⟨encoded, hencoded⟩
      rw [indexName]
      dsimp only
      rw [hencoded]
      by_cases hle : encoded.length ≤ maxIdentifierBytes
      · exact ⟨_, if_pos hle⟩
      · exact ⟨_, if_neg hle⟩
  have hix : (utf8 (py "ix_")).isSome := by decide
  have hsep : (utf8 (py "_")).isSome := by decide
  rw [hencode, encode_ok_iff]
  simp only [utf8_isSome_append, hix, hsep, true_and, and_true]

theorem indexName_congr {table : Str} {columns columns' : List Str}
    (h : (py "_").intercalate columns = (py "_").intercalate columns') :
    indexName table columns = indexName table columns' := by
  rw [indexName, indexName, h]

theorem IndexEntry.name_ok_iff {table : Str} {e : IndexEntry} : (∃ name, e.name table = .ok name) ↔
    e.Encodes ∧ (e.given = none → (utf8 table).isSome) := by
  unfold IndexEntry.name IndexEntry.Encodes
  cases e.given with
  | some name => simp only [truncate_ok_iff, reduceCtorEq, false_implies, and_true]
  | none => simp only [indexName_ok_iff, IndexEntry.joined, forall_const, and_comm]

theorem IndexEntry.name_ne_iff {table : Str} {e e' : IndexEntry} : e.name table ≠ e'.name table ↔
    e.Apart e' ∧ e.ApartOn table e' := by
  unfold IndexEntry.Apart IndexEntry.ApartOn
  rcases hgiven : e.given with _ | name <;> rcases hgiven' : e'.given with _ | name'
  · have hname : e.name table = indexName table e.columns := by rw [IndexEntry.name, hgiven]
    have hname' : e'.name table = indexName table e'.columns := by rw [IndexEntry.name, hgiven']
    rw [hname, hname']
    constructor
    · exact fun h => ⟨fun hjoined => h (indexName_congr hjoined), .inr h⟩
    · rintro ⟨hjoined, hsame | h⟩
      · exact absurd hsame hjoined
      · exact h
  · simp only [true_and]
  · simp only [true_and]
  · simp only [IndexEntry.name, hgiven, hgiven', and_true]

/-! ## Both checks -/

variable {reprStr : Str → Str} {reprJson : Json Str → Except Exc Str}

/-- The normalized entries are the entries, each with its name. -/
theorem mapM_validatedIndex {table : Str} {columnNames : List Str} : ∀ {rawIndexes : List (Json Str)}
    {indexes : List PgIndex},
    rawIndexes.mapM (validatedIndex reprStr reprJson table columnNames) = .ok indexes ↔
      ∃ entries, rawIndexes.mapM (indexEntry reprStr reprJson columnNames) = .ok entries ∧
        List.Forall₂ (fun e i => e.name table = .ok i.name ∧ i.toIndexShape = e.toIndexShape) entries indexes := by
  intro rawIndexes indexes
  simp only [mapM_eq_ok]
  constructor
  · intro h
    induction h with
    | nil => exact ⟨[], .nil, .nil⟩
    | cons hindex _ ih =>
      obtain ⟨entries, hentries, hnames⟩ := ih
      obtain ⟨entry, hentry, hindex⟩ := bind_eq_ok.1 hindex
      obtain ⟨name, hname, hindex⟩ := bind_eq_ok.1 hindex
      cases hindex
      exact ⟨entry :: entries, .cons hentry hentries, .cons ⟨hname, rfl⟩ hnames⟩
  · rintro ⟨entries, hentries, hnames⟩
    induction hentries generalizing indexes with
    | nil =>
      cases hnames
      exact .nil
    | cons hentry _ ih =>
      obtain _ | ⟨⟨hname, hshape⟩, hnames⟩ := hnames
      refine .cons ?_ (ih hnames)
      rw [validatedIndex]
      refine bind_eq_ok.2 ⟨_, hentry, bind_eq_ok.2 ⟨_, hname, ?_⟩⟩
      rw [← hshape]

/-- Entries can be named one by one. -/
theorem exists_named_iff {table : Str} {entries : List IndexEntry} :
    (∃ indexes : List PgIndex, List.Forall₂ (fun e i => e.name table = .ok i.name ∧
      i.toIndexShape = e.toIndexShape) entries indexes) ↔ ∀ e ∈ entries, ∃ name, e.name table = .ok name := by
  induction entries with
  | nil => exact ⟨fun _ _ he => (by cases he), fun _ => ⟨[], .nil⟩⟩
  | cons e entries ih =>
    rw [List.forall_mem_cons, ← ih]
    constructor
    · rintro ⟨_, _ | ⟨⟨hname, -⟩, hnames⟩⟩
      exact ⟨⟨_, hname⟩, _, hnames⟩
    · rintro ⟨⟨name, hname⟩, indexes, hnames⟩
      exact ⟨⟨e.toIndexShape, name⟩ :: indexes, .cons ⟨hname, rfl⟩ hnames⟩

/-- Distinct names, seen on the entries. -/
theorem nodup_names_iff {table : Str} {entries : List IndexEntry} {indexes : List PgIndex}
    (h : List.Forall₂ (fun e i => e.name table = .ok i.name ∧ i.toIndexShape = e.toIndexShape) entries indexes) :
    (indexes.map PgIndex.name).Nodup ↔ entries.Pairwise fun e e' => e.name table ≠ e'.name table := by
  have hmap : entries.map (IndexEntry.name table) = (indexes.map PgIndex.name).map Except.ok := by
    induction h with
    | nil => rfl
    | cons hname _ ih => rw [List.map_cons, List.map_cons, List.map_cons, ih, hname.1]
  have hinj : Function.Injective (Except.ok : Str → Except Exc Str) := fun a b hab => by
    cases hab
    rfl
  rw [← List.nodup_map_iff hinj, ← hmap, List.Nodup, List.pairwise_map]

/-- **What is accepted**: entries that do not depend on the table, with names that
    are apart. -/
theorem validatedIndexes_accepts_iff {config : Json Str} {table : Str} {columnNames : List Str} :
    (∃ indexes, validatedIndexes reprStr reprJson config table columnNames = .ok indexes) ↔
      ∃ entries, indexEntries reprStr reprJson config columnNames = .ok entries ∧
        FixedNamesApart entries ∧ DerivedNamesApart table entries := by
  have hapart : ∀ entries : List IndexEntry, FixedNamesApart entries ∧ DerivedNamesApart table entries ↔
      (∀ e ∈ entries, ∃ name, e.name table = .ok name) ∧
        entries.Pairwise fun e e' => e.name table ≠ e'.name table := by
    intro entries
    simp only [FixedNamesApart, DerivedNamesApart, IndexEntry.name_ok_iff, IndexEntry.name_ne_iff,
      List.pairwise_and_iff, forall_and]
    tauto
  constructor
  · rintro ⟨indexes, h⟩
    obtain ⟨raw, hraw, h⟩ := bind_eq_ok.1 h
    obtain ⟨normalized, hmap, h⟩ := bind_eq_ok.1 h
    obtain ⟨_, hcheck, h⟩ := bind_eq_ok.1 h
    obtain ⟨entries, hentries, hshapes⟩ := mapM_validatedIndex.1 hmap
    exact ⟨entries, bind_eq_ok.2 ⟨raw, hraw, hentries⟩, (hapart entries).2
      ⟨exists_named_iff.1 ⟨normalized, hshapes⟩,
        (nodup_names_iff hshapes).1 (checkIndexNames_eq_ok.1 hcheck).1⟩⟩
  · rintro ⟨entries, hentries, h⟩
    obtain ⟨raw, hraw, hentries⟩ := bind_eq_ok.1 hentries
    obtain ⟨hok, hpair⟩ := (hapart entries).1 h
    obtain ⟨indexes, hshapes⟩ := exists_named_iff.2 hok
    have hnodup := (nodup_names_iff hshapes).2 hpair
    exact ⟨indexes, bind_eq_ok.2 ⟨raw, hraw, bind_eq_ok.2
      ⟨indexes, mapM_validatedIndex.2 ⟨entries, hentries, hshapes⟩,
        bind_eq_ok.2 ⟨(), checkIndexNames_eq_ok.2 ⟨hnodup, by simp⟩, rfl⟩⟩⟩⟩

theorem refuses_iff {ε α : Type} {x : Except ε α} : (∃ e, x = .error e) ↔ ¬ ∃ a, x = .ok a := by
  cases x with
  | error e => exact ⟨fun _ ⟨_, h⟩ => (by cases h), fun _ => ⟨e, rfl⟩⟩
  | ok a => exact ⟨fun ⟨_, h⟩ => (by cases h), fun h => absurd ⟨a, rfl⟩ h⟩

/-- **The two checks agree** exactly when the config is refused whatever the
    table, or its derived names clash under the table's name if and only if they
    clash under `_`. -/
theorem validateConfig_agrees_iff (reprStr : Str → Str) (reprJson : Json Str → Except Exc Str)
    (config : Json Str) (columnNames : List Str) (table : Str) :
    ((∃ e, validateConfigEarly reprStr reprJson config columnNames = .error e) ↔
      ∃ e, validatedIndexes reprStr reprJson config table columnNames = .error e) ↔
    ∀ entries, indexEntries reprStr reprJson config columnNames = .ok entries → FixedNamesApart entries →
      (DerivedNamesApart (py "_") entries ↔ DerivedNamesApart table entries) := by
  have hearly : (∃ u, validateConfigEarly reprStr reprJson config columnNames = .ok u) ↔
      ∃ indexes, validatedIndexes reprStr reprJson config (py "_") columnNames = .ok indexes := by
    constructor
    · rintro ⟨u, h⟩
      obtain ⟨indexes, hindexes, -⟩ := bind_eq_ok.1 h
      exact ⟨indexes, hindexes⟩
    · rintro ⟨indexes, hindexes⟩
      exact ⟨(), bind_eq_ok.2 ⟨indexes, hindexes, rfl⟩⟩
  rw [refuses_iff, refuses_iff, not_iff_not, hearly, validatedIndexes_accepts_iff,
    validatedIndexes_accepts_iff]
  constructor
  · intro h entries hentries hfixed
    constructor
    · intro hearly
      obtain ⟨entries', hentries', -, hderived⟩ := h.1 ⟨entries, hentries, hfixed, hearly⟩
      cases hentries.symm.trans hentries'
      exact hderived
    · intro htable
      obtain ⟨entries', hentries', -, hderived⟩ := h.2 ⟨entries, hentries, hfixed, htable⟩
      cases hentries.symm.trans hentries'
      exact hderived
  · intro h
    constructor
    · rintro ⟨entries, hentries, hfixed, hderived⟩
      exact ⟨entries, hentries, hfixed, (h entries hentries hfixed).1 hderived⟩
    · rintro ⟨entries, hentries, hfixed, hderived⟩
      exact ⟨entries, hentries, hfixed, (h entries hentries hfixed).2 hderived⟩

/-- Two indexes on one column, one called as the other is by default on table `a`. -/
def clashingConfig : Json Str :=
  .obj [(py "indexes", .arr [.obj [(py "columns", .arr [.str (py "c")]), (py "name", .str (py "ix_a_c"))],
    .obj [(py "columns", .arr [.str (py "c")])]])]

/-- The early check accepts what `ensure_table` refuses for table `a`. -/
theorem tripwire_disagrees : ¬ ∀ (reprStr : Str → Str) (reprJson : Json Str → Except Exc Str)
    (config : Json Str) (columnNames : List Str) (table : Str),
    (∃ e, validateConfigEarly reprStr reprJson config columnNames = .error e) ↔
      ∃ e, validatedIndexes reprStr reprJson config table columnNames = .error e := by
  intro h
  have hearly : validateConfigEarly id (fun _ => .ok []) clashingConfig [py "c"] = .ok () := rfl
  have hlate : validatedIndexes id (fun _ => .ok []) clashingConfig (py "a") [py "c"] =
      .error (.text .valueError (py "duplicate index name: ix_a_c")) := rfl
  obtain ⟨e, he⟩ := (h id (fun _ => .ok []) clashingConfig [py "c"] (py "a")).2 ⟨_, hlate⟩
  cases hearly.symm.trans he

end ContinuoRuntime
