/-
  The `indexes` of a node's `config`, as the Postgres adapter reads them
  (`adapter.py`, with `ensure_known_keys` of `continuo_engine_contract/config.py`).

  * `truncateExplicitIdentifier`, `indexName`: the names of indexes, within the
    63 bytes that Postgres stores;
  * `validatedIndexes`: the check that runs before the first statement.  An
    entry that it accepts is a `PgIndex`, which carries what the access methods
    ask for;
  * `validatedIndexes_eq_ok`: the accepted names are stored as they are, and
    distinct.
-/
import ContinuoRuntime.Python.Exc
import ContinuoRuntime.Python.Json
import ContinuoRuntime.Python.JsonText
import ContinuoRuntime.Python.Sha256
import ContinuoRuntime.Contract.Values
import ContinuoRuntime.Lib.Except

namespace ContinuoRuntime

/-! ## Identifiers -/

/-- `bytes.decode("utf-8", "ignore")`, of at most `n` bytes: a byte that starts no
    character is left out. -/
def utf8DecodeIgnoreUpTo : ℕ → Bytes → Str
  | _, [] => []
  | 0, _ :: _ => []
  | n + 1, b :: bs =>
    let bytes := (b :: bs).take (utf8Width b)
    let c : CodePoint := Fin.ofNat _ (utf8Number bytes)
    if utf8Char c = some bytes then c :: utf8DecodeIgnoreUpTo n ((b :: bs).drop (utf8Width b))
    else utf8DecodeIgnoreUpTo n bs

/-- `bytes.decode("utf-8", "ignore")`. -/
def utf8DecodeIgnore (bs : Bytes) : Str := utf8DecodeIgnoreUpTo bs.length bs

/-- `s.encode("utf-8")`. -/
def encode (s : Str) : Except Exc Bytes :=
  match utf8 s with
  | some bs => .ok bs
  | none => .error (.text .unicodeEncodeError (py "surrogates not allowed"))

/-- `_MAX_IDENTIFIER_BYTES`. -/
def maxIdentifierBytes : ℕ := 63

/-- `_truncate_explicit_identifier`. -/
def truncateExplicitIdentifier (name : Str) : Except Exc Str := do
  let encoded ← encode name
  if encoded.length ≤ maxIdentifierBytes then .ok name
  else .ok (utf8DecodeIgnore (encoded.take maxIdentifierBytes))

/-- `_index_name`. -/
def indexName (table : Str) (columns : List Str) : Except Exc Str := do
  let name := py "ix_" ++ table ++ py "_" ++ (py "_").intercalate columns
  let encoded ← encode name
  if encoded.length ≤ maxIdentifierBytes then .ok name
  else
    let digest := (hexdigest encoded).take 8
    let truncated := utf8DecodeIgnore (encoded.take (maxIdentifierBytes - 9))
    .ok (truncated ++ py "_" ++ digest)

/-- A name that Postgres stores as it is. -/
def Fits (name : Str) : Prop := ∃ bs, utf8 name = some bs ∧ bs.length ≤ maxIdentifierBytes

theorem utf8_cons {c : CodePoint} {s : Str} {a b : Bytes} (hc : utf8Char c = some a)
    (hs : utf8 s = some b) : utf8 (c :: s) = some (a ++ b) := by
  simp only [utf8, Option.map_eq_some_iff] at hs ⊢
  obtain ⟨bss, hmap, rfl⟩ := hs
  exact ⟨a :: bss, by rw [List.mapM_cons, hc, hmap]; rfl, rfl⟩

theorem utf8_append : ∀ {s t : Str} {a b : Bytes}, utf8 s = some a → utf8 t = some b →
    utf8 (s ++ t) = some (a ++ b) := by
  intro s t
  induction s with
  | nil =>
    intro a b ha hb
    cases ha
    exact hb
  | cons c s ih =>
    intro a b ha hb
    simp only [utf8, Option.map_eq_some_iff, List.mapM_cons, Option.bind_eq_bind,
      Option.bind_eq_some_iff] at ha
    obtain ⟨_, ⟨bytes, hbytes, rest, hrest, hpure⟩, rfl⟩ := ha
    cases hpure
    have hs : utf8 s = some rest.flatten := by rw [utf8, hrest]; rfl
    rw [List.cons_append, utf8_cons hbytes (ih hs hb), List.flatten_cons, List.append_assoc]

/-- What is left after decoding has an encoding, no longer than before. -/
theorem utf8_utf8DecodeIgnoreUpTo : ∀ (n : ℕ) (bs : Bytes),
    ∃ bs', utf8 (utf8DecodeIgnoreUpTo n bs) = some bs' ∧ bs'.length ≤ bs.length := by
  intro n
  induction n with
  | zero =>
    intro bs
    refine ⟨[], ?_, Nat.zero_le _⟩
    cases bs <;> rfl
  | succ n ih =>
    intro bs
    cases bs with
    | nil => exact ⟨[], rfl, le_refl _⟩
    | cons b bs =>
      rw [utf8DecodeIgnoreUpTo]
      split_ifs with hchar
      · obtain ⟨rest, hrest, hle⟩ := ih ((b :: bs).drop (utf8Width b))
        refine ⟨_, utf8_cons hchar hrest, ?_⟩
        have hsplit := congrArg List.length (List.take_append_drop (utf8Width b) (b :: bs))
        simp only [List.length_append] at hsplit ⊢
        omega
      · obtain ⟨rest, hrest, hle⟩ := ih bs
        exact ⟨rest, hrest, hle.trans (Nat.le_succ _)⟩

theorem toNat_ofNat_of_lt {n : ℕ} (h : n < 256) : (UInt8.ofNat n).toNat = n := by
  rw [UInt8.toNat_ofNat']
  exact Nat.mod_eq_of_lt h

/-- The first byte of a character tells its length, and its bytes its number. -/
theorem utf8Char_decode {c : CodePoint} {bytes : Bytes} (h : utf8Char c = some bytes) :
    ∃ b bs, bytes = b :: bs ∧ utf8Width b = bytes.length ∧ bytes.length ≤ 4 ∧
      (Fin.ofNat _ (utf8Number bytes) : CodePoint) = c := by
  have hc := c.isLt
  have hnumber : ∀ m, m = c.val → (Fin.ofNat _ m : CodePoint) = c := by
    rintro m rfl
    exact Fin.ext (Nat.mod_eq_of_lt hc)
  unfold utf8Char at h
  split_ifs at h with h1 h2 h3 h4
  · cases h
    refine ⟨_, _, rfl, ?_, by simp, hnumber _ ?_⟩
    · rw [utf8Width, toNat_ofNat_of_lt (by omega), if_pos h1]; rfl
    · rw [utf8Number, toNat_ofNat_of_lt (by omega)]
  · cases h
    refine ⟨_, _, rfl, ?_, by simp, hnumber _ ?_⟩
    · rw [utf8Width, toNat_ofNat_of_lt (by omega), if_neg (by omega), if_pos (by omega)]; rfl
    · rw [utf8Number, toNat_ofNat_of_lt (by omega), toNat_ofNat_of_lt (by omega)]; omega
  · cases h
    refine ⟨_, _, rfl, ?_, by simp, hnumber _ ?_⟩
    · rw [utf8Width, toNat_ofNat_of_lt (by omega), if_neg (by omega), if_neg (by omega), if_pos (by omega)]; rfl
    · rw [utf8Number, toNat_ofNat_of_lt (by omega), toNat_ofNat_of_lt (by omega),
        toNat_ofNat_of_lt (by omega)]; omega
  · cases h
    refine ⟨_, _, rfl, ?_, by simp, hnumber _ ?_⟩
    · rw [utf8Width, toNat_ofNat_of_lt (by omega), if_neg (by omega), if_neg (by omega), if_neg (by omega)]; rfl
    · rw [utf8Number, toNat_ofNat_of_lt (by omega), toNat_ofNat_of_lt (by omega),
        toNat_ofNat_of_lt (by omega), toNat_ofNat_of_lt (by omega)]; omega

/-- A whole character at the front is decoded. -/
theorem utf8DecodeIgnoreUpTo_append {c : CodePoint} {bytes : Bytes} (h : utf8Char c = some bytes) (n : ℕ)
    (rest : Bytes) : utf8DecodeIgnoreUpTo (n + 1) (bytes ++ rest) = c :: utf8DecodeIgnoreUpTo n rest := by
  obtain ⟨b, bs, rfl, hwidth, -, hnumber⟩ := utf8Char_decode h
  have htake : (b :: (bs ++ rest)).take (utf8Width b) = b :: bs := by
    rw [hwidth, ← List.cons_append, List.take_left]
  have hdrop : (b :: (bs ++ rest)).drop (utf8Width b) = rest := by
    rw [hwidth, ← List.cons_append, List.drop_left]
  rw [List.cons_append, utf8DecodeIgnoreUpTo, htake, hdrop]
  rw [hnumber, if_pos h]

theorem utf8_of_encode {s : Str} {bs : Bytes} (h : encode s = .ok bs) : utf8 s = some bs := by
  unfold encode at h
  cases hs : utf8 s with
  | none => rw [hs] at h; cases h
  | some bs' => rw [hs] at h; cases h; rfl

theorem encode_of_utf8 {s : Str} {bs : Bytes} (h : utf8 s = some bs) : encode s = .ok bs := by
  rw [encode, h]

/-- A truncated name fits. -/
theorem fits_of_truncate {name stored : Str} (h : truncateExplicitIdentifier name = .ok stored) :
    Fits stored := by
  obtain ⟨encoded, hencoded, h⟩ := bind_eq_ok.1 h
  split_ifs at h with hlength
  · cases h
    exact ⟨encoded, utf8_of_encode hencoded, hlength⟩
  · cases h
    obtain ⟨bs, hbs, hle⟩ := utf8_utf8DecodeIgnoreUpTo (encoded.take maxIdentifierBytes).length
      (encoded.take maxIdentifierBytes)
    rw [List.length_take] at hle
    exact ⟨bs, hbs, hle.trans (min_le_left _ _)⟩

theorem truncate_of_fits {name : Str} (h : Fits name) : truncateExplicitIdentifier name = .ok name := by
  obtain ⟨bs, hbs, hle⟩ := h
  rw [truncateExplicitIdentifier, encode_of_utf8 hbs]
  exact if_pos hle

/-- A derived name fits, its digest included. -/
theorem fits_of_indexName {table name : Str} {columns : List Str} (h : indexName table columns = .ok name) :
    Fits name := by
  obtain ⟨encoded, hencoded, h⟩ := bind_eq_ok.1 h
  split_ifs at h with hlength
  · cases h
    exact ⟨encoded, utf8_of_encode hencoded, hlength⟩
  · cases h
    obtain ⟨bs, hbs, hle⟩ := utf8_utf8DecodeIgnoreUpTo (encoded.take (maxIdentifierBytes - 9)).length
      (encoded.take (maxIdentifierBytes - 9))
    have hdigest : IsAscii ((hexdigest encoded).take 8) := fun c hc =>
      isAscii_hexdigest encoded c (List.mem_of_mem_take hc)
    have hsep : utf8 (py "_") = some (ascii (py "_")) := by decide
    refine ⟨_, utf8_append (utf8_append hbs hsep) (utf8_ascii hdigest), ?_⟩
    simp only [List.length_append, List.length_take, ascii, List.length_map, maxIdentifierBytes,
      show (py "_").length = 1 from rfl] at hle ⊢
    omega

theorem truncate_ne_nil {name stored : Str} (h : truncateExplicitIdentifier name = .ok stored)
    (hne : name ≠ []) : stored ≠ [] := by
  obtain ⟨encoded, hencoded, h⟩ := bind_eq_ok.1 h
  split_ifs at h with hlength
  · cases h
    exact hne
  · cases h
    obtain ⟨c, rest, rfl⟩ := List.exists_cons_of_ne_nil hne
    have hutf8 := utf8_of_encode hencoded
    simp only [utf8, Option.map_eq_some_iff, List.mapM_cons, Option.bind_eq_bind,
      Option.bind_eq_some_iff] at hutf8
    obtain ⟨_, ⟨bytes, hbytes, restBytes, -, hpure⟩, rfl⟩ := hutf8
    cases hpure
    obtain ⟨-, -, -, -, hshort, -⟩ := utf8Char_decode hbytes
    rw [List.flatten_cons] at hlength ⊢
    have htake : (bytes ++ restBytes.flatten).take maxIdentifierBytes =
        bytes ++ restBytes.flatten.take (maxIdentifierBytes - bytes.length) := by
      rw [List.take_append, List.take_of_length_le (hshort.trans (by decide))]
    have hcount : ((bytes ++ restBytes.flatten).take maxIdentifierBytes).length = 62 + 1 := by
      rw [List.length_take]
      exact min_eq_left (not_le.1 hlength).le
    rw [utf8DecodeIgnore, hcount, htake, utf8DecodeIgnoreUpTo_append hbytes]
    exact List.cons_ne_nil _ _

theorem indexName_ne_nil {table name : Str} {columns : List Str} (h : indexName table columns = .ok name) :
    name ≠ [] := by
  obtain ⟨encoded, -, h⟩ := bind_eq_ok.1 h
  have hunderscore : py "_" ≠ [] := by decide
  split_ifs at h with hlength
  · cases h
    simp [hunderscore]
  · cases h
    simp [hunderscore]

/-! ## Index entries -/

/-- `_INDEX_TYPES`. -/
inductive IndexType where
  | brin | btree | gin | gist | hash | spgist
  deriving DecidableEq

def IndexType.text : IndexType → Str
  | brin => py "brin"
  | btree => py "btree"
  | gin => py "gin"
  | gist => py "gist"
  | hash => py "hash"
  | spgist => py "spgist"

def IndexType.all : List IndexType := [.brin, .btree, .gin, .gist, .hash, .spgist]

/-- The access method that a value names. -/
def IndexType.ofJson : Json Str → Option IndexType
  | .str s => IndexType.all.find? fun type => type.text = s
  | _ => none

/-- `_UNIQUE_INDEX_TYPE`. -/
def uniqueIndexType : IndexType := .btree

/-- `_SINGLE_COLUMN_INDEX_TYPES`. -/
def singleColumnIndexTypes : List IndexType := [.hash]

/-- `_DEFAULT_INDEX_TYPE`. -/
def defaultIndexType : IndexType := .btree

/-- What an index is, its name apart. -/
structure IndexShape where
  columns : List Str
  unique : Bool
  type : IndexType
  columns_ne : columns ≠ []
  unique_type : unique = true → type = uniqueIndexType
  single_column : type ∈ singleColumnIndexTypes → columns.length ≤ 1
  deriving DecidableEq

/-- One entry of `indexes` as written; without a name, `_index_name` gives it one. -/
structure IndexEntry extends IndexShape where
  given : Option Str

/-- One normalized entry of `indexes`. -/
structure PgIndex extends IndexShape where
  name : Str
  deriving DecidableEq

/-- The name of an entry on this table. -/
def IndexEntry.name (table : Str) (entry : IndexEntry) : Except Exc Str :=
  match entry.given with
  | some name => truncateExplicitIdentifier name
  | none => indexName table entry.columns

/-- `_KNOWN_CONFIG_KEYS`. -/
def knownConfigKeys : List Str := [py "indexes"]

/-- `_KNOWN_INDEX_KEYS`. -/
def knownIndexKeys : List Str := [py "columns", py "unique", py "type", py "name"]

/-- `raise ValueError(msg)`. -/
def valueError {α : Type} (msg : Str) : Except Exc α := .error (.text .valueError msg)

/-- `", ".join(texts)`. -/
def commaJoin (texts : List Str) : Str := (py ", ").intercalate texts

section
variable (reprStr : Str → Str) (reprJson : Json Str → Except Exc Str)

/-- `raise ValueError(f"{before}{value!r}{after}")`. -/
def valueErrorFor {α : Type} (before : Str) (value : Json Str) (after : Str) : Except Exc α := do
  let text ← reprJson value
  valueError (before ++ text ++ after)

/-- `ensure_known_keys`; what is accepted is given back as a mapping. -/
def ensureKnownKeys (config : Json Str) (known : List Str) (engine «where» : Str) :
    Except Exc (List (Str × Json Str)) :=
  match config with
  | .obj members =>
    let unknown := ((members.map Prod.fst).filter fun key => key ∉ known).map reprStr
    if unknown = [] then .ok members
    else
      let names := if known = [] then py "(none)" else commaJoin (known.insertionSort (· ≤ ·))
      valueError (py "unrecognized " ++ «where» ++ py " key(s) " ++
        commaJoin (unknown.insertionSort (· ≤ ·)) ++ py " for engine " ++ reprStr engine ++
        py "; known keys: " ++ names)
  | _ => valueError («where» ++ py " must be a mapping, got " ++ config.typeName)

/-- The members of a list that are all non-empty texts. -/
def nonemptyTexts : List (Json Str) → Option (List Str)
  | [] => some []
  | .str (c :: s) :: vs => (nonemptyTexts vs).map ((c :: s) :: ·)
  | _ :: _ => none

/-- `columns` of an entry, against the declared columns. -/
def indexColumns (value : Json Str) (columnNames : List Str) :
    Except Exc { columns : List Str // columns ≠ [] } :=
  let refused := valueErrorFor reprJson
    (py "index 'columns' must be a non-empty list of column names, got ") value []
  match value with
  | .arr vs => match nonemptyTexts vs with
    | some (c :: cs) =>
      let missing := (c :: cs).filter fun name => name ∉ columnNames
      if missing = [] then .ok ⟨c :: cs, List.cons_ne_nil c cs⟩
      else
        let declared := columnNames.dedup.insertionSort (· ≤ ·)
        valueError (py "index on undeclared column(s) " ++ reprList reprStr missing ++
          py "; declared columns: " ++ reprList reprStr declared)
    | _ => refused
  | _ => refused

/-- `unique` of an entry. -/
def indexUnique (value : Option (Json Str)) : Except Exc Bool :=
  match value with
  | none => .ok false
  | some (.bool unique) => .ok unique
  | some value => valueErrorFor reprJson (py "index 'unique' must be a boolean, got ") value []

/-- `type` of an entry. -/
def indexType (value : Option (Json Str)) : Except Exc IndexType :=
  match value with
  | none => .ok defaultIndexType
  | some value =>
    match IndexType.ofJson value with
    | some type => .ok type
    | none => valueErrorFor reprJson (py "unsupported index 'type' ") value
      (py "; supported: " ++ commaJoin (IndexType.all.map IndexType.text))

/-- `name` of an entry; `null` stands for an absent one. -/
def indexNameField (value : Option (Json Str)) : Except Exc (Option Str) :=
  match value with
  | none | some .null => .ok none
  | some (.str (c :: s)) => .ok (some (c :: s))
  | some value => valueErrorFor reprJson (py "index 'name' must be a non-empty string, got ") value []

/-- One entry of `indexes`, as far as it does not depend on the table. -/
def indexEntry (columnNames : List Str) (entry : Json Str) : Except Exc IndexEntry := do
  let members ← ensureKnownKeys reprStr entry knownIndexKeys (py "postgres") (py "config 'indexes' entry")
  let columns ← indexColumns reprStr reprJson ((members.lookup (py "columns")).getD .null) columnNames
  let unique ← indexUnique reprJson (members.lookup (py "unique"))
  let type ← indexType reprJson (members.lookup (py "type"))
  if hunique : unique = true ∧ type ≠ uniqueIndexType then
    valueError (py "index 'unique' requires type " ++ reprStr uniqueIndexType.text ++
      py "; postgres cannot enforce uniqueness with access method " ++ reprStr type.text)
  else if hsingle : type ∈ singleColumnIndexTypes ∧ 1 < columns.val.length then
    valueError (py "index 'type' " ++ reprStr type.text ++ py " indexes a single column; got " ++
      decimal columns.val.length ++ py ": " ++ commaJoin (columns.val.map reprStr))
  else do
    let given ← indexNameField reprJson (members.lookup (py "name"))
    .ok {
      columns := columns.val
      unique := unique
      type := type
      given := given
      columns_ne := columns.property
      unique_type := fun hu => by_contra fun ht => hunique ⟨hu, ht⟩
      single_column := fun ht => not_lt.1 fun hl => hsingle ⟨ht, hl⟩ }

/-- One entry of `indexes`, normalized. -/
def validatedIndex (table : Str) (columnNames : List Str) (entry : Json Str) : Except Exc PgIndex := do
  let entry ← indexEntry reprStr reprJson columnNames entry
  let name ← entry.name table
  .ok ⟨entry.toIndexShape, name⟩

/-- The last check: two entries of one name. -/
def checkIndexNames (seen : List Str) : List PgIndex → Except Exc Unit
  | [] => .ok ()
  | index :: indexes =>
    if index.name ∈ seen then valueError (py "duplicate index name: " ++ reprStr index.name)
    else checkIndexNames (index.name :: seen) indexes

/-- The entries of a config as it has them; `null` is `None`. -/
def rawIndexes (config : Json Str) : Except Exc (List (Json Str)) :=
  match config with
  | .null => .ok []
  | config => do
    let members ← ensureKnownKeys reprStr config knownConfigKeys (py "postgres") (py "config")
    match (members.lookup (py "indexes")).getD (.arr []) with
    | .arr entries => .ok entries
    | value => valueError (py "config 'indexes' must be a list, got " ++ value.typeName)

/-- `_validated_indexes`. -/
def validatedIndexes (config : Json Str) (table : Str) (columnNames : List Str) :
    Except Exc (List PgIndex) := do
  let entries ← rawIndexes reprStr config
  let normalized ← entries.mapM (validatedIndex reprStr reprJson table columnNames)
  checkIndexNames reprStr [] normalized
  .ok normalized

/-! ## Accepted entries -/

variable {reprStr reprJson}

theorem fits_of_name {table name : Str} {entry : IndexEntry} (h : entry.name table = .ok name) : Fits name := by
  unfold IndexEntry.name at h
  cases hgiven : entry.given with
  | some given =>
    rw [hgiven] at h
    exact fits_of_truncate h
  | none =>
    rw [hgiven] at h
    exact fits_of_indexName h

theorem fits_of_validatedIndex {table : Str} {columnNames : List Str} {entry : Json Str} {index : PgIndex}
    (h : validatedIndex reprStr reprJson table columnNames entry = .ok index) : Fits index.name := by
  obtain ⟨entry, -, h⟩ := bind_eq_ok.1 h
  obtain ⟨name, hname, h⟩ := bind_eq_ok.1 h
  cases h
  exact fits_of_name hname

/-- The last check accepts exactly distinct names. -/
theorem checkIndexNames_eq_ok : ∀ {indexes : List PgIndex} {seen : List Str},
    checkIndexNames reprStr seen indexes = .ok () ↔
      (indexes.map PgIndex.name).Nodup ∧ ∀ index ∈ indexes, index.name ∉ seen := by
  intro indexes
  induction indexes with
  | nil => simp [checkIndexNames]
  | cons index indexes ih =>
    intro seen
    rw [checkIndexNames]
    split_ifs with hseen
    · refine ⟨fun h => ?_, fun h => absurd hseen (h.2 index List.mem_cons_self)⟩
      cases h
    · rw [ih, List.map_cons, List.nodup_cons]
      constructor
      · rintro ⟨hnodup, hnot⟩
        refine ⟨⟨fun hmem => ?_, hnodup⟩, fun other hother => ?_⟩
        · obtain ⟨other, hother, hname⟩ := List.mem_map.1 hmem
          exact hnot other hother (by rw [hname]; exact List.mem_cons_self)
        · rcases List.mem_cons.1 hother with rfl | hother
          · exact hseen
          · exact fun hmem => hnot other hother (List.mem_cons_of_mem _ hmem)
      · rintro ⟨⟨hname, hnodup⟩, hnot⟩
        refine ⟨hnodup, fun other hother hmem => ?_⟩
        rcases List.mem_cons.1 hmem with heq | hmem
        · exact hname (heq ▸ List.mem_map_of_mem hother)
        · exact hnot other (List.mem_cons_of_mem _ hother) hmem

/-- The accepted entries: each fits, and no two have one name. -/
theorem validatedIndexes_eq_ok {config : Json Str} {table : Str} {columnNames : List Str}
    {indexes : List PgIndex} (h : validatedIndexes reprStr reprJson config table columnNames = .ok indexes) :
    (indexes.map PgIndex.name).Nodup ∧ ∀ index ∈ indexes, Fits index.name := by
  obtain ⟨entries, -, h⟩ := bind_eq_ok.1 h
  obtain ⟨normalized, hmap, h⟩ := bind_eq_ok.1 h
  obtain ⟨_, hcheck, h⟩ := bind_eq_ok.1 h
  cases h
  refine ⟨(checkIndexNames_eq_ok.1 hcheck).1, fun index hindex => ?_⟩
  obtain ⟨entry, -, hentry⟩ := exists_of_mem_mapM hmap hindex
  exact fits_of_validatedIndex hentry

end

end ContinuoRuntime
