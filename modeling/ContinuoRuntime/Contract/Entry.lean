/-
  The wire entry of a node (`node_entry` in `contract/merge.py`) and what its
  canonical text tells apart.

  * `SameDeclared`: two nodes agree on every declared field, `config` up to key
    order and reads up to whitespace;
  * `SameFields f`: the same with every string renamed by `f`, and what the
    canonical JSON text keeps of a node, with `f` the UTF-16 spelling
    (`canonicalText_eq_iff`);
  * `SurrogateTwins`: nodes that differ, with one canonical text.
-/
import ContinuoRuntime.Contract.Loader
import ContinuoRuntime.Hashing

namespace ContinuoRuntime

/-! ## Entries -/

/-- One output column on the wire. -/
def columnJson (col : Column) : Json Str :=
  .obj [(py "name", .str col.name), (py "type", .str col.type), (py "nullable", .bool col.nullable)]

/-- The keys of an entry, in order; a key that is not emitted has no value. -/
def entryFields (node : Node) : List (Str × Option (Json Str)) := [
  (py "schema", some (.str node.schema)),
  (py "table", some (.str node.table)),
  (py "owner", some (.str node.owner)),
  (py "schedule", some (.str node.schedule)),
  (py "criticality", some (.str node.criticality.text)),
  (py "kind", some (.str node.kind.text)),
  (py "script", some (.str node.script)),
  (py "reads", some (.obj (node.reads.items.map fun p => (p.1, .str p.2)))),
  (py "output_columns", some (.arr (node.outputColumns.map columnJson))),
  (py "description", some (.str node.description)),
  (py "extra_columns", some (.str node.extraColumns.text)),
  (py "config", some (.obj node.config.members)),
  (py "secret_ref", if node.secretRef = [] then none else some (.str node.secretRef)),
  (py "mode_type", if node.modeType = defaultModeType then none else some (.str node.modeType.text)),
  (py "primary_key", if node.modeType = .upsert then some (.arr (node.primaryKey.map .str)) else none)]

/-- The keys that `node_entry` may emit. -/
def entryKeys : List Str :=
  ["schema", "table", "owner", "schedule", "criticality", "kind", "script", "reads", "output_columns",
    "description", "extra_columns", "config", "secret_ref", "mode_type", "primary_key"].map py

theorem entryFields_keys (node : Node) : (entryFields node).map Prod.fst = entryKeys := rfl

theorem entryKeys_nodup : entryKeys.Nodup := by decide +kernel

theorem entryFields_nodup (node : Node) : NodupKeys (entryFields node) := by
  unfold NodupKeys; rw [entryFields_keys]; exact entryKeys_nodup

theorem columnJson_wf (col : Column) : (columnJson col).WF := by
  refine ⟨?_, trivial, trivial, trivial, trivial⟩
  simp only [NodupKeys, List.map_cons, List.map_nil]
  decide

theorem wfList_map {α : Type} {f : α → Json Str} (hf : ∀ a, (f a).WF) (xs : List α) :
    Json.WFList (xs.map f) := by
  rw [Json.wfList_iff]
  intro v hv
  obtain ⟨a, -, rfl⟩ := List.mem_map.1 hv
  exact hf a

theorem entryFields_wf (node : Node) : ∀ p ∈ entryFields node, ∀ v ∈ p.2, v.WF := by
  have hreads : (Json.obj (node.reads.items.map fun p => (p.1, .str p.2))).WF := by
    refine ⟨node.reads.nodup.map _, Json.wfItems_iff.2 fun p hp => ?_⟩
    obtain ⟨q, -, rfl⟩ := List.mem_map.1 hp
    trivial
  have hstr : ∀ s : Str, (Json.str s).WF := fun _ => trivial
  simp only [entryFields, List.forall_mem_cons, Option.mem_def, Option.some.injEq, forall_eq',
    List.not_mem_nil, false_imp_iff, implies_true, and_true]
  refine ⟨trivial, trivial, trivial, trivial, trivial, trivial, trivial, hreads,
    wfList_map columnJson_wf _, trivial, trivial, node.config.wf, ?_, ?_, ?_⟩
  · intro v hv; split_ifs at hv; cases hv; trivial
  · intro v hv; split_ifs at hv; cases hv; trivial
  · intro v hv
    split_ifs at hv
    cases hv
    exact wfList_map hstr _

/-- `node_entry`. -/
def nodeEntry (node : Node) : Entry where
  members := presentItems (entryFields node)
  wf := ⟨(entryFields_nodup node).present, Json.wfItems_iff.2 fun p hp =>
    entryFields_wf node (p.1, some p.2) (mem_presentItems.1 hp) p.2 rfl⟩

/-! ## Agreement of nodes -/

/-- Two nodes agree on every declared field except `content_hash` and
    `timeout_minutes`; `config` up to key order at every depth, reads after
    splitting on whitespace. -/
structure SameDeclared (n m : Node) : Prop where
  schema : n.schema = m.schema
  table : n.table = m.table
  owner : n.owner = m.owner
  schedule : n.schedule = m.schedule
  criticality : n.criticality = m.criticality
  kind : n.kind = m.kind
  script : n.script = m.script
  reads : ∀ name, (n.reads.get? name).map split = (m.reads.get? name).map split
  outputColumns : n.outputColumns = m.outputColumns
  description : n.description = m.description
  extraColumns : n.extraColumns = m.extraColumns
  config : (Json.obj n.config.members).Equiv (Json.obj m.config.members)
  secretRef : n.secretRef = m.secretRef
  modeType : n.modeType = m.modeType
  primaryKey : n.primaryKey = m.primaryKey

/-- The reads of a node, whitespace-normalized. -/
def normalReads (node : Node) : List (Str × Str) :=
  node.reads.items.map fun p => (p.1, joinWords (split p.2))

/-- Two nodes agree once their keys are sorted and every string is renamed by
    `f`. -/
structure SameFields {T : Type} (f : Str → T) (n m : Node) : Prop where
  schema : f n.schema = f m.schema
  table : f n.table = f m.table
  owner : f n.owner = f m.owner
  schedule : f n.schedule = f m.schedule
  criticality : n.criticality = m.criticality
  kind : n.kind = m.kind
  script : f n.script = f m.script
  reads : (sortedItems (normalReads n)).map (fun p => (f p.1, f p.2)) =
    (sortedItems (normalReads m)).map fun p => (f p.1, f p.2)
  outputColumns : n.outputColumns.map (fun c => (f c.name, f c.type, c.nullable)) =
    m.outputColumns.map fun c => (f c.name, f c.type, c.nullable)
  description : f n.description = f m.description
  extraColumns : n.extraColumns = m.extraColumns
  config : (Json.obj n.config.members).sortKeys.map f = (Json.obj m.config.members).sortKeys.map f
  secretRef : f n.secretRef = f m.secretRef
  modeType : n.modeType = m.modeType
  primaryKey : n.primaryKey.map f = m.primaryKey.map f

/-! ## What a canonical entry keeps -/

section
variable {T : Type} (f : Str → T)

/-- The fields of a canonical entry. -/
def canonicalFields (node : Node) : List (Str × Option (Json Str)) :=
  (entryFields node).map fun p =>
    (p.1, p.2.map fun v => if p.1 = py "reads" then normalizeReads v else v)

theorem canonicalItems_nodeEntry (node : Node) :
    canonicalItems (nodeEntry node).members = presentItems (canonicalFields node) := by
  have hkeep : ∀ p ∈ (nodeEntry node).members, p.1 ∉ unhashedFields := by
    have hkeys : ∀ k ∈ entryKeys, k ∉ unhashedFields := by decide +kernel
    exact fun p hp => hkeys p.1 (entryFields_keys node ▸
      (keys_presentItems _).subset (List.mem_map_of_mem (f := Prod.fst) hp))
  rw [canonicalItems, List.filter_eq_self.2 (by simpa using hkeep)]
  exact presentItems_map (fun k v => if k = py "reads" then normalizeReads v else v) _

/-- The fields of a canonical entry, spelled. -/
def spelledFields (node : Node) : List (Str × Option (Json T)) :=
  (canonicalFields node).map fun p => (p.1, p.2.map (spelled f))

theorem spelledFields_keys (node : Node) : (spelledFields f node).map Prod.fst = entryKeys := rfl

/-- Texts without surrogates. -/
def plainTexts : Set Str := {s | ∀ c ∈ s, isSurrogate c = false}

variable {f}

theorem spelled_entry_eq_iff (hf : Set.InjOn f plainTexts) (n m : Node) :
    spelled f (.obj (canonicalItems (nodeEntry n).members)) =
      spelled f (.obj (canonicalItems (nodeEntry m).members)) ↔ spelledFields f n = spelledFields f m := by
  have hpresent : ∀ node : Node, (presentItems (canonicalFields node)).map
      (fun p => (p.1, spelled f p.2)) = presentItems (spelledFields f node) := fun node =>
    presentItems_map (fun _ => spelled f) _
  have hnodup : ∀ node, NodupKeys (spelledFields f node) := fun node => by
    unfold NodupKeys; rw [spelledFields_keys]; exact entryKeys_nodup
  have hplain : ∀ node, ∀ p ∈ presentItems (spelledFields f node), p.1 ∈ plainTexts := by
    have hkeys : entryKeys.all (fun k => k.all fun c => !isSurrogate c) = true := by decide +kernel
    intro node p hp c hc
    have hp' := spelledFields_keys f node ▸
      (keys_presentItems _).subset (List.mem_map_of_mem (f := Prod.fst) hp)
    simpa using List.all_eq_true.1 (List.all_eq_true.1 hkeys p.1 hp') c hc
  rw [canonicalItems_nodeEntry, canonicalItems_nodeEntry, spelled_obj, spelled_obj, hpresent,
    hpresent, Json.obj.injEq, (hnodup n).present.renamed_sorted_eq_iff hf (hplain n) (hplain m),
    (hnodup n).present_perm_iff (by rw [spelledFields_keys, spelledFields_keys])]

variable (f)

theorem spelledFields_eq (node : Node) : spelledFields f node = [
    (py "schema", some (.str (f node.schema))),
    (py "table", some (.str (f node.table))),
    (py "owner", some (.str (f node.owner))),
    (py "schedule", some (.str (f node.schedule))),
    (py "criticality", some (.str (f node.criticality.text))),
    (py "kind", some (.str (f node.kind.text))),
    (py "script", some (.str (f node.script))),
    (py "reads", some (spelled f
      (normalizeReads (.obj (node.reads.items.map fun p => (p.1, .str p.2)))))),
    (py "output_columns", some (spelled f (.arr (node.outputColumns.map columnJson)))),
    (py "description", some (.str (f node.description))),
    (py "extra_columns", some (.str (f node.extraColumns.text))),
    (py "config", some (spelled f (.obj node.config.members))),
    (py "secret_ref", if node.secretRef = [] then none else some (.str (f node.secretRef))),
    (py "mode_type", if node.modeType = defaultModeType then none else
      some (.str (f node.modeType.text))),
    (py "primary_key", if node.modeType = .upsert then
      some (spelled f (.arr (node.primaryKey.map .str))) else none)] := by
  simp only [spelledFields, canonicalFields, entryFields, List.map_cons, List.map_nil, Option.map_some,
    apply_ite (Option.map _), Option.map_none]
  rfl

theorem spelled_reads (node : Node) :
    spelled f (normalizeReads (.obj (node.reads.items.map fun p => (p.1, .str p.2)))) =
      .obj (((sortedItems (normalReads node)).map fun p => (f p.1, f p.2)).map
        fun p => (p.1, .str p.2)) := by
  have hitems : ((node.reads.items.map fun p => (p.1, Json.str p.2)).map fun p =>
      (p.1, normalizeRead p.2)).map (fun p => (p.1, spelled f p.2)) =
      (normalReads node).map fun p => (p.1, Json.str (f p.2)) := by
    simp only [normalReads, List.map_map]
    rfl
  rw [normalizeReads, spelled_obj, hitems, ← sortedItems_map (fun _ v => Json.str (f v)), List.map_map,
    List.map_map]
  rfl

theorem spelled_columns (cols : List Column) : spelled f (.arr (cols.map columnJson)) =
    .arr ((cols.map fun c => (f c.name, f c.type, c.nullable)).map fun c =>
      .obj [(f (py "name"), .str c.1), (f (py "nullable"), .bool c.2.2), (f (py "type"), .str c.2.1)]) := by
  rw [spelled_arr, List.map_map, List.map_map]
  refine congrArg _ (List.map_congr_left fun c _ => ?_)
  rw [Function.comp, columnJson, spelled_obj]
  rfl

theorem spelled_key (key : List Str) : spelled f (.arr (key.map .str)) = .arr ((key.map f).map .str) := by
  rw [spelled_arr, List.map_map, List.map_map]
  rfl

variable {f}

/-- The spelling of a member of a fixed set determines the member. -/
theorem enum_spelled {α : Type} {text : α → Str} (hf : Set.InjOn f plainTexts)
    (hplain : ∀ a, (text a).all (fun c => !isSurrogate c) = true)
    (hinj : ∀ {a b}, text a = text b → a = b) {a b : α} : f (text a) = f (text b) ↔ a = b := by
  have hmem : ∀ a, text a ∈ plainTexts := fun a c hc => by
    simpa using List.all_eq_true.1 (hplain a) c hc
  exact ⟨fun h => hinj (hf (hmem a) (hmem b) h), fun h => h ▸ rfl⟩

theorem criticality_spelled (hf : Set.InjOn f plainTexts) {a b : Criticality} :
    f a.text = f b.text ↔ a = b :=
  enum_spelled hf (by intro a; cases a <;> decide) Criticality.text_inj

theorem kind_spelled (hf : Set.InjOn f plainTexts) {a b : Kind} : f a.text = f b.text ↔ a = b :=
  enum_spelled hf (by intro a; cases a <;> decide) Kind.text_inj

theorem extraColumns_spelled (hf : Set.InjOn f plainTexts) {a b : ExtraColumns} :
    f a.text = f b.text ↔ a = b :=
  enum_spelled hf (by intro a; cases a <;> decide) ExtraColumns.text_inj

theorem modeType_spelled (hf : Set.InjOn f plainTexts) {a b : ModeType} :
    f a.text = f b.text ↔ a = b :=
  enum_spelled hf (by intro a; cases a <;> decide) ModeType.text_inj

/-- A key that is left out at its default. -/
theorem omitted_eq_iff {α β : Type} [DecidableEq α] {d a b : α} {g : α → β} (hd : g a = g d → a = d)
    (hd' : g b = g d → b = d) :
    ((if a = d then none else some (g a)) = if b = d then none else some (g b)) ↔ g a = g b := by
  by_cases ha : a = d
  · subst ha
    by_cases hb : b = a
    · simp [hb]
    · simp only [↓reduceIte, hb, reduceCtorEq, false_iff]
      exact fun h => hb (hd' h.symm)
  · by_cases hb : b = d
    · subst hb
      simp only [↓reduceIte, ha, reduceCtorEq, false_iff]
      exact fun h => ha (hd h)
    · simp [ha, hb]

theorem map_obj_inj {S : Type} {A B : List (S × S)} : (A.map fun p => (p.1, Json.str p.2)) =
    B.map (fun p => (p.1, Json.str p.2)) ↔ A = B :=
  (List.map_injective_iff.2 fun p q h => by
    obtain ⟨h1, h2⟩ := Prod.mk.inj h
    exact Prod.ext h1 (Json.str.inj h2)).eq_iff

/-- A canonical entry keeps what `SameFields` compares. -/
theorem spelledFields_eq_iff (hf : Set.InjOn f plainTexts) (hf0 : ∀ s, f s = f [] → s = [])
    (n m : Node) : spelledFields f n = spelledFields f m ↔ SameFields f n m := by
  have hcols : ∀ {A B : List (T × T × Bool)}, (A.map fun c =>
      Json.obj [(f (py "name"), .str c.1), (f (py "nullable"), .bool c.2.2), (f (py "type"), .str c.2.1)]) =
      B.map (fun c => Json.obj [(f (py "name"), .str c.1), (f (py "nullable"), .bool c.2.2),
        (f (py "type"), .str c.2.1)]) ↔ A = B := fun {A B} =>
    (List.map_injective_iff.2 fun p q h => by
      simp only [Json.obj.injEq, List.cons.injEq, Prod.mk.injEq, Json.str.injEq, Json.bool.injEq,
        true_and, and_true] at h
      exact Prod.ext h.1 (Prod.ext h.2.2 h.2.1)).eq_iff
  have hkey : ∀ {A B : List T}, A.map Json.str = B.map .str ↔ A = B := fun {A B} =>
    (List.map_injective_iff.2 fun _ _ => Json.str.inj).eq_iff
  have hsecret := omitted_eq_iff (d := []) (a := n.secretRef) (b := m.secretRef)
    (g := fun s => Json.str (f s)) (fun h => hf0 _ (Json.str.inj h)) (fun h => hf0 _ (Json.str.inj h))
  have hmode := omitted_eq_iff (d := defaultModeType) (a := n.modeType) (b := m.modeType)
    (g := fun t => Json.str (f t.text)) (fun h => (modeType_spelled hf).1 (Json.str.inj h))
    (fun h => (modeType_spelled hf).1 (Json.str.inj h))
  have hpk : n.modeType = m.modeType →
      (((if n.modeType = .upsert then some (Json.arr ((n.primaryKey.map f).map .str)) else none) =
        if m.modeType = .upsert then some (Json.arr ((m.primaryKey.map f).map .str)) else none) ↔
      n.primaryKey.map f = m.primaryKey.map f) := by
    intro hm
    by_cases hu : n.modeType = .upsert
    · rw [if_pos hu, if_pos (hm ▸ hu), Option.some.injEq, Json.arr.injEq, hkey]
    · rw [if_neg hu, if_neg (hm ▸ hu), n.primaryKey_eq_nil hu, m.primaryKey_eq_nil (hm ▸ hu)]
      simp
  simp only [spelledFields_eq, spelled_reads, spelled_columns, spelled_key, List.cons.injEq,
    Prod.mk.injEq, true_and, and_true, Option.some.injEq, Json.str.injEq, Json.obj.injEq,
    Json.arr.injEq, map_obj_inj, hcols, criticality_spelled hf, kind_spelled hf,
    extraColumns_spelled hf, hsecret, hmode, modeType_spelled hf]
  constructor
  · rintro ⟨h1, h2, h3, h4, h5, h6, h7, h8, h9, h10, h11, h12, h13, h14, h15⟩
    exact ⟨h1, h2, h3, h4, h5, h6, h7, h8, h9, h10, h11, h12, h13, h14, (hpk h14).1 h15⟩
  · rintro ⟨h1, h2, h3, h4, h5, h6, h7, h8, h9, h10, h11, h12, h13, h14, h15⟩
    exact ⟨h1, h2, h3, h4, h5, h6, h7, h8, h9, h10, h11, h12, h13, h14, (hpk h14).2 h15⟩

end

/-! ## The canonical text -/

theorem utf16_eq_nil {s : Str} (h : utf16 s = utf16 []) : s = [] := by
  cases s with
  | nil => rfl
  | cons c s =>
    simp only [utf16, List.flatMap_cons, List.flatMap_nil, units] at h
    split_ifs at h <;> cases h

/-- **What the canonical text keeps** of a node: its fields, spelled in UTF-16. -/
theorem canonicalText_eq_iff (n m : Node) :
    canonicalText (nodeEntry n) = canonicalText (nodeEntry m) ↔ SameFields utf16 n m := by
  have hinj : Set.InjOn utf16 plainTexts := fun s hs t ht => utf16_inj hs ht
  rw [canonicalText, canonicalText, dumps_eq_iff, ← spelledFields_eq_iff hinj (fun _ => utf16_eq_nil),
    ← spelled_entry_eq_iff hinj]
  rfl

theorem normalReads_eq (node : Node) :
    normalReads node = (node.reads.mapValues fun sql => joinWords (split sql)).items := rfl

theorem sameReads_iff (n m : Node) :
    (sortedItems (normalReads n)).map (fun p => (id p.1, id p.2)) =
        (sortedItems (normalReads m)).map (fun p => (id p.1, id p.2)) ↔
      ∀ name, (n.reads.get? name).map split = (m.reads.get? name).map split := by
  have hnodup : NodupKeys (normalReads n) := normalReads_eq n ▸ Dict.nodup _
  have hsplit : ∀ a b : Option Str, a.map (fun sql => joinWords (split sql)) =
      b.map (fun sql => joinWords (split sql)) ↔ a.map split = b.map split := by
    rintro (_ | a) (_ | b) <;> simp [joinWords_split_iff]
  simp only [id, Prod.mk.eta, List.map_id']
  rw [hnodup.sorted_eq_iff, normalReads_eq, normalReads_eq, Dict.perm_iff_get?]
  exact forall_congr' fun name => by rw [Dict.get?_mapValues, Dict.get?_mapValues, hsplit]

/-- `SameDeclared` is the comparison of all fields, as they are. -/
theorem sameFields_id_iff (n m : Node) : SameFields id n m ↔ SameDeclared n m := by
  have hcols : ∀ {A B : List Column}, A.map (fun c => (id c.name, id c.type, c.nullable)) =
      B.map (fun c => (id c.name, id c.type, c.nullable)) ↔ A = B := fun {A B} =>
    (List.map_injective_iff.2 fun c d h => by
      simp only [id, Prod.mk.injEq] at h
      cases c; cases d; simp only [Column.mk.injEq]; exact h).eq_iff
  constructor
  · intro h
    refine ⟨h.schema, h.table, h.owner, h.schedule, h.criticality, h.kind, h.script,
      (sameReads_iff n m).1 h.reads, hcols.1 h.outputColumns, h.description, h.extraColumns, ?_,
      h.secretRef, h.modeType, by simpa using h.primaryKey⟩
    have hc := h.config
    rw [Json.map_id, Json.map_id] at hc
    exact (Json.sortKeys_eq_iff _ _ n.config.wf m.config.wf).1 hc
  · intro h
    refine ⟨h.schema, h.table, h.owner, h.schedule, h.criticality, h.kind, h.script,
      (sameReads_iff n m).2 h.reads, hcols.2 h.outputColumns, h.description, h.extraColumns, ?_,
      h.secretRef, h.modeType, by rw [h.primaryKey]⟩
    rw [(Json.sortKeys_eq_iff _ _ n.config.wf m.config.wf).2 h.config]

theorem SameFields.rename {T : Type} {n m : Node} (f : Str → T) (h : SameFields id n m) :
    SameFields f n m where
  schema := congrArg f h.schema
  table := congrArg f h.table
  owner := congrArg f h.owner
  schedule := congrArg f h.schedule
  criticality := h.criticality
  kind := h.kind
  script := congrArg f h.script
  reads := by
    have hr := congrArg (List.map fun p => (f p.1, f p.2)) h.reads
    simpa only [List.map_map, Function.comp_def, id] using hr
  outputColumns := by
    have hc := congrArg (List.map fun c : Str × Str × Bool => (f c.1, f c.2.1, c.2.2)) h.outputColumns
    simpa only [List.map_map, Function.comp_def, id] using hc
  description := congrArg f h.description
  extraColumns := h.extraColumns
  config := by
    have hc := h.config
    rw [Json.map_id, Json.map_id] at hc
    rw [hc]
  secretRef := congrArg f h.secretRef
  modeType := h.modeType
  primaryKey := by
    have hp := congrArg (List.map f) h.primaryKey
    rwa [List.map_id, List.map_id] at hp

/-- Two nodes that differ, but whose strings have the same UTF-16 code units: a
    character of the one is written as two surrogates in the other. -/
def SurrogateTwins (n m : Node) : Prop := SameFields utf16 n m ∧ ¬ SameDeclared n m

theorem apiHeap_keys (description : Str) : NodupKeys ([(.str (py "schema"), .str (py "s")), (.str (py "table"), .str (py "t")),
    (.str (py "owner"), .str (py "o")), (.str (py "schedule"), .str (py "d")),
    (.str (py "criticality"), .str (py "CORE")), (.str (py "kind"), .str (py "python-api")),
    (.str (py "script"), .str (py "x.py")), (.str (py "output_columns"), .ref 1),
    (.str (py "description"), .str description)] : List (Val 3 × Val 3)) := by
  simp only [NodupKeys, List.map_cons, List.map_nil]
  decide +kernel

theorem apiColumn_keys : NodupKeys ([(.str (py "name"), .str (py "a")),
    (.str (py "type"), .str (py "TEXT"))] : List (Val 3 × Val 3)) := by
  simp only [NodupKeys, List.map_cons, List.map_nil]
  decide +kernel

/-- A `python-api` node with this description, as YAML constructs it. -/
def apiHeap (description : Str) : Heap where
  size := 3
  cell
    | 0 => .dict ⟨[(.str (py "schema"), .str (py "s")), (.str (py "table"), .str (py "t")),
        (.str (py "owner"), .str (py "o")), (.str (py "schedule"), .str (py "d")),
        (.str (py "criticality"), .str (py "CORE")), (.str (py "kind"), .str (py "python-api")),
        (.str (py "script"), .str (py "x.py")), (.str (py "output_columns"), .ref 1),
        (.str (py "description"), .str description)], apiHeap_keys description⟩
    | 1 => .list [.ref 2]
    | 2 => .dict ⟨[(.str (py "name"), .str (py "a")), (.str (py "type"), .str (py "TEXT"))], apiColumn_keys⟩

/-- The node it becomes. -/
def apiNode (description : Str) : Node where
  schema := py "s"
  table := py "t"
  owner := py "o"
  schedule := py "d"
  criticality := .core
  script := py "x.py"
  reads := Dict.empty
  outputColumns := [⟨py "a", py "TEXT", true⟩]
  description := description
  extraColumns := .raise
  config := .empty
  contentHash := none
  kind := .pythonApi
  secretRef := []
  modeType := defaultModeType
  primaryKey := []
  timeoutMinutes := none
  primaryKey_eq_nil _ := rfl

theorem parseNode_apiHeap (L : Lang) (P : SqlParser) (description : Str) :
    parseNode L P (apiHeap description) true (.ref ⟨0, Nat.succ_pos 2⟩) (py "f.yml") =
      .ok (apiNode description) := rfl

end ContinuoRuntime
