/-
  The release artifact of two contract directories that declare the same nodes,
  whatever the files, their names, their order and the order of keys.

  The frames that `deepcopy` takes for a shared container are those of the first
  place where it stands, so that they depend on the order of keys.

  * `accepts_buildWireContract`: when the artifact is built;
  * `sameDocument_of_ok`: if it is built for both, the documents are equal;
  * `buildWireContract_agree_iff`: **the artifact depends only on the declared
    nodes** exactly if `deepcopy` fits the stack for both or for neither, or
    something else keeps the artifact from being built.
-/
import ContinuoRuntime.Contract.SameNode
import ContinuoRuntime.Contract.Merge

namespace ContinuoRuntime

/-! ## The same nodes -/

/-- Two raw nodes that are the same up to key order. -/
def RawNode.Same (r s : RawNode) : Prop := Alike r.heap s.heap r.value s.value

theorem RawNode.Same.config {r s : RawNode} (h : r.Same s) : Alike r.heap s.heap r.config s.config := by
  have hrel := Alike.asDict h
  unfold RawNode.config
  generalize r.heap.asDict r.value = o at hrel
  generalize s.heap.asDict s.value = o' at hrel
  cases hrel with
  | none => exact alike_of_level .none
  | some hde => exact hde.getNone _

theorem SameNode.relation_eq {n m : Node} (h : SameNode n m) : n.relation = m.relation := by
  rw [Node.relation, Node.relation, h.schema, h.table]

theorem UpToOrder.relations {ns ms : List Node} (h : UpToOrder SameNode ns ms) :
    (ns.map Node.relation).Perm (ms.map Node.relation) :=
  upToOrder_eq.1 (h.map fun _ _ hnm => hnm.relation_eq)

/-- **`load_contract_dir`** of two directories that declare the same nodes. -/
theorem nodes_agree (L : Lang) {dir dir' : ContractDir} {raws raws' : List RawNode} (hsql : dir.sql = dir'.sql)
    (h : dir.declared = .ok raws) (h' : dir'.declared = .ok raws') (hsame : UpToOrder RawNode.Same raws raws') :
    Agree (fun ns ms => UpToOrder SameNode ns ms ∧ DistinctRelations ns) (dir.nodes L) (dir'.nodes L) := by
  obtain ⟨sources, hsources, h⟩ := bind_eq_ok.1 h
  obtain ⟨sources', hsources', h'⟩ := bind_eq_ok.1 h'
  cases h
  cases h'
  have hparse : Agree (UpToOrder SameNode) (sources.mapM (parseSource L dir.sql true))
      (sources'.mapM (parseSource L dir.sql true)) :=
    UpToOrder.mapM hsame.of_map fun s s' hss => parseNode_agree L dir.sql true s.1 s'.1 hss
  rw [agree_iff] at hparse ⊢
  constructor
  · intro ns hns
    obtain ⟨hns, hne, hdistinct⟩ := (nodes_eq_ok_iff hsources).1 hns
    obtain ⟨ms, hms, hsame⟩ := hparse.1 ns hns
    refine ⟨ms, (nodes_eq_ok_iff hsources').2 ⟨hsql ▸ hms, ?_, ?_⟩, hsame, hdistinct⟩
    · rwa [ne_eq, ← hsame.nil_iff]
    · exact hsame.relations.nodup_iff.1 hdistinct
  · intro ms hms
    obtain ⟨hms, hne, hdistinct⟩ := (nodes_eq_ok_iff hsources').1 hms
    obtain ⟨ns, hns, hsame⟩ := hparse.2 ms (hsql ▸ hms)
    have hdistinct' : DistinctRelations ns := hsame.relations.nodup_iff.2 hdistinct
    refine ⟨ns, (nodes_eq_ok_iff hsources).2 ⟨hns, ?_, hdistinct'⟩, hsame, hdistinct'⟩
    rwa [ne_eq, hsame.nil_iff]

/-! ## The same entries -/

/-- Two entries that are equal, as Python compares dicts. -/
def SameEntry (e e' : Entry) : Prop := (Json.obj e.members).Equiv (.obj e'.members)

theorem equiv_refl {v : Json Str} (hv : v.WF) : v.Equiv v := (Json.sortKeys_eq_iff v v hv hv).1 rfl

theorem sameEntry_iff {e e' : Entry} : SameEntry e e' ↔ e.members.length = e'.members.length ∧
    ∀ p ∈ e.members, ∃ w, (p.1, w) ∈ e'.members ∧ p.2.Equiv w := by
  unfold SameEntry
  rw [Json.Equiv]
  constructor
  · rintro ⟨kws, heq, hlen, hitems⟩
    cases heq
    exact ⟨hlen, Json.equivItems_iff.1 hitems⟩
  · rintro ⟨hlen, hitems⟩
    exact ⟨_, rfl, hlen, Json.equivItems_iff.2 hitems⟩

theorem mem_keys_iff {e : Entry} {key : Str} : key ∈ e.members.map Prod.fst ↔ ∃ v, e.get? key = some v := by
  constructor
  · intro hkey
    obtain ⟨⟨_, v⟩, hp, rfl⟩ := List.mem_map.1 hkey
    exact ⟨v, JsonDict.get?_eq_some_iff.2 hp⟩
  · rintro ⟨v, hv⟩
    exact List.mem_map_of_mem (f := Prod.fst) (JsonDict.get?_eq_some_iff.1 hv)

/-- **Equal entries** answer every lookup with equal values. -/
theorem sameEntry_iff_get? {e e' : Entry} :
    SameEntry e e' ↔ ∀ key, Option.Rel Json.Equiv (e.get? key) (e'.get? key) := by
  rw [sameEntry_iff]
  constructor
  · rintro ⟨hlen, hitems⟩ key
    have hsub : e.members.map Prod.fst ⊆ e'.members.map Prod.fst := by
      intro name hname
      obtain ⟨p, hp, rfl⟩ := List.mem_map.1 hname
      obtain ⟨w, hw, -⟩ := hitems p hp
      exact List.mem_map.2 ⟨_, hw, rfl⟩
    have hperm : (e.members.map Prod.fst).Perm (e'.members.map Prod.fst) := by
      refine (e.wf.1.subperm hsub).perm_of_length_le ?_
      rw [List.length_map, List.length_map, hlen]
    cases hv : e.get? key with
    | none =>
      cases hw : e'.get? key with
      | none => exact .none
      | some w =>
        obtain ⟨v, hv'⟩ := mem_keys_iff.1 (hperm.symm.subset (mem_keys_iff.2 ⟨w, hw⟩))
        rw [hv] at hv'
        cases hv'
    | some v =>
      obtain ⟨w, hw, hvw⟩ := hitems _ (JsonDict.get?_eq_some_iff.1 hv)
      rw [JsonDict.get?_eq_some_iff.2 hw]
      exact .some hvw
  · intro hget
    have hkeys : ∀ key, key ∈ e.members.map Prod.fst ↔ key ∈ e'.members.map Prod.fst := by
      intro key
      rw [mem_keys_iff, mem_keys_iff]
      have hrel := hget key
      generalize e.get? key = o at hrel
      generalize e'.get? key = o' at hrel
      cases hrel with
      | none => exact ⟨fun ⟨v, hv⟩ => (by cases hv), fun ⟨v, hv⟩ => (by cases hv)⟩
      | some => exact ⟨fun _ => ⟨_, rfl⟩, fun _ => ⟨_, rfl⟩⟩
    have hperm := (List.perm_ext_iff_of_nodup e.wf.1 e'.wf.1).2 hkeys
    refine ⟨by simpa only [List.length_map] using hperm.length_eq, fun p hp => ?_⟩
    have hrel := hget p.1
    rw [JsonDict.get?_eq_some_iff.2 hp] at hrel
    generalize ho : e'.get? p.1 = o at hrel
    cases hrel with
    | @some _ w hvw => exact ⟨w, JsonDict.get?_eq_some_iff.1 ho, hvw⟩

theorem SameEntry.set {e e' : Entry} (h : SameEntry e e') (key : Str) {v : Json Str} (hv : v.WF) :
    SameEntry (e.set key v hv) (e'.set key v hv) := by
  rw [sameEntry_iff_get?] at h ⊢
  intro name
  rw [JsonDict.get?_set, JsonDict.get?_set]
  split_ifs
  · exact .some (equiv_refl hv)
  · exact h name

theorem SameNode.sameDeclared {n m : Node} (h : SameNode n m) : SameDeclared n m where
  schema := h.schema
  table := h.table
  owner := h.owner
  schedule := h.schedule
  criticality := h.criticality
  kind := h.kind
  script := h.script
  reads name := by rw [Dict.perm_iff_get?.1 h.reads name]
  outputColumns := h.outputColumns
  description := h.description
  extraColumns := h.extraColumns
  config := h.config
  secretRef := h.secretRef
  modeType := h.modeType
  primaryKey := h.primaryKey

/-- Two nodes with the same fields have the same hashes. -/
theorem SameNode.partsOf_eq {n m : Node} (h : SameNode n m) (b : Bytes) (ms : List Bytes) :
    partsOf (nodeEntry n) b ms = partsOf (nodeEntry m) b ms := by
  have hjson : canonicalText (nodeEntry n) = canonicalText (nodeEntry m) :=
    (canonicalText_eq_iff n m).2 (((sameFields_id_iff n m).2 h.sameDeclared).rename utf16)
  simp only [partsOf, configDigest, hjson]

theorem SameNode.hashInputs_eq {L : Lang} {parser : PythonParser} {t : FileTree} {repoRoot : Path}
    {n m : Node} (h : SameNode n m) :
    nodeHashInputs L parser t repoRoot n = nodeHashInputs L parser t repoRoot m := by
  unfold nodeHashInputs scriptHashInputs csvHashInputs
  rw [h.kind, h.script, h.relation_eq, Dict.perm_iff_get?.1 h.reads]

/-- The fields of the entries of two nodes with the same fields. -/
theorem SameNode.entryFields {n m : Node} (h : SameNode n m) :
    List.Forall₂ (fun p q => p.1 = q.1 ∧ Option.Rel Json.Equiv p.2 q.2) (entryFields n) (entryFields m) := by
  have hreads : (Json.obj (n.reads.items.map fun p => (p.1, .str p.2))).Equiv
      (.obj (m.reads.items.map fun p => (p.1, .str p.2))) := by
    refine ⟨_, rfl, ?_, Json.equivItems_iff.2 fun p hp => ?_⟩
    · rw [List.length_map, List.length_map, h.reads.length_eq]
    · obtain ⟨q, hq, rfl⟩ := List.mem_map.1 hp
      exact ⟨.str q.2, List.mem_map.2 ⟨q, h.reads.subset hq, rfl⟩, rfl⟩
  have hcolumns : (Json.arr (m.outputColumns.map columnJson)).WF := wfList_map columnJson_wf _
  have hkey : (Json.arr (m.primaryKey.map Json.str)).WF :=
    wfList_map (f := Json.str) (fun _ => trivial) _
  unfold ContinuoRuntime.entryFields
  rw [h.schema, h.table, h.owner, h.schedule, h.criticality, h.kind, h.script, h.outputColumns,
    h.description, h.extraColumns, h.secretRef, h.modeType, h.primaryKey]
  refine .cons ⟨rfl, .some rfl⟩ <| .cons ⟨rfl, .some rfl⟩ <| .cons ⟨rfl, .some rfl⟩ <|
    .cons ⟨rfl, .some rfl⟩ <| .cons ⟨rfl, .some rfl⟩ <| .cons ⟨rfl, .some rfl⟩ <|
    .cons ⟨rfl, .some rfl⟩ <| .cons ⟨rfl, .some hreads⟩ <| .cons ⟨rfl, .some (equiv_refl hcolumns)⟩ <|
    .cons ⟨rfl, .some rfl⟩ <| .cons ⟨rfl, .some rfl⟩ <| .cons ⟨rfl, .some h.config⟩ <|
    .cons ⟨rfl, ?_⟩ <| .cons ⟨rfl, ?_⟩ <| .cons ⟨rfl, ?_⟩ .nil
  · split_ifs
    · exact .none
    · exact .some rfl
  · split_ifs
    · exact .none
    · exact .some rfl
  · split_ifs
    · exact .some (equiv_refl hkey)
    · exact .none

theorem SameNode.sameEntry {n m : Node} (h : SameNode n m) : SameEntry (nodeEntry n) (nodeEntry m) := by
  have hget : ∀ {node : Node} {key : Str} {v : Json Str}, (nodeEntry node).get? key = some v ↔
      (key, some v) ∈ ContinuoRuntime.entryFields node := by
    intro node key v
    rw [JsonDict.get?_eq_some_iff]
    exact mem_presentItems
  refine sameEntry_iff_get?.2 fun key => ?_
  cases hv : (nodeEntry n).get? key with
  | none =>
    cases hw : (nodeEntry m).get? key with
    | none => exact .none
    | some w =>
      obtain ⟨⟨_, o⟩, hp, rfl, hrel⟩ := exists_of_forall₂_right h.entryFields (hget.1 hw)
      dsimp only at hrel
      cases hrel with
      | some =>
        rw [hget.2 hp] at hv
        cases hv
  | some v =>
    obtain ⟨⟨_, o⟩, hq, rfl, hrel⟩ := exists_of_forall₂_left h.entryFields (hget.1 hv)
    dsimp only at hrel
    cases hrel with
    | some hvw =>
      rw [hget.2 hq]
      exact .some hvw

/-- **The wire entry** of a node depends on its fields only. -/
theorem SameNode.wireNode {n m : Node} (h : SameNode n m) (b : Bytes) (ms : List Bytes) :
    SameEntry (wireNode n (partsOf (nodeEntry n) b ms)) (wireNode m (partsOf (nodeEntry m) b ms)) := by
  have hhashes : SameEntry (withHashes (nodeEntry n) (partsOf (nodeEntry n) b ms))
      (withHashes (nodeEntry m) (partsOf (nodeEntry m) b ms)) := by
    rw [h.partsOf_eq]
    exact (((h.sameEntry.set _ _).set _ _).set _ _).set _ _
  unfold ContinuoRuntime.wireNode
  rw [h.timeoutMinutes]
  cases m.timeoutMinutes with
  | none => exact hhashes
  | some minutes => exact hhashes.set _ _

/-! ## The same documents -/

theorem SameEntry.entryText {e e' : Entry} (h : SameEntry e e') (key : Str) :
    entryText e key = entryText e' key := by
  have hrel := sameEntry_iff_get?.1 h key
  unfold ContinuoRuntime.entryText
  generalize e.get? key = o at hrel
  generalize e'.get? key = o' at hrel
  cases hrel with
  | none => rfl
  | @some v w hvw =>
    cases v with
    | str s =>
      obtain rfl : w = .str s := hvw
      rfl
    | arr xs =>
      obtain ⟨ys, rfl, -⟩ := hvw
      rfl
    | obj kvs =>
      obtain ⟨kws, rfl, -⟩ := hvw
      rfl
    | _ =>
      obtain rfl := hvw
      rfl

theorem SameEntry.relationOf {e e' : Entry} (h : SameEntry e e') : relationOf e = relationOf e' := by
  unfold ContinuoRuntime.relationOf
  rw [h.entryText, h.entryText]

theorem relationOf_wireNode (node : Node) (parts : HashParts) :
    relationOf (wireNode node parts) = node.relation := by
  have hschema : (wireNode node parts).get? (py "schema") = some (.str node.schema) :=
    (get?_wireNode node parts (by decide +kernel)).trans (get?_nodeEntry (by simp [entryFields]))
  have htable : (wireNode node parts).get? (py "table") = some (.str node.table) :=
    (get?_wireNode node parts (by decide +kernel)).trans (get?_nodeEntry (by simp [entryFields]))
  rw [relationOf, entryText, entryText, hschema, htable]
  rfl

/-- Two documents with equal entries, in the same order. -/
structure SameDocument (doc doc' : WireContract) : Prop where
  contractVersion : doc.contractVersion = doc'.contractVersion
  service : doc.service = doc'.service
  nodes : List.Forall₂ SameEntry doc.nodes doc'.nodes
  /-- sorted by relation -/
  sorted : (doc.nodes.map relationOf).Pairwise (· < ·)

theorem pairwise_sortedItems {K V : Type} [LinearOrder K] {kvs : List (K × V)} (h : NodupKeys kvs) :
    ((sortedItems kvs).map Prod.fst).Pairwise (· < ·) := by
  have htotal : Std.Total fun p q : K × V => p.1 ≤ q.1 := ⟨fun p q => le_total p.1 q.1⟩
  have htrans : IsTrans (K × V) fun p q => p.1 ≤ q.1 := ⟨fun _ _ _ => le_trans⟩
  have hle : ((sortedItems kvs).map Prod.fst).Pairwise (· ≤ ·) :=
    List.pairwise_map.2 (List.pairwise_insertionSort _ kvs)
  have hne : ((sortedItems kvs).map Prod.fst).Nodup := ((sortedItems_perm kvs).map Prod.fst).nodup_iff.2 h
  exact hle.imp₂ (fun _ _ => lt_of_le_of_ne) hne

/-! ## When the artifact is built -/

section
variable {L : Lang} {parser : PythonParser} {t : FileTree} {repoRoot : Path}

/-- The wire node of a node whose entry is serialised. -/
def wireOf (L : Lang) (parser : PythonParser) (t : FileTree) (repoRoot : Path) (node : Node) :
    Except Exc Entry := do
  let inputs ← nodeHashInputs L parser t repoRoot node
  .ok (wireNode node (partsOf (nodeEntry node) inputs.1 inputs.2))

/-- The wire entries of a loaded directory have distinct relations. -/
theorem nodupKeys_wireNodes {nodes : List Node} {entries : List Entry} (hdistinct : DistinctRelations nodes)
    (hentries : nodes.mapM (wireOf L parser t repoRoot) = .ok entries) :
    NodupKeys (entries.map fun entry => (relationOf entry, entry)) := by
  have hrelations : entries.map relationOf = nodes.map Node.relation := by
    have hall := mapM_eq_ok.1 hentries
    clear hentries hdistinct
    induction hall with
    | nil => rfl
    | cons hentry _ ih =>
      obtain ⟨inputs, -, hentry⟩ := bind_eq_ok.1 hentry
      cases hentry
      rw [List.map_cons, List.map_cons, ih, relationOf_wireNode]
  unfold NodupKeys
  rw [List.map_map]
  exact hrelations ▸ hdistinct

/-- Everything is in order but for the copies: the nodes are accepted, their sources
    can be hashed, and their configs can be written. -/
structure Releasable (L : Lang) (parser : PythonParser) (t : FileTree) (repoRoot : Path) (S : Stack)
    (dir : ContractDir) (raws : List RawNode) : Prop where
  sourced : ∃ nodes, dir.nodes L = .ok nodes ∧ ∀ node ∈ nodes, Accepts (nodeHashInputs L parser t repoRoot node)
  encodes : ∀ raw ∈ raws, Encodable raw.heap S.nesting 1 raw.config

/-- The stack takes the copies of all configs. -/
def CopiesFit (S : Stack) (raws : List RawNode) : Prop := ∀ raw ∈ raws, raw.copied ≤ S.frames

instance decidableCopiesFit (S : Stack) (raws : List RawNode) : Decidable (CopiesFit S raws) :=
  inferInstanceAs (Decidable (∀ raw ∈ raws, raw.copied ≤ S.frames))

variable {S : Stack} {dir dir' : ContractDir} {service : Str} {raws raws' : List RawNode}

theorem accepts_buildWireNode {P : SqlParser} {raw : RawNode} {node : Node} (h : raw.ParsesTo L P node) :
    Accepts (buildWireNode L parser t repoRoot S raw node) ↔
      raw.Serialisable S ∧ Accepts (nodeHashInputs L parser t repoRoot node) := by
  obtain ⟨name, h⟩ := h
  rw [← serialises_parseNode h]
  constructor
  · rintro ⟨entry, hentry⟩
    obtain ⟨inputs, hinputs, hser, -⟩ := buildWireNode_eq_ok.1 hentry
    exact ⟨hser, inputs, hinputs⟩
  · rintro ⟨hser, inputs, hinputs⟩
    exact ⟨_, buildWireNode_eq_ok.2 ⟨inputs, hinputs, hser, rfl⟩⟩

theorem forall_zip_iff {α β : Type} {p : α → Prop} {q : β → Prop} {xs : List α} {ys : List β}
    (h : xs.length = ys.length) : (∀ z ∈ xs.zip ys, p z.1 ∧ q z.2) ↔ (∀ x ∈ xs, p x) ∧ ∀ y ∈ ys, q y := by
  have hx : (∀ x ∈ xs, p x) ↔ ∀ z ∈ xs.zip ys, p z.1 := by
    conv_lhs => rw [← List.map_fst_zip h.le, List.forall_mem_map]
  have hy : (∀ y ∈ ys, q y) ↔ ∀ z ∈ xs.zip ys, q z.2 := by
    conv_lhs => rw [← List.map_snd_zip h.ge, List.forall_mem_map]
  rw [hx, hy]
  exact forall₂_and

/-- **The artifact is built** exactly if everything is in order, the copies included. -/
theorem accepts_buildWireContract (hraws : dir.declared = .ok raws) :
    Accepts (buildWireContract L parser t repoRoot S dir service) ↔
      Releasable L parser t repoRoot S dir raws ∧ CopiesFit S raws := by
  have hnodes : ∀ {nodes}, dir.nodes L = .ok nodes →
      ((∃ entries, (raws.zip nodes).mapM (fun p => buildWireNode L parser t repoRoot S p.1 p.2) = .ok entries) ↔
        (∀ raw ∈ raws, raw.Serialisable S) ∧ ∀ node ∈ nodes, Accepts (nodeHashInputs L parser t repoRoot node)) := by
    intro nodes hnodes
    have hparses := declared_parsesTo hraws hnodes
    rw [← forall_zip_iff hparses.length_eq]
    have hentry : ∀ z ∈ raws.zip nodes, Accepts (buildWireNode L parser t repoRoot S z.1 z.2) ↔
        z.1.Serialisable S ∧ Accepts (nodeHashInputs L parser t repoRoot z.2) :=
      fun z hz => accepts_buildWireNode (List.forall₂_iff_zip.1 hparses |>.2 hz)
    constructor
    · rintro ⟨entries, hentries⟩ z hz
      obtain ⟨entry, -, h⟩ := mem_mapM_of_mem hentries hz
      exact (hentry z hz).1 ⟨entry, h⟩
    · exact fun hall => exists_mapM_eq_ok fun z hz => (hentry z hz).2 (hall z hz)
  constructor
  · rintro ⟨doc, h⟩
    obtain ⟨loaded, hloaded, h⟩ := bind_eq_ok.1 h
    obtain ⟨entries, hentries, -⟩ := bind_eq_ok.1 h
    obtain ⟨nodes, raws', hn, hraws', rfl⟩ := loaded_eq_ok_iff.1 hloaded
    obtain rfl := Except.ok.inj (hraws.symm.trans hraws')
    obtain ⟨hser, hsourced⟩ := (hnodes hn).1 ⟨entries, hentries⟩
    exact ⟨⟨⟨nodes, hn, hsourced⟩, fun raw hraw => (hser raw hraw).encodes⟩, fun raw hraw => (hser raw hraw).copies⟩
  · rintro ⟨⟨⟨nodes, hn, hsourced⟩, hencodes⟩, hcopies⟩
    obtain ⟨entries, hentries⟩ :=
      (hnodes hn).2 ⟨fun raw hraw => ⟨hcopies raw hraw, hencodes raw hraw⟩, hsourced⟩
    exact ⟨_, bind_eq_ok.2 ⟨_, loaded_eq_ok_iff.2 ⟨nodes, raws, hn, hraws, rfl⟩, bind_eq_ok.2 ⟨entries, hentries, rfl⟩⟩⟩

/-- **Accepted configs** are copied on a stack of which the walk that accepts them takes less
    than half. -/
theorem copiesFit_of_releasable (hraws : dir.declared = .ok raws) (hframes : 2 * L.depth + 4 ≤ S.frames)
    (h : Releasable L parser t repoRoot S dir raws) : CopiesFit S raws := by
  obtain ⟨⟨nodes, hnodes, -⟩, -⟩ := h
  intro raw hraw
  obtain ⟨node, -, name, hparse⟩ := exists_of_forall₂_left (declared_parsesTo hraws hnodes) hraw
  exact (copied_parseNode_le hparse).trans hframes

/-! ## Two directories -/

/-- Two directories that declare the same nodes are in order both or neither. -/
theorem releasable_of_same (hsql : dir.sql = dir'.sql) (h : dir.declared = .ok raws) (h' : dir'.declared = .ok raws')
    (hsame : UpToOrder RawNode.Same raws raws') (hready : Releasable L parser t repoRoot S dir raws) :
    Releasable L parser t repoRoot S dir' raws' := by
  obtain ⟨⟨nodes, hnodes, hsourced⟩, hencodes⟩ := hready
  obtain ⟨nodes', hnodes', hnm, -⟩ := (agree_iff.1 (nodes_agree L hsql h h' hsame)).1 nodes hnodes
  refine ⟨⟨nodes', hnodes', fun m hm => ?_⟩, fun raw' hraw' => ?_⟩
  · obtain ⟨n, hn, hsameNode⟩ := hnm.exists_left hm
    rw [← hsameNode.hashInputs_eq]
    exact hsourced n hn
  · obtain ⟨raw, hraw, hsameRaw⟩ := hsame.exists_left hraw'
    exact hsameRaw.config.encodable.1 (hencodes raw hraw)

/-- What is built of the nodes of a directory. -/
theorem nodes_of_buildWireContract {doc : WireContract}
    (h : buildWireContract L parser t repoRoot S dir service = .ok doc) : ∃ nodes entries,
      dir.nodes L = .ok nodes ∧ nodes.mapM (wireOf L parser t repoRoot) = .ok entries ∧
      doc = ⟨contractVersion, service, (sortedItems (entries.map fun entry => (relationOf entry, entry))).map
        Prod.snd⟩ := by
  obtain ⟨loaded, hloaded, h⟩ := bind_eq_ok.1 h
  obtain ⟨entries, hentries, h⟩ := bind_eq_ok.1 h
  refine ⟨_, entries, loaded_nodes hloaded, ?_, (Except.ok.inj h).symm⟩
  rw [mapM_eq_ok, List.forall₂_map_left_iff]
  refine (mapM_eq_ok.1 hentries).imp fun {p entry} hentry => ?_
  obtain ⟨inputs, hinputs, -, rfl⟩ := buildWireNode_eq_ok.1 hentry
  exact bind_eq_ok.2 ⟨inputs, hinputs, rfl⟩

/-- **If both artifacts are built, they are equal.** -/
theorem sameDocument_of_ok {doc doc' : WireContract} (hsql : dir.sql = dir'.sql) (h : dir.declared = .ok raws)
    (h' : dir'.declared = .ok raws') (hsame : UpToOrder RawNode.Same raws raws')
    (hdoc : buildWireContract L parser t repoRoot S dir service = .ok doc)
    (hdoc' : buildWireContract L parser t repoRoot S dir' service = .ok doc') : SameDocument doc doc' := by
  obtain ⟨nodes, entries, hnodes, hrun, rfl⟩ := nodes_of_buildWireContract hdoc
  obtain ⟨nodes', entries', hnodes', hrun', rfl⟩ := nodes_of_buildWireContract hdoc'
  have hagree := nodes_agree L hsql h h' hsame
  rw [hnodes, hnodes'] at hagree
  obtain ⟨hnodesSame, hdistinct⟩ := hagree
  have hbuild : Agree (UpToOrder SameEntry) (nodes.mapM (wireOf L parser t repoRoot))
      (nodes'.mapM (wireOf L parser t repoRoot)) := by
    refine hnodesSame.mapM fun n m hnm => ?_
    unfold wireOf
    rw [hnm.hashInputs_eq]
    refine Agree.bind (r := Eq) ?_ ?_
    · cases nodeHashInputs L parser t repoRoot m with
      | error e => trivial
      | ok inputs => exact rfl
    · rintro inputs _ rfl
      exact hnm.wireNode inputs.1 inputs.2
  rw [hrun, hrun'] at hbuild
  have hentries : UpToOrder SameEntry entries entries' := hbuild
  have hnodup := nodupKeys_wireNodes hdistinct hrun
  have hkeyed : UpToOrder (fun p q => p.1 = q.1 ∧ SameEntry p.2 q.2)
      (entries.map fun entry => (relationOf entry, entry))
      (entries'.map fun entry => (relationOf entry, entry)) :=
    hentries.map fun e e' he => ⟨he.relationOf, he⟩
  have hsorted := hkeyed.sorted hnodup
  refine ⟨rfl, rfl, ?_, ?_⟩
  · rw [List.forall₂_map_left_iff, List.forall₂_map_right_iff]
    exact hsorted.imp fun {p q} hpq => hpq.2
  · have hkeys : ((sortedItems (entries.map fun entry => (relationOf entry, entry))).map Prod.snd).map
        relationOf = (sortedItems (entries.map fun entry => (relationOf entry, entry))).map Prod.fst := by
      rw [List.map_map]
      refine List.map_congr_left fun p hp => ?_
      obtain ⟨entry, -, rfl⟩ := List.mem_map.1 ((sortedItems_perm _).subset hp)
      rfl
    dsimp only
    rw [hkeys]
    exact pairwise_sortedItems hnodup

end

/-- **The release artifact** of two directories that declare the same nodes: it is
    built for both, with equal documents, or for neither, exactly if (where nothing
    else is out of order) the stack takes the copies of both or of neither. -/
theorem buildWireContract_agree_iff (L : Lang) (parser : PythonParser) (t : FileTree) (repoRoot : Path)
    (S : Stack) (service : Str) (dir dir' : ContractDir) (raws raws' : List RawNode) (hsql : dir.sql = dir'.sql)
    (h : dir.declared = .ok raws) (h' : dir'.declared = .ok raws') (hsame : UpToOrder RawNode.Same raws raws') :
    Agree SameDocument (buildWireContract L parser t repoRoot S dir service)
        (buildWireContract L parser t repoRoot S dir' service) ↔
      (Releasable L parser t repoRoot S dir raws → (CopiesFit S raws ↔ CopiesFit S raws')) := by
  have hready : Releasable L parser t repoRoot S dir raws ↔ Releasable L parser t repoRoot S dir' raws' :=
    ⟨releasable_of_same hsql h h' hsame, releasable_of_same hsql.symm h' h (hsame.flip.mono fun _ _ hrs => hrs.symm)⟩
  have hbuilt : Accepts (buildWireContract L parser t repoRoot S dir service) ↔
      Releasable L parser t repoRoot S dir raws ∧ CopiesFit S raws := accepts_buildWireContract h
  have hbuilt' : Accepts (buildWireContract L parser t repoRoot S dir' service) ↔
      Releasable L parser t repoRoot S dir raws ∧ CopiesFit S raws' := by
    rw [hready]
    exact accepts_buildWireContract h'
  rw [agree_iff]
  constructor
  · rintro ⟨hleft, hright⟩ hrel
    constructor
    · intro hfit
      obtain ⟨doc, hdoc⟩ := hbuilt.2 ⟨hrel, hfit⟩
      obtain ⟨doc', hdoc', -⟩ := hleft doc hdoc
      exact (hbuilt'.1 ⟨doc', hdoc'⟩).2
    · intro hfit
      obtain ⟨doc', hdoc'⟩ := hbuilt'.2 ⟨hrel, hfit⟩
      obtain ⟨doc, hdoc, -⟩ := hright doc' hdoc'
      exact (hbuilt.1 ⟨doc, hdoc⟩).2
  · intro hfit
    constructor
    · intro doc hdoc
      obtain ⟨hrel, hcopies⟩ := hbuilt.1 ⟨doc, hdoc⟩
      obtain ⟨doc', hdoc'⟩ := hbuilt'.2 ⟨hrel, (hfit hrel).1 hcopies⟩
      exact ⟨doc', hdoc', sameDocument_of_ok hsql h h' hsame hdoc hdoc'⟩
    · intro doc' hdoc'
      obtain ⟨hrel, hcopies⟩ := hbuilt'.1 ⟨doc', hdoc'⟩
      obtain ⟨doc, hdoc⟩ := hbuilt.2 ⟨hrel, (hfit hrel).2 hcopies⟩
      exact ⟨doc, hdoc, sameDocument_of_ok hsql h h' hsame hdoc hdoc'⟩

theorem reorderedFields_keys : NodupKeys ([(.str (py "table"), .str (py "t")), (.str (py "schema"), .str (py "s")),
    (.str (py "owner"), .str (py "o")), (.str (py "schedule"), .str (py "d")),
    (.str (py "criticality"), .str (py "CORE")), (.str (py "kind"), .str (py "python-api")),
    (.str (py "script"), .str (py "x.py")), (.str (py "output_columns"), .ref 1)] : List (Val 5 × Val 5)) := by
  simp only [NodupKeys, List.map_cons, List.map_nil]
  decide +kernel

/-- The document of `apiDocument` with two keys of its node in another order. -/
def reorderedDocument : Document where
  heap := {
    size := 5
    cell
      | 0 => .dict ⟨[(.str (py "table"), .str (py "t")), (.str (py "schema"), .str (py "s")),
          (.str (py "owner"), .str (py "o")), (.str (py "schedule"), .str (py "d")),
          (.str (py "criticality"), .str (py "CORE")), (.str (py "kind"), .str (py "python-api")),
          (.str (py "script"), .str (py "x.py")), (.str (py "output_columns"), .ref 1)], reorderedFields_keys⟩
      | 1 => .list [.ref 2]
      | 2 => .dict ⟨[(.str (py "name"), .str (py "a")), (.str (py "type"), .str (py "TEXT"))], textColumn_keys⟩
      | 3 => .dict ⟨[(.str (py "nodes"), .ref 4)], nodes_keys⟩
      | 4 => .list [.ref 0] }
  root := .ref 3

/-- A document that declares no node. -/
def emptyDocument : Document where
  heap := {
    size := 2
    cell
      | 0 => .dict ⟨[(.str (py "nodes"), .ref 1)], List.nodup_singleton _⟩
      | 1 => .list [] }
  root := .ref 0

/-- A directory with that node in a `.yaml` file, and an empty list of nodes in
    another file. -/
def reorderedDir (sql : SqlParser) : ContractDir where
  path := py "other"
  files := [(py "z.yaml", py "nodes"), (py "a.yml", [])]
  load text := if text = [] then .ok emptyDocument else .ok reorderedDocument
  sql := sql

/-- The node that both declare. -/
def reorderedRaw : RawNode := ⟨reorderedDocument.heap, .ref ⟨0, firstCell_lt⟩⟩

theorem apiRaw_same : apiRaw.Same reorderedRaw := by
  have hsame : ∀ items : List (Val 5 × Val 5),
      UpToOrder (fun p q => p.1 = q.1 ∧ p.2 = q.2) items items := fun items =>
    .of_forall₂ (List.forall₂_same.2 fun _ _ => ⟨rfl, rfl⟩)
  have hcell : ∀ a : Fin 5, AlikeCell (fun v w : Val 5 => v = w) (apiDocument.heap.cell a)
      (reorderedDocument.heap.cell a)
    | 0 => .dict ⟨_, List.Perm.swap _ _ _, List.forall₂_same.2 fun _ _ => ⟨rfl, rfl⟩⟩
    | 1 => .list (List.forall₂_same.2 fun _ _ => rfl)
    | 2 => .dict (hsame _)
    | 3 => .dict (hsame _)
    | 4 => .list (List.forall₂_same.2 fun _ _ => rfl)
  refine ⟨fun v w => v = w, fun v w hvw => ?_, rfl⟩
  subst hvw
  cases v with
  | none => exact .none
  | bool b => exact .bool b
  | int i => exact .int i
  | float f => exact .float f
  | str s => exact .str s
  | other t o x => exact .other t o x
  | ref a => exact .ref (hcell a)

theorem buildWireContract_agree_reordered : Agree SameDocument
    (buildWireContract plainLang importLineParser (pairTree [] helperText) appRoot smallStack (apiDir emptySql)
      (py "app"))
    (buildWireContract plainLang importLineParser (pairTree [] helperText) appRoot smallStack
      (reorderedDir emptySql) (py "app")) :=
  (buildWireContract_agree_iff plainLang importLineParser (pairTree [] helperText) appRoot smallStack (py "app")
    (apiDir emptySql) (reorderedDir emptySql) [apiRaw] [reorderedRaw] rfl rfl rfl
    (.of_forall₂ (.cons apiRaw_same .nil))).2 fun _ => by decide +kernel

/-! ## A chain of aliases -/

theorem chainFields_keys : NodupKeys ([(.str (py "schema"), .str (py "s")), (.str (py "table"), .str (py "t")),
    (.str (py "owner"), .str (py "o")), (.str (py "schedule"), .str (py "d")),
    (.str (py "criticality"), .str (py "CORE")), (.str (py "kind"), .str (py "python-api")),
    (.str (py "script"), .str (py "x.py")), (.str (py "output_columns"), .ref 1),
    (.str (py "config"), .ref 5)] : List (Val 56 × Val 56)) := by
  simp only [NodupKeys, List.map_cons, List.map_nil]
  decide +kernel

theorem chainColumn_keys : NodupKeys ([(.str (py "name"), .str (py "a")),
    (.str (py "type"), .str (py "TEXT"))] : List (Val 56 × Val 56)) := by
  simp only [NodupKeys, List.map_cons, List.map_nil]
  decide +kernel

theorem chainNodes_keys : NodupKeys ([(.str (py "nodes"), .ref 4)] : List (Val 56 × Val 56)) :=
  List.nodup_singleton _

/-- The links of a chain, each under a key of one letter. -/
def chainLinks : List (Val 56 × Val 56) :=
  (List.finRange 50).map fun i => (.str [Fin.ofNat _ (65 + i.1)], .ref (i.natAdd 6))

theorem chainLinks_keys : NodupKeys chainLinks := by
  unfold NodupKeys
  decide +kernel

/-- The containers of a node whose config is a chain: its first link is an empty list,
    and the others are lists of an alias for the one before. -/
def chainCell (config : Dict (Val 56) (Val 56)) : ℕ → Cell 56
  | 0 => .dict ⟨[(.str (py "schema"), .str (py "s")), (.str (py "table"), .str (py "t")),
      (.str (py "owner"), .str (py "o")), (.str (py "schedule"), .str (py "d")),
      (.str (py "criticality"), .str (py "CORE")), (.str (py "kind"), .str (py "python-api")),
      (.str (py "script"), .str (py "x.py")), (.str (py "output_columns"), .ref 1),
      (.str (py "config"), .ref 5)], chainFields_keys⟩
  | 1 => .list [.ref 2]
  | 2 => .dict ⟨[(.str (py "name"), .str (py "a")), (.str (py "type"), .str (py "TEXT"))], chainColumn_keys⟩
  | 3 => .dict ⟨[(.str (py "nodes"), .ref 4)], chainNodes_keys⟩
  | 4 => .list [.ref 0]
  | 5 => .dict config
  | 6 => .list []
  | i + 7 => .list [.ref (Fin.ofNat _ (i + 6))]

def chainDocument (config : Dict (Val 56) (Val 56)) : Document where
  heap := ⟨56, fun a => chainCell config a.1⟩
  root := .ref 3

theorem chainCell_eq {c d : Dict (Val 56) (Val 56)} : ∀ {i : ℕ}, i ≠ 5 → chainCell c i = chainCell d i
  | 0, _ | 1, _ | 2, _ | 3, _ | 4, _ | 6, _ => rfl
  | 5, hi => absurd rfl hi
  | _ + 7, _ => rfl

/-- The config with the links in the order of the chain. -/
def ascendingLinks : Dict (Val 56) (Val 56) := ⟨chainLinks, chainLinks_keys⟩

/-- The config with the last link first. -/
def descendingLinks : Dict (Val 56) (Val 56) :=
  ⟨chainLinks.reverse, ((List.reverse_perm chainLinks).map Prod.fst).nodup_iff.2 chainLinks_keys⟩

/-- The node of that document. -/
def chainRaw (config : Dict (Val 56) (Val 56)) : RawNode := ⟨(chainDocument config).heap, .ref ⟨0, Nat.succ_pos 55⟩⟩

/-- A directory with that document. -/
def chainDir (config : Dict (Val 56) (Val 56)) : ContractDir :=
  ⟨py "contracts", [(py "n.yml", [])], fun _ => .ok (chainDocument config), emptySql⟩

theorem chainRaw_same : (chainRaw ascendingLinks).Same (chainRaw descendingLinks) := by
  have hsame : ∀ c : Cell 56, AlikeCell (fun v w : Val 56 => v = w) c c
    | .dict d => .dict (.of_forall₂ (List.forall₂_same.2 fun _ _ => ⟨rfl, rfl⟩))
    | .list xs => .list (List.forall₂_same.2 fun _ _ => rfl)
  have hcell : ∀ i, AlikeCell (fun v w : Val 56 => v = w) (chainCell ascendingLinks i)
      (chainCell descendingLinks i) := by
    intro i
    by_cases hi : i = 5
    · subst hi
      exact .dict ⟨_, (List.reverse_perm chainLinks).symm, List.forall₂_same.2 fun _ _ => ⟨rfl, rfl⟩⟩
    · rw [chainCell_eq hi]
      exact hsame _
  refine ⟨fun v w => v = w, fun v w hvw => ?_, rfl⟩
  subst hvw
  cases v with
  | none => exact .none
  | bool b => exact .bool b
  | int i => exact .int i
  | float f => exact .float f
  | str s => exact .str s
  | other t o x => exact .other t o x
  | ref a => exact .ref (hcell a.1)

theorem chainDir_declared (config : Dict (Val 56) (Val 56)) :
    (chainDir config).declared = .ok [chainRaw config] := rfl

theorem ascending_isOk : (buildWireContract plainLang importLineParser (pairTree [] helperText) appRoot smallStack
    (chainDir ascendingLinks) (py "app")).isOk = true := by
  decide +kernel

theorem descending_isOk : (buildWireContract plainLang importLineParser (pairTree [] helperText) appRoot smallStack
    (chainDir descendingLinks) (py "app")).isOk = false := by
  decide +kernel

/-- **Key order alone** keeps an artifact from being built: in ascending order `deepcopy`
    meets each link when the one before is copied, in descending order it copies
    the whole chain from its end. -/
theorem buildWireContract_descending :
    (chainDir ascendingLinks).declared = .ok [chainRaw ascendingLinks] ∧
    (chainDir descendingLinks).declared = .ok [chainRaw descendingLinks] ∧
    UpToOrder RawNode.Same [chainRaw ascendingLinks] [chainRaw descendingLinks] ∧
    ¬ Agree SameDocument
      (buildWireContract plainLang importLineParser (pairTree [] helperText) appRoot smallStack
        (chainDir ascendingLinks) (py "app"))
      (buildWireContract plainLang importLineParser (pairTree [] helperText) appRoot smallStack
        (chainDir descendingLinks) (py "app")) := by
  exact ⟨chainDir_declared _, chainDir_declared _, .of_forall₂ (.cons chainRaw_same .nil),
    not_agree_of_isOk ascending_isOk descending_isOk⟩

end ContinuoRuntime
