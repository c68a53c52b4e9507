/-
  The nodes that a contract directory declares.

  * `ContractDir.declared`: the raw nodes of a directory, file by file;
  * `nodes_eq_ok_iff`: `load_contract_dir` accepts a directory exactly if every
    raw node is accepted, their relations are distinct and there is one;
  * `loaded_eq_ok_iff`: each node stands behind the raw node that it is parsed from.
-/
import ContinuoRuntime.Contract.Loader

namespace ContinuoRuntime

/-! ## Declared nodes -/

/-- A raw node, in the document that declares it. -/
structure RawNode where
  heap : Heap
  value : Val heap.size

/-- `raw.get("config")`; the `config` of the node is this object, with its aliases. -/
def RawNode.config (r : RawNode) : Val r.heap.size :=
  match r.heap.asDict r.value with
  | some raw => getNone raw (py "config")
  | none => .none

/-- A contract directory: its path, its files, and how YAML and SQL are read. -/
structure ContractDir where
  path : Str
  files : List (Str × Str)
  load : Str → Except Exc Document
  sql : SqlParser

/-- `load_contract_dir`, with every declared read checked. -/
def ContractDir.nodes (L : Lang) (dir : ContractDir) : Except Exc (List Node) :=
  loadContractDir L dir.sql dir.load true dir.path dir.files

/-- The raw nodes of one file, each with the name of the file. -/
def fileNodes (load : Str → Except Exc Document) (file : Str × Str) : Except Exc (List (Str × RawNode)) := do
  let doc ← load file.2
  let values ← documentNodes file.1 doc
  .ok (values.map fun value => (file.1, ⟨doc.heap, value⟩))

/-- The files that `load_contract_dir` reads, in order. -/
def contractFiles (files : List (Str × Str)) : List (Str × Str) :=
  globSorted (py ".yml") files ++ globSorted (py ".yaml") files

/-- The raw nodes of a directory, each with the file that declares it. -/
def ContractDir.sources (dir : ContractDir) : Except Exc (List (Str × RawNode)) := do
  let groups ← (contractFiles dir.files).mapM (fileNodes dir.load)
  .ok groups.flatten

/-- The raw nodes that a directory declares. -/
def ContractDir.declared (dir : ContractDir) : Except Exc (List RawNode) := do
  let sources ← dir.sources
  .ok (sources.map Prod.snd)

/-- `parse_node` of a declared node. -/
def parseSource (L : Lang) (P : SqlParser) (checkReads : Bool) (source : Str × RawNode) : Except Exc Node :=
  parseNode L P source.2.heap checkReads source.2.value source.1

/-! ## The loader -/

section
variable {L : Lang} {P : SqlParser} {checkReads : Bool}

/-- The relations of the nodes are distinct. -/
def DistinctRelations (nodes : List Node) : Prop := (nodes.map Node.relation).Nodup

theorem DistinctRelations.of_append {ms ns : List Node} (h : DistinctRelations (ms ++ ns)) :
    DistinctRelations ms := by
  unfold DistinctRelations at h ⊢
  rw [List.map_append] at h
  exact h.of_append_left

/-- A node whose relation no node before it has. -/
theorem find?_relation_eq_none_iff {before : List (Str × Node)} {name : Str} {node : Node}
    (hbefore : DistinctRelations (before.map Prod.snd)) :
    before.find? (fun other => other.2.relation = node.relation) = none ↔
      DistinctRelations ((before ++ [(name, node)]).map Prod.snd) := by
  unfold DistinctRelations at hbefore ⊢
  rw [List.find?_eq_none, List.map_append, List.map_append, List.map_singleton, List.map_singleton,
    ← List.concat_eq_append, List.nodup_concat]
  constructor
  · intro hfresh
    refine ⟨fun hmem => ?_, hbefore⟩
    obtain ⟨other, hother, hrel⟩ := List.mem_map.1 hmem
    obtain ⟨entry, hentry, rfl⟩ := List.mem_map.1 hother
    exact hfresh entry hentry (decide_eq_true hrel)
  · rintro ⟨hnew, -⟩ entry hentry hrel
    exact hnew (List.mem_map.2 ⟨entry.2, List.mem_map_of_mem hentry, of_decide_eq_true hrel⟩)

/-- **The nodes of one document** are added exactly if each is accepted and no
    relation comes twice. -/
theorem loadNodes_eq_ok_iff {name : Str} {doc : Document} : ∀ {values : List (Val doc.heap.size)}
    {before : List (Str × Node)} {after : List Node}, DistinctRelations (before.map Prod.snd) →
    ((∃ out, loadNodes L P checkReads name doc before values = .ok out ∧ out.map Prod.snd = after) ↔
      ∃ nodes, values.mapM (fun value => parseNode L P doc.heap checkReads value name) = .ok nodes ∧
        after = before.map Prod.snd ++ nodes ∧ DistinctRelations after)
  | [], before, after, hbefore => by
    constructor
    · rintro ⟨out, hout, rfl⟩
      cases hout
      exact ⟨[], rfl, (List.append_nil _).symm, hbefore⟩
    · rintro ⟨nodes, hnodes, rfl, -⟩
      cases hnodes
      exact ⟨before, rfl, (List.append_nil _).symm⟩
  | value :: values, before, after, hbefore => by
    have hnext : ∀ {node : Node} {nodes : List Node},
        (before ++ [(name, node)]).map Prod.snd ++ nodes = before.map Prod.snd ++ node :: nodes := by
      intro node nodes
      rw [List.map_append, List.map_singleton, List.append_assoc, List.singleton_append]
    constructor
    · rintro ⟨out, hout, rfl⟩
      obtain ⟨node, hnode, hout⟩ := bind_eq_ok.1 hout
      split at hout
      · cases hout
      next hfresh =>
        obtain ⟨nodes, hnodes, hafter, hdistinct⟩ := (loadNodes_eq_ok_iff
          ((find?_relation_eq_none_iff hbefore).1 hfresh)).1 ⟨out, hout, rfl⟩
        refine ⟨node :: nodes, ?_, hafter.trans hnext, hdistinct⟩
        rw [List.mapM_cons]
        exact bind_eq_ok.2 ⟨node, hnode, bind_eq_ok.2 ⟨nodes, hnodes, rfl⟩⟩
    · rintro ⟨all, hall, rfl, hdistinct⟩
      rw [List.mapM_cons] at hall
      obtain ⟨node, hnode, hall⟩ := bind_eq_ok.1 hall
      obtain ⟨nodes, hnodes, hall⟩ := bind_eq_ok.1 hall
      cases hall
      rw [← hnext] at hdistinct
      have hfresh := hdistinct.of_append
      obtain ⟨out, hout, hmap⟩ := (loadNodes_eq_ok_iff hfresh).2 ⟨nodes, hnodes, rfl, hdistinct⟩
      refine ⟨out, bind_eq_ok.2 ⟨node, hnode, ?_⟩, hmap.trans hnext⟩
      rw [(find?_relation_eq_none_iff hbefore).2 hfresh]
      exact hout

theorem fileNodes_eq_ok {load : Str → Except Exc Document} {file : Str × Str} {sources : List (Str × RawNode)}
    (h : fileNodes load file = .ok sources) : ∃ doc values, load file.2 = .ok doc ∧
      documentNodes file.1 doc = .ok values ∧
      sources = values.map fun value => (file.1, ⟨doc.heap, value⟩) := by
  obtain ⟨doc, hdoc, h⟩ := bind_eq_ok.1 h
  obtain ⟨values, hvalues, h⟩ := bind_eq_ok.1 h
  exact ⟨doc, values, hdoc, hvalues, (Except.ok.inj h).symm⟩

/-- **The loop over the files**: every declared node is accepted, and no relation
    comes twice. -/
theorem loadFiles_eq_ok_iff {load : Str → Except Exc Document} : ∀ {files : List (Str × Str)}
    {groups : List (List (Str × RawNode))} {before : List (Str × Node)} {after : List Node},
    DistinctRelations (before.map Prod.snd) → files.mapM (fileNodes load) = .ok groups →
    ((∃ out, loadFiles L P load checkReads before files = .ok out ∧ out.map Prod.snd = after) ↔
      ∃ nodes, groups.flatten.mapM (parseSource L P checkReads) = .ok nodes ∧
        after = before.map Prod.snd ++ nodes ∧ DistinctRelations after)
  | [], groups, before, after, hbefore, hgroups => by
    cases hgroups
    constructor
    · rintro ⟨out, hout, rfl⟩
      cases hout
      exact ⟨[], rfl, (List.append_nil _).symm, hbefore⟩
    · rintro ⟨nodes, hnodes, rfl, -⟩
      cases hnodes
      exact ⟨before, rfl, (List.append_nil _).symm⟩
  | (name, text) :: files, groups, before, after, hbefore, hgroups => by
    rw [List.mapM_cons] at hgroups
    obtain ⟨sources, hsources, hgroups⟩ := bind_eq_ok.1 hgroups
    obtain ⟨groups, hrest, hgroups⟩ := bind_eq_ok.1 hgroups
    cases hgroups
    obtain ⟨doc, values, hdoc, hvalues, rfl⟩ := fileNodes_eq_ok hsources
    have hparse : (values.map fun value => (name, RawNode.mk doc.heap value)).mapM
        (parseSource L P checkReads) =
        values.mapM fun value => parseNode L P doc.heap checkReads value name := by
      rw [List.mapM_map]
      rfl
    have hload : loadFiles L P load checkReads before ((name, text) :: files) =
        loadNodes L P checkReads name doc before values >>= fun nodes =>
          loadFiles L P load checkReads nodes files := by
      rw [loadFiles, hdoc]
      dsimp only
      rw [hvalues]
      rfl
    rw [hload, List.flatten_cons, List.mapM_append, hparse]
    constructor
    · rintro ⟨out, hout, rfl⟩
      obtain ⟨mid, hmid, hout⟩ := bind_eq_ok.1 hout
      obtain ⟨nodes, hnodes, hafter, hdistinct⟩ := (loadNodes_eq_ok_iff hbefore).1 ⟨mid, hmid, rfl⟩
      obtain ⟨more, hmore, hout, hall⟩ := (loadFiles_eq_ok_iff hdistinct hrest).1 ⟨out, hout, rfl⟩
      refine ⟨nodes ++ more, ?_, ?_, hall⟩
      · exact bind_eq_ok.2 ⟨nodes, hnodes, bind_eq_ok.2 ⟨more, hmore, rfl⟩⟩
      · rw [hout, hafter, List.append_assoc]
    · rintro ⟨all, hall, rfl, hdistinct⟩
      obtain ⟨nodes, hnodes, hall⟩ := bind_eq_ok.1 hall
      obtain ⟨more, hmore, hall⟩ := bind_eq_ok.1 hall
      cases hall
      rw [← List.append_assoc] at hdistinct ⊢
      obtain ⟨mid, hmid, hmap⟩ := (loadNodes_eq_ok_iff hbefore).2 ⟨nodes, hnodes, rfl, hdistinct.of_append⟩
      rw [← hmap] at hdistinct ⊢
      obtain ⟨out, hout, hmap⟩ := (loadFiles_eq_ok_iff hdistinct.of_append hrest).2
        ⟨more, hmore, rfl, hdistinct⟩
      exact ⟨out, bind_eq_ok.2 ⟨mid, hmid, hout⟩, hmap⟩

/-- **`load_contract_dir`** accepts the nodes of a directory exactly if each is
    accepted, their relations are distinct, and there is one. -/
theorem nodes_eq_ok_iff {dir : ContractDir} {sources : List (Str × RawNode)} {nodes : List Node}
    (h : dir.sources = .ok sources) : dir.nodes L = .ok nodes ↔
      sources.mapM (parseSource L dir.sql true) = .ok nodes ∧ nodes ≠ [] ∧ DistinctRelations nodes := by
  obtain ⟨groups, hgroups, h⟩ := bind_eq_ok.1 h
  cases h
  have hiff := @loadFiles_eq_ok_iff L dir.sql true dir.load _ _ [] nodes List.nodup_nil hgroups
  have hrun : dir.nodes L = .ok nodes ↔ nodes ≠ [] ∧
      ∃ out, loadFiles L dir.sql dir.load true [] (contractFiles dir.files) = .ok out ∧
        out.map Prod.snd = nodes := by
    constructor
    · intro hnodes
      obtain ⟨out, hout, hnodes⟩ := bind_eq_ok.1 hnodes
      split_ifs at hnodes with hnil
      · cases hnodes
      · cases hnodes
        exact ⟨fun hmap => hnil (List.map_eq_nil_iff.1 hmap), out, hout, rfl⟩
    · rintro ⟨hne, out, hout, rfl⟩
      refine bind_eq_ok.2 ⟨out, hout, ?_⟩
      rw [if_neg fun hnil => hne (by rw [hnil, List.map_nil])]
  rw [hrun, hiff]
  constructor
  · rintro ⟨hne, parsed, hparsed, rfl, hdistinct⟩
    exact ⟨hparsed, hne, hdistinct⟩
  · rintro ⟨hparsed, hne, hdistinct⟩
    exact ⟨hne, nodes, hparsed, rfl, hdistinct⟩

/-- A file whose nodes are loaded is a document with a list of nodes. -/
theorem fileNodes_of_loadFiles {load : Str → Except Exc Document} : ∀ {files : List (Str × Str)}
    {before out : List (Str × Node)}, loadFiles L P load checkReads before files = .ok out →
    ∃ groups, files.mapM (fileNodes load) = .ok groups
  | [], _, _, _ => ⟨[], rfl⟩
  | (name, text) :: files, before, out, h => by
    rw [loadFiles] at h
    split at h
    · unfold contractError at h
      split_ifs at h
      · obtain ⟨_, -, h⟩ := bind_eq_ok.1 h
        cases h
      · obtain ⟨_, -, h⟩ := bind_eq_ok.1 h
        cases h
    · next doc hdoc =>
      obtain ⟨values, hvalues, h⟩ := bind_eq_ok.1 h
      obtain ⟨nodes, -, h⟩ := bind_eq_ok.1 h
      obtain ⟨groups, hgroups⟩ := fileNodes_of_loadFiles h
      rw [List.mapM_cons]
      exact ⟨_, bind_eq_ok.2 ⟨_, bind_eq_ok.2 ⟨doc, hdoc, bind_eq_ok.2 ⟨values, hvalues, rfl⟩⟩,
        bind_eq_ok.2 ⟨groups, hgroups, rfl⟩⟩⟩

end

/-! ## Nodes and raw nodes -/

/-- The nodes of a directory, each behind the raw node that it was parsed from: the
    `config` of a node is an object of the document. -/
def ContractDir.loaded (L : Lang) (dir : ContractDir) : Except Exc (List (RawNode × Node)) := do
  let nodes ← dir.nodes L
  let raws ← dir.declared
  .ok (raws.zip nodes)

/-- An accepted node was parsed from this raw node, in some file. -/
def RawNode.ParsesTo (L : Lang) (P : SqlParser) (raw : RawNode) (node : Node) : Prop :=
  ∃ name, parseNode L P raw.heap true raw.value name = .ok node

section
variable {L : Lang} {dir : ContractDir} {raws : List RawNode} {nodes : List Node}

/-- The documents of a directory that loads declare nodes. -/
theorem declared_of_nodes (h : dir.nodes L = .ok nodes) : ∃ raws, dir.declared = .ok raws := by
  obtain ⟨out, hout, -⟩ := bind_eq_ok.1 h
  obtain ⟨groups, hgroups⟩ := fileNodes_of_loadFiles hout
  exact ⟨_, bind_eq_ok.2 ⟨_, bind_eq_ok.2 ⟨groups, hgroups, rfl⟩, rfl⟩⟩

/-- **Each node is parsed from the raw node in its place.** -/
theorem declared_parsesTo (hraws : dir.declared = .ok raws) (hnodes : dir.nodes L = .ok nodes) :
    List.Forall₂ (RawNode.ParsesTo L dir.sql) raws nodes := by
  obtain ⟨sources, hsources, h⟩ := bind_eq_ok.1 hraws
  cases h
  rw [List.forall₂_map_left_iff]
  exact (mapM_eq_ok.1 ((nodes_eq_ok_iff hsources).1 hnodes).1).imp fun {source _} hparse => ⟨source.1, hparse⟩

theorem loaded_eq_ok_iff {loaded : List (RawNode × Node)} : dir.loaded L = .ok loaded ↔
    ∃ nodes raws, dir.nodes L = .ok nodes ∧ dir.declared = .ok raws ∧ loaded = raws.zip nodes := by
  unfold ContractDir.loaded
  rw [bind_eq_ok]
  constructor
  · rintro ⟨nodes, hnodes, h⟩
    obtain ⟨raws, hraws, h⟩ := bind_eq_ok.1 h
    exact ⟨nodes, raws, hnodes, hraws, (Except.ok.inj h).symm⟩
  · rintro ⟨nodes, raws, hnodes, hraws, rfl⟩
    exact ⟨nodes, hnodes, bind_eq_ok.2 ⟨raws, hraws, rfl⟩⟩

/-- The loaded nodes are those of `load_contract_dir`. -/
theorem loaded_nodes {loaded : List (RawNode × Node)} (h : dir.loaded L = .ok loaded) :
    dir.nodes L = .ok (loaded.map Prod.snd) := by
  obtain ⟨nodes, raws, hnodes, hraws, rfl⟩ := loaded_eq_ok_iff.1 h
  rw [hnodes, List.map_snd_zip (declared_parsesTo hraws hnodes).length_eq.ge]

end

end ContinuoRuntime
