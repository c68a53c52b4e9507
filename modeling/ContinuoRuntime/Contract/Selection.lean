/-
  Node selection (`select_node` in `harness.py`) and the names it inverts.

  `NODE_ID` ends in the schema and the table of a node, joined with dots; the
  loader compares the joined names for duplicates, the harness splits them.

  * `selectNode_qualified`, `dotFree_of_selectNode`: what selection does with such
    an id;
  * `loadFiles_eq_checkAttempts`: loading, with the duplicates told apart from the
    other failures;
  * `nodeSelection_iff`: naming and selection agree unless a name holds a dot.
-/
import ContinuoRuntime.Contract.Loader

namespace ContinuoRuntime

/-! ## Selection -/

section
variable (L : Lang)

/-- `select_node`. -/
def selectNode (nodes : List Node) (nodeId : Str) : Except Exc Node :=
  match (splitDots nodeId).reverse with
  | table :: schema :: _ =>
    match nodes.find? fun node => node.schema = schema ∧ node.table = table with
    | some node => .ok node
    | none => contractError (py "no node matches " ++ L.reprStr nodeId ++ py " (schema=" ++ L.reprStr schema ++
        py ", table=" ++ L.reprStr table ++ py "); available relations: " ++
        reprList L.reprStr ((nodes.map Node.relation).insertionSort (· ≤ ·)))
  | _ => contractError (py "node_id " ++ L.reprStr nodeId ++
      py " must have at least 2 dot-separated segments (schema.table)")

end

/-- The id of a node, after a prefix. -/
def qualifiedId (before : Str) (node : Node) : Str := before ++ py "." ++ node.schema ++ py "." ++ node.table

/-- Neither name of the node holds a dot. -/
def DotFree (node : Node) : Prop := ch '.' ∉ node.schema ∧ ch '.' ∉ node.table

section
variable {L : Lang} {nodes : List Node} {n : Node}

/-- **Selection** of an id whose last two parts are these. -/
theorem selectNode_of_splitDots {nodeId schema table : Str} {parts : List Str}
    (hsplit : splitDots nodeId = parts ++ [schema, table]) (hn : n ∈ nodes) (hschema : n.schema = schema)
    (htable : n.table = table) (hunique : ∀ m ∈ nodes, m.schema = schema → m.table = table → m = n) :
    selectNode L nodes nodeId = .ok n := by
  have hrev : (splitDots nodeId).reverse = table :: schema :: parts.reverse := by
    rw [hsplit, List.reverse_append]
    rfl
  unfold selectNode
  rw [hrev]
  dsimp only
  cases hfind : nodes.find? fun node => node.schema = schema ∧ node.table = table with
  | none =>
    have hnone := List.find?_eq_none.1 hfind n hn
    exact absurd (decide_eq_true ⟨hschema, htable⟩) hnone
  | some m =>
    have hm : m.schema = schema ∧ m.table = table := by simpa using List.find?_some hfind
    rw [hunique m (List.mem_of_find?_eq_some hfind) hm.1 hm.2]

theorem selectNode_qualified (before : Str) (hn : n ∈ nodes) (hdot : DotFree n)
    (hunique : ∀ m ∈ nodes, m.schema = n.schema → m.table = n.table → m = n) :
    selectNode L nodes (qualifiedId before n) = .ok n := by
  have hsplit : splitDots (qualifiedId before n) = splitDots before ++ [n.schema, n.table] := by
    rw [qualifiedId, splitDots_append, splitDots_append, splitDots_of_notMem hdot.1,
      splitDots_of_notMem hdot.2, List.append_assoc]
    rfl
  exact selectNode_of_splitDots hsplit hn rfl rfl hunique

/-- A node that is selected has no dot in its names. -/
theorem dotFree_of_selectNode {nodeId : Str} (h : selectNode L nodes nodeId = .ok n) : DotFree n := by
  unfold selectNode contractError at h
  split at h
  next table schema rest hrev =>
    split at h
    next m hfind =>
      cases h
      have hm : n.schema = schema ∧ n.table = table := by simpa using List.find?_some hfind
      have hmem : ∀ part ∈ table :: schema :: rest, ch '.' ∉ part := fun part hpart =>
        dot_notMem_of_mem_splitDots (List.mem_reverse.1 (hrev ▸ hpart))
      exact ⟨hm.1 ▸ hmem schema (by simp), hm.2 ▸ hmem table (by simp)⟩
    · cases h
  · cases h

end

/-! ## Loading, with the duplicates told apart -/

section
variable (L : Lang) (P : SqlParser)

/-- Why loading fails. -/
inductive LoadFailure where
  | duplicate (relation source name : Str)
  | other (exc : Exc)

/-- The exception it raises. -/
def LoadFailure.exc : LoadFailure → Exc
  | .duplicate relation source name => .text .contractError (py "duplicate node " ++ relation ++ py " (in " ++
      source ++ py " and " ++ name ++ py ")")
  | .other exc => exc

/-- What `load_contract_dir` raises where YAML raises `exc`. -/
def yamlFailure (name : Str) (exc : Exc) : Exc :=
  let prefixed (before : Str) : Exc := match exc.format with
    | .ok detail => .text .contractError (before ++ detail)
    | .error inner => inner
  if exc.cls = .contractError then prefixed (name ++ py ": ")
  else if exc.cls = .yamlError then prefixed (name ++ py ": invalid YAML: ")
  else exc

/-- Each node of one file, or what reading it fails with. -/
def fileAttempts (load : Str → Except Exc Document) (checkReads : Bool) (file : Str × Str) :
    List (Except Exc (Str × Node)) :=
  match load file.2 with
  | .error exc => [.error (yamlFailure file.1 exc)]
  | .ok doc => match documentNodes file.1 doc with
    | .error exc => [.error exc]
    | .ok values => values.map fun value =>
        (parseNode L P doc.heap checkReads value file.1).map fun node => (file.1, node)

/-- The check for duplicates, over what was read. -/
def checkAttempts : List (Str × Node) → List (Except Exc (Str × Node)) →
    Except LoadFailure (List (Str × Node))
  | nodes, [] => .ok nodes
  | _, .error exc :: _ => .error (.other exc)
  | nodes, .ok (name, node) :: attempts =>
    match nodes.find? fun other => other.2.relation = node.relation with
    | some (source, _) => .error (.duplicate node.relation source name)
    | none => checkAttempts (nodes ++ [(name, node)]) attempts

theorem checkAttempts_append : ∀ {nodes : List (Str × Node)} {xs ys : List (Except Exc (Str × Node))},
    checkAttempts nodes (xs ++ ys) = checkAttempts nodes xs >>= fun nodes => checkAttempts nodes ys
  | nodes, [], ys => rfl
  | nodes, .error _ :: _, ys => rfl
  | nodes, .ok (name, node) :: xs, ys => by
    rw [List.cons_append, checkAttempts, checkAttempts]
    split
    · rfl
    · exact checkAttempts_append

theorem loadNodes_eq_checkAttempts {checkReads : Bool} {name : Str} {doc : Document} :
    ∀ {values : List (Val doc.heap.size)} {nodes : List (Str × Node)},
      loadNodes L P checkReads name doc nodes values =
        (checkAttempts nodes (values.map fun value =>
          (parseNode L P doc.heap checkReads value name).map fun node => (name, node))).mapError
            LoadFailure.exc
  | [], nodes => rfl
  | value :: values, nodes => by
    rw [loadNodes, List.map_cons]
    cases parseNode L P doc.heap checkReads value name with
    | error exc => rfl
    | ok node =>
      dsimp only [bind, Except.bind, Except.map]
      rw [checkAttempts]
      cases nodes.find? fun other => other.2.relation = node.relation with
      | some source => rfl
      | none => exact loadNodes_eq_checkAttempts

/-- **Loading** is the check for duplicates over what is read. -/
theorem loadFiles_eq_checkAttempts {load : Str → Except Exc Document} {checkReads : Bool} :
    ∀ {files : List (Str × Str)} {nodes : List (Str × Node)},
      loadFiles L P load checkReads nodes files =
        (checkAttempts nodes (files.flatMap (fileAttempts L P load checkReads))).mapError LoadFailure.exc
  | [], nodes => rfl
  | (name, text) :: files, nodes => by
    rw [loadFiles, List.flatMap_cons, checkAttempts_append, fileAttempts]
    dsimp only
    cases load text with
    | error exc =>
      dsimp only [checkAttempts, bind, Except.bind, Except.mapError, LoadFailure.exc, yamlFailure]
      split_ifs
      · cases exc.format <;> rfl
      · cases exc.format <;> rfl
      · rfl
    | ok doc =>
      dsimp only
      cases documentNodes name doc with
      | error exc => rfl
      | ok values =>
        dsimp only [bind, Except.bind]
        rw [loadNodes_eq_checkAttempts]
        cases checkAttempts nodes _ with
        | error failure => rfl
        | ok nodes => exact loadFiles_eq_checkAttempts

/-- What is read before the first failure. -/
def readNodes : List (Except Exc (Str × Node)) → List Node
  | .ok (_, node) :: attempts => node :: readNodes attempts
  | _ => []

variable {P L}

/-- Read without a failure. -/
def AllRead (attempts : List (Except Exc (Str × Node))) : Prop := ∀ exc, .error exc ∉ attempts

/-- **Duplicates** are found exactly if a relation is read twice. -/
theorem checkAttempts_duplicate_iff : ∀ (attempts : List (Except Exc (Str × Node)))
    (nodes : List (Str × Node)), (nodes.map fun p => p.2.relation).Nodup →
    ((∃ relation source name, checkAttempts nodes attempts = .error (.duplicate relation source name)) ↔
      ¬ (nodes.map (fun p => p.2.relation) ++ (readNodes attempts).map Node.relation).Nodup)
  | [], nodes, hn => by
    have hread : readNodes [] = [] := rfl
    rw [checkAttempts, hread, List.map_nil, List.append_nil]
    exact ⟨fun ⟨_, _, _, h⟩ => (by cases h), fun h => absurd hn h⟩
  | .error exc :: attempts, nodes, hn => by
    have hread : readNodes (.error exc :: attempts) = [] := rfl
    rw [checkAttempts, hread, List.map_nil, List.append_nil]
    exact ⟨fun ⟨_, _, _, h⟩ => (by cases h), fun h => absurd hn h⟩
  | .ok (name, node) :: attempts, nodes, hn => by
    rw [checkAttempts, readNodes, List.map_cons]
    cases hfind : nodes.find? fun other => other.2.relation = node.relation with
    | some other =>
      have hmem : node.relation ∈ nodes.map fun p => p.2.relation := by
        have hrel : other.2.relation = node.relation := by simpa using List.find?_some hfind
        exact List.mem_map.2 ⟨other, List.mem_of_find?_eq_some hfind, hrel⟩
      refine ⟨fun _ hnodup => ?_, fun _ => ⟨_, _, _, rfl⟩⟩
      exact (List.nodup_append.1 hnodup).2.2 _ hmem _ List.mem_cons_self rfl
    | none =>
      have hfresh : node.relation ∉ nodes.map fun p => p.2.relation := by
        rintro hmem
        obtain ⟨other, hother, hrel⟩ := List.mem_map.1 hmem
        exact List.find?_eq_none.1 hfind other hother (decide_eq_true hrel)
      have hn' : ((nodes ++ [(name, node)]).map fun p => p.2.relation).Nodup := by
        rw [List.map_append]
        refine List.nodup_append.2 ⟨hn, List.nodup_singleton _, fun a ha b hb hab => hfresh ?_⟩
        obtain rfl : b = node.relation := List.mem_singleton.1 hb
        exact hab ▸ ha
      have ih := checkAttempts_duplicate_iff attempts _ hn'
      rwa [List.map_append, List.append_assoc] at ih

theorem checkAttempts_nil_duplicate_iff (attempts : List (Except Exc (Str × Node))) :
    (∃ relation source name, checkAttempts [] attempts = .error (.duplicate relation source name)) ↔
      ¬ ((readNodes attempts).map Node.relation).Nodup := by
  have h := checkAttempts_duplicate_iff attempts [] List.nodup_nil
  rwa [List.map_nil, List.nil_append] at h

/-- How the check ends: with a duplicate, with a failure that was read, or with all
    that was read. -/
theorem checkAttempts_cases : ∀ (attempts : List (Except Exc (Str × Node))) (nodes : List (Str × Node)),
    (∃ relation source name, checkAttempts nodes attempts = .error (.duplicate relation source name)) ∨
      (∃ exc, .error exc ∈ attempts ∧ checkAttempts nodes attempts = .error (.other exc)) ∨
      AllRead attempts ∧ ∃ out, checkAttempts nodes attempts = .ok out ∧
        out.map Prod.snd = nodes.map Prod.snd ++ readNodes attempts
  | [], nodes => .inr (.inr ⟨fun _ => List.not_mem_nil, nodes, rfl, (List.append_nil _).symm⟩)
  | .error exc :: attempts, nodes => .inr (.inl ⟨exc, List.mem_cons_self, rfl⟩)
  | .ok (name, node) :: attempts, nodes => by
    rw [checkAttempts, readNodes]
    cases nodes.find? fun other => other.2.relation = node.relation with
    | some other => exact .inl ⟨_, _, _, rfl⟩
    | none =>
      rcases checkAttempts_cases attempts (nodes ++ [(name, node)]) with h | ⟨exc, hmem, h⟩ | ⟨hall, out, h, hout⟩
      · exact .inl h
      · exact .inr (.inl ⟨exc, List.mem_cons_of_mem _ hmem, h⟩)
      · refine .inr (.inr ⟨fun exc hmem => ?_, out, h, ?_⟩)
        · rcases List.mem_cons.1 hmem with hmem | hmem
          · cases hmem
          · exact hall exc hmem
        · rw [hout, List.map_append, List.append_assoc]
          rfl

/-! ## Naming and selection -/

variable (L P)

/-- What a directory is read as. -/
def dirAttempts (load : Str → Except Exc Document) (checkReads : Bool) (files : List (Str × Str)) :
    List (Except Exc (Str × Node)) :=
  (globSorted (py ".yml") files ++ globSorted (py ".yaml") files).flatMap (fileAttempts L P load checkReads)

/-- `load_contract_dir` raises for a duplicate. -/
def RejectedAsDuplicate (load : Str → Except Exc Document) (checkReads : Bool) (path : Str)
    (files : List (Str × Str)) : Prop :=
  ∃ relation source name,
    checkAttempts [] (dirAttempts L P load checkReads files) = .error (.duplicate relation source name) ∧
    loadContractDir L P load checkReads path files =
      .error (LoadFailure.duplicate relation source name).exc

/-- Two nodes have the same schema and table. -/
def SamePair (nodes : List Node) : Prop := ¬ (nodes.map fun node => (node.schema, node.table)).Nodup

variable {L P} {load : Str → Except Exc Document} {checkReads : Bool} {path : Str} {files : List (Str × Str)}

theorem loadContractDir_eq : loadContractDir L P load checkReads path files =
    (match checkAttempts [] (dirAttempts L P load checkReads files) with
      | .error failure => .error failure.exc
      | .ok nodes => if nodes = [] then contractError (py "no contract files found in " ++ path)
          else .ok (nodes.map Prod.snd)) := by
  rw [loadContractDir, loadFiles_eq_checkAttempts]
  unfold dirAttempts
  cases checkAttempts [] _ <;> rfl

theorem rejectedAsDuplicate_iff : RejectedAsDuplicate L P load checkReads path files ↔
    ¬ ((readNodes (dirAttempts L P load checkReads files)).map Node.relation).Nodup := by
  rw [← checkAttempts_nil_duplicate_iff]
  refine exists_congr fun relation => exists_congr fun source => exists_congr fun name => ?_
  refine ⟨fun h => h.1, fun h => ⟨h, ?_⟩⟩
  rw [loadContractDir_eq, h]

/-- **Accepted** are the nodes read, if nothing failed and no relation is read
    twice. -/
theorem loadContractDir_eq_ok_iff {nodes : List Node} :
    loadContractDir L P load checkReads path files = .ok nodes ↔
      AllRead (dirAttempts L P load checkReads files) ∧ nodes ≠ [] ∧
        nodes = readNodes (dirAttempts L P load checkReads files) ∧ (nodes.map Node.relation).Nodup := by
  have hdup := checkAttempts_nil_duplicate_iff (dirAttempts L P load checkReads files)
  rw [loadContractDir_eq]
  rcases checkAttempts_cases (dirAttempts L P load checkReads files) [] with
    h | ⟨exc, hmem, h⟩ | ⟨hall, out, h, hout⟩
  · have hnodup := hdup.1 h
    obtain ⟨_, _, _, h⟩ := h
    rw [h]
    refine ⟨fun h => (by cases h), ?_⟩
    rintro ⟨-, -, rfl, hn⟩
    exact absurd hn hnodup
  · rw [h]
    exact ⟨fun h => (by cases h), fun hok => absurd hmem (hok.1 exc)⟩
  · rw [List.map_nil, List.nil_append] at hout
    have hn : ((readNodes (dirAttempts L P load checkReads files)).map Node.relation).Nodup := by
      by_contra hn
      obtain ⟨_, _, _, hd⟩ := hdup.2 hn
      rw [h] at hd
      cases hd
    rw [h]
    dsimp only [contractError]
    rw [hout]
    constructor
    · intro hok
      split_ifs at hok with hnil
      cases hok
      refine ⟨hall, fun hr => hnil (List.map_eq_nil_iff.1 (hout.trans hr)), rfl, hn⟩
    · rintro ⟨-, hne, rfl, -⟩
      rw [if_neg]
      rintro rfl
      exact hne hout.symm

/-- Names without dots have one relation for each pair. -/
theorem nodup_relation {nodes : List Node} (hdot : ∀ n ∈ nodes, DotFree n) (hpair : ¬ SamePair nodes) :
    (nodes.map Node.relation).Nodup := by
  have hn := not_not.1 hpair
  rw [List.Nodup, List.pairwise_map] at hn ⊢
  refine hn.imp_of_mem fun ha hb hne hrel => hne ?_
  obtain ⟨hs, ht⟩ := dotted_inj (hdot _ ha).1 (hdot _ ha).2 (hdot _ hb).1 (hdot _ hb).2 hrel
  rw [hs, ht]

/-- Distinct relations have distinct pairs. -/
theorem not_samePair {nodes : List Node} (h : (nodes.map Node.relation).Nodup) : ¬ SamePair nodes := by
  refine not_not.2 ?_
  rw [List.Nodup, List.pairwise_map] at h ⊢
  refine h.imp fun hne hpair => hne ?_
  rw [Node.relation, Node.relation, (Prod.mk.inj hpair).1, (Prod.mk.inj hpair).2]

/-- **Selection inverts naming**, and duplicates are the nodes with one schema and
    table, exactly if two nodes have the same pair, or no name holds a dot, or the
    directory fails otherwise before a relation is read twice. -/
theorem nodeSelection_iff (L : Lang) (P : SqlParser) (load : Str → Except Exc Document) (checkReads : Bool)
    (path : Str) (files : List (Str × Str)) :
    ((∀ nodes, loadContractDir L P load checkReads path files = .ok nodes → ∀ n ∈ nodes, ∀ before,
          selectNode L nodes (qualifiedId before n) = .ok n) ∧
        (RejectedAsDuplicate L P load checkReads path files ↔
          SamePair (readNodes (dirAttempts L P load checkReads files)))) ↔
      SamePair (readNodes (dirAttempts L P load checkReads files)) ∨
        (∀ n ∈ readNodes (dirAttempts L P load checkReads files), DotFree n) ∨
        ¬ AllRead (dirAttempts L P load checkReads files) ∧
          ((readNodes (dirAttempts L P load checkReads files)).map Node.relation).Nodup := by
  rw [rejectedAsDuplicate_iff]
  constructor
  · rintro ⟨hselect, hdup⟩
    by_cases hpair : SamePair (readNodes (dirAttempts L P load checkReads files))
    · exact .inl hpair
    have hrel := not_not.1 (mt hdup.1 hpair)
    by_cases hall : AllRead (dirAttempts L P load checkReads files)
    · refine .inr (.inl fun n hn => ?_)
      have hne : readNodes (dirAttempts L P load checkReads files) ≠ [] := List.ne_nil_of_mem hn
      exact dotFree_of_selectNode (hselect _ (loadContractDir_eq_ok_iff.2 ⟨hall, hne, rfl, hrel⟩) n hn [])
    · exact .inr (.inr ⟨hall, hrel⟩)
  · intro h
    refine ⟨fun nodes hnodes n hn before => ?_, ?_⟩
    · obtain ⟨hall, -, rfl, hrel⟩ := loadContractDir_eq_ok_iff.1 hnodes
      have hpair := not_samePair hrel
      rcases h with h | h | ⟨h, -⟩
      · exact absurd h hpair
      · refine selectNode_qualified before hn (h n hn) fun m hm hs ht => ?_
        exact List.inj_on_of_nodup_map (not_not.1 hpair) hm hn (by rw [hs, ht])
      · exact absurd hall h
    · refine ⟨fun hrel => ?_, fun hpair hrel => not_samePair hrel hpair⟩
      rcases h with h | h | ⟨-, h⟩
      · exact h
      · by_contra hpair
        exact hrel (nodup_relation h hpair)
      · exact absurd h hrel

end

/-- Two `python-api` nodes, named `a.b` and `c`, and `a` and `b.c`; the document lists
    those of `roots`. -/
def dottedDocument (roots : List (Fin 6)) : Document where
  heap := {
    size := 6
    cell
      | 0 => .dict ⟨[(.str (py "schema"), .str (py "a.b")), (.str (py "table"), .str (py "c")),
          (.str (py "owner"), .str (py "o")), (.str (py "schedule"), .str (py "d")),
          (.str (py "criticality"), .str (py "CORE")), (.str (py "kind"), .str (py "python-api")),
          (.str (py "script"), .str (py "x.py")), (.str (py "output_columns"), .ref 2)],
          by simp only [NodupKeys, List.map_cons, List.map_nil]; decide +kernel⟩
      | 1 => .dict ⟨[(.str (py "schema"), .str (py "a")), (.str (py "table"), .str (py "b.c")),
          (.str (py "owner"), .str (py "o")), (.str (py "schedule"), .str (py "d")),
          (.str (py "criticality"), .str (py "CORE")), (.str (py "kind"), .str (py "python-api")),
          (.str (py "script"), .str (py "x.py")), (.str (py "output_columns"), .ref 2)],
          by simp only [NodupKeys, List.map_cons, List.map_nil]; decide +kernel⟩
      | 2 => .list [.ref 3]
      | 3 => .dict ⟨[(.str (py "name"), .str (py "a")), (.str (py "type"), .str (py "TEXT"))],
          by simp only [NodupKeys, List.map_cons, List.map_nil]; decide +kernel⟩
      | 4 => .dict ⟨[(.str (py "nodes"), .ref 5)], List.nodup_singleton _⟩
      | 5 => .list (roots.map .ref) }
  root := .ref 4

/-- The node `c` of the schema `a.b`. -/
def dottedNode : Node where
  schema := py "a.b"
  table := py "c"
  owner := py "o"
  schedule := py "d"
  criticality := .core
  script := py "x.py"
  reads := .empty
  outputColumns := [⟨py "a", py "TEXT", true⟩]
  description := []
  extraColumns := .raise
  config := .empty
  contentHash := none
  kind := .pythonApi
  secretRef := []
  modeType := .replace
  primaryKey := []
  timeoutMinutes := none
  primaryKey_eq_nil := primaryKey_nil

/-- **Dotted names**: an accepted node is not selected by its own id, and two nodes with
    different names are rejected as duplicates. -/
theorem dottedNode_not_selected :
    (loadContractDir plainLang emptySql (fun _ => .ok (dottedDocument [0])) true (py "contracts")
        [(py "n.yml", [])] = .ok [dottedNode] ∧
      ∀ n, selectNode plainLang [dottedNode] (qualifiedId (py "node") dottedNode) ≠ .ok n) ∧
    loadContractDir plainLang emptySql (fun _ => .ok (dottedDocument [0, 1])) true (py "contracts")
        [(py "n.yml", [])] =
      contractError (py "duplicate node a.b.c (in n.yml and n.yml)") ∧
    (py "a.b", py "c") ≠ (py "a", py "b.c") := by
  refine ⟨⟨rfl, fun n h => ?_⟩, rfl, by decide⟩
  cases h

end ContinuoRuntime
