/-
  The wire contract (`contract/merge.py`, `contract/paths.py`): every node of a
  contract directory with the hashes of its script and import closure.

  * `mem_buildWireContract`: every wire node is built from a loaded node;
  * `script_unchanged_of_contentHash`: with the same wire fields and the same
    content hash, the script is the same, and so are the contents of the closure
    as a multiset;
  * `contentHash_keeps_swapped_members`: which file has which content is not
    part of the hash.
-/
import ContinuoRuntime.Contract.ContentHash
import ContinuoRuntime.ClosureRuns
import ContinuoRuntime.Lint

namespace ContinuoRuntime

section
variable (L : Lang) (parser : PythonParser) (t : FileTree) (repoRoot : Path)

/-! ## Sources -/

/-- `resolve_script_path`. -/
def resolveScriptPath (script context : Str) : Except Exc Path := do
  if script.head? = some (ch '/') then
    contractError (context ++ py ": script path " ++ L.reprStr script ++
      py " must be relative to the repository root")
  else
    let scriptPath ← repoRoot.resolveFrom script
    if ¬ repoRoot <+: scriptPath then
      contractError (context ++ py ": script path " ++ L.reprStr script ++ py " escapes the repository root")
    else if t.isFile scriptPath = false then
      contractError (context ++ py ": script not found: " ++ script)
    else .ok scriptPath

/-- The lint of one file of a node. -/
def lintFile (relation : Str) (file : Path × Bytes) : Except Exc (List Str) := do
  let rel ← file.1.relativeTo L.reprStr repoRoot
  match utf8SigDecode file.2 with
  | none => contractError (relation ++ py ": " ++ FileTree.relText rel ++ py ": not valid UTF-8: " ++
      parser.decodeDetail file.2)
  | some text => lintSource parser text (FileTree.relText rel)

/-- `_lint_node_closure`. -/
def lintNodeClosure (relation : Str) (files : List (Path × Bytes)) : Except Exc Unit := do
  let violations ← files.mapM (lintFile L parser repoRoot relation)
  if violations.flatten ≠ [] then
    contractError (relation ++ py ": lint violations in script or import closure:\n" ++
      [ch '\n'].intercalate violations.flatten)
  else .ok ()

/-- `_script_hash_inputs`. -/
def scriptHashInputs (node : Node) : Except Exc (Bytes × List Bytes) := do
  let scriptPath ← resolveScriptPath L t repoRoot node.script node.relation
  let scriptBytes ← t.readBytes scriptPath
  let closure ← (resolveClosure L.reprStr t parser scriptPath repoRoot).get
    (resolveClosure_isSome scriptPath repoRoot)
  let memberBytes ← closure.mapM t.readBytes
  lintNodeClosure L parser repoRoot node.relation ((scriptPath, scriptBytes) :: closure.zip memberBytes)
  .ok (scriptBytes, memberBytes)

/-- `_csv_hash_inputs`. -/
def csvHashInputs (node : Node) : Except Exc (Bytes × List Bytes) :=
  match node.reads.get? (py "csv") with
  | none => .error (.text (.other (py "KeyError")) (py "'csv'"))
  | some uri => match utf8 uri with
    | none => .error (.text .unicodeEncodeError (py "surrogates not allowed"))
    | some bytes => .ok (bytes, [])

/-- `_HASH_INPUTS[node.kind]`. -/
def nodeHashInputs (node : Node) : Except Exc (Bytes × List Bytes) :=
  match node.kind with
  | .pythonNode | .pythonApi => scriptHashInputs L parser t repoRoot node
  | .pythonCsv => csvHashInputs node

/-! ## Wire nodes -/

/-- `entry.update(hash_parts(...))`. -/
def withHashes (entry : Entry) (parts : HashParts) : Entry :=
  (((entry.set (py "source_hash") (.str parts.sourceHash) (Json.wf_str _)).set
    (py "shared_code_hash") (.str parts.sharedCodeHash) (Json.wf_str _)).set
    (py "config_hash") (.str parts.configHash) (Json.wf_str _)).set
    (py "content_hash") (.str parts.contentHash) (Json.wf_str _)

/-- The wire node of a node with these hashes. -/
def wireNode (node : Node) (parts : HashParts) : Entry :=
  let entry := withHashes (nodeEntry node) parts
  match node.timeoutMinutes with
  | none => entry
  | some minutes => entry.set (py "timeout_minutes") (.int minutes) (Json.wf_int _)

/-- One round of the loop over the nodes; `raw` is what the node was parsed from. -/
def buildWireNode (S : Stack) (raw : RawNode) (node : Node) : Except Exc Entry := do
  let inputs ← nodeHashInputs L parser t repoRoot node
  let parts ← hashParts S raw.copied (nodeEntry node) inputs.1 inputs.2
  .ok (wireNode node parts)

/-- `entry[key]`, of a text. -/
def entryText (entry : Entry) (key : Str) : Str :=
  match entry.get? key with
  | some (.str s) => s
  | _ => []

/-- The key of the sort. -/
def relationOf (entry : Entry) : Str := entryText entry (py "schema") ++ py "." ++ entryText entry (py "table")

/-- A wire contract document. -/
structure WireContract where
  contractVersion : ℤ
  service : Str
  nodes : List Entry

/-- `build_wire_contract`. -/
def buildWireContract (S : Stack) (dir : ContractDir) (service : Str) : Except Exc WireContract := do
  let nodes ← dir.loaded L
  let wireNodes ← nodes.mapM fun p => buildWireNode L parser t repoRoot S p.1 p.2
  .ok ⟨contractVersion, service, (sortedItems (wireNodes.map fun entry => (relationOf entry, entry))).map
    Prod.snd⟩

/-- Every byte string hashed for the nodes of a directory. -/
def hashedBytes (dir : ContractDir) : List Bytes :=
  match dir.nodes L with
  | .error _ => []
  | .ok nodes => nodes.flatMap fun node => match nodeHashInputs L parser t repoRoot node with
    | .error _ => []
    | .ok inputs => hashInputs (nodeEntry node) inputs.1 inputs.2

end

/-! ## What a wire node says -/

section
variable {L : Lang} {parser : PythonParser} {t : FileTree} {repoRoot : Path}

/-- The keys that `build_wire_contract` adds to an entry are those outside the
    basis of the hash; the others are as in the entry. -/
theorem get?_wireNode (node : Node) (parts : HashParts) {key : Str} (hkey : key ∉ unhashedFields) :
    (wireNode node parts).get? key = (nodeEntry node).get? key := by
  simp only [unhashedFields, List.mem_cons, List.not_mem_nil, or_false, not_or] at hkey
  obtain ⟨hcontent, hsource, hshared, hconfig, htimeout⟩ := hkey
  have hhashes : (withHashes (nodeEntry node) parts).get? key = (nodeEntry node).get? key := by
    simp only [withHashes, JsonDict.get?_set, if_neg hcontent, if_neg hsource, if_neg hshared,
      if_neg hconfig]
  unfold wireNode
  split
  · exact hhashes
  · rw [JsonDict.get?_set, if_neg htimeout, hhashes]

theorem contentHash_wireNode (node : Node) (parts : HashParts) :
    (wireNode node parts).get? (py "content_hash") = some (.str parts.contentHash) := by
  have hhashes : (withHashes (nodeEntry node) parts).get? (py "content_hash") =
      some (.str parts.contentHash) := by
    rw [withHashes, JsonDict.get?_set, if_pos rfl]
  unfold wireNode
  split
  · exact hhashes
  · rw [JsonDict.get?_set, if_neg (by decide), hhashes]

theorem get?_nodeEntry {node : Node} {key : Str} {v : Json Str} (h : (key, some v) ∈ entryFields node) :
    (nodeEntry node).get? key = some v :=
  JsonDict.get?_eq_some_iff.2 (mem_presentItems.2 h)

/-- **One wire node** is built exactly if its bytes are there and its entry is
    serialised. -/
theorem buildWireNode_eq_ok {S : Stack} {raw : RawNode} {node : Node} {e : Entry} :
    buildWireNode L parser t repoRoot S raw node = .ok e ↔ ∃ inputs,
      nodeHashInputs L parser t repoRoot node = .ok inputs ∧ Serialises S raw.copied (nodeEntry node) ∧
        e = wireNode node (partsOf (nodeEntry node) inputs.1 inputs.2) := by
  unfold buildWireNode
  rw [bind_eq_ok]
  refine exists_congr fun inputs => and_congr_right fun _ => ?_
  rw [bind_eq_ok]
  constructor
  · rintro ⟨parts, hparts, he⟩
    obtain ⟨hser, rfl⟩ := hashParts_eq_ok.1 hparts
    exact ⟨hser, (Except.ok.inj he).symm⟩
  · rintro ⟨hser, rfl⟩
    exact ⟨_, hashParts_eq_ok.2 ⟨hser, rfl⟩, rfl⟩

/-- **Every wire node** is built from a node of the directory. -/
theorem mem_buildWireContract {S : Stack} {dir : ContractDir} {service : Str} {doc : WireContract}
    (h : buildWireContract L parser t repoRoot S dir service = .ok doc) {e : Entry} (he : e ∈ doc.nodes) :
    ∃ nodes, dir.nodes L = .ok nodes ∧ ∃ node ∈ nodes, ∃ inputs,
      nodeHashInputs L parser t repoRoot node = .ok inputs ∧
        e = wireNode node (partsOf (nodeEntry node) inputs.1 inputs.2) := by
  obtain ⟨loaded, hloaded, h⟩ := bind_eq_ok.1 h
  obtain ⟨nodes, hnodes, hloaded⟩ := bind_eq_ok.1 hloaded
  obtain ⟨raws, -, hloaded⟩ := bind_eq_ok.1 hloaded
  cases hloaded
  obtain ⟨wireNodes, hwire, h⟩ := bind_eq_ok.1 h
  cases h
  obtain ⟨p, hp, rfl⟩ := List.mem_map.1 he
  obtain ⟨entry, hentry, rfl⟩ := List.mem_map.1 ((sortedItems_perm _).subset hp)
  obtain ⟨⟨raw, node⟩, hnode, hbuild⟩ := exists_of_mem_mapM hwire hentry
  obtain ⟨inputs, hinputs, -, rfl⟩ := buildWireNode_eq_ok.1 hbuild
  exact ⟨nodes, hnodes, node, (List.of_mem_zip hnode).2, inputs, hinputs, rfl⟩

/-- **The bytes of a script node**: those of its script, and of the members of its
    closure. -/
theorem scriptHashInputs_eq_ok {node : Node} {inputs : Bytes × List Bytes}
    (h : scriptHashInputs L parser t repoRoot node = .ok inputs) :
    ∃ path closure, resolveScriptPath L t repoRoot node.script node.relation = .ok path ∧
      t.readBytes path = .ok inputs.1 ∧
      resolveClosure L.reprStr t parser path repoRoot = some (.ok closure) ∧
      closure.mapM t.readBytes = .ok inputs.2 := by
  obtain ⟨path, hpath, h⟩ := bind_eq_ok.1 h
  obtain ⟨bytes, hbytes, h⟩ := bind_eq_ok.1 h
  obtain ⟨closure, hclosure, h⟩ := bind_eq_ok.1 h
  obtain ⟨members, hmembers, h⟩ := bind_eq_ok.1 h
  obtain ⟨-, -, h⟩ := bind_eq_ok.1 h
  cases h
  exact ⟨path, closure, hpath, hbytes, hclosure ▸ (Option.some_get _).symm, hmembers⟩

/-- A script path that resolves does not depend on what else is in the tree. -/
theorem resolveScriptPath_eq_ok {script context : Str} {path : Path}
    (h : resolveScriptPath L t repoRoot script context = .ok path) :
    repoRoot.resolveFrom script = .ok path := by
  unfold resolveScriptPath contractError at h
  split at h
  · cases h
  · obtain ⟨p, hp, h⟩ := bind_eq_ok.1 h
    split at h
    · cases h
    · split at h
      · cases h
      · cases h
        exact hp

/-- The bytes hashed for a wire node are among those hashed for the directory. -/
theorem hashInputs_subset_hashedBytes {dir : ContractDir} {nodes : List Node} {node : Node}
    {inputs : Bytes × List Bytes} (hnodes : dir.nodes L = .ok nodes) (hnode : node ∈ nodes)
    (hinputs : nodeHashInputs L parser t repoRoot node = .ok inputs) :
    hashInputs (nodeEntry node) inputs.1 inputs.2 ⊆ hashedBytes L parser t repoRoot dir := by
  intro x hx
  simp only [hashedBytes, hnodes]
  exact List.mem_flatMap.2 ⟨node, hnode, by simpa only [hinputs] using hx⟩

/-- A wire node whose kind is not `python-csv` is built from a script. -/
theorem scriptHashInputs_of_kind {node : Node} {inputs : Bytes × List Bytes}
    (hkind : node.kind ≠ .pythonCsv) (h : nodeHashInputs L parser t repoRoot node = .ok inputs) :
    scriptHashInputs L parser t repoRoot node = .ok inputs := by
  unfold nodeHashInputs at h
  split at h
  · exact h
  · exact h
  · next hcsv => exact absurd hcsv hkind

end

/-! ## Two states of a repository -/

/-- **What a content hash keeps of a script node**: with the same wire fields and
    content hash in two states of a repository, the script has the same bytes, and
    the closures have the same contents, each as many times. -/
theorem script_unchanged_of_contentHash (L : Lang) (parser : PythonParser) (repoRoot : Path)
    (S S' : Stack) (t t' : FileTree) (dir dir' : ContractDir) (service service' : Str) (doc doc' : WireContract)
    (h : buildWireContract L parser t repoRoot S dir service = .ok doc)
    (h' : buildWireContract L parser t' repoRoot S' dir' service' = .ok doc')
    (hinj : Set.InjOn sha256 {x | x ∈ hashedBytes L parser t repoRoot dir ++
      hashedBytes L parser t' repoRoot dir'})
    (e e' : Entry) (he : e ∈ doc.nodes) (he' : e' ∈ doc'.nodes)
    (hkind : e.get? (py "kind") ≠ some (.str (py "python-csv")))
    (hfields : ∀ key ∉ unhashedFields, e.get? key = e'.get? key)
    (hhash : e.get? (py "content_hash") = e'.get? (py "content_hash")) :
    ∃ path bytes closure closure' members members',
      repoRoot.resolveFrom (entryText e (py "script")) = .ok path ∧
      t.readBytes path = .ok bytes ∧ t'.readBytes path = .ok bytes ∧
      resolveClosure L.reprStr t parser path repoRoot = some (.ok closure) ∧
      resolveClosure L.reprStr t' parser path repoRoot = some (.ok closure') ∧
      closure.mapM t.readBytes = .ok members ∧ closure'.mapM t'.readBytes = .ok members' ∧
      members.Perm members' := by
  obtain ⟨nodes, hnodes, node, hnode, inputs, hinputs, rfl⟩ := mem_buildWireContract h he
  obtain ⟨nodes', hnodes', node', hnode', inputs', hinputs', rfl⟩ := mem_buildWireContract h' he'
  have hscriptText : ∀ (n : Node) parts, (wireNode n parts).get? (py "script") = some (.str n.script) :=
    fun n parts => (get?_wireNode n parts (by decide +kernel)).trans (get?_nodeEntry (by simp [entryFields]))
  have hkindText : ∀ (n : Node) parts, (wireNode n parts).get? (py "kind") = some (.str n.kind.text) :=
    fun n parts => (get?_wireNode n parts (by decide +kernel)).trans (get?_nodeEntry (by simp [entryFields]))
  have hscript : node.script = node'.script := by
    have := hfields (py "script") (by decide +kernel)
    rw [hscriptText, hscriptText] at this
    exact Json.str.inj (Option.some.inj this)
  have hkinds : node.kind = node'.kind := by
    have := hfields (py "kind") (by decide +kernel)
    rw [hkindText, hkindText] at this
    exact Kind.text_inj (Json.str.inj (Option.some.inj this))
  have hcsv : node.kind ≠ .pythonCsv := fun hk => hkind (by rw [hkindText, hk]; rfl)
  obtain ⟨path, closure, hpath, hbytes, hclosure, hmembers⟩ :=
    scriptHashInputs_eq_ok (scriptHashInputs_of_kind hcsv hinputs)
  obtain ⟨path', closure', hpath', hbytes', hclosure', hmembers'⟩ :=
    scriptHashInputs_eq_ok (scriptHashInputs_of_kind (hkinds ▸ hcsv) hinputs')
  have hresolved := resolveScriptPath_eq_ok hpath
  obtain rfl : path = path' :=
    Except.ok.inj ((hscript ▸ hresolved).symm.trans (resolveScriptPath_eq_ok hpath'))
  rw [contentHash_wireNode, contentHash_wireNode] at hhash
  obtain ⟨hsame, hperm, -⟩ := (contentHash_eq_iff (hinj.mono fun x hx => by
    refine (List.mem_append.1 hx).elim (fun hx => List.mem_append_left _ ?_)
      fun hx => List.mem_append_right _ ?_
    · exact hashInputs_subset_hashedBytes hnodes hnode hinputs hx
    · exact hashInputs_subset_hashedBytes hnodes' hnode' hinputs' hx)).1
    (Json.str.inj (Option.some.inj hhash))
  refine ⟨path, inputs.1, closure, closure', inputs.2, inputs'.2, ?_, hbytes, hsame ▸ hbytes', hclosure,
    hclosure', hmembers, hmembers', hperm⟩
  rw [entryText, hscriptText]
  exact hresolved

/-! ## Swapped helpers -/

/-- A YAML document whose only node is the `python-api` node of `apiHeap`. -/
def apiDocument : Document where
  heap := {
    size := 5
    cell
      | 0 => .dict ⟨[(.str (py "schema"), .str (py "s")), (.str (py "table"), .str (py "t")),
          (.str (py "owner"), .str (py "o")), (.str (py "schedule"), .str (py "d")),
          (.str (py "criticality"), .str (py "CORE")), (.str (py "kind"), .str (py "python-api")),
          (.str (py "script"), .str (py "x.py")), (.str (py "output_columns"), .ref 1)], apiFields_keys⟩
      | 1 => .list [.ref 2]
      | 2 => .dict ⟨[(.str (py "name"), .str (py "a")), (.str (py "type"), .str (py "TEXT"))], textColumn_keys⟩
      | 3 => .dict ⟨[(.str (py "nodes"), .ref 4)], nodes_keys⟩
      | 4 => .list [.ref 0] }
  root := .ref 3

/-- A contract directory with that document. -/
def apiDir (sql : SqlParser) : ContractDir :=
  ⟨py "contracts", [(py "n.yml", [])], fun _ => .ok apiDocument, sql⟩

/-- A script that imports two helpers with these contents. -/
def pairTree (a b : Bytes) : FileTree :=
  .dir [(py "app", .dir [(py "a.py", .file a), (py "b.py", .file b),
    (py "x.py", .file (ascii (py "import a,b")))])]

/-- The content of a helper. -/
def helperText : Bytes := ascii (py "import c")

def pairScript : Path := [py "app", py "x.py"]

def pairClosure : List Path := [[py "app", py "a.py"], [py "app", py "b.py"]]

theorem apiDir_nodes (L : Lang) (sql : SqlParser) : (apiDir sql).nodes L = .ok [apiNode []] := rfl

theorem pairTree_inputs (L : Lang) :
    nodeHashInputs L importLineParser (pairTree [] helperText) appRoot (apiNode []) =
      .ok (ascii (py "import a,b"), [[], helperText]) := rfl

theorem swapped_inputs (L : Lang) :
    nodeHashInputs L importLineParser (pairTree helperText []) appRoot (apiNode []) =
      .ok (ascii (py "import a,b"), [helperText, []]) := rfl

theorem firstCell_lt : 0 < 5 := by decide

/-- The node of that directory. -/
def apiRaw : RawNode := ⟨apiDocument.heap, .ref ⟨0, firstCell_lt⟩⟩

theorem apiDir_loaded (L : Lang) (sql : SqlParser) : (apiDir sql).loaded L = .ok [(apiRaw, apiNode [])] := rfl

theorem parseNode_apiRaw (L : Lang) (sql : SqlParser) :
    parseNode L sql apiRaw.heap true apiRaw.value (py "n.yml") = .ok (apiNode []) := rfl

theorem apiRaw_serialises (S : Stack) : Serialises S apiRaw.copied (nodeEntry (apiNode [])) := by
  refine (serialises_parseNode (parseNode_apiRaw plainLang emptySql)).2 ⟨?_, encodable_scalar nofun nofun⟩
  have hcopied : apiRaw.copied = 3 := rfl
  have hentry := S.frames_entry
  omega

/-- The wire contract of that directory. -/
theorem apiDir_contract {L : Lang} {parser : PythonParser} {t : FileTree} {repoRoot : Path} {S : Stack}
    {sql : SqlParser} {service : Str} {inputs : Bytes × List Bytes}
    (h : nodeHashInputs L parser t repoRoot (apiNode []) = .ok inputs) :
    buildWireContract L parser t repoRoot S (apiDir sql) service = .ok ⟨contractVersion, service,
      [wireNode (apiNode []) (partsOf (nodeEntry (apiNode [])) inputs.1 inputs.2)]⟩ := by
  have hnode := buildWireNode_eq_ok.2 ⟨_, h, apiRaw_serialises S, rfl⟩
  unfold buildWireContract
  rw [apiDir_loaded]
  refine bind_eq_ok.2 ⟨_, rfl, bind_eq_ok.2 ⟨[_], ?_, rfl⟩⟩
  rw [List.mapM_cons, hnode]
  rfl

/-- The parts of the node, with the helpers in this order. -/
def pairParts (a b : Bytes) : HashParts := partsOf (nodeEntry (apiNode [])) (ascii (py "import a,b")) [a, b]

theorem swapped_parts : pairParts helperText [] = pairParts [] helperText :=
  (partsOf_perm (List.Perm.swap _ _ _) _ _).1

/-- The wire contract of both trees. -/
def pairContract (service : Str) : WireContract :=
  ⟨contractVersion, service, [wireNode (apiNode []) (pairParts [] helperText)]⟩

theorem pairTree_contract (L : Lang) (S : Stack) (sql : SqlParser) (service : Str) :
    buildWireContract L importLineParser (pairTree [] helperText) appRoot S (apiDir sql) service =
      .ok (pairContract service) := by
  have hcontract := @apiDir_contract L importLineParser _ appRoot S sql service _ (pairTree_inputs L)
  exact hcontract

theorem swapped_contract (L : Lang) (S : Stack) (sql : SqlParser) (service : Str) :
    buildWireContract L importLineParser (pairTree helperText []) appRoot S (apiDir sql) service =
      .ok (pairContract service) := by
  have hcontract := @apiDir_contract L importLineParser _ appRoot S sql service _ (swapped_inputs L)
  unfold pairContract
  rw [← swapped_parts]
  exact hcontract

theorem pairContract_kind : (wireNode (apiNode []) (pairParts [] helperText)).get? (py "kind") ≠
    some (.str (py "python-csv")) := by
  have hkind : (nodeEntry (apiNode [])).get? (py "kind") = some (.str (py "python-api")) := rfl
  rw [get?_wireNode _ _ (by decide +kernel), hkind]
  exact fun h => absurd (Json.str.inj (Option.some.inj h)) (by decide)

theorem sha256_injOn_pair (L : Lang) (sql : SqlParser) : Set.InjOn sha256
    {x | x ∈ hashedBytes L importLineParser (pairTree [] helperText) appRoot (apiDir sql) ++
      hashedBytes L importLineParser (pairTree helperText []) appRoot (apiDir sql)} := by
  have hheads : ((hashInputs (nodeEntry (apiNode [])) (ascii (py "import a,b")) [[], helperText]).map
      fun x => (sha256 x).head?).Nodup := by decide +kernel
  refine (sha256_injOn_of_heads hheads).mono fun x hx => ?_
  simp only [hashedBytes, apiDir_nodes, pairTree_inputs, swapped_inputs, List.flatMap_cons,
    List.flatMap_nil, List.append_nil, Set.mem_ofPred_eq, List.mem_append] at hx
  rcases hx with hx | hx
  · exact hx
  · exact (partsOf_perm (List.Perm.swap _ _ _) _ _).2.subset hx

/-- The helpers are swapped, and their contents are those of before. -/
theorem script_unchanged_of_contentHash_pair :
    ∃ path bytes closure closure' members members',
      appRoot.resolveFrom (entryText (wireNode (apiNode []) (pairParts [] helperText)) (py "script")) =
        .ok path ∧
      (pairTree [] helperText).readBytes path = .ok bytes ∧
      (pairTree helperText []).readBytes path = .ok bytes ∧
      resolveClosure plainLang.reprStr (pairTree [] helperText) importLineParser path appRoot =
        some (.ok closure) ∧
      resolveClosure plainLang.reprStr (pairTree helperText []) importLineParser path appRoot =
        some (.ok closure') ∧
      closure.mapM (pairTree [] helperText).readBytes = .ok members ∧
      closure'.mapM (pairTree helperText []).readBytes = .ok members' ∧ members.Perm members' :=
  script_unchanged_of_contentHash plainLang importLineParser appRoot smallStack smallStack
    (pairTree [] helperText) (pairTree helperText []) (apiDir emptySql) (apiDir emptySql) [] []
    (pairContract []) (pairContract []) (pairTree_contract _ _ _ []) (swapped_contract _ _ _ [])
    (sha256_injOn_pair _ _) _ _
    (List.mem_singleton.2 rfl) (List.mem_singleton.2 rfl) pairContract_kind (fun _ _ => rfl) rfl

/-- **Swapped helpers**: two states of a repository with one wire contract, where a
    member of the closure has other bytes. -/
theorem contentHash_keeps_swapped_members : ∃ t t' : FileTree, ∀ (L : Lang) (S : Stack) (sql : SqlParser)
    (service : Str), ∃ doc,
      buildWireContract L importLineParser t appRoot S (apiDir sql) service = .ok doc ∧
      buildWireContract L importLineParser t' appRoot S (apiDir sql) service = .ok doc ∧
      Set.InjOn sha256 {x | x ∈ hashedBytes L importLineParser t appRoot (apiDir sql) ++
        hashedBytes L importLineParser t' appRoot (apiDir sql)} ∧
      (∃ e ∈ doc.nodes, appRoot.resolveFrom (entryText e (py "script")) = .ok pairScript) ∧
      resolveClosure L.reprStr t importLineParser pairScript appRoot = some (.ok pairClosure) ∧
      resolveClosure L.reprStr t' importLineParser pairScript appRoot = some (.ok pairClosure) ∧
      ∃ member ∈ pairClosure, t.readBytes member ≠ t'.readBytes member := by
  refine ⟨pairTree [] helperText, pairTree helperText [], fun L S sql service => ⟨pairContract service,
    pairTree_contract L S sql service, swapped_contract L S sql service, sha256_injOn_pair L sql,
    ⟨_, List.mem_singleton.2 rfl, ?_⟩, rfl, rfl, _, List.mem_cons_self, ?_⟩⟩
  · rw [entryText, get?_wireNode _ _ (by decide +kernel)]
    decide +kernel
  · intro h
    have hread : (pairTree [] helperText).readBytes [py "app", py "a.py"] = .ok [] := rfl
    have hread' : (pairTree helperText []).readBytes [py "app", py "a.py"] = .ok helperText := rfl
    rw [hread, hread'] at h
    exact absurd (Except.ok.inj h) (by decide)

end ContinuoRuntime
