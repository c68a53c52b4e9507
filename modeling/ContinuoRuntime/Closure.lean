/-
  The static import closure (`closure.py`).

  `resolveClosure` is a worklist traversal from the script: a visit parses one
  file, refuses dynamic imports, and finds what the import statements name under
  the search roots, with the `__init__.py` of the packages on the way.

  * `resolveClosure_closed`: with every file, the closure has what a visit of it
    finds;
  * `mem_resolveClosure`: its members are files below the root;
  * `resolveClosure_isSome`: the traversal ends.
-/
import ContinuoRuntime.Python.Ast
import ContinuoRuntime.Python.Files
import ContinuoRuntime.Python.JsonText
import ContinuoRuntime.Lib.Worklist
import ContinuoRuntime.Lib.Except

namespace ContinuoRuntime

/-! ## Dynamic imports -/

/-- `_DYNAMIC_IMPORT_MODULES`. -/
def dynamicImportModules : List Str := [py "importlib", py "builtins"]

/-- `_DYNAMIC_IMPORT_NAMES`. -/
def dynamicImportNames : List Str := [py "__import__", py "exec", py "eval", py "__builtins__"]

/-- `_DYNAMIC_IMPORT_ATTRS`. -/
def dynamicImportAttrs : List Str := [py "import_module", py "__import__"]

/-- `name.split(".")[0]`. -/
def rootModule (name : Str) : Str := (splitDots name).headD []

/-- `node.module`, when there is one. -/
def FromModule.module? : FromModule → Option Str
  | .absolute module => some module
  | .relative _ module => module

/-- The violations of one node. -/
def nodeViolations : Ast → List (ℕ × Str)
  | .imports lineno names => names.filterMap fun imported =>
      if rootModule imported.name ∈ dynamicImportModules then some (lineno, rootModule imported.name) else none
  | .importFrom lineno module names =>
    match (module.module?.map rootModule).filter (· ∈ dynamicImportModules) with
    -- one statement, one violation
    | some root => [(lineno, root)]
    | none => names.filterMap fun imported =>
        if imported.name ∈ dynamicImportNames then some (lineno, imported.name) else none
  | .name lineno id => if id ∈ dynamicImportNames then [(lineno, id)] else []
  | .attribute lineno _ attr => if attr ∈ dynamicImportAttrs then [(lineno, attr)] else []
  | _ => []

/-- `dynamic_import_violations`. -/
def dynamicImportViolations (tree : Ast) : List (ℕ × Str) :=
  (tree.nodes.flatMap nodeViolations).insertionSort fun v w => toLex v ≤ toLex w

/-! ## Imported names -/

/-- `_package_components`. -/
def packageComponents (importingFile repoRoot : Path) : List Str :=
  importingFile.dropLast.drop repoRoot.length

/-- `_names_from_import`. -/
def namesFromImport (names : List Alias) : List Str := names.map Alias.name

/-- `_names_from_import_from`. -/
def namesFromImportFrom (module : FromModule) (names : List Alias) (importingFile repoRoot : Path) :
    List Str :=
  match module with
  | .absolute base => base :: names.map fun imported => base ++ py "." ++ imported.name
  | .relative walkUp module =>
    let components := packageComponents importingFile repoRoot
    if walkUp > components.length then []
    else
      let pre := joinDots (components.take (components.length - walkUp))
      let base := joinDots ([pre, module.getD []].filter (· ≠ []))
      (if base = [] then [] else [base]) ++
        names.map fun imported => if base = [] then imported.name else base ++ py "." ++ imported.name

/-- The names of one node. -/
def importNames (importingFile repoRoot : Path) : Ast → List Str
  | .imports _ names => namesFromImport names
  | .importFrom _ module names => namesFromImportFrom module names importingFile repoRoot
  | _ => []

/-- `_collect_import_names`. -/
def collectImportNames (tree : Ast) (importingFile repoRoot : Path) : List Str :=
  tree.nodes.flatMap (importNames importingFile repoRoot)

/-! ## Resolution -/

/-- A resolved name: the search root, the file, and the parts of the name. -/
structure Match where
  root : Path
  file : Path
  parts : List Str
  deriving DecidableEq

section
variable (reprStr : Str → Str) (t : FileTree)

/-- `_resolve_name`. -/
def resolveName (name : Str) : List Path → Except Exc (Option Match)
  | [] => .ok none
  | root :: roots => do
    let parts := splitDots name
    let packageInit := root.joinpath (parts ++ [initPy])
    if t.isFile packageInit then .ok (some ⟨root, packageInit, parts⟩)
    else
      let moduleFile ← (root.joinpath parts).withSuffix reprStr (py ".py")
      if t.isFile moduleFile then .ok (some ⟨root, moduleFile, parts⟩)
      else resolveName name roots

/-- The files of a match: its own, and the `__init__.py` of the packages above. -/
def candidates (found : Match) : List Path :=
  found.file :: (((List.range' 1 (found.parts.length - 1)).map fun depth =>
    found.root.joinpath (found.parts.take depth ++ [initPy])).filter t.isFile)

variable (parser : PythonParser)

/-- The syntax tree of a file of the traversal, without dynamic imports. -/
def parseMember (repoRoot current : Path) : Except Exc Ast := do
  let rel ← current.relativeTo reprStr repoRoot
  let source ← t.readBytes current
  match parser.parseBytes source with
  | .error (.other exc) => .error exc
  | .error (.syntaxError _ msg) => contractError (FileTree.relText rel ++ py ": syntax error: " ++ msg)
  | .ok tree =>
    match dynamicImportViolations tree with
    | (lineno, construct) :: _ => contractError (FileTree.relText rel ++ py ":" ++ decimal lineno ++
        py ": dynamic import construct '" ++ construct ++
        py "' is not allowed — the content hash cannot see it")
    | [] => .ok tree

/-- One turn of the loop: the candidates of the imports of a file. -/
def visitMember (repoRoot : Path) (searchRoots : List Path) (current : Path) :
    Except Exc (List Path) := do
  let tree ← parseMember reprStr t parser repoRoot current
  let found ← (collectImportNames tree current repoRoot).mapM (resolveName reprStr t · searchRoots)
  .ok ((found.reduceOption.flatMap (candidates t)).filter (repoRoot <+: ·))

/-- `search_roots`. -/
def searchRoots (repoRoot scriptDir : Path) : List Path :=
  if scriptDir = repoRoot then [repoRoot] else [repoRoot, scriptDir]

/-- The files that the traversal from the script has seen. -/
def traverse (scriptPath repoRoot : Path) : Option (Except Exc (List Path)) :=
  Worklist.loop (visitMember reprStr t parser repoRoot (searchRoots repoRoot scriptPath.dropLast))
    (t.files.length + 1) [scriptPath] [scriptPath]

/-- `resolve_closure`; `none` would be a traversal without an end. -/
def resolveClosure (scriptPath repoRoot : Path) : Option (Except Exc (List Path)) :=
  (traverse reprStr t parser scriptPath repoRoot).map fun seen => do
    let seen ← seen
    .ok ((seen.filter (· ≠ scriptPath)).insertionSort (· ≤ ·))

/-! ## What a visit finds -/

variable {reprStr t parser}

/-- **A resolved name** is a file of the tree under one of the roots. -/
theorem resolveName_spec {name : Str} {found : Match} : ∀ {roots : List Path},
    resolveName reprStr t name roots = .ok (some found) →
      found.root ∈ roots ∧ found.parts = splitDots name ∧ t.isFile found.file = true
  | [], h => by simp [resolveName] at h
  | root :: roots, h => by
    unfold resolveName at h
    dsimp only at h
    split_ifs at h with hinit
    · cases h
      exact ⟨by simp, rfl, hinit⟩
    · obtain ⟨moduleFile, -, h⟩ := bind_eq_ok.1 h
      split_ifs at h with hmod
      · cases h
        exact ⟨by simp, rfl, hmod⟩
      · obtain ⟨hroot, hparts, hfile⟩ := resolveName_spec h
        exact ⟨by simp [hroot], hparts, hfile⟩

/-- Under its root, the package form comes first. -/
theorem resolveName_file {name : Str} {found : Match} : ∀ {roots : List Path},
    resolveName reprStr t name roots = .ok (some found) →
      let init := found.root.joinpath found.parts ++ [initPy]
      if t.isFile init then found.file = init
      else (found.root.joinpath found.parts).withSuffix reprStr (py ".py") = .ok found.file
  | [], h => by simp [resolveName] at h
  | root :: roots, h => by
    unfold resolveName at h
    dsimp only at h ⊢
    rw [Path.joinpath_concat _ _ (by decide)] at h
    split_ifs at h with hinit
    · cases h
      rw [if_pos hinit]
    · obtain ⟨moduleFile, hmf, h⟩ := bind_eq_ok.1 h
      split_ifs at h with hmod
      · cases h
        rw [if_neg hinit]
        exact hmf
      · exact resolveName_file h

/-- The candidates of a match are files. -/
theorem isFile_candidates {found : Match} (hfile : t.isFile found.file = true) {c : Path}
    (hc : c ∈ candidates t found) : t.isFile c = true := by
  rcases List.mem_cons.1 hc with rfl | hc
  · exact hfile
  · exact (List.mem_filter.1 hc).2

/-- **A visit** finds the candidates, below the root, of the imported names that
    resolve. -/
theorem mem_visitMember {repoRoot current : Path} {roots cs : List Path}
    (h : visitMember reprStr t parser repoRoot roots current = .ok cs) :
    ∃ tree, parseMember reprStr t parser repoRoot current = .ok tree ∧ ∀ c, c ∈ cs ↔
      repoRoot <+: c ∧ ∃ name ∈ collectImportNames tree current repoRoot, ∃ found,
        resolveName reprStr t name roots = .ok (some found) ∧ c ∈ candidates t found := by
  obtain ⟨tree, htree, h⟩ := bind_eq_ok.1 h
  obtain ⟨found, hfound, h⟩ := bind_eq_ok.1 h
  cases h
  refine ⟨tree, htree, fun c => ?_⟩
  simp only [List.mem_filter, List.mem_flatMap, List.reduceOption_mem_iff, decide_eq_true_eq]
  constructor
  · rintro ⟨⟨m, hm, hc⟩, hroot⟩
    obtain ⟨name, hname, hres⟩ := exists_of_mem_mapM hfound hm
    exact ⟨hroot, name, hname, m, hres, hc⟩
  · rintro ⟨hroot, name, hname, m, hres, hc⟩
    refine ⟨⟨m, ?_, hc⟩, hroot⟩
    obtain ⟨y, hy, hf⟩ := mem_mapM_of_mem hfound hname
    rwa [Except.ok.inj (hres.symm.trans hf)]

/-- What a visit finds are files below the root. -/
theorem isFile_visitMember {repoRoot current : Path} {roots cs : List Path}
    (h : visitMember reprStr t parser repoRoot roots current = .ok cs) {c : Path} (hc : c ∈ cs) :
    t.isFile c = true ∧ repoRoot <+: c := by
  obtain ⟨tree, -, hmem⟩ := mem_visitMember h
  obtain ⟨hroot, name, -, found, hres, hcand⟩ := (hmem c).1 hc
  exact ⟨isFile_candidates (resolveName_spec hres).2.2 hcand, hroot⟩

/-! ## The closure -/

/-- The closure is what the traversal has seen, without the script. -/
theorem resolveClosure_eq_ok {scriptPath repoRoot : Path} {closure : List Path} :
    resolveClosure reprStr t parser scriptPath repoRoot = some (.ok closure) ↔
      ∃ seen, traverse reprStr t parser scriptPath repoRoot = some (.ok seen) ∧
        (seen.filter (· ≠ scriptPath)).insertionSort (· ≤ ·) = closure := by
  rw [resolveClosure, Option.map_eq_some_iff]
  constructor
  · rintro ⟨res, hres, h⟩
    obtain ⟨seen, rfl, h⟩ := bind_eq_ok.1 h
    exact ⟨seen, hres, Except.ok.inj h⟩
  · rintro ⟨seen, hseen, rfl⟩
    exact ⟨_, hseen, rfl⟩

theorem mem_closure_iff {scriptPath c : Path} {seen : List Path} :
    c ∈ (seen.filter (· ≠ scriptPath)).insertionSort (· ≤ ·) ↔ c ∈ seen ∧ c ≠ scriptPath := by
  rw [(List.perm_insertionSort _ _).mem_iff, List.mem_filter, decide_eq_true_eq]

/-- **The closure is closed**: with the script and every member it contains what a
    visit of them finds. -/
theorem resolveClosure_closed {scriptPath repoRoot : Path} {closure : List Path}
    (h : resolveClosure reprStr t parser scriptPath repoRoot = some (.ok closure)) {f : Path}
    (hf : f = scriptPath ∨ f ∈ closure) :
    ∃ cs, visitMember reprStr t parser repoRoot (searchRoots repoRoot scriptPath.dropLast) f = .ok cs ∧
      ∀ c ∈ cs, c = scriptPath ∨ c ∈ closure := by
  obtain ⟨seen, hseen, rfl⟩ := resolveClosure_eq_ok.1 h
  obtain ⟨hsub, hset⟩ := Worklist.loop_closed (fun x hx => .inl hx) hseen
  have hfs : f ∈ seen := hf.elim (fun hf => hsub (by simp [hf])) fun hf => (mem_closure_iff.1 hf).1
  rcases hset f hfs with hq | ⟨cs, hcs, hmem⟩
  · cases hq
  · refine ⟨cs, hcs, fun c hc => ?_⟩
    exact (em (c = scriptPath)).imp id fun hne => mem_closure_iff.2 ⟨hmem c hc, hne⟩

/-- **The members of the closure** are files below the root other than the
    script. -/
theorem mem_resolveClosure {scriptPath repoRoot : Path} {closure : List Path}
    (h : resolveClosure reprStr t parser scriptPath repoRoot = some (.ok closure)) {f : Path}
    (hf : f ∈ closure) : t.isFile f = true ∧ repoRoot <+: f ∧ f ≠ scriptPath := by
  obtain ⟨seen, hseen, rfl⟩ := resolveClosure_eq_ok.1 h
  obtain ⟨hfs, hne⟩ := mem_closure_iff.1 hf
  have hinv := Worklist.loop_invariant (P := fun x => x = scriptPath ∨ t.isFile x = true ∧ repoRoot <+: x)
    (fun x cs _ hv c hc => .inr (isFile_visitMember hv hc)) (fun x hx => .inl (by simpa using hx))
    (List.Subset.refl _) hseen f hfs
  rcases hinv with rfl | ⟨hfile, hroot⟩
  · exact absurd rfl hne
  · exact ⟨hfile, hroot, hne⟩

/-- The closure has no duplicates. -/
theorem resolveClosure_nodup {scriptPath repoRoot : Path} {closure : List Path}
    (h : resolveClosure reprStr t parser scriptPath repoRoot = some (.ok closure)) : closure.Nodup := by
  obtain ⟨seen, hseen, rfl⟩ := resolveClosure_eq_ok.1 h
  exact (List.perm_insertionSort _ _).nodup_iff.2
    ((Worklist.loop_nodup (List.nodup_singleton _) hseen).filter _)

/-- **The traversal ends**, for every tree and script. -/
theorem resolveClosure_isSome (scriptPath repoRoot : Path) :
    (resolveClosure reprStr t parser scriptPath repoRoot).isSome := by
  rw [resolveClosure, Option.isSome_map]
  refine Worklist.loop_isSome (U := scriptPath :: t.files) (fun x cs _ hv c hc => ?_)
    (List.nodup_singleton _) (fun x hx => ?_) (List.Subset.refl _) (by simp; omega)
  · exact List.mem_cons_of_mem _ (FileTree.mem_files (isFile_visitMember hv hc).1)
  · exact List.mem_cons.2 (.inl (List.mem_singleton.1 hx))

end

end ContinuoRuntime
