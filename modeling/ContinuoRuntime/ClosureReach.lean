/-
  The static import closure as a fixed point, on a file system with links.

  A link is followed by `resolve`, and what it leads to outside the repository is
  no member.  Which file a dotted name stands for is stated apart from the search
  of `_resolve_name`; the closure is then what the imports reach.

  * `resolveName_eq_ok_iff`: the search finds the file a name stands for;
  * `resolveClosure_exact`: what `resolve_closure` returns, when it raises, and that
    the order of the import statements does not matter;
  * `resolveClosure_fileSystem`: without links, the closure of `Closure.lean`.
-/
import ContinuoRuntime.ClosureRuns

namespace ContinuoRuntime

/-! ## File systems -/

/-- What the closure asks of a file system. -/
structure FileSystem where
  /-- whether a path leads to a file, links followed -/
  isFile : Path → Bool
  /-- `path.resolve()` -/
  resolve : Path → Path
  readBytes : Path → Except Exc Bytes
  /-- the files, under their own paths -/
  files : List Path
  resolve_mem : ∀ p, isFile p = true → resolve p ∈ files

namespace FileSystem

section
variable (reprStr : Str → Str) (fs : FileSystem) (parser : PythonParser)

/-- `_resolve_name`. -/
def resolveName (name : Str) : List Path → Except Exc (Option Match)
  | [] => .ok none
  | root :: roots => do
    let parts := splitDots name
    let packageInit := root.joinpath (parts ++ [initPy])
    if fs.isFile packageInit then .ok (some ⟨root, fs.resolve packageInit, parts⟩)
    else
      let moduleFile ← (root.joinpath parts).withSuffix reprStr (py ".py")
      if fs.isFile moduleFile then .ok (some ⟨root, fs.resolve moduleFile, parts⟩)
      else resolveName name roots

/-- The files of a match: its own, and the `__init__.py` of the packages above. -/
def candidates (found : Match) : List Path :=
  found.file :: (((List.range' 1 (found.parts.length - 1)).map fun depth =>
    found.root.joinpath (found.parts.take depth ++ [initPy])).filter fs.isFile).map fs.resolve

/-- The syntax tree of a file of the traversal, without dynamic imports. -/
def parseMember (repoRoot current : Path) : Except Exc Ast := do
  let rel ← current.relativeTo reprStr repoRoot
  let source ← fs.readBytes current
  match parser.parseBytes source with
  | .error (.other exc) => .error exc
  | .error (.syntaxError _ msg) => contractError (FileTree.relText rel ++ py ": syntax error: " ++ msg)
  | .ok tree =>
    match dynamicImportViolations tree with
    | (lineno, construct) :: _ => contractError (FileTree.relText rel ++ py ":" ++ decimal lineno ++
        py ": dynamic import construct '" ++ construct ++
        py "' is not allowed — the content hash cannot see it")
    | [] => .ok tree

/-- One turn of the loop: the candidates of the imports of a file. -/
def visitMember (repoRoot : Path) (searchRoots : List Path) (current : Path) :
    Except Exc (List Path) := do
  let tree ← fs.parseMember reprStr parser repoRoot current
  let found ← (collectImportNames tree current repoRoot).mapM (fs.resolveName reprStr · searchRoots)
  .ok ((found.reduceOption.flatMap fs.candidates).filter (repoRoot <+: ·))

/-- The search roots of a script. -/
def rootsOf (scriptPath repoRoot : Path) : List Path :=
  searchRoots (fs.resolve repoRoot) (fs.resolve scriptPath).dropLast

/-- `resolve_closure`; `none` would be a traversal without an end. -/
def resolveClosure (scriptPath repoRoot : Path) : Option (Except Exc (List Path)) :=
  let scriptResolved := fs.resolve scriptPath
  (Worklist.loop (fs.visitMember reprStr parser (fs.resolve repoRoot) (fs.rootsOf scriptPath repoRoot))
    (fs.files.length + 1) [scriptResolved] [scriptResolved]).map fun seen => do
      let seen ← seen
      .ok ((seen.filter (· ≠ scriptResolved)).insertionSort (· ≤ ·))

end

/-! ## Names and files -/

section
variable (fs : FileSystem)

/-- A root has no file for a dotted name. -/
def Lacks (reprStr : Str → Str) (parts : List Str) (root : Path) : Prop :=
  fs.isFile (root.joinpath (parts ++ [initPy])) = false ∧
    ∃ m, (root.joinpath parts).withSuffix reprStr (py ".py") = .ok m ∧ fs.isFile m = false

/-- The file of a dotted name under a root: the package before the module. -/
def Holds (reprStr : Str → Str) (parts : List Str) (root file : Path) : Prop :=
  let init := root.joinpath (parts ++ [initPy])
  fs.isFile init = true ∧ file = fs.resolve init ∨
    fs.isFile init = false ∧ ∃ m, (root.joinpath parts).withSuffix reprStr (py ".py") = .ok m ∧
      fs.isFile m = true ∧ file = fs.resolve m

/-- **The file a dotted name stands for**: that of the first root that has one. -/
def Resolves (reprStr : Str → Str) (name : Str) (roots : List Path) (root file : Path) : Prop :=
  ∃ before after, roots = before ++ root :: after ∧ (∀ r ∈ before, fs.Lacks reprStr (splitDots name) r) ∧
    fs.Holds reprStr (splitDots name) root file

/-- The `__init__.py` of an ancestor directory on the path of a dotted name. -/
def AncestorInit (parts : List Str) (root file : Path) : Prop :=
  ∃ depth, 1 ≤ depth ∧ depth < parts.length ∧
    fs.isFile (root.joinpath (parts.take depth ++ [initPy])) = true ∧
      file = fs.resolve (root.joinpath (parts.take depth ++ [initPy]))

variable {reprStr : Str → Str} {fs}

/-- The search under one root: it has the file, or lacks it, or its path cannot take
    the suffix. -/
theorem resolveName_cons (name : Str) (root : Path) (roots : List Path) :
    (∃ file, fs.Holds reprStr (splitDots name) root file ∧
        fs.resolveName reprStr name (root :: roots) = .ok (some ⟨root, file, splitDots name⟩)) ∨
      (fs.Lacks reprStr (splitDots name) root ∧
        fs.resolveName reprStr name (root :: roots) = fs.resolveName reprStr name roots) ∨
      (¬ fs.Lacks reprStr (splitDots name) root ∧ (∀ file, ¬ fs.Holds reprStr (splitDots name) root file) ∧
        ∃ e, fs.resolveName reprStr name (root :: roots) = .error e) := by
  rw [resolveName]
  by_cases hinit : fs.isFile (root.joinpath (splitDots name ++ [initPy])) = true
  · rw [if_pos hinit]
    exact .inl ⟨_, .inl ⟨hinit, rfl⟩, rfl⟩
  · rw [if_neg hinit]
    rw [Bool.not_eq_true] at hinit
    cases hm : (root.joinpath (splitDots name)).withSuffix reprStr (py ".py") with
    | error e =>
      refine .inr (.inr ⟨?_, ?_, e, rfl⟩)
      · rintro ⟨-, m, hm', -⟩
        rw [hm] at hm'
        cases hm'
      · rintro file (⟨hinit', -⟩ | ⟨-, m, hm', -⟩)
        · rw [hinit] at hinit'
          cases hinit'
        · rw [hm] at hm'
          cases hm'
    | ok m =>
      dsimp only [bind, Except.bind]
      by_cases hfile : fs.isFile m = true
      · rw [if_pos hfile]
        exact .inl ⟨_, .inr ⟨hinit, m, hm, hfile, rfl⟩, rfl⟩
      · rw [if_neg hfile]
        exact .inr (.inl ⟨⟨hinit, m, hm, by simpa using hfile⟩, rfl⟩)

/-- A root that has the file does not lack it. -/
theorem Holds.not_lacks {parts : List Str} {root file : Path} (h : fs.Holds reprStr parts root file) :
    ¬ fs.Lacks reprStr parts root := by
  rintro ⟨hnoInit, m, hm, hnoFile⟩
  rcases h with ⟨hinit, -⟩ | ⟨-, m', hm', hfile, -⟩
  · rw [hnoInit] at hinit
    cases hinit
  · rw [hm] at hm'
    cases hm'
    rw [hnoFile] at hfile
    cases hfile

/-- A root has one file for a name. -/
theorem Holds.unique {parts : List Str} {root file file' : Path} (h : fs.Holds reprStr parts root file)
    (h' : fs.Holds reprStr parts root file') : file = file' := by
  rcases h with ⟨hinit, rfl⟩ | ⟨hinit, m, hm, -, rfl⟩
  · rcases h' with ⟨-, rfl⟩ | ⟨hinit', -⟩
    · rfl
    · rw [hinit] at hinit'
      cases hinit'
  · rcases h' with ⟨hinit', -⟩ | ⟨-, m', hm', -, rfl⟩
    · rw [hinit] at hinit'
      cases hinit'
    · rw [hm] at hm'
      cases hm'
      rfl

/-- **The search** finds the file that a name stands for. -/
theorem resolveName_eq_ok_iff {name : Str} {found : Match} : ∀ {roots : List Path},
    fs.resolveName reprStr name roots = .ok (some found) ↔
      fs.Resolves reprStr name roots found.root found.file ∧ found.parts = splitDots name
  | [] => by
    rw [resolveName, Resolves]
    refine ⟨fun h => (by cases h), ?_⟩
    rintro ⟨⟨before, after, heq, -⟩, -⟩
    cases before <;> cases heq
  | root :: roots => by
    have hrest : fs.Lacks reprStr (splitDots name) root →
        (fs.Resolves reprStr name (root :: roots) found.root found.file ↔
          fs.Resolves reprStr name roots found.root found.file) := by
      intro hlacks
      constructor
      · rintro ⟨before, after, heq, hbefore, hholds⟩
        cases before with
        | nil =>
          cases heq
          exact absurd hlacks hholds.not_lacks
        | cons first before =>
          cases heq
          exact ⟨before, after, rfl, fun r hr => hbefore r (List.mem_cons_of_mem _ hr), hholds⟩
      · rintro ⟨before, after, rfl, hbefore, hholds⟩
        exact ⟨root :: before, after, rfl, List.forall_mem_cons.2 ⟨hlacks, hbefore⟩, hholds⟩
    rcases @resolveName_cons fs reprStr name root roots with
      ⟨file, hholds, heq⟩ | ⟨hlacks, heq⟩ | ⟨hlacks, hholds, e, heq⟩
    · rw [heq]
      constructor
      · intro h
        cases h
        exact ⟨⟨[], roots, rfl, fun _ hr => (by cases hr), hholds⟩, rfl⟩
      · rintro ⟨⟨before, after, hsplit, hbefore, hfound⟩, hparts⟩
        cases before with
        | nil =>
          obtain ⟨hroot, -⟩ := List.cons.inj hsplit
          obtain ⟨root', file', parts'⟩ := found
          dsimp only at hroot hparts hfound
          subst hroot hparts
          rw [hholds.unique hfound]
        | cons first before =>
          obtain ⟨hroot, -⟩ := List.cons.inj hsplit
          exact absurd (hroot ▸ hbefore first List.mem_cons_self) hholds.not_lacks
    · rw [heq, hrest hlacks]
      exact resolveName_eq_ok_iff
    · rw [heq]
      refine ⟨fun h => (by cases h), ?_⟩
      rintro ⟨⟨before, after, hsplit, hbefore, hfound⟩, -⟩
      cases before with
      | nil =>
        obtain ⟨hroot, -⟩ := List.cons.inj hsplit
        exact absurd (hroot ▸ hfound) (hholds _)
      | cons first before =>
        obtain ⟨hroot, -⟩ := List.cons.inj hsplit
        exact absurd (hroot ▸ hbefore first List.mem_cons_self) hlacks

/-- A name that is not found needs a suffix on the root of the file system. -/
theorem resolveName_eq_error {name : Str} {e : Exc} : ∀ {roots : List Path},
    fs.resolveName reprStr name roots = .error e → ∃ root ∈ roots, root = []
  | [], h => by
    rw [resolveName] at h
    cases h
  | root :: roots, h => by
    unfold resolveName at h
    dsimp only at h
    split_ifs at h
    rcases bind_eq_error.1 h with hm | ⟨m, -, h⟩
    · unfold Path.withSuffix at hm
      split at hm
      · next hlast =>
        have hnil := List.getLast?_eq_none_iff.1 hlast
        exact ⟨root, List.mem_cons_self, (List.append_eq_nil_iff.1 hnil).1⟩
      · cases hm
    · split_ifs at h
      obtain ⟨r, hr, hnil⟩ := resolveName_eq_error h
      exact ⟨r, List.mem_cons_of_mem _ hr, hnil⟩

end

/-! ## Imports and failures -/

section
variable (reprStr : Str → Str) (fs : FileSystem) (parser : PythonParser) (repoRoot : Path) (roots : List Path)

/-- The syntax tree of a file. -/
def Parses (f : Path) (tree : Ast) : Prop :=
  ∃ source, fs.readBytes f = .ok source ∧ parser.parseBytes source = .ok tree

/-- **One file imports another** below the root: a dotted name in it stands for that
    file, or for one under a directory whose `__init__.py` it is. -/
def Imports (f g : Path) : Prop :=
  repoRoot <+: g ∧ ∃ tree, fs.Parses parser f tree ∧ ∃ name ∈ collectImportNames tree f repoRoot,
    ∃ root file, fs.Resolves reprStr name roots root file ∧
      (g = file ∨ fs.AncestorInit (splitDots name) root g)

/-- What the imports lead to. -/
def Reaches : Path → Path → Prop := Relation.ReflTransGen (fs.Imports reprStr parser repoRoot roots)

/-- **A file the closure refuses.** -/
inductive Refused (f : Path) : Prop
  | unparsed (h : ∀ tree, ¬ fs.Parses parser f tree)
  | dynamic {tree : Ast} (h : fs.Parses parser f tree) (hv : dynamicImportViolations tree ≠ [])
  /-- an import whose path cannot take the suffix of a module -/
  | unnamed {tree : Ast} {name : Str} {e : Exc} (h : fs.Parses parser f tree)
      (hn : name ∈ collectImportNames tree f repoRoot) (he : fs.resolveName reprStr name roots = .error e)

/-- A file that the closure refuses with `ContractError`, if it does: it can be read,
    the parser raises nothing but `SyntaxError`, and every import has a path. -/
structure Orderly (f : Path) : Prop where
  readable : ∃ source, fs.readBytes f = .ok source ∧ ∀ exc, parser.parseBytes source ≠ .error (.other exc)
  named : ∀ tree, fs.Parses parser f tree → ∀ name ∈ collectImportNames tree f repoRoot, ∀ e,
    fs.resolveName reprStr name roots ≠ .error e

end

section
variable {reprStr : Str → Str} {fs : FileSystem} {parser : PythonParser} {repoRoot : Path} {roots : List Path}

theorem Parses.unique {f : Path} {tree tree' : Ast} (h : fs.Parses parser f tree)
    (h' : fs.Parses parser f tree') : tree = tree' := by
  obtain ⟨source, hsource, htree⟩ := h
  obtain ⟨source', hsource', htree'⟩ := h'
  rw [hsource] at hsource'
  cases hsource'
  rw [htree] at htree'
  exact Except.ok.inj htree'

/-- **A member** is parsed and has no dynamic imports. -/
theorem parseMember_eq_ok_iff {f : Path} (hroot : repoRoot <+: f) {tree : Ast} :
    fs.parseMember reprStr parser repoRoot f = .ok tree ↔
      fs.Parses parser f tree ∧ dynamicImportViolations tree = [] := by
  have hrel : f.relativeTo reprStr repoRoot = .ok (f.drop repoRoot.length) := by
    rw [Path.relativeTo, if_pos hroot]
  rw [parseMember, hrel, Parses]
  cases hsource : fs.readBytes f with
  | error e =>
    refine ⟨fun h => (by cases h), ?_⟩
    rintro ⟨⟨source, h, -⟩, -⟩
    cases h
  | ok source =>
    dsimp only [bind, Except.bind]
    constructor
    · intro h
      split at h
      · cases h
      · cases h
      · next tree' htree =>
        split at h
        · cases h
        · next hv =>
          cases h
          exact ⟨⟨source, rfl, htree⟩, hv⟩
    · rintro ⟨⟨source', hsource', htree⟩, hv⟩
      cases hsource'
      rw [htree]
      dsimp only
      rw [hv]

/-- **A visit** finds what a file imports. -/
theorem mem_visitMember {f : Path} (hroot : repoRoot <+: f) {cs : List Path}
    (h : fs.visitMember reprStr parser repoRoot roots f = .ok cs) (c : Path) :
    c ∈ cs ↔ fs.Imports reprStr parser repoRoot roots f c := by
  obtain ⟨tree, htree, h⟩ := bind_eq_ok.1 h
  obtain ⟨found, hfound, h⟩ := bind_eq_ok.1 h
  cases h
  obtain ⟨hparses, -⟩ := (parseMember_eq_ok_iff hroot).1 htree
  have hcandidate : ∀ m : Match, c ∈ fs.candidates m ↔
      c = m.file ∨ fs.AncestorInit m.parts m.root c := by
    intro m
    rw [candidates, List.mem_cons, List.mem_map]
    refine or_congr_right ⟨?_, ?_⟩
    · rintro ⟨p, hp, rfl⟩
      obtain ⟨hmem, hfile⟩ := List.mem_filter.1 hp
      obtain ⟨depth, hdepth, rfl⟩ := List.mem_map.1 hmem
      rw [List.mem_range'_1] at hdepth
      exact ⟨depth, hdepth.1, by omega, hfile, rfl⟩
    · rintro ⟨depth, hpos, hlt, hfile, rfl⟩
      refine ⟨_, List.mem_filter.2 ⟨List.mem_map.2 ⟨depth, ?_, rfl⟩, hfile⟩, rfl⟩
      rw [List.mem_range'_1]
      omega
  simp only [List.mem_filter, List.mem_flatMap, List.reduceOption_mem_iff, decide_eq_true_eq]
  constructor
  · rintro ⟨⟨m, hm, hc⟩, hcroot⟩
    obtain ⟨name, hname, hres⟩ := exists_of_mem_mapM hfound hm
    obtain ⟨hresolves, hparts⟩ := resolveName_eq_ok_iff.1 hres
    refine ⟨hcroot, tree, hparses, name, hname, m.root, m.file, hresolves, ?_⟩
    rw [← hparts]
    exact (hcandidate m).1 hc
  · rintro ⟨hcroot, tree', hparses', name, hname, root, file, hresolves, hc⟩
    cases hparses.unique hparses'
    obtain ⟨y, hy, hf⟩ := mem_mapM_of_mem hfound hname
    have hres : fs.resolveName reprStr name roots = .ok (some ⟨root, file, splitDots name⟩) :=
      resolveName_eq_ok_iff.2 ⟨hresolves, rfl⟩
    refine ⟨⟨⟨root, file, splitDots name⟩, ?_, (hcandidate _).2 hc⟩, hcroot⟩
    rwa [Except.ok.inj (hres.symm.trans hf)]

/-- **A visit succeeds** exactly on the files that are not refused. -/
theorem exists_visitMember_iff {f : Path} (hroot : repoRoot <+: f) :
    (∃ cs, fs.visitMember reprStr parser repoRoot roots f = .ok cs) ↔
      ¬ fs.Refused reprStr parser repoRoot roots f := by
  constructor
  · rintro ⟨cs, h⟩ hrefused
    obtain ⟨tree, htree, h⟩ := bind_eq_ok.1 h
    obtain ⟨found, hfound, -⟩ := bind_eq_ok.1 h
    obtain ⟨hparses, hv⟩ := (parseMember_eq_ok_iff hroot).1 htree
    cases hrefused with
    | unparsed hnone => exact hnone tree hparses
    | dynamic hparses' hv' =>
      cases hparses.unique hparses'
      exact hv' hv
    | unnamed hparses' hn he =>
      cases hparses.unique hparses'
      obtain ⟨y, -, hf⟩ := mem_mapM_of_mem hfound hn
      rw [he] at hf
      cases hf
  · intro hnot
    obtain ⟨tree, hparses⟩ : ∃ tree, fs.Parses parser f tree := by
      by_contra hnone
      exact hnot (.unparsed fun tree h => hnone ⟨tree, h⟩)
    have hv : dynamicImportViolations tree = [] := by
      by_contra hv
      exact hnot (.dynamic hparses hv)
    obtain ⟨found, hfound⟩ := @exists_mapM_eq_ok _ _ _ (fs.resolveName reprStr · roots)
      (collectImportNames tree f repoRoot) fun name hname => by
        cases hres : fs.resolveName reprStr name roots with
        | ok m => exact ⟨m, rfl⟩
        | error e => exact absurd (.unnamed hparses hname hres) hnot
    exact ⟨_, bind_eq_ok.2 ⟨tree, (parseMember_eq_ok_iff hroot).2 ⟨hparses, hv⟩,
      bind_eq_ok.2 ⟨found, hfound, rfl⟩⟩⟩

/-- What an orderly file is refused with. -/
theorem cls_of_visitMember {f : Path} (hroot : repoRoot <+: f)
    (horderly : fs.Orderly reprStr parser repoRoot roots f) {e : Exc}
    (h : fs.visitMember reprStr parser repoRoot roots f = .error e) : e.cls = .contractError := by
  obtain ⟨source, hsource, hother⟩ := horderly.readable
  have hrel : f.relativeTo reprStr repoRoot = .ok (f.drop repoRoot.length) := by
    rw [Path.relativeTo, if_pos hroot]
  rcases bind_eq_error.1 h with h | ⟨tree, htree, h⟩
  · rw [parseMember, hrel, hsource] at h
    dsimp only [bind, Except.bind, contractError] at h
    split at h
    · next exc hexc => exact absurd hexc (hother exc)
    · cases h
      rfl
    · split at h
      · cases h
        rfl
      · cases h
  · rcases bind_eq_error.1 h with h | ⟨_, -, h⟩
    · obtain ⟨name, hname, he⟩ := exists_of_mapM_eq_error h
      exact absurd he (horderly.named tree ((parseMember_eq_ok_iff hroot).1 htree).1 name hname e)
    · cases h

end

/-! ## The fixed point -/

section
variable {reprStr : Str → Str} {fs : FileSystem} {parser : PythonParser} {repoRoot script : Path}
  {roots : List Path} (hscript : repoRoot <+: script)
include hscript

/-- What the imports lead to lies below the root. -/
theorem prefix_of_reaches {f : Path} (h : fs.Reaches reprStr parser repoRoot roots script f) : repoRoot <+: f := by
  rcases Relation.ReflTransGen.cases_tail h with rfl | ⟨g, -, himports⟩
  · exact hscript
  · exact himports.1

/-- What the visits find is what the imports lead to. -/
theorem reaches_of_finds {f : Path}
    (h : Relation.ReflTransGen (Worklist.Finds (fs.visitMember reprStr parser repoRoot roots)) script f) :
    fs.Reaches reprStr parser repoRoot roots script f := by
  induction h with
  | refl => exact .refl
  | tail _ hfind ih =>
    obtain ⟨cs, hv, hc⟩ := hfind
    exact ih.tail ((mem_visitMember (prefix_of_reaches hscript ih) hv _).1 hc)

/-- **What the imports lead to** is what the visits find, or something refused is
    found before. -/
theorem finds_of_reaches {f : Path} (h : fs.Reaches reprStr parser repoRoot roots script f) :
    Relation.ReflTransGen (Worklist.Finds (fs.visitMember reprStr parser repoRoot roots)) script f ∨
      ∃ g, Relation.ReflTransGen (Worklist.Finds (fs.visitMember reprStr parser repoRoot roots)) script g ∧
        fs.Refused reprStr parser repoRoot roots g := by
  induction h with
  | refl => exact .inl .refl
  | @tail g c hreach himports ih =>
    rcases ih with hfinds | hrefused
    · by_cases hg : fs.Refused reprStr parser repoRoot roots g
      · exact .inr ⟨g, hfinds, hg⟩
      · have hroot := prefix_of_reaches hscript hreach
        obtain ⟨cs, hv⟩ := (exists_visitMember_iff hroot).2 hg
        exact .inl (hfinds.tail ⟨cs, hv, (mem_visitMember hroot hv _).2 himports⟩)
    · exact .inr hrefused

end

section
variable {reprStr : Str → Str} {fs : FileSystem} {parser : PythonParser} {scriptPath repoRoot : Path}

/-- **The traversal ends.** -/
theorem resolveClosure_isSome : (fs.resolveClosure reprStr parser scriptPath repoRoot).isSome := by
  rw [resolveClosure, Option.isSome_map]
  refine Worklist.loop_isSome (U := fs.resolve scriptPath :: fs.files) (fun x cs _ hv c hc => ?_)
    (List.nodup_singleton _) (fun x hx => ?_) (List.Subset.refl _) (by simp; omega)
  · obtain ⟨tree, -, hv⟩ := bind_eq_ok.1 hv
    obtain ⟨found, hfound, hv⟩ := bind_eq_ok.1 hv
    cases hv
    refine List.mem_cons_of_mem _ ?_
    obtain ⟨m, hm, hcand⟩ := List.mem_flatMap.1 (List.mem_filter.1 hc).1
    obtain ⟨name, -, hres⟩ := exists_of_mem_mapM hfound (List.reduceOption_mem_iff.1 hm)
    rcases List.mem_cons.1 hcand with rfl | hcand
    · obtain ⟨⟨-, -, -, -, ⟨hinit, hfile⟩ | ⟨-, p, -, hp, hfile⟩⟩, -⟩ := resolveName_eq_ok_iff.1 hres
      · exact hfile ▸ fs.resolve_mem _ hinit
      · exact hfile ▸ fs.resolve_mem _ hp
    · obtain ⟨p, hp, rfl⟩ := List.mem_map.1 hcand
      exact fs.resolve_mem p (List.mem_filter.1 hp).2
  · exact List.mem_cons.2 (.inl (List.mem_singleton.1 hx))

variable (hinside : fs.resolve repoRoot <+: fs.resolve scriptPath)
include hinside

/-- **The closure**: sorted, without duplicates, and what the imports lead to. -/
theorem resolveClosure_eq_ok {closure : List Path}
    (h : fs.resolveClosure reprStr parser scriptPath repoRoot = some (.ok closure)) :
    closure.Pairwise (· < ·) ∧
      (∀ f, f ∈ closure ↔ f ≠ fs.resolve scriptPath ∧
        fs.Reaches reprStr parser (fs.resolve repoRoot) (fs.rootsOf scriptPath repoRoot) (fs.resolve scriptPath) f) ∧
      ¬ ∃ f, fs.Reaches reprStr parser (fs.resolve repoRoot) (fs.rootsOf scriptPath repoRoot) (fs.resolve scriptPath) f ∧
        fs.Refused reprStr parser (fs.resolve repoRoot) (fs.rootsOf scriptPath repoRoot) f := by
  rw [resolveClosure, Option.map_eq_some_iff] at h
  obtain ⟨res, hloop, h⟩ := h
  obtain ⟨seen, rfl, h⟩ := bind_eq_ok.1 h
  cases h
  have haccepted : ∀ f, Relation.ReflTransGen (Worklist.Finds (fs.visitMember reprStr parser
      (fs.resolve repoRoot) (fs.rootsOf scriptPath repoRoot)))
      (fs.resolve scriptPath) f → ¬ fs.Refused reprStr parser (fs.resolve repoRoot) (fs.rootsOf scriptPath repoRoot) f := by
    intro f hf
    obtain ⟨hmem, hvisited⟩ := Worklist.loop_from_iff hloop (x := f)
    have hroot := prefix_of_reaches hinside (reaches_of_finds hinside hf)
    exact (exists_visitMember_iff hroot).1 (hvisited (hmem.2 hf))
  have hfinds : ∀ f, fs.Reaches reprStr parser (fs.resolve repoRoot) (fs.rootsOf scriptPath repoRoot) (fs.resolve scriptPath) f →
      Relation.ReflTransGen (Worklist.Finds (fs.visitMember reprStr parser (fs.resolve repoRoot) (fs.rootsOf scriptPath repoRoot))) (fs.resolve scriptPath) f := by
    intro f hf
    rcases finds_of_reaches hinside hf with hfinds | ⟨g, hg, hrefused⟩
    · exact hfinds
    · exact absurd hrefused (haccepted g hg)
  refine ⟨?_, fun f => ?_, ?_⟩
  · have hnodup : ((seen.filter (· ≠ fs.resolve scriptPath)).insertionSort (· ≤ ·)).Nodup :=
      (List.perm_insertionSort _ _).nodup_iff.2 ((Worklist.loop_nodup (List.nodup_singleton _) hloop).filter _)
    exact ((List.pairwise_insertionSort _ _).and hnodup).imp fun hp => lt_of_le_of_ne hp.1 hp.2
  · rw [mem_closure_iff, (Worklist.loop_from_iff hloop (x := f)).1, and_comm]
    exact and_congr_right fun _ => ⟨reaches_of_finds hinside, hfinds f⟩
  · rintro ⟨f, hf, hrefused⟩
    exact haccepted f (hfinds f hf) hrefused

/-- **A failure** is of a file that the imports lead to. -/
theorem resolveClosure_eq_error {e : Exc}
    (h : fs.resolveClosure reprStr parser scriptPath repoRoot = some (.error e)) :
    ∃ f, fs.Reaches reprStr parser (fs.resolve repoRoot) (fs.rootsOf scriptPath repoRoot) (fs.resolve scriptPath) f ∧
      fs.visitMember reprStr parser (fs.resolve repoRoot) (fs.rootsOf scriptPath repoRoot) f = .error e := by
  rw [resolveClosure, Option.map_eq_some_iff] at h
  obtain ⟨res, hloop, h⟩ := h
  rcases bind_eq_error.1 h with rfl | ⟨_, -, h⟩
  · obtain ⟨f, hf, hv⟩ := Worklist.loop_from_error hloop
    exact ⟨f, reaches_of_finds hinside hf, hv⟩
  · cases h

end

/-! ## Reordered imports -/

/-- What a node says, without its line and its children. -/
inductive NodeSummary where
  | imports (names : List Alias)
  | importFrom (module : FromModule) (names : List Alias)
  | name (id : Str)
  | attribute (attr : Str)
  | other
  deriving DecidableEq

/-- The summary of a node. -/
def summary : Ast → NodeSummary
  | .imports _ names => .imports names
  | .importFrom _ module names => .importFrom module names
  | .name _ id => .name id
  | .attribute _ _ attr => .attribute attr
  | _ => .other

/-- Two trees have the same nodes, at other lines and in another order. -/
def SameNodes (tree tree' : Ast) : Prop := (tree.nodes.map summary).Perm (tree'.nodes.map summary)

/-- The names that a node imports. -/
def NodeSummary.importNames (importingFile repoRoot : Path) : NodeSummary → List Str
  | .imports names => namesFromImport names
  | .importFrom module names => namesFromImportFrom module names importingFile repoRoot
  | _ => []

/-- A node without a dynamic import. -/
def NodeSummary.Static : NodeSummary → Prop
  | .imports names => ∀ imported ∈ names, rootModule imported.name ∉ dynamicImportModules
  | .importFrom module names =>
    (∀ m, module.module? = some m → rootModule m ∉ dynamicImportModules) ∧
      ∀ imported ∈ names, imported.name ∉ dynamicImportNames
  | .name id => id ∉ dynamicImportNames
  | .attribute attr => attr ∉ dynamicImportAttrs
  | .other => True

/-- **The repository with other contents** that differ in the order of the nodes. -/
structure Reordered (parser : PythonParser) (fs fs' : FileSystem) : Prop where
  isFile : fs'.isFile = fs.isFile
  resolve : fs'.resolve = fs.resolve
  forth : ∀ f tree, fs.Parses parser f tree → ∃ tree', fs'.Parses parser f tree' ∧ SameNodes tree tree'
  back : ∀ f tree', fs'.Parses parser f tree' → ∃ tree, fs.Parses parser f tree ∧ SameNodes tree' tree

theorem mem_collectImportNames {tree : Ast} {f repoRoot : Path} {name : Str} :
    name ∈ collectImportNames tree f repoRoot ↔
      ∃ s ∈ tree.nodes.map summary, name ∈ s.importNames f repoRoot := by
  rw [collectImportNames, List.mem_flatMap]
  simp only [List.mem_map, exists_exists_and_eq_and]
  refine exists_congr fun node => and_congr_right fun _ => ?_
  cases node <;> rfl

theorem nodeViolations_eq_nil_iff : ∀ node : Ast, nodeViolations node = [] ↔ (summary node).Static
  | .imports lineno names => by
    rw [nodeViolations, List.filterMap_eq_nil_iff]
    simp only [summary, NodeSummary.Static, ite_eq_right_iff, reduceCtorEq, imp_false]
  | .importFrom lineno module names => by
    have hnames : names.filterMap (fun imported =>
        if imported.name ∈ dynamicImportNames then some (lineno, imported.name) else none) = [] ↔
          ∀ imported ∈ names, imported.name ∉ dynamicImportNames := by
      rw [List.filterMap_eq_nil_iff]
      simp only [ite_eq_right_iff, reduceCtorEq, imp_false]
    rw [nodeViolations, summary, NodeSummary.Static]
    cases hm : module.module? with
    | none => exact hnames.trans ⟨fun h => ⟨fun m hm => (by cases hm), h⟩, fun h => h.2⟩
    | some m =>
      rw [Option.map_some, Option.filter_some]
      by_cases hroot : rootModule m ∈ dynamicImportModules
      · rw [if_pos (decide_eq_true hroot)]
        exact ⟨fun h => (by cases h), fun h => absurd hroot (h.1 m rfl)⟩
      · rw [if_neg (by simpa using hroot)]
        refine hnames.trans ⟨fun h => ⟨fun m' hm' => ?_, h⟩, fun h => h.2⟩
        cases hm'
        exact hroot
  | .name lineno id => by
    rw [nodeViolations, summary, NodeSummary.Static]
    by_cases h : id ∈ dynamicImportNames <;> simp [h]
  | .attribute lineno value attr => by
    rw [nodeViolations, summary, NodeSummary.Static]
    by_cases h : attr ∈ dynamicImportAttrs <;> simp [h]
  | .constant .. | .joinedStr .. | .binOp .. | .call .. | .expr .. | .scope .. | .other .. =>
    ⟨fun _ => trivial, fun _ => rfl⟩

theorem dynamicImportViolations_eq_nil_iff {tree : Ast} :
    dynamicImportViolations tree = [] ↔ ∀ s ∈ tree.nodes.map summary, s.Static := by
  have hperm := List.perm_insertionSort (fun v w : ℕ × Str => toLex v ≤ toLex w)
    (tree.nodes.flatMap nodeViolations)
  rw [dynamicImportViolations, ← List.length_eq_zero_iff, hperm.length_eq, List.length_eq_zero_iff,
    List.flatMap_eq_nil_iff, List.forall_mem_map]
  exact forall_congr' fun node => imp_congr_right fun _ => nodeViolations_eq_nil_iff node

section
variable {reprStr : Str → Str} {parser : PythonParser} {fs fs' : FileSystem} {repoRoot : Path} {roots : List Path}

theorem Reordered.symm (h : Reordered parser fs fs') : Reordered parser fs' fs :=
  ⟨h.isFile.symm, h.resolve.symm, h.back, h.forth⟩

theorem Reordered.resolveName (h : Reordered parser fs fs') (name : Str) : ∀ roots : List Path,
    fs'.resolveName reprStr name roots = fs.resolveName reprStr name roots
  | [] => rfl
  | root :: roots => by
    rw [FileSystem.resolveName, FileSystem.resolveName, h.isFile, h.resolve]
    simp only [h.resolveName name roots]

theorem Reordered.imports (h : Reordered parser fs fs') {f g : Path}
    (himports : fs.Imports reprStr parser repoRoot roots f g) : fs'.Imports reprStr parser repoRoot roots f g := by
  obtain ⟨hroot, tree, hparses, name, hname, root, file, hresolves, hg⟩ := himports
  obtain ⟨tree', hparses', hsame⟩ := h.forth f tree hparses
  refine ⟨hroot, tree', hparses', name, ?_, root, file, ?_, ?_⟩
  · rw [mem_collectImportNames] at hname ⊢
    exact hname.imp fun s hs => ⟨hsame.mem_iff.1 hs.1, hs.2⟩
  · unfold Resolves Lacks Holds at hresolves ⊢
    rwa [h.isFile, h.resolve]
  · unfold AncestorInit at hg ⊢
    rwa [h.isFile, h.resolve]

theorem Reordered.refused (h : Reordered parser fs fs') {f : Path}
    (hrefused : fs.Refused reprStr parser repoRoot roots f) : fs'.Refused reprStr parser repoRoot roots f := by
  cases hrefused with
  | unparsed hnone =>
    refine .unparsed fun tree' hparses' => ?_
    obtain ⟨tree, hparses, -⟩ := h.back f tree' hparses'
    exact hnone tree hparses
  | dynamic hparses hv =>
    obtain ⟨tree', hparses', hsame⟩ := h.forth f _ hparses
    refine .dynamic hparses' fun hv' => hv ?_
    rw [dynamicImportViolations_eq_nil_iff] at hv' ⊢
    exact fun s hs => hv' s (hsame.mem_iff.1 hs)
  | unnamed hparses hn he =>
    obtain ⟨tree', hparses', hsame⟩ := h.forth f _ hparses
    rw [mem_collectImportNames] at hn
    refine .unnamed hparses' (mem_collectImportNames.2 ?_) ((h.resolveName _ roots).trans he)
    exact hn.imp fun s hs => ⟨hsame.mem_iff.1 hs.1, hs.2⟩

theorem Reordered.reaches (h : Reordered parser fs fs') {f g : Path}
    (hreach : fs.Reaches reprStr parser repoRoot roots f g) : fs'.Reaches reprStr parser repoRoot roots f g :=
  hreach.lift id fun _ _ => h.imports

/-- **The order does not matter** to a closure that is returned. -/
theorem Reordered.resolveClosure (h : Reordered parser fs fs') {scriptPath repoRoot : Path}
    (hinside : fs.resolve repoRoot <+: fs.resolve scriptPath) {closure : List Path}
    (hc : fs.resolveClosure reprStr parser scriptPath repoRoot = some (.ok closure)) :
    fs'.resolveClosure reprStr parser scriptPath repoRoot = some (.ok closure) := by
  have hinside' : fs'.resolve repoRoot <+: fs'.resolve scriptPath := by rwa [h.resolve]
  have hroots : fs'.rootsOf scriptPath repoRoot = fs.rootsOf scriptPath repoRoot := by
    rw [rootsOf, rootsOf, h.resolve]
  obtain ⟨hsorted, hmem, haccepted⟩ := resolveClosure_eq_ok hinside hc
  obtain ⟨outcome, houtcome⟩ := Option.isSome_iff_exists.1
    (@resolveClosure_isSome reprStr fs' parser scriptPath repoRoot)
  cases outcome with
  | ok closure' =>
    obtain ⟨hsorted', hmem', -⟩ := resolveClosure_eq_ok hinside' houtcome
    rw [h.resolve, hroots] at hmem'
    have hsame : ∀ f, f ∈ closure' ↔ f ∈ closure := by
      intro f
      rw [hmem, hmem']
      exact and_congr_right fun _ => ⟨h.symm.reaches, h.reaches⟩
    have hperm := (List.perm_ext_iff_of_nodup (hsorted'.imp ne_of_lt) (hsorted.imp ne_of_lt)).2 hsame
    rw [houtcome, hperm.eq_of_pairwise (fun a b _ _ hab hba => absurd hba hab.asymm) hsorted' hsorted]
  | error e =>
    obtain ⟨f, hreach, hv⟩ := resolveClosure_eq_error hinside' houtcome
    have hroot := prefix_of_reaches hinside' hreach
    refine absurd ?_ haccepted
    have hrefused : fs'.Refused reprStr parser (fs'.resolve repoRoot) (fs'.rootsOf scriptPath repoRoot) f := by
      by_contra hnot
      obtain ⟨cs, hok⟩ := (exists_visitMember_iff hroot).2 hnot
      rw [hok] at hv
      cases hv
    rw [h.resolve, hroots] at hreach hrefused
    exact ⟨f, h.symm.reaches hreach, h.symm.refused hrefused⟩

/-- **`resolve_closure`**: it ends; it returns the files that the imports of the
    script lead to; it raises if one of them is refused, and a `ContractError` if all
    are orderly; and the order of the imports does not matter. -/
theorem resolveClosure_exact (reprStr : Str → Str) (parser : PythonParser) (fs : FileSystem)
    {scriptPath repoRoot : Path} (hinside : fs.resolve repoRoot <+: fs.resolve scriptPath) :
    ∃ outcome, fs.resolveClosure reprStr parser scriptPath repoRoot = some outcome ∧
      (∀ closure, outcome = .ok closure → closure.Pairwise (· < ·) ∧ ∀ f, f ∈ closure ↔
        f ≠ fs.resolve scriptPath ∧ fs.Reaches reprStr parser (fs.resolve repoRoot)
          (fs.rootsOf scriptPath repoRoot) (fs.resolve scriptPath) f) ∧
      ((∃ e, outcome = .error e) ↔ ∃ f,
        fs.Reaches reprStr parser (fs.resolve repoRoot) (fs.rootsOf scriptPath repoRoot)
          (fs.resolve scriptPath) f ∧
        fs.Refused reprStr parser (fs.resolve repoRoot) (fs.rootsOf scriptPath repoRoot) f) ∧
      ((∀ f, fs.Reaches reprStr parser (fs.resolve repoRoot) (fs.rootsOf scriptPath repoRoot)
          (fs.resolve scriptPath) f →
        fs.Orderly reprStr parser (fs.resolve repoRoot) (fs.rootsOf scriptPath repoRoot) f) →
          ∀ e, outcome = .error e → e.cls = .contractError) ∧
      ∀ fs', Reordered parser fs fs' → ∃ outcome', fs'.resolveClosure reprStr parser scriptPath repoRoot =
        some outcome' ∧ ∀ closure, outcome' = .ok closure ↔ outcome = .ok closure := by
  obtain ⟨outcome, houtcome⟩ := Option.isSome_iff_exists.1
    (@resolveClosure_isSome reprStr fs parser scriptPath repoRoot)
  refine ⟨outcome, houtcome, ?_, ⟨?_, ?_⟩, ?_, ?_⟩
  · rintro closure rfl
    obtain ⟨hsorted, hmem, -⟩ := resolveClosure_eq_ok hinside houtcome
    exact ⟨hsorted, hmem⟩
  · rintro ⟨e, rfl⟩
    obtain ⟨f, hreach, hv⟩ := resolveClosure_eq_error hinside houtcome
    refine ⟨f, hreach, ?_⟩
    by_contra hnot
    obtain ⟨cs, hok⟩ := (exists_visitMember_iff (prefix_of_reaches hinside hreach)).2 hnot
    rw [hok] at hv
    cases hv
  · intro hrefused
    cases outcome with
    | ok closure => exact absurd hrefused (resolveClosure_eq_ok hinside houtcome).2.2
    | error e => exact ⟨e, rfl⟩
  · rintro horderly e rfl
    obtain ⟨f, hreach, hv⟩ := resolveClosure_eq_error hinside houtcome
    exact cls_of_visitMember (prefix_of_reaches hinside hreach) (horderly f hreach) hv
  · intro fs' h
    obtain ⟨outcome', houtcome'⟩ := Option.isSome_iff_exists.1
      (@resolveClosure_isSome reprStr fs' parser scriptPath repoRoot)
    have hinside' : fs'.resolve repoRoot <+: fs'.resolve scriptPath := by rwa [h.resolve]
    refine ⟨outcome', houtcome', fun closure => ⟨?_, ?_⟩⟩
    · rintro rfl
      exact Option.some.inj (houtcome.symm.trans (h.symm.resolveClosure hinside' houtcome'))
    · rintro rfl
      exact Option.some.inj (houtcome'.symm.trans (h.resolveClosure hinside houtcome))

end

end FileSystem

/-! ## Trees without links -/

/-- A file tree as a file system. -/
def FileTree.fileSystem (t : FileTree) : FileSystem where
  isFile := t.isFile
  resolve := id
  readBytes := t.readBytes
  files := t.files
  resolve_mem _ h := FileTree.mem_files h

section
variable {reprStr : Str → Str} {t : FileTree} {parser : PythonParser}

theorem resolveName_fileSystem (name : Str) : ∀ roots : List Path,
    t.fileSystem.resolveName reprStr name roots = resolveName reprStr t name roots
  | [] => rfl
  | root :: roots => by
    rw [FileSystem.resolveName, resolveName]
    simp only [resolveName_fileSystem name roots]
    rfl

theorem candidates_fileSystem (found : Match) : t.fileSystem.candidates found = candidates t found := by
  rw [FileSystem.candidates, candidates]
  exact congrArg _ (List.map_id _)

theorem visitMember_fileSystem (repoRoot : Path) (roots : List Path) (current : Path) :
    t.fileSystem.visitMember reprStr parser repoRoot roots current =
      visitMember reprStr t parser repoRoot roots current := by
  have hresolve : (t.fileSystem.resolveName reprStr · roots) = (resolveName reprStr t · roots) :=
    funext fun name => resolveName_fileSystem name roots
  have hcandidates : t.fileSystem.candidates = candidates t := funext candidates_fileSystem
  rw [FileSystem.visitMember, visitMember, hresolve, hcandidates]
  rfl

/-- **Without links**, it is the closure of a file tree. -/
theorem resolveClosure_fileSystem (scriptPath repoRoot : Path) :
    t.fileSystem.resolveClosure reprStr parser scriptPath repoRoot =
      resolveClosure reprStr t parser scriptPath repoRoot := by
  have hvisit : t.fileSystem.visitMember reprStr parser repoRoot (searchRoots repoRoot scriptPath.dropLast) =
      visitMember reprStr t parser repoRoot (searchRoots repoRoot scriptPath.dropLast) :=
    funext fun current => visitMember_fileSystem _ _ current
  have hroots : t.fileSystem.rootsOf scriptPath repoRoot = searchRoots repoRoot scriptPath.dropLast := rfl
  rw [FileSystem.resolveClosure, resolveClosure, traverse, ← hvisit, ← hroots]
  rfl

end

/-- The helper in the closure of a script is what the script imports. -/
theorem resolveClosure_exact_helper :
    helperTree.fileSystem.Reaches id importLineParser appRoot
      (helperTree.fileSystem.rootsOf mainScript appRoot) mainScript [py "app", py "lib.py"] := by
  obtain ⟨outcome, houtcome, hclosure, -⟩ := @FileSystem.resolveClosure_exact id importLineParser
    helperTree.fileSystem mainScript appRoot (by decide +kernel)
  have hvalue : helperTree.fileSystem.resolveClosure id importLineParser mainScript appRoot =
      some (.ok [[py "app", py "lib.py"]]) := by
    rw [resolveClosure_fileSystem]
    rfl
  have hmem := (hclosure _ (Option.some.inj (houtcome.symm.trans hvalue))).2 [py "app", py "lib.py"]
  exact (hmem.1 (List.mem_singleton.2 rfl)).2

/-- A parser whose stack overflows. -/
def overflowingParser : PythonParser :=
  { importLineParser with
    parseBytes := fun _ => .error (.other (.text (.other (py "MemoryError"))
      (py "Parser stack overflowed - Python source too complex to parse"))) }

/-- A script of a long row of unary operators. -/
def deepTree : FileTree :=
  .dir [(py "app", .dir [(py "scripts", .dir [(py "main.py", .file (List.replicate 100000 45 ++ [49]))])])]

/-- **A script that does not parse**, and no `ContractError`. -/
theorem deepScript_memoryError :
    (∀ tree, ¬ deepTree.fileSystem.Parses overflowingParser mainScript tree) ∧
      ∃ e, deepTree.fileSystem.resolveClosure id overflowingParser mainScript appRoot = some (.error e) ∧
        e.cls ≠ .contractError := by
  constructor
  · rintro tree ⟨source, -, hparse⟩
    cases hparse
  · exact ⟨.text (.other (py "MemoryError")) (py "Parser stack overflowed - Python source too complex to parse"),
      rfl, by decide⟩

end ContinuoRuntime
