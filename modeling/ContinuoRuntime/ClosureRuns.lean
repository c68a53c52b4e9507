/-
  What runs is in the closure, where the static resolver finds what the
  interpreter finds.

  The static resolver looks a whole dotted name up under each search root; the
  interpreter goes component by component, and settles on a root at the first
  component that it finds as a file.  An import is `Followed` when some running
  file of the repository spells a name that the resolver finds where the
  interpreter ended, or below it.

  * `executed_mem_resolveClosure`: in a run whose loads are followed, every file
    of the repository is the script or in the closure;
  * `followed_of_imported`: an import found whole is followed, if what the importing
    file spells of it leads the resolver to the same place;
  * `executed_not_in_closure`: a directory of the repository root that only
    shares its name with a package beside the script hides that package from the
    resolver, and not from the interpreter.
-/
import ContinuoRuntime.Closure
import ContinuoRuntime.Python.Import

namespace ContinuoRuntime

/-- `ensure_import_paths`: each entry is moved, or put, to the front. -/
def ensureImportPaths {α : Type} [DecidableEq α] (repoRoot scriptDir : α) (sysPath : List α) : List α :=
  [scriptDir, repoRoot].foldl (fun path entry => entry :: path.erase entry) sysPath

/-! ## Followed imports -/

section
variable (reprStr : Str → Str) (I : Interpreter) (repoRoot : Path) (roots : List Path)

/-- Where the interpreter ends with a name: the longest prefix found in a file,
    and the entry of `sys.path` that it is under. -/
structure Reaches (name : List Str) (entry : Path) (pre : List Str) (spec : Spec) : Prop where
  entry_mem : entry ∈ I.sysPath
  location : spec.location? = some (entry ++ pre)
  found : ∃ i, (specs I.tree I.sysPath name)[i]? = some spec ∧ pre = name.take (i + 1) ∧
    ∀ j > i, ∀ s, (specs I.tree I.sysPath name)[j]? = some s → s.location? = none

/-- The names that a file spells, as the resolver reads them. -/
def spelledNames (file : Path) : List Str :=
  match I.tree.readBytes file with
  | .error _ => []
  | .ok source =>
    match I.parser.parseBytes source with
    | .error _ => []
    | .ok tree => collectImportNames tree file repoRoot

/-- Where a match is, without suffix. -/
def Match.location (found : Match) : Path := found.root.joinpath found.parts

/-- A load of a file of the repository is followed: the file runs already, or the
    interpreter ends where a name spelled in a running file of the repository
    leads the resolver, or above. -/
def Followed (ms : List Module) (load : Interpreter.Load) : Prop :=
  repoRoot <+: load.file → load.file ∈ ms.map Module.file ∨
    ∃ entry pre spec, Reaches I load.name entry pre spec ∧
      ∃ m ∈ ms, repoRoot <+: m.file ∧ ∃ name ∈ spelledNames I repoRoot m.file, ∃ found,
        resolveName reprStr I.tree name roots = .ok (some found) ∧ found.root <+: entry ∧
          if spec.isPackage then entry ++ pre <+: found.location else entry ++ pre = found.location

end

/-! ## Candidates -/

section
variable {reprStr : Str → Str} {t : FileTree} {roots : List Path} {name : Str} {found : Match}

/-- **Packages on the way** to a resolved name are candidates. -/
theorem init_mem_candidates (hres : resolveName reprStr t name roots = .ok (some found)) {p : Path}
    (hroot : found.root <+: p) (hne : p ≠ found.root) (hp : p <+: found.location)
    (hinit : t.isFile (p ++ [initPy]) = true) : p ++ [initPy] ∈ candidates t found := by
  by_cases hwhole : p = found.location
  · have hfile := resolveName_file hres
    rw [Match.location] at hwhole
    rw [← hwhole, if_pos hinit] at hfile
    exact hfile ▸ List.mem_cons_self
  · obtain ⟨n, hn, rfl⟩ := Path.exists_take_of_prefix hroot hp
    have hpos : n ≠ 0 := fun h => hne (by simp [h, Path.joinpath])
    have hlt : n ≠ found.parts.length := fun h => hwhole (by rw [h, List.take_length]; rfl)
    refine List.mem_cons_of_mem _ (List.mem_filter.2 ⟨List.mem_map.2 ⟨n, ?_, ?_⟩, hinit⟩)
    · rw [List.mem_range'_1]
      omega
    · exact Path.joinpath_concat _ _ (by decide)

/-- The last component of a match without suffix has no dot: its stem is itself. -/
theorem stem_of_location (hparts : found.parts = splitDots name) {dir : Path} {n : Str}
    (hloc : dir ++ [n] = found.location) (hroot : found.root <+: dir) : Path.stem n = n := by
  obtain ⟨q, rfl⟩ := hroot
  have hq : q ++ [n] = found.parts.filter (· ≠ []) := by
    rw [Match.location, Path.joinpath, List.append_assoc] at hloc
    exact List.append_cancel_left hloc
  have hn : n ∈ splitDots name := by
    rw [← hparts]
    exact (List.mem_filter.1 (hq ▸ List.mem_append_right q (List.mem_singleton.2 rfl))).1
  exact Path.stem_of_notMem (dot_notMem_of_mem_splitDots hn)

/-- **A module file** at a resolved name is a candidate. -/
theorem module_mem_candidates (hres : resolveName reprStr t name roots = .ok (some found)) {dir : Path}
    {n : Str} (hroot : found.root <+: dir) (hloc : dir ++ [n] = found.location)
    (hinit : t.isFile (dir ++ [n, initPy]) = false) : dir ++ [n ++ py ".py"] ∈ candidates t found := by
  have hfile := resolveName_file hres
  have hstem := stem_of_location (resolveName_spec hres).2.1 hloc hroot
  rw [Match.location] at hloc
  rw [← hloc, List.append_assoc, List.singleton_append, if_neg (by simp [hinit])] at hfile
  rw [Path.withSuffix_concat] at hfile
  rw [candidates, ← Except.ok.inj hfile, hstem]
  exact List.mem_cons_self

end

/-! ## One load, and a run -/

section
variable {reprStr : Str → Str} {I : Interpreter} {repoRoot : Path} {roots : List Path}

/-- **A load whose import is followed** runs a candidate. -/
theorem file_mem_candidates {name : List Str} {i : ℕ} {s : Spec} {file entry : Path} {pre : List Str}
    {spec : Spec} {spelled : Str} {found : Match} (hs : (specs I.tree I.sysPath name)[i]? = some s)
    (hfile : s.file? = some file) (hreach : Reaches I name entry pre spec)
    (hres : resolveName reprStr I.tree spelled roots = .ok (some found)) (hroot : found.root <+: entry)
    (hle : if spec.isPackage then entry ++ pre <+: found.location else entry ++ pre = found.location) :
    file ∈ candidates I.tree found := by
  obtain ⟨k, hk, rfl, hmax⟩ := hreach.found
  obtain ⟨loc, hloc⟩ := Spec.exists_location hfile
  obtain ⟨path, n, hon⟩ := specs_foundOn hs
  have hprefix : entry ++ name.take (k + 1) <+: found.location := by
    split_ifs at hle with hpk
    · exact hle
    · exact hle ▸ List.prefix_refl _
  have hname : name ≠ [] := by
    rintro rfl
    simp [specs] at hs
  have hbelow : ∀ m, found.root <+: entry ++ name.take (m + 1) ∧
      entry ++ name.take (m + 1) ≠ found.root := by
    refine fun m => ⟨hroot.trans (List.prefix_append _ _), fun h => ?_⟩
    have hlen := hroot.length_le
    rw [← h, List.length_append] at hlen
    have htake : name.take (m + 1) = [] := List.eq_nil_of_length_eq_zero (by omega)
    exact hname (by simpa using htake)
  rcases lt_trichotomy i k with hik | rfl | hik
  · -- above the end: a package under the same entry
    obtain ⟨hpk, e, -, hloc', heq⟩ := specs_located hs hloc hk hreach.location hik
    obtain rfl : entry = e := List.append_cancel_right heq
    subst hloc'
    rcases hon.file_cases hloc with ⟨-, hf, hinit⟩ | ⟨_, _, hmod, -⟩
    · cases hf.symm.trans hfile
      refine init_mem_candidates hres (hbelow i).1 (hbelow i).2 (.trans ?_ hprefix) hinit
      exact (List.prefix_append_right_inj _).2 (List.take_prefix_take_left (by omega))
    · rw [hpk] at hmod
      cases hmod
  · -- the end itself
    obtain rfl : spec = s := Option.some.inj (hk.symm.trans hs)
    obtain rfl : entry ++ name.take (i + 1) = loc := Option.some.inj (hreach.location.symm.trans hloc)
    rcases hon.file_cases hloc with ⟨-, hf, hinit⟩ | ⟨dir, n, hmod, hdir, hf, hinit, -⟩
    · cases hf.symm.trans hfile
      exact init_mem_candidates hres (hbelow i).1 (hbelow i).2 hprefix hinit
    · cases hf.symm.trans hfile
      rw [hmod, if_neg (by decide), hdir] at hle
      refine module_mem_candidates hres ?_ hle hinit
      -- the root is above the last component
      have hlt := List.IsPrefix.length_le (hbelow i).1
      refine List.prefix_of_prefix_length_le (hdir ▸ (hbelow i).1) (List.prefix_append _ _) ?_
      have hne : found.root.length ≠ (dir ++ [n]).length := fun h =>
        (hbelow i).2 (hdir ▸ ((hdir ▸ (hbelow i).1).eq_of_length h).symm)
      rw [hdir] at hlt
      rw [List.length_append, List.length_singleton] at hlt hne
      omega
  · have hnone := hmax i hik s hs
    rw [hloc] at hnone
    cases hnone

/-- What a member spells is what its visit resolves. -/
theorem spelledNames_of_parseMember {file : Path} {tree : Ast}
    (h : parseMember reprStr I.tree I.parser repoRoot file = .ok tree) :
    spelledNames I repoRoot file = collectImportNames tree file repoRoot := by
  obtain ⟨rel, -, h⟩ := bind_eq_ok.1 h
  obtain ⟨source, hsource, h⟩ := bind_eq_ok.1 h
  unfold spelledNames
  split at h
  · cases h
  · cases h
  · next htree =>
    split at h
    · cases h
    · cases h
      simp only [hsource, htree]

variable {script : Path} {closure : List Path}

/-- **One load**: with the files of the running modules covered, the file of a
    followed load is. -/
theorem loaded_mem_resolveClosure
    (hc : resolveClosure reprStr I.tree I.parser script repoRoot = some (.ok closure))
    {ms : List Module} {load : Interpreter.Load} (hload : I.Loads ms load)
    (hfollow : Followed reprStr I repoRoot (searchRoots repoRoot script.dropLast) ms load)
    (ih : ∀ m ∈ ms, repoRoot <+: m.file → m.file = script ∨ m.file ∈ closure)
    (hroot : repoRoot <+: load.file) : load.file = script ∨ load.file ∈ closure := by
  rcases hfollow hroot with hold | ⟨entry, pre, spec, hreach, m, hm, hmroot, name, hname, found, hres,
    hfroot, hle⟩
  · obtain ⟨m, hm, hfile⟩ := List.mem_map.1 hold
    exact hfile ▸ ih m hm (hfile ▸ hroot)
  · obtain ⟨cs, hvisit, hsub⟩ := resolveClosure_closed hc (ih m hm hmroot)
    obtain ⟨tree, htree, hmem⟩ := mem_visitMember hvisit
    rw [spelledNames_of_parseMember htree] at hname
    refine hsub _ ((hmem _).2 ⟨hroot, name, hname, found, hres, ?_⟩)
    exact file_mem_candidates hload.found hload.file hreach hres hfroot hle

/-- **Soundness of the closure**: in a run of the script whose loads are all
    followed, every file below the repository root that runs is the script or a
    member of its closure. -/
theorem executed_mem_resolveClosure (reprStr : Str → Str) (tree : FileTree) (parser : PythonParser)
    (dunderAll : List Str → List Str) (repoRoot script : Path) (closure sysPath : List Path)
    (hc : resolveClosure reprStr tree parser script repoRoot = some (.ok closure)) (ms : List Module)
    (hrun : Interpreter.Runs ⟨tree, parser, ensureImportPaths repoRoot script.dropLast sysPath, dunderAll⟩
      (Followed reprStr ⟨tree, parser, ensureImportPaths repoRoot script.dropLast sysPath, dunderAll⟩
        repoRoot (searchRoots repoRoot script.dropLast)) script ms) :
    ∀ m ∈ ms, repoRoot <+: m.file → m.file = script ∨ m.file ∈ closure := by
  induction hrun with
  | refl =>
    intro m hm _
    obtain rfl := List.mem_singleton.1 hm
    exact .inl rfl
  | tail _ hstep ih =>
    obtain ⟨load, hload, hfollow, rfl⟩ := hstep
    intro m hm hroot
    rcases List.mem_append.1 hm with hm | hm
    · exact ih m hm hroot
    · obtain rfl := List.mem_singleton.1 hm
      exact loaded_mem_resolveClosure hc hload hfollow ih hroot

/-! ## Where the resolvers agree -/

/-- Roots without a file of the name are passed over. -/
theorem resolveName_append {t : FileTree} {name : Str} {rest : List Path} : ∀ {before : List Path},
    (∀ r ∈ before, resolveName reprStr t name [r] = .ok none) →
      resolveName reprStr t name (before ++ rest) = resolveName reprStr t name rest
  | [], _ => rfl
  | r :: before, h => by
    have ih : resolveName reprStr t name (before ++ rest) = resolveName reprStr t name rest :=
      resolveName_append fun r' hr' => h r' (List.mem_cons_of_mem _ hr')
    have hr := h r (by simp)
    rw [List.cons_append, ← ih]
    conv_lhs => unfold resolveName
    unfold resolveName at hr
    dsimp only at hr ⊢
    by_cases hinit : t.isFile (r.joinpath (splitDots name ++ [initPy])) = true
    · rw [if_pos hinit] at hr
      cases hr
    · rw [if_neg hinit] at hr ⊢
      obtain ⟨moduleFile, hmf, hr⟩ := bind_eq_ok.1 hr
      rw [hmf]
      by_cases hmod : t.isFile moduleFile = true
      · rw [if_pos hmod] at hr
        cases hr
      · exact if_neg hmod

/-- Parts that are not empty are all joined. -/
theorem joinpath_of_notMem {root : Path} {parts : List Str} (h : [] ∉ parts) :
    Path.joinpath root parts = root ++ parts := by
  rw [Path.joinpath, List.filter_eq_self.2 fun part hpart => by simpa using fun hnil : part = [] => h (hnil ▸ hpart)]

/-- Under a root from which a spelled name leads to where the interpreter ends with a
    whole name, the resolver finds a file. -/
theorem resolveName_of_reaches {name : List Str} {entry root : Path} {spec : Spec} {spelled : Str}
    {after : List Path} (hlocation : root ++ splitDots spelled = entry ++ name)
    (hne : [] ∉ splitDots spelled) (hreach : Reaches I name entry name spec) :
    ∃ file, resolveName reprStr I.tree spelled (root :: after) =
      .ok (some ⟨root, file, splitDots spelled⟩) := by
  obtain ⟨i, hi, -, -⟩ := hreach.found
  obtain ⟨path, n, hon⟩ := specs_foundOn hi
  unfold resolveName
  dsimp only
  rw [Path.joinpath_concat _ _ (by decide), joinpath_of_notMem hne, hlocation]
  rcases hon.file_cases hreach.location with ⟨-, -, hinit⟩ | ⟨dir, n, -, hdir, -, hinit, hf⟩
  · exact ⟨_, if_pos hinit⟩
  · have hmem : n ∈ splitDots spelled := by
      have hlast := congrArg List.getLast? (hlocation.trans hdir)
      rw [List.getLast?_append_of_ne_nil _ (splitDots_ne_nil spelled), List.getLast?_concat] at hlast
      exact List.mem_of_getLast? hlast
    have hstem := Path.stem_of_notMem (dot_notMem_of_mem_splitDots hmem)
    rw [hdir, List.append_assoc, List.singleton_append, if_neg (by simp [hinit]),
      Path.withSuffix_concat, hstem]
    exact ⟨_, if_pos hf⟩

/-- A spelled name leads the resolver to a place: under a root, with no file of the
    name under the roots before. -/
structure Leads (reprStr : Str → Str) (t : FileTree) (roots : List Path) (spelled : Str) (entry : Path)
    (name : List Str) : Prop where
  parts : [] ∉ splitDots spelled
  root : ∃ before root after, roots = before ++ root :: after ∧
    (∀ r ∈ before, resolveName reprStr t spelled [r] = .ok none) ∧ root <+: entry ∧
      root ++ splitDots spelled = entry ++ name

/-- **An import found whole** is followed, if a running file of the repository spells a
    name that leads the resolver there. -/
theorem followed_of_whole {ms : List Module} {load : Interpreter.Load} {m : Module} {spelled : Str}
    {entry : Path} {spec : Spec} (hm : m ∈ ms) (hmroot : repoRoot <+: m.file)
    (hspelled : spelled ∈ spelledNames I repoRoot m.file) (hreach : Reaches I load.name entry load.name spec)
    (hleads : Leads reprStr I.tree roots spelled entry load.name) :
    Followed reprStr I repoRoot roots ms load := by
  intro _
  obtain ⟨hparts, before, root, after, hroots, hearlier, hroot, hlocation⟩ := hleads
  obtain ⟨file, hres⟩ : ∃ file, resolveName reprStr I.tree spelled (root :: after) =
      .ok (some ⟨root, file, splitDots spelled⟩) := resolveName_of_reaches hlocation hparts hreach
  refine .inr ⟨entry, load.name, spec, hreach, m, hm, hmroot, spelled, hspelled, _,
    hroots ▸ (resolveName_append hearlier).trans hres, hroot, ?_⟩
  have hloc : entry ++ load.name = Match.location ⟨root, file, splitDots spelled⟩ :=
    hlocation.symm.trans (joinpath_of_notMem hparts).symm
  rw [hloc]
  split_ifs
  · exact List.prefix_refl _
  · rfl

/-! ## What an import spells -/

/-- What a statement of a running file spells is spelled by the file. -/
theorem statement_of_imported {m : Module} {name : List Str} (h : name ∈ I.importedNames m) :
    ∃ node, name ∈ I.statementNames m node ∧
      ∀ spelled ∈ importNames m.file repoRoot node, spelled ∈ spelledNames I repoRoot m.file := by
  unfold Interpreter.importedNames at h
  split at h
  · cases h
  · next source hsource =>
    split at h
    · cases h
    · next tree htree =>
      obtain ⟨node, hnode, hname⟩ := List.mem_flatMap.1 h
      refine ⟨node, hname, fun spelled hspelled => ?_⟩
      simp only [spelledNames, hsource, htree]
      exact List.mem_flatMap.2 ⟨node, hnode, hspelled⟩

/-- A module lies where its name says: its package is below a directory `below` of the
    repository root. -/
structure Placed (repoRoot : Path) (below : List Str) (m : Module) : Prop where
  dir : m.file.dropLast = repoRoot ++ (below ++ m.package)
  parts : ∀ part ∈ below ++ m.package, part ≠ [] ∧ ch '.' ∉ part

/-- The base of a `from` import, as the resolver spells it. -/
theorem namesFromImportFrom_spec {m : Module} {below base : List Str} {module : FromModule}
    (hplaced : Placed repoRoot below m) (hbase : Interpreter.absoluteName m module = some base) (hne : [] ∉ base) :
    ∃ spelled, (splitDots spelled = base ∨ splitDots spelled = below ++ base) ∧ ∀ names,
      namesFromImportFrom module names m.file repoRoot =
        spelled :: names.map fun imported => spelled ++ py "." ++ imported.name := by
  cases module with
  | absolute module =>
    cases hbase
    exact ⟨module, .inl rfl, fun names => rfl⟩
  | relative walkUp module =>
    rw [Interpreter.absoluteName] at hbase
    split_ifs at hbase with hwalk
    cases hbase
    have hcomponents : packageComponents m.file repoRoot = below ++ m.package := by
      rw [packageComponents, hplaced.dir, List.drop_left]
    have hwalk' : ¬ walkUp > (below ++ m.package).length := by
      rw [List.length_append]
      omega
    have htake : (below ++ m.package).take ((below ++ m.package).length - walkUp) =
        below ++ m.package.take (m.package.length - walkUp) := by
      rw [List.length_append, Nat.add_sub_assoc hwalk.le, List.take_length_add_append]
    have hpackage : m.package.take (m.package.length - walkUp) ≠ [] := by
      rw [ne_eq, List.take_eq_nil_iff]
      rintro (h | h)
      · omega
      · rw [h] at hwalk
        exact absurd hwalk (Nat.not_lt_zero _)
    have hparts : ∀ part ∈ below ++ m.package.take (m.package.length - walkUp), part ≠ [] ∧ ch '.' ∉ part := by
      rw [← htake]
      exact fun part hpart => hplaced.parts part (List.mem_of_mem_take hpart)
    generalize m.package.take (m.package.length - walkUp) = package at hne htake hpackage hparts ⊢
    have hsplit : splitDots (joinDots (below ++ package)) = below ++ package :=
      splitDots_joinDots (List.append_ne_nil_of_right_ne_nil below hpackage) fun part hpart => (hparts part hpart).2
    have hpre : joinDots (below ++ package) ≠ [] := by
      intro hnil
      rw [hnil] at hsplit
      have hmem : ([] : Str) ∈ below ++ package := hsplit ▸ List.mem_singleton.2 rfl
      exact (hparts _ hmem).1 rfl
    simp only [namesFromImportFrom, hcomponents, if_neg hwalk', htake, joinDots_pair hpre]
    -- the base is the package, or a module below it
    cases module with
    | none =>
      refine ⟨joinDots (below ++ package), .inr ?_, fun names => ?_⟩
      · rw [hsplit, Option.map_none, Option.getD_none, List.append_nil]
      · simp only [Option.getD_none, if_pos, if_neg hpre]
        rfl
    | some module =>
      have hmodule : module ≠ [] := by
        rintro rfl
        exact hne (List.mem_append_right _ (List.mem_singleton.2 rfl))
      have hlong : joinDots (below ++ package) ++ py "." ++ module ≠ [] := by
        rw [List.append_assoc]
        exact List.append_ne_nil_of_left_ne_nil hpre _
      refine ⟨joinDots (below ++ package) ++ py "." ++ module, .inr ?_, fun names => ?_⟩
      · rw [splitDots_append, hsplit, List.append_assoc]
        rfl
      · simp only [Option.getD_some, if_neg hmodule, if_neg hlong]
        rfl

/-- **An import is spelled**: an absolute one as it is, and a relative one from the repository
    root on; but a star import takes names from an `__all__` that the file does not spell. -/
theorem spelled_of_imported {m : Module} {name : List Str} {below : List Str} (hplaced : Placed repoRoot below m)
    (hne : [] ∉ name) (h : name ∈ I.importedNames m) :
    (∃ spelled ∈ spelledNames I repoRoot m.file, splitDots spelled = name ∨ splitDots spelled = below ++ name) ∨
      ∃ base, ∃ sub ∈ I.dunderAll base, name = base ++ splitDots sub := by
  obtain ⟨node, hname, hspells⟩ := @statement_of_imported I repoRoot m name h
  cases node with
  | imports lineno names =>
    obtain ⟨imported, himported, rfl⟩ := List.mem_map.1 hname
    exact .inl ⟨imported.name, hspells _ (List.mem_map_of_mem himported), .inl rfl⟩
  | importFrom lineno module names =>
    rw [Interpreter.statementNames] at hname
    cases hbase : Interpreter.absoluteName m module with
    | none =>
      rw [hbase] at hname
      cases hname
    | some base =>
      rw [hbase] at hname
      rcases List.mem_cons.1 hname with rfl | hname
      · obtain ⟨spelled, hsplit, hnames⟩ := namesFromImportFrom_spec hplaced hbase hne
        refine .inl ⟨spelled, hspells _ ?_, hsplit⟩
        rw [importNames, hnames]
        exact List.mem_cons_self
      · obtain ⟨imported, himported, hname⟩ := List.mem_flatMap.1 hname
        split_ifs at hname with hstar
        · obtain ⟨sub, hsub, rfl⟩ := List.mem_map.1 hname
          exact .inr ⟨base, sub, hsub, rfl⟩
        · obtain rfl := List.mem_singleton.1 hname
          obtain ⟨spelled, hsplit, hnames⟩ := namesFromImportFrom_spec hplaced hbase fun hmem =>
            hne (List.mem_append_left _ hmem)
          refine .inl ⟨spelled ++ py "." ++ imported.name, hspells _ ?_, ?_⟩
          · rw [importNames, hnames]
            exact List.mem_cons_of_mem _ (List.mem_map_of_mem himported)
          · rw [splitDots_append, ← List.append_assoc]
            exact hsplit.imp (fun h => by rw [h]) fun h => by rw [h]
  | _ => cases hname

/-- **A loaded module** lies where its name says, if the entry is in the repository. -/
theorem placed_of_loads {ms : List Module} {load : Interpreter.Load} {below : List Str} (h : I.Loads ms load)
    (hparts : ∀ part ∈ below ++ load.name, part ≠ [] ∧ ch '.' ∉ part)
    (hentry : ∀ entry ∈ I.sysPath, load.spec.location? = some (entry ++ load.name.take (load.index + 1)) →
      entry = repoRoot ++ below) : Placed repoRoot below load.module := by
  obtain ⟨location, hlocation⟩ := Spec.exists_location h.file
  obtain ⟨entry, hmem, rfl⟩ := specs_location h.found hlocation
  obtain rfl := hentry entry hmem hlocation
  obtain ⟨path, n, hon⟩ := specs_foundOn h.found
  have hname : ∀ part ∈ below ++ load.name.take (load.index + 1), part ≠ [] ∧ ch '.' ∉ part := fun part hpart =>
    hparts part ((List.mem_append.1 hpart).elim (List.mem_append_left _) fun h =>
      List.mem_append_right _ (List.mem_of_mem_take h))
  have hnil : load.name.take (load.index + 1) ≠ [] := by
    intro h0
    have hempty : load.name = [] := by simpa using h0
    have hfound := h.found
    rw [hempty] at hfound
    cases hfound
  have hmodule : load.module.file = load.file := rfl
  rcases hon.file_cases hlocation with ⟨hpk, hfile, -⟩ | ⟨dir, n, hmod, hdir, hfile, -⟩
  · have hpackage : load.module.package = load.name.take (load.index + 1) := if_pos hpk
    have hfile' : load.file = repoRoot ++ below ++ load.name.take (load.index + 1) ++ [initPy] :=
      Option.some.inj (h.file.symm.trans hfile)
    refine ⟨?_, hpackage ▸ hname⟩
    rw [hmodule, hfile', List.dropLast_concat, hpackage, List.append_assoc]
  · have hpackage : load.module.package = (load.name.take (load.index + 1)).dropLast :=
      if_neg (Bool.eq_false_iff.1 hmod)
    have hfile' : load.file = dir ++ [n ++ py ".py"] := Option.some.inj (h.file.symm.trans hfile)
    refine ⟨?_, fun part hpart => hname part ?_⟩
    · have hup := congrArg List.dropLast hdir
      rw [List.dropLast_append_of_ne_nil hnil, List.dropLast_concat] at hup
      rw [hmodule, hfile', List.dropLast_concat, hpackage, ← hup, List.append_assoc]
    · rw [hpackage] at hpart
      exact (List.mem_append.1 hpart).elim (List.mem_append_left _) fun h =>
        List.mem_append_right _ (List.mem_of_mem_dropLast h)

/-- **What follows an import**, seen on the tree: a module that runs in the repository imports a
    whole name, and whatever it spells for that leads the resolver there. -/
theorem followed_of_imported {ms : List Module} {load : Interpreter.Load} {m : Module} {below : List Str}
    {entry : Path} {spec : Spec} (hm : m ∈ ms) (hplaced : Placed repoRoot below m)
    (himported : load.name ∈ I.importedNames m) (hstar : ∀ base, I.dunderAll base = []) (hne : [] ∉ load.name)
    (hreach : Reaches I load.name entry load.name spec)
    (hleads : ∀ spelled ∈ spelledNames I repoRoot m.file,
      splitDots spelled = load.name ∨ splitDots spelled = below ++ load.name →
        Leads reprStr I.tree roots spelled entry load.name) : Followed reprStr I repoRoot roots ms load := by
  have hmroot : repoRoot <+: m.file := by
    have hdir : repoRoot <+: m.file.dropLast := hplaced.dir ▸ List.prefix_append _ _
    exact hdir.trans (List.dropLast_prefix _)
  rcases spelled_of_imported hplaced hne himported with ⟨spelled, hspelled, hsplit⟩ | ⟨base, sub, hsub, -⟩
  · exact followed_of_whole hm hmroot hspelled hreach (hleads spelled hspelled hsplit)
  · rw [hstar] at hsub
    cases hsub

end

/-! ## Two repositories -/

/-- The module of an empty text, or of one line that imports names. -/
def parseImportLine (source : Str) : Except ParseError Ast :=
  if source = [] then .ok (.scope [] [] [])
  else if (py "import ").isPrefixOf source then
    .ok (.scope [] [.imports 1 (((source.drop 7).splitOn (ch ',')).map fun name => ⟨name, none⟩)] [])
  else .error (.syntaxError (py "1") (py "invalid syntax"))

/-- A parser of such modules. -/
def importLineParser : PythonParser where
  parseBytes source := parseImportLine (source.map fun b => Fin.ofNat _ b.toNat)
  parseText := parseImportLine
  isAlnum c := (48 ≤ c.val && c.val < 58) || (65 ≤ c.val && c.val < 91) || (97 ≤ c.val && c.val < 123)
  decodeDetail _ := py "'utf-8' codec can't decode"

def appRoot : Path := [py "app"]

def mainScript : Path := [py "app", py "scripts", py "main.py"]

/-- The script in an interpreter that the harness has set up. -/
def mainInterpreter (tree : FileTree) : Interpreter :=
  ⟨tree, importLineParser, ensureImportPaths appRoot mainScript.dropLast [], fun _ => []⟩

/-- A helper at the root of the repository. -/
def helperTree : FileTree :=
  .dir [(py "app", .dir [
    (py "lib.py", .file []),
    (py "scripts", .dir [(py "main.py", .file (ascii (py "import lib")))])])]

def helperLoad : Interpreter.Load :=
  ⟨[py "lib"], 0, .moduleFile appRoot (py "lib"), [py "app", py "lib.py"]⟩

theorem helperLoad_loads :
    (mainInterpreter helperTree).Loads [Module.script mainScript] helperLoad where
  imported := ⟨_, List.mem_singleton.2 rfl, by decide +kernel⟩
  found := by decide +kernel
  file := rfl
  fresh := by decide +kernel
  ancestors := fun i hi => absurd hi (Nat.not_lt_zero i)

theorem helperLoad_followed : Followed (fun s => s) (mainInterpreter helperTree) appRoot
    (searchRoots appRoot mainScript.dropLast) [Module.script mainScript] helperLoad := by
  have hspecs : specs helperTree (mainInterpreter helperTree).sysPath [py "lib"] =
      [.moduleFile appRoot (py "lib")] := by decide +kernel
  have hreach : Reaches (mainInterpreter helperTree) [py "lib"] appRoot [py "lib"]
      (.moduleFile appRoot (py "lib")) := by
    refine ⟨by decide +kernel, rfl, 0, congrArg (·[0]?) hspecs, rfl, fun j hj s hs => ?_⟩
    rw [show (mainInterpreter helperTree).tree = helperTree from rfl, hspecs,
      List.getElem?_eq_none hj] at hs
    cases hs
  have hplaced : Placed appRoot [py "scripts"] (Module.script mainScript) := ⟨rfl, by decide +kernel⟩
  refine followed_of_imported (List.mem_singleton.2 rfl) hplaced (by decide +kernel) (fun _ => rfl) (by decide +kernel)
    hreach fun spelled hspelled _ => ?_
  have hnames : spelledNames (mainInterpreter helperTree) appRoot (Module.script mainScript).file = [py "lib"] := by
    decide +kernel
  obtain rfl : spelled = py "lib" := List.mem_singleton.1 (hnames ▸ hspelled)
  exact ⟨by decide +kernel, [], appRoot, [mainScript.dropLast], by decide +kernel, fun r hr => (by cases hr),
    List.prefix_refl _, by decide +kernel⟩

/-- The helper runs, and is in the closure. -/
theorem executed_mem_resolveClosure_helper :
    helperLoad.module.file = mainScript ∨ helperLoad.module.file ∈ [[py "app", py "lib.py"]] :=
  executed_mem_resolveClosure (fun s => s) helperTree importLineParser (fun _ => []) appRoot mainScript
    [[py "app", py "lib.py"]] [] (by decide +kernel) [Module.script mainScript, helperLoad.module]
    (.tail .refl ⟨helperLoad, helperLoad_loads, helperLoad_followed, rfl⟩) helperLoad.module
    (by simp) (by decide +kernel)

/-- A directory of the root and a package beside the script, both named `a`. -/
def shadowTree : FileTree :=
  .dir [(py "app", .dir [
    (py "a", .dir [(py "b.py", .file [])]),
    (py "scripts", .dir [
      (py "main.py", .file (ascii (py "import a.b"))),
      (py "a", .dir [(py "__init__.py", .file []), (py "b.py", .file [])])])])]

def shadowLoad : Interpreter.Load :=
  ⟨[py "a", py "b"], 0, .package mainScript.dropLast (py "a"),
    [py "app", py "scripts", py "a", py "__init__.py"]⟩

/-- **A package that is not in the closure**: the resolver finds `a/b.py` under
    the root, the interpreter passes the directory over and runs the package
    beside the script. -/
theorem executed_not_in_closure :
    resolveClosure (fun s => s) shadowTree importLineParser mainScript appRoot =
        some (.ok [[py "app", py "a", py "b.py"]]) ∧
      ∃ ms, (mainInterpreter shadowTree).Runs (fun _ _ => True) mainScript ms ∧ ∃ m ∈ ms,
        appRoot <+: m.file ∧ m.file ≠ mainScript ∧ m.file ∉ [[py "app", py "a", py "b.py"]] := by
  have hloads : (mainInterpreter shadowTree).Loads [Module.script mainScript] shadowLoad :=
    { imported := ⟨_, List.mem_singleton.2 rfl, by decide +kernel⟩
      found := by decide +kernel
      file := rfl
      fresh := by decide +kernel
      ancestors := fun i hi => absurd hi (Nat.not_lt_zero i) }
  refine ⟨by decide +kernel, _, .tail .refl ⟨shadowLoad, hloads, trivial, rfl⟩, shadowLoad.module,
    by simp, by decide +kernel, by decide +kernel, by decide +kernel⟩

end ContinuoRuntime
