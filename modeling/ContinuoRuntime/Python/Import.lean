/-
  Python's path-based import, on a tree of `.py` files.

  For one component of a dotted name the entries of a search path are tried in
  turn: a directory with `__init__.py` is a regular package and wins over a
  module file of the same entry; a directory without one is only a portion of a
  namespace package, and the search goes on.  The components below a package are
  searched on its own path.  A run of a program is a sequence of loads, each
  caused by an import statement of a module that runs already; ancestors run
  first.

  Every import statement of a running module may be performed, at any time, any
  number of times, and an import may stop at any prefix of its name.

  * `specs_located`: the files found for the prefixes of one name lie under one
    entry of the search path, where the name says.
-/
import ContinuoRuntime.Python.Ast
import ContinuoRuntime.Python.Files

namespace ContinuoRuntime

/-! ## Finding one name -/

/-- What is found for one component: in `entry`, or only directories. -/
inductive Spec where
  | package (entry : Path) (name : Str)
  | moduleFile (entry : Path) (name : Str)
  | directories (portions : List Path)
  deriving DecidableEq

namespace Spec

/-- The file that runs. -/
def file? : Spec → Option Path
  | .package entry name => some (entry ++ [name, initPy])
  | .moduleFile entry name => some (entry ++ [name ++ py ".py"])
  | .directories _ => none

/-- Where the name is, without suffix. -/
def location? : Spec → Option Path
  | .package entry name | .moduleFile entry name => some (entry ++ [name])
  | .directories _ => none

/-- `__path__`, empty for a module that has none. -/
def searchPath : Spec → List Path
  | .package entry name => [entry ++ [name]]
  | .moduleFile _ _ => []
  | .directories portions => portions

def isPackage : Spec → Bool
  | .moduleFile _ _ => false
  | _ => true

end Spec

section
variable (t : FileTree)

/-- `PathFinder.find_spec`; `portions` are the directories found so far. -/
def findSpec (portions : List Path) (name : Str) : List Path → Option Spec
  | [] => if portions = [] then none else some (.directories portions)
  | entry :: entries =>
    if t.isFile (entry ++ [name, initPy]) then some (.package entry name)
    else if t.isFile (entry ++ [name ++ py ".py"]) then some (.moduleFile entry name)
    else findSpec (if t.isDir (entry ++ [name]) then portions ++ [entry ++ [name]] else portions) name
      entries

/-- What is found for the prefixes of a dotted name, up to the first that is not
    found. -/
def specs (path : List Path) : List Str → List Spec
  | [] => []
  | name :: names =>
    match findSpec t [] name path with
    | none => []
    | some spec => spec :: specs spec.searchPath names

/-- What a spec found on `path` says about the tree. -/
inductive FoundOn (path : List Path) (name : Str) : Spec → Prop
  | package {entry} (he : entry ∈ path) (hf : t.isFile (entry ++ [name, initPy]) = true) :
    FoundOn path name (.package entry name)
  | moduleFile {entry} (he : entry ∈ path) (hi : t.isFile (entry ++ [name, initPy]) = false)
    (hf : t.isFile (entry ++ [name ++ py ".py"]) = true) : FoundOn path name (.moduleFile entry name)
  | directories {portions} (hp : ∀ p ∈ portions, ∃ entry ∈ path, p = entry ++ [name]) :
    FoundOn path name (.directories portions)

variable {t}

/-- **A spec with a location** is a package with its `__init__.py`, or a module
    file where there is none. -/
theorem FoundOn.file_cases {path : List Path} {name : Str} {spec : Spec} {loc : Path}
    (h : FoundOn t path name spec) (hloc : spec.location? = some loc) :
    (spec.isPackage = true ∧ spec.file? = some (loc ++ [initPy]) ∧ t.isFile (loc ++ [initPy]) = true) ∨
      ∃ dir n, spec.isPackage = false ∧ loc = dir ++ [n] ∧ spec.file? = some (dir ++ [n ++ py ".py"]) ∧
        t.isFile (dir ++ [n, initPy]) = false ∧ t.isFile (dir ++ [n ++ py ".py"]) = true := by
  cases h with
  | @package entry he hf =>
    obtain rfl : entry ++ [name] = loc := by simpa [Spec.location?] using hloc
    exact .inl ⟨rfl, by simp [Spec.file?], by simpa using hf⟩
  | @moduleFile entry he hi hf =>
    obtain rfl : entry ++ [name] = loc := by simpa [Spec.location?] using hloc
    exact .inr ⟨entry, name, rfl, rfl, rfl, hi, hf⟩
  | directories hp => cases hloc

/-- A spec with a file has a location. -/
theorem Spec.exists_location {spec : Spec} {file : Path} (h : spec.file? = some file) :
    ∃ loc, spec.location? = some loc := by
  cases spec with
  | package entry name => exact ⟨_, rfl⟩
  | moduleFile entry name => exact ⟨_, rfl⟩
  | directories portions => cases h

theorem findSpec_spec {path : List Path} {name : Str} {spec : Spec} :
    ∀ {entries portions : List Path}, entries ⊆ path → (∀ p ∈ portions, ∃ e ∈ path, p = e ++ [name]) →
      findSpec t portions name entries = some spec → FoundOn t path name spec
  | [], portions, _, hp, h => by
    unfold findSpec at h
    split_ifs at h
    cases h
    exact .directories hp
  | entry :: entries, portions, hsub, hp, h => by
    have he : entry ∈ path := hsub (by simp)
    unfold findSpec at h
    split_ifs at h with hinit hmod hdir
    · cases h
      exact .package he hinit
    · cases h
      exact .moduleFile he (by simpa using hinit) hmod
    · refine findSpec_spec (fun x hx => hsub (by simp [hx])) (fun p hpm => ?_) h
      rcases List.mem_append.1 hpm with hpm | hpm
      · exact hp p hpm
      · exact ⟨entry, he, List.mem_singleton.1 hpm⟩
    · exact findSpec_spec (fun x hx => hsub (by simp [hx])) hp h

/-! ## Finding a dotted name -/

/-- A file found for a prefix lies where the prefix says, under an entry. -/
theorem specs_location : ∀ {names : List Str} {path : List Path} {i : ℕ} {spec : Spec} {loc : Path},
    (specs t path names)[i]? = some spec → spec.location? = some loc →
      ∃ entry ∈ path, loc = entry ++ names.take (i + 1)
  | [], path, i, spec, loc, h, _ => by simp [specs] at h
  | name :: names, path, i, spec, loc, h, hloc => by
    unfold specs at h
    cases hfound : findSpec t [] name path with
    | none => simp [hfound] at h
    | some s =>
      rw [hfound] at h
      have hon := findSpec_spec (List.Subset.refl path) (fun p hp => by cases hp) hfound
      cases i with
      | zero =>
        obtain rfl : s = spec := by simpa using h
        cases hon with
        | package he hf => exact ⟨_, he, by simpa [Spec.location?] using hloc.symm⟩
        | moduleFile he hi hf => exact ⟨_, he, by simpa [Spec.location?] using hloc.symm⟩
        | directories hp => cases hloc
      | succ i =>
        obtain ⟨entry, he, rfl⟩ := specs_location (i := i) (by simpa using h) hloc
        cases hon with
        | package he' hf =>
          obtain rfl := List.mem_singleton.1 he
          exact ⟨_, he', by simp⟩
        | moduleFile he' hi hf => cases he
        | directories hp =>
          obtain ⟨e, hep, rfl⟩ := hp entry he
          exact ⟨e, hep, by simp⟩

/-- **The files found for one name** lie under one entry: where a prefix is found
    in a file, every longer prefix found in a file is under the same entry, and
    the shorter one is a package. -/
theorem specs_located : ∀ {names : List Str} {path : List Path} {i j : ℕ} {s s' : Spec} {loc loc' : Path},
    (specs t path names)[i]? = some s → s.location? = some loc →
    (specs t path names)[j]? = some s' → s'.location? = some loc' → i < j →
      s.isPackage = true ∧ ∃ entry ∈ path, loc = entry ++ names.take (i + 1) ∧
        loc' = entry ++ names.take (j + 1)
  | [], path, i, j, s, s', loc, loc', h, _, _, _, _ => by simp [specs] at h
  | name :: names, path, i, j, s, s', loc, loc', h, hloc, h', hloc', hij => by
    obtain ⟨j, rfl⟩ : ∃ k, j = k + 1 := ⟨j - 1, by omega⟩
    unfold specs at h h'
    cases hfound : findSpec t [] name path with
    | none => simp [hfound] at h
    | some u =>
      rw [hfound] at h h'
      have hon := findSpec_spec (List.Subset.refl path) (fun p hp => by cases hp) hfound
      have h' : (specs t u.searchPath names)[j]? = some s' := by simpa using h'
      cases i with
      | zero =>
        obtain rfl : u = s := by simpa using h
        obtain ⟨entry, he, rfl⟩ := specs_location h' hloc'
        cases hon with
        | package he' hf =>
          obtain rfl := List.mem_singleton.1 he
          exact ⟨rfl, _, he', by simpa [Spec.location?] using hloc.symm, by simp⟩
        | moduleFile he' hi hf => cases he
        | directories hp => cases hloc
      | succ i =>
        obtain ⟨hpk, entry, he, rfl, rfl⟩ := specs_located (i := i) (by simpa using h) hloc h' hloc'
          (by omega)
        refine ⟨hpk, ?_⟩
        cases hon with
        | package he' hf =>
          obtain rfl := List.mem_singleton.1 he
          exact ⟨_, he', by simp, by simp⟩
        | moduleFile he' hi hf => cases he
        | directories hp =>
          obtain ⟨e, hep, rfl⟩ := hp entry he
          exact ⟨e, hep, by simp, by simp⟩

/-- What is found for a prefix is on the tree, at its location. -/
theorem specs_foundOn : ∀ {names : List Str} {path : List Path} {i : ℕ} {spec : Spec},
    (specs t path names)[i]? = some spec → ∃ path' name, FoundOn t path' name spec
  | [], path, i, spec, h => by simp [specs] at h
  | name :: names, path, i, spec, h => by
    unfold specs at h
    cases hfound : findSpec t [] name path with
    | none => simp [hfound] at h
    | some s =>
      rw [hfound] at h
      cases i with
      | zero =>
        obtain rfl : s = spec := by simpa using h
        exact ⟨path, name, findSpec_spec (List.Subset.refl path) (fun p hp => by cases hp) hfound⟩
      | succ i => exact specs_foundOn (i := i) (by simpa using h)

end

/-! ## Running modules -/

/-- A module that runs; `name` is empty for the script, which has no package. -/
structure Module where
  name : List Str
  file : Path
  isPackage : Bool
  deriving DecidableEq

/-- `__package__`. -/
def Module.package (m : Module) : List Str := if m.isPackage then m.name else m.name.dropLast

/-- The module of the script. -/
def Module.script (path : Path) : Module := ⟨[], path, false⟩

/-- An interpreter: the tree, the parser, `sys.path`, and the `__all__` that a
    module may have. -/
structure Interpreter where
  tree : FileTree
  parser : PythonParser
  sysPath : List Path
  dunderAll : List Str → List Str

namespace Interpreter
variable (I : Interpreter)

/-- The absolute name of the module of a `from` import; a relative one must stay
    within the package. -/
def absoluteName (m : Module) : FromModule → Option (List Str)
  | .absolute module => some (splitDots module)
  | .relative walkUp module =>
    if walkUp < m.package.length then
      some (m.package.take (m.package.length - walkUp) ++ (module.map splitDots).getD [])
    else none

/-- The names that an import statement of `m` may import. -/
def statementNames (m : Module) : Ast → List (List Str)
  | .imports _ names => names.map fun imported => splitDots imported.name
  | .importFrom _ module names =>
    match absoluteName m module with
    | none => []
    | some base => base :: names.flatMap fun imported =>
        if imported.name = py "*" then (I.dunderAll base).map fun sub => base ++ splitDots sub
        else [base ++ splitDots imported.name]
  | _ => []

/-- The names that a module may import. -/
def importedNames (m : Module) : List (List Str) :=
  match I.tree.readBytes m.file with
  | .error _ => []
  | .ok source =>
    match I.parser.parseBytes source with
    | .error _ => []
    | .ok tree => tree.nodes.flatMap (I.statementNames m)

/-- A load: the name imported, how many of its components are loaded with this
    one, and what was found for them. -/
structure Load where
  name : List Str
  index : ℕ
  spec : Spec
  file : Path

def Load.module (load : Load) : Module := ⟨load.name.take (load.index + 1), load.file, load.spec.isPackage⟩

/-- With the modules `ms` running, one of them causes this load: the prefix has
    not been loaded, and those before it have. -/
structure Loads (ms : List Module) (load : Load) : Prop where
  imported : ∃ m ∈ ms, load.name ∈ I.importedNames m
  found : (specs I.tree I.sysPath load.name)[load.index]? = some load.spec
  file : load.spec.file? = some load.file
  fresh : load.module.name ∉ ms.map Module.name
  ancestors : ∀ i < load.index, ∀ spec, (specs I.tree I.sysPath load.name)[i]? = some spec →
    spec.file? ≠ none → load.name.take (i + 1) ∈ ms.map Module.name

/-- The steps of a run whose loads meet a condition. -/
def Step (C : List Module → Load → Prop) (ms ms' : List Module) : Prop :=
  ∃ load, I.Loads ms load ∧ C ms load ∧ ms' = ms ++ [load.module]

/-- The runs from a script whose loads meet a condition. -/
def Runs (C : List Module → Load → Prop) (script : Path) (ms : List Module) : Prop :=
  Relation.ReflTransGen (I.Step C) [Module.script script] ms

end Interpreter

end ContinuoRuntime
