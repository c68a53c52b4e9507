/-
  A file tree without symbolic links, and the part of `pathlib` that the
  runtime applies to it.

  A path is the list of its components below the root of the file system.  On
  such a tree `Path.resolve` only removes `.` and `..`.
-/
import ContinuoRuntime.Python.Exc

namespace ContinuoRuntime

/-- An absolute path. -/
abbrev Path := List Str

/-- A file, or a directory with its entries. -/
inductive FileTree where
  | file (bytes : Bytes)
  | dir (entries : List (Str × FileTree))

namespace FileTree

/-- What is at a path. -/
def find : FileTree → Path → Option FileTree
  | t, [] => some t
  | .file _, _ :: _ => none
  | .dir entries, name :: p => (entries.lookup name).bind fun t => t.find p

/-- `path.is_file()`. -/
def isFile (t : FileTree) (p : Path) : Bool :=
  match t.find p with
  | some (.file _) => true
  | _ => false

/-- `path.is_dir()`. -/
def isDir (t : FileTree) (p : Path) : Bool :=
  match t.find p with
  | some (.dir _) => true
  | _ => false

/-- `str(path)`. -/
def pathText (p : Path) : Str := py "/" ++ [ch '/'].intercalate p

/-- `str(path)` of a path relative to another. -/
def relText (p : Path) : Str := if p = [] then py "." else [ch '/'].intercalate p

/-- `path.read_bytes()`. -/
def readBytes (t : FileTree) (p : Path) : Except Exc Bytes :=
  match t.find p with
  | some (.file bytes) => .ok bytes
  | some (.dir _) => .error (.text .osError (py "[Errno 21] Is a directory: '" ++ pathText p ++ py "'"))
  | none => .error (.text .osError (py "[Errno 2] No such file or directory: '" ++ pathText p ++ py "'"))

/-- `path.read_text(encoding="utf-8")`; `detail` is the text of a
    `UnicodeDecodeError`. -/
def readText (detail : Bytes → Str) (t : FileTree) (p : Path) : Except Exc Str :=
  match t.readBytes p with
  | .error exc => .error exc
  | .ok bytes => match utf8Decode bytes with
    | none => .error (.text .unicodeDecodeError (detail bytes))
    | some text => .ok (universalNewlines text)

mutual
/-- The paths of all files and directories below a directory. -/
def descendants : FileTree → List Path
  | .file _ => []
  | .dir entries => entryDescendants entries

def entryDescendants : List (Str × FileTree) → List Path
  | [] => []
  | (name, t) :: entries => [name] :: (descendants t).map (name :: ·) ++ entryDescendants entries
end

/-- `sorted(path.rglob("*.py"))`. -/
def pyFiles (t : FileTree) (p : Path) : List Path :=
  match t.find p with
  | none => []
  | some t => ((descendants t).filter fun q => (py ".py").isSuffixOf (q.getLast?.getD [])).map (p ++ ·)
      |>.insertionSort (· ≤ ·)

mutual
/-- The paths of all files. -/
def files : FileTree → List Path
  | .file _ => [[]]
  | .dir entries => entryFiles entries

def entryFiles : List (Str × FileTree) → List Path
  | [] => []
  | (name, t) :: entries => (files t).map (name :: ·) ++ entryFiles entries
end

theorem mem_entryFiles {name : Str} {t : FileTree} {p : Path} (hp : p ∈ t.files) :
    ∀ {entries : List (Str × FileTree)}, entries.lookup name = some t →
      name :: p ∈ entryFiles entries
  | (n, u) :: entries, h => by
    rw [List.lookup_cons] at h
    rw [entryFiles, List.mem_append, List.mem_map]
    split at h
    · next hn =>
      obtain rfl := eq_of_beq hn
      exact .inl ⟨p, Option.some.inj h ▸ hp, rfl⟩
    · exact .inr (mem_entryFiles hp h)

/-- Every file is listed. -/
theorem mem_files : ∀ {p : Path} {t : FileTree}, t.isFile p = true → p ∈ t.files
  | [], .file _, _ => by simp [files]
  | [], .dir _, h => by simp [isFile, find] at h
  | _ :: _, .file _, h => by simp [isFile, find] at h
  | name :: p, .dir entries, h => by
    rw [isFile, find] at h
    cases hl : entries.lookup name with
    | none => simp [hl] at h
    | some t =>
      rw [hl, Option.bind_some] at h
      exact mem_entryFiles (mem_files h) hl

end FileTree

/-- The file name of a regular package. -/
def initPy : Str := py "__init__.py"

/-! ## Paths -/

namespace Path

/-- `root.joinpath(*parts)`; an empty part adds nothing. -/
def joinpath (root : Path) (parts : List Str) : Path := root ++ parts.filter (· ≠ [])

/-- A last part that is not empty adds a component. -/
theorem joinpath_concat (root : Path) (parts : List Str) {name : Str} (hn : name ≠ []) :
    joinpath root (parts ++ [name]) = joinpath root parts ++ [name] := by
  simp [joinpath, List.filter_append, hn]

/-- A path between a root and a path joined to it is the root joined with some of
    the parts. -/
theorem exists_take_of_prefix {root p : Path} : ∀ {parts : List Str}, root <+: p →
    p <+: joinpath root parts → ∃ n ≤ parts.length, p = joinpath root (parts.take n) := by
  intro parts hroot hp
  obtain ⟨q, rfl⟩ := hroot
  have hq : q <+: parts.filter (· ≠ []) := (List.prefix_append_right_inj root).1 hp
  suffices h : ∃ n ≤ parts.length, q = (parts.take n).filter (· ≠ []) by
    obtain ⟨n, hn, rfl⟩ := h
    exact ⟨n, hn, rfl⟩
  clear hp
  induction parts generalizing q with
  | nil => exact ⟨0, le_rfl, by simpa using hq⟩
  | cons part parts ih =>
    by_cases hpart : part = []
    · obtain ⟨n, hn, rfl⟩ := ih q (by simpa [hpart] using hq)
      exact ⟨n + 1, by simpa using hn, by simp [hpart]⟩
    · rw [List.filter_cons_of_pos (by simpa using hpart)] at hq
      rcases List.prefix_cons_iff.1 hq with rfl | ⟨q, rfl, htail⟩
      · exact ⟨0, by simp, by simp⟩
      · obtain ⟨n, hn, rfl⟩ := ih q htail
        exact ⟨n + 1, by simpa using hn, by simp [hpart]⟩

/-- `path.stem`: a name up to its last dot, where leading dots do not count. -/
def stem (name : Str) : Str :=
  let rest := name.dropWhile (· = ch '.')
  if ch '.' ∈ rest then
    name.take (name.length - (rest.reverse.takeWhile (· ≠ ch '.')).length - 1)
  else name

/-- A name without a dot is its own stem. -/
theorem stem_of_notMem {name : Str} (h : ch '.' ∉ name) : stem name = name := by
  rw [stem, if_neg]
  exact fun hdot => h ((List.dropWhile_sublist _).subset hdot)

/-- `path.with_suffix(suffix)`. -/
def withSuffix (reprStr : Str → Str) (suffix : Str) (p : Path) : Except Exc Path :=
  match p.getLast? with
  | none => .error (.text .valueError (py "PosixPath(" ++ reprStr (FileTree.pathText p) ++
      py ") has an empty name"))
  | some name => .ok (p.dropLast ++ [stem name ++ suffix])

theorem withSuffix_concat (reprStr : Str → Str) (suffix : Str) (dir : Path) (name : Str) :
    withSuffix reprStr suffix (dir ++ [name]) = .ok (dir ++ [stem name ++ suffix]) := by
  rw [withSuffix, List.getLast?_concat, List.dropLast_concat]

/-- `path.relative_to(root)`. -/
def relativeTo (reprStr : Str → Str) (p root : Path) : Except Exc Path :=
  if root <+: p then .ok (p.drop root.length)
  else .error (.text .valueError (reprStr (FileTree.pathText p) ++ py " is not in the subpath of " ++
    reprStr (FileTree.pathText root)))

end Path

/-- `text.split("/")`. -/
def splitSlash (s : Str) : List Str := s.splitOn (ch '/')

/-- A character that no file name can hold: NUL, and the surrogates that the file
    system encoding does not use. -/
def unencodable (c : CodePoint) : Bool :=
  c.val = 0 || (isSurrogate c && !(0xDC80 ≤ c.val && c.val ≤ 0xDCFF))

/-- `(root / text).resolve()`, for a relative path `text`. -/
def Path.resolveFrom (root : Path) (text : Str) : Except Exc Path :=
  match text.find? unencodable with
  | some c =>
    if c.val = 0 then .error (.text .valueError (py "lstat: embedded null character in path"))
    else .error (.text .unicodeEncodeError (py "surrogates not allowed"))
  | none => .ok ((splitSlash text).foldl (fun p part =>
    if part = [] ∨ part = py "." then p else if part = py ".." then p.dropLast else p ++ [part]) root)

end ContinuoRuntime
