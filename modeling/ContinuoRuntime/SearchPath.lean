/-
  `ensure_import_paths` (`harness.py`): the repository root and the script's
  directory are moved to the front of `sys.path`, a list of any entries.

  * `count_otherEntries`, `length_otherEntries`: what becomes of the other entries;
  * `ensureImportPaths_order`: **the search order** after a call, what it keeps, and
    that a second call changes nothing;
  * `searchRoots_prefix`: the search roots of the closure come first.
-/
import ContinuoRuntime.ClosureRuns

namespace ContinuoRuntime

section
variable {α : Type} [DecidableEq α]

/-! ## One entry -/

theorem count_erase (path : List α) (entry x : α) :
    path.count x = (path.erase entry).count x + if x = entry ∧ x ∈ path then 1 else 0 := by
  rw [List.count_erase]
  by_cases hx : x = entry
  · subst hx
    by_cases hmem : x ∈ path
    · have hpos := List.count_pos_iff.2 hmem
      simp only [hmem, beq_self_eq_true, and_self, ↓reduceIte]
      omega
    · simp [List.count_eq_zero_of_not_mem hmem, hmem]
  · have hne : (entry == x) = false := beq_eq_false_iff_ne.2 fun h => hx h.symm
    simp [hx, hne]

/-- A list without the first occurrence of an entry. -/
theorem length_erase (path : List α) (entry : α) :
    (path.erase entry).length + 1 = path.length + if entry ∈ path then 0 else 1 := by
  split
  · next h =>
    have hpos := List.length_pos_of_mem h
    rw [List.length_erase_of_mem h]
    omega
  · next h => rw [List.erase_of_not_mem h]

/-! ## Both roots -/

/-- The entries that come first: both roots, or one if they are equal. -/
def leadingEntries (repoRoot scriptDir : α) : List α :=
  if scriptDir = repoRoot then [repoRoot] else [repoRoot, scriptDir]

/-- The other entries: one occurrence of each root is gone. -/
def otherEntries (repoRoot scriptDir : α) (sysPath : List α) : List α :=
  if scriptDir = repoRoot then sysPath.erase repoRoot else (sysPath.erase scriptDir).erase repoRoot

theorem ensureImportPaths_eq (repoRoot scriptDir : α) (sysPath : List α) :
    ensureImportPaths repoRoot scriptDir sysPath =
      leadingEntries repoRoot scriptDir ++ otherEntries repoRoot scriptDir sysPath := by
  unfold ensureImportPaths leadingEntries otherEntries
  rw [List.foldl_cons, List.foldl_cons, List.foldl_nil]
  split
  · next h => rw [h, List.erase_cons_head, List.singleton_append]
  · next h =>
    rw [List.erase_cons_tail (by simpa using h)]
    rfl

/-- A second call finds the roots at the front. -/
theorem ensureImportPaths_leading (repoRoot scriptDir : α) (rest : List α) :
    ensureImportPaths repoRoot scriptDir (leadingEntries repoRoot scriptDir ++ rest) =
      leadingEntries repoRoot scriptDir ++ rest := by
  rw [ensureImportPaths_eq]
  unfold otherEntries leadingEntries
  split
  · simp only [List.singleton_append, List.erase_cons_head]
  · next h =>
    have hne : ¬ (repoRoot == scriptDir) = true := by simpa using fun heq => h heq.symm
    simp only [List.cons_append, List.nil_append, List.erase_cons_tail hne, List.erase_cons_head]

theorem otherEntries_sublist (repoRoot scriptDir : α) (sysPath : List α) :
    (otherEntries repoRoot scriptDir sysPath).Sublist sysPath := by
  unfold otherEntries
  split
  · exact List.erase_sublist
  · exact List.erase_sublist.trans List.erase_sublist

/-- Every entry keeps its occurrences, but for one of each root. -/
theorem count_otherEntries (repoRoot scriptDir : α) (sysPath : List α) (x : α) :
    sysPath.count x = (otherEntries repoRoot scriptDir sysPath).count x +
      if x ∈ leadingEntries repoRoot scriptDir ∧ x ∈ sysPath then 1 else 0 := by
  unfold otherEntries leadingEntries
  split
  · simpa using count_erase sysPath repoRoot x
  · next h =>
    rw [count_erase sysPath scriptDir x, count_erase (sysPath.erase scriptDir) repoRoot x]
    by_cases hscript : x = scriptDir
    · subst hscript
      simp [h]
    · have hmem : x ∈ sysPath.erase scriptDir ↔ x ∈ sysPath := List.mem_erase_of_ne hscript
      simp [hscript, hmem]

theorem length_otherEntries (repoRoot scriptDir : α) (sysPath : List α) :
    (leadingEntries repoRoot scriptDir).length + (otherEntries repoRoot scriptDir sysPath).length =
      sysPath.length + ((leadingEntries repoRoot scriptDir).filter (· ∉ sysPath)).length := by
  unfold otherEntries leadingEntries
  split
  · have hone := length_erase sysPath repoRoot
    by_cases hr : repoRoot ∈ sysPath <;> simp only [hr, ↓reduceIte] at hone <;> simp [hr] <;> omega
  · next h =>
    have hscript := length_erase sysPath scriptDir
    have hrepo := length_erase (sysPath.erase scriptDir) repoRoot
    simp only [List.mem_erase_of_ne (fun heq : repoRoot = scriptDir => h heq.symm)] at hrepo
    by_cases hr : repoRoot ∈ sysPath <;> by_cases hs : scriptDir ∈ sysPath <;>
      simp only [hr, hs, ↓reduceIte] at hscript hrepo <;>
      simp [hr, hs] <;> omega

/-- **The search order**: the roots come first; the other entries are those of before
    in their order, each as many times but for one occurrence of each root; a second
    call changes nothing; and the path grows by the roots that were absent. -/
theorem ensureImportPaths_order (repoRoot scriptDir : α) (sysPath : List α) :
    ∃ rest, ensureImportPaths repoRoot scriptDir sysPath = leadingEntries repoRoot scriptDir ++ rest ∧
      rest.Sublist sysPath ∧
      (∀ x, sysPath.count x =
        rest.count x + if x ∈ leadingEntries repoRoot scriptDir ∧ x ∈ sysPath then 1 else 0) ∧
      ensureImportPaths repoRoot scriptDir (ensureImportPaths repoRoot scriptDir sysPath) =
        ensureImportPaths repoRoot scriptDir sysPath ∧
      (ensureImportPaths repoRoot scriptDir sysPath).length =
        sysPath.length + ((leadingEntries repoRoot scriptDir).filter (· ∉ sysPath)).length := by
  refine ⟨otherEntries repoRoot scriptDir sysPath, ensureImportPaths_eq _ _ _, otherEntries_sublist _ _ _,
    count_otherEntries _ _ _, ?_, ?_⟩
  · conv_lhs => rw [ensureImportPaths_eq repoRoot scriptDir sysPath, ensureImportPaths_leading]
    exact (ensureImportPaths_eq _ _ _).symm
  · rw [ensureImportPaths_eq, List.length_append]
    exact length_otherEntries _ _ _

/-- **The closure's search roots** are the first entries. -/
theorem searchRoots_prefix {text : Path → α} (htext : Function.Injective text) (repoRoot scriptDir : Path)
    (sysPath : List α) : (searchRoots repoRoot scriptDir).map text <+:
      ensureImportPaths (text repoRoot) (text scriptDir) sysPath := by
  have hroots : (searchRoots repoRoot scriptDir).map text = leadingEntries (text repoRoot) (text scriptDir) := by
    unfold searchRoots leadingEntries
    by_cases h : scriptDir = repoRoot
    · rw [if_pos h, if_pos (congrArg text h)]
      rfl
    · rw [if_neg h, if_neg (fun heq => h (htext heq))]
      rfl
  rw [hroots, ensureImportPaths_eq]
  exact List.prefix_append _ _

/-- `PYTHONPATH` has put the repository root behind another entry. -/
example : ensureImportPaths (py "/app") (py "/app/scripts") [py "/usr/bin", py "/app", py "/usr/lib"] =
    [py "/app", py "/app/scripts", py "/usr/bin", py "/usr/lib"] := by decide +kernel

end

end ContinuoRuntime
