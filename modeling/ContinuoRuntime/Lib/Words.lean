/-
  Words: the maximal runs of a list that hold no separator.

  * `Layout p ws s`: the list `s` writes the words `ws`, with a gap of separators
    between any two, and maybe at either end;
  * `layout_iff`: the words of `s` are `ws` exactly if `s` lays out `ws`.
-/
import Mathlib

namespace ContinuoRuntime

variable {α : Type} (p : α → Bool)

/-- The maximal nonempty runs of elements that are not separators. -/
def words (s : List α) : List (List α) := (s.splitOnP p).filter (· ≠ [])

/-- A nonempty run without separators. -/
def IsRun (w : List α) : Prop := w ≠ [] ∧ ∀ c ∈ w, p c = false

/-- Nothing, or a separator first. -/
def GapStart (s : List α) : Prop := ∀ c ∈ s.head?, p c = true

/-- `s` writes the words `ws`. -/
inductive Layout : List (List α) → List α → Prop
  | nil : Layout [] []
  | gap {ws : List (List α)} {s : List α} (c : α) : p c = true → Layout ws s → Layout ws (c :: s)
  | word {ws : List (List α)} {s : List α} (w : List α) : IsRun p w → GapStart p s → Layout ws s →
      Layout (w :: ws) (w ++ s)

variable {p}

/-- The pieces of a text hold no separator. -/
theorem of_mem_splitOnP : ∀ {s w : List α}, w ∈ s.splitOnP p → ∀ c ∈ w, p c = false
  | [], w, hw, c, hc => by
    rw [List.splitOnP_nil, List.mem_singleton] at hw
    exact absurd hc (by simp [hw])
  | a :: s, w, hw, c, hc => by
    rw [List.splitOnP_cons_eq_if_modifyHead] at hw
    split_ifs at hw with ha
    · rcases List.mem_cons.1 hw with rfl | hw
      · cases hc
      · exact of_mem_splitOnP hw c hc
    · obtain ⟨v, vs, hvs⟩ := List.exists_cons_of_ne_nil (List.splitOnP_ne_nil p s)
      have hpiece : ∀ {u}, u ∈ v :: vs → ∀ d ∈ u, p d = false := fun hu =>
        of_mem_splitOnP (hvs ▸ hu)
      rw [hvs, List.modifyHead_cons] at hw
      rcases List.mem_cons.1 hw with rfl | hw
      · rcases List.mem_cons.1 hc with rfl | hc
        · simpa using ha
        · exact hpiece (by simp) c hc
      · exact hpiece (by simp [hw]) c hc


theorem splitOnP_run {w s : List α} (hw : ∀ c ∈ w, p c = false) (hs : GapStart p s) :
    ∃ us, s.splitOnP p = [] :: us ∧ (w ++ s).splitOnP p = w :: us := by
  induction w with
  | nil =>
    cases s with
    | nil => exact ⟨[], by simp, by simp⟩
    | cons c s => exact ⟨s.splitOnP p, by simp [List.splitOnP_cons_eq_if_modifyHead, hs c rfl],
        by simp [List.splitOnP_cons_eq_if_modifyHead, hs c rfl]⟩
  | cons a w ih =>
    obtain ⟨us, hus, hws⟩ := ih fun c hc => hw c (by simp [hc])
    refine ⟨us, hus, ?_⟩
    rw [List.cons_append, List.splitOnP_cons_eq_if_modifyHead, hw a (by simp), hws]
    rfl

theorem words_gap {c : α} (hc : p c = true) (s : List α) : words p (c :: s) = words p s := by
  simp [words, List.splitOnP_cons_eq_if_modifyHead, hc]

theorem words_run {w s : List α} (hw : IsRun p w) (hs : GapStart p s) :
    words p (w ++ s) = w :: words p s := by
  obtain ⟨us, hus, hws⟩ := splitOnP_run hw.2 hs
  rw [words, words, hus, hws]
  simp [hw.1]

theorem Layout.words_eq {ws : List (List α)} {s : List α} (h : Layout p ws s) : words p s = ws := by
  induction h with
  | nil => simp [words]
  | gap c hc _ ih => rw [words_gap hc, ih]
  | word w hw hs _ ih => rw [words_run hw hs, ih]

/-- Every list is laid out by its words. -/
theorem layout_words : ∀ s : List α, Layout p (words p s) s
  | [] => by simpa [words] using Layout.nil (p := p)
  | a :: s => by
    by_cases ha : p a = true
    · rw [words_gap ha]
      exact .gap a ha (layout_words s)
    · -- the run that starts here, and what is left after it
      have hrun : IsRun p (a :: s.takeWhile fun c => !p c) := by
        refine ⟨by simp, fun c hc => ?_⟩
        rcases List.mem_cons.1 hc with rfl | hc
        · simpa using ha
        · simpa using List.mem_takeWhile_imp hc
      have hgap : GapStart p (s.dropWhile fun c => !p c) := by
        intro c hc
        by_contra hpc
        have := List.head?_dropWhile_not (fun c => !p c) s
        rw [Option.mem_def.1 hc] at this
        simp [hpc] at this
      have hsplit : a :: s = (a :: s.takeWhile fun c => !p c) ++ s.dropWhile fun c => !p c := by
        rw [List.cons_append, List.takeWhile_append_dropWhile]
      rw [hsplit, words_run hrun hgap]
      exact .word _ hrun hgap (layout_words _)
  termination_by s => s.length
  decreasing_by
    · exact Nat.lt_succ_self _
    · exact Nat.lt_succ_of_le (List.length_dropWhile_le _ _)

theorem layout_iff {ws : List (List α)} {s : List α} : Layout p ws s ↔ words p s = ws :=
  ⟨Layout.words_eq, fun h => h ▸ layout_words s⟩

theorem Layout.runs {ws : List (List α)} {s : List α} (h : Layout p ws s) : ∀ w ∈ ws, IsRun p w := by
  induction h with
  | nil => simp
  | gap _ _ _ ih => exact ih
  | word w hw _ _ ih => exact List.forall_mem_cons.2 ⟨hw, ih⟩

/-- The words on one line, each after the separator `b`. -/
def oneLine (b : α) (ws : List (List α)) : List α := ws.flatMap fun w => b :: w

theorem gapStart_cons {b : α} (hb : p b = true) (s : List α) : GapStart p (b :: s) := by
  intro c hc; cases hc; exact hb

theorem gapStart_oneLine {b : α} (hb : p b = true) (ws : List (List α)) :
    GapStart p (oneLine b ws) := by
  cases ws with
  | nil => intro c hc; cases hc
  | cons w ws => exact gapStart_cons hb _

theorem layout_oneLine {b : α} (hb : p b = true) : ∀ {ws : List (List α)}, (∀ w ∈ ws, IsRun p w) →
    Layout p ws (oneLine b ws)
  | [], _ => .nil
  | w :: ws, h => by
    rw [oneLine, List.flatMap_cons, List.cons_append]
    exact .gap b hb (.word w (h w (by simp)) (gapStart_oneLine hb ws)
      (layout_oneLine hb fun v hv => h v (by simp [hv])))

end ContinuoRuntime
