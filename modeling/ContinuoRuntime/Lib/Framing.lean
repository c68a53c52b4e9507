/-
  Blocks of lines between two marker lines.

  A text is cut into lines at the characters a reader takes for line breaks;
  the block of a text is what stands between the first opening marker line and
  the next closing one.

  * `framed_append`: lines without the opening marker do not disturb a block;
  * `lines_append_frame`: the lines of a framed body after complete lines;
  * `framed_lines_append`: **reading a block back**, exactly after complete lines.
-/
import Mathlib.Data.List.Induction
import Mathlib.Tactic.ByContra

namespace ContinuoRuntime

/-! ## Lines -/

section
variable {α : Type} (isBreak : α → Bool)

/-- The lines of a text. -/
def lines (t : List α) : List (List α) := t.splitOnP isBreak

/-- The text ends where a line ends: it is empty, or its last character is a
    line break. -/
def Complete (t : List α) : Prop := ∀ c ∈ t.getLast?, isBreak c = true

/-- No character of the text is a line break. -/
def Unbroken (t : List α) : Prop := ∀ c ∈ t, isBreak c = false

variable {isBreak}

theorem lines_of_unbroken {t : List α} (h : Unbroken isBreak t) : lines isBreak t = [t] :=
  List.splitOnP_eq_singleton h

theorem lines_unbroken_append {l : List α} (hl : Unbroken isBreak l) {c : α}
    (hc : isBreak c = true) (t : List α) :
    lines isBreak (l ++ c :: t) = l :: lines isBreak t :=
  List.splitOnP_append_cons_of_forall_mem hl c hc t

/-- Complete lines, without the empty line after the last line break. -/
theorem exists_lines_append_of_complete {t : List α} (h : Complete isBreak t) :
    ∃ ls, (∀ l ∈ ls, l ∈ lines isBreak t) ∧
      ∀ u, lines isBreak (t ++ u) = ls ++ lines isBreak u := by
  rcases List.eq_nil_or_concat t with rfl | ⟨t, c, rfl⟩
  · exact ⟨[], fun _ hl => absurd hl List.not_mem_nil, fun u => rfl⟩
  · have hc : isBreak c = true := h c (by rw [List.concat_eq_append, List.getLast?_concat]; rfl)
    have happ : ∀ u, lines isBreak (t.concat c ++ u) = lines isBreak t ++ lines isBreak u := by
      intro u
      rw [List.concat_eq_append, List.append_assoc, List.singleton_append]
      exact List.splitOnP_append_cons t u hc
    refine ⟨lines isBreak t, fun l hl => ?_, happ⟩
    have := happ []
    rw [List.append_nil] at this
    rw [this]
    exact List.mem_append_left _ hl

/-- A text is complete lines and the beginning of one more line. -/
theorem exists_complete_append (t : List α) :
    ∃ t' l, t = t' ++ l ∧ Complete isBreak t' ∧ Unbroken isBreak l := by
  induction t using List.reverseRecOn with
  | nil => exact ⟨[], [], rfl, fun c hc => (by cases hc), fun c hc => absurd hc List.not_mem_nil⟩
  | append_singleton t c ih =>
    obtain ⟨t', l, rfl, ht', hl⟩ := ih
    cases hc : isBreak c with
    | true =>
      refine ⟨t' ++ l ++ [c], [], (List.append_nil _).symm, fun d hd => ?_,
        fun d hd => absurd hd List.not_mem_nil⟩
      rw [List.getLast?_concat] at hd
      cases hd
      exact hc
    | false =>
      refine ⟨t', l ++ [c], List.append_assoc .., ht', fun d hd => ?_⟩
      rcases List.mem_append.1 hd with hd | hd
      · exact hl d hd
      · rw [List.mem_singleton.1 hd]
        exact hc

end

/-! ## Blocks -/

section
variable {β : Type} [DecidableEq β] (opening closing : β)

/-- The block between the first opening marker and the next closing one. -/
def framed (ls : List β) : Option (List β) :=
  match ls.dropWhile (· ≠ opening) with
  | [] => none
  | _ :: rest => if closing ∈ rest then some (rest.takeWhile (· ≠ closing)) else none

variable {opening closing}

/-- Lines before the opening marker do not count. -/
theorem framed_append {ls : List β} (h : opening ∉ ls) (rest : List β) :
    framed opening closing (ls ++ rest) = framed opening closing rest := by
  have hdrop : (ls ++ rest).dropWhile (· ≠ opening) = rest.dropWhile (· ≠ opening) :=
    List.dropWhile_append_of_pos fun l hl => by
      rw [decide_eq_true_eq]
      rintro rfl
      exact h hl
  rw [framed, framed, hdrop]

/-- A block is read back, whatever follows it. -/
theorem framed_block {body : List β} (h : closing ∉ body) (rest : List β) :
    framed opening closing (opening :: (body ++ closing :: rest)) = some body := by
  have hdrop : (opening :: (body ++ closing :: rest)).dropWhile (· ≠ opening)
      = opening :: (body ++ closing :: rest) := by
    rw [List.dropWhile_cons, if_neg (by simp)]
  have htake : (body ++ closing :: rest).takeWhile (· ≠ closing) = body := by
    rw [List.takeWhile_append_of_pos fun l hl => by
      rw [decide_eq_true_eq]
      rintro rfl
      exact h hl, List.takeWhile_cons, if_neg (by simp), List.append_nil]
  rw [framed, hdrop]
  simp only [List.mem_append, List.mem_cons, true_or, or_true, ↓reduceIte, htake]

/-- Without an opening marker there is no block. -/
theorem framed_eq_none {ls : List β} (h : opening ∉ ls) : framed opening closing ls = none := by
  have := @framed_append _ _ opening closing ls h []
  rwa [List.append_nil] at this

end

/-! ## Reading a block back -/

section
variable {α : Type} {isBreak : α → Bool} {b e body t rest : List α} {nl : α}

/-- The text of a block: the body on one line between the marker lines. -/
def frame (nl : α) (b e body : List α) : List α := b ++ nl :: (body ++ nl :: e)

/-- The text after a block starts a new line, or there is none. -/
def StartsLine (isBreak : α → Bool) (rest : List α) : Prop := ∀ c ∈ rest.head?, isBreak c = true

theorem lines_frame (hnl : isBreak nl = true) (hb : Unbroken isBreak b)
    (hbody : Unbroken isBreak body) (he : Unbroken isBreak e) (hrest : StartsLine isBreak rest) :
    ∃ ls, lines isBreak (frame nl b e body ++ rest) = b :: ([body] ++ e :: ls) := by
  have hrest' : ∃ ls, lines isBreak (e ++ rest) = e :: ls := by
    cases rest with
    | nil => exact ⟨[], by rw [List.append_nil, lines_of_unbroken he]⟩
    | cons c rest => exact ⟨_, lines_unbroken_append he (hrest c rfl) rest⟩
  obtain ⟨ls, hls⟩ := hrest'
  refine ⟨ls, ?_⟩
  rw [frame, List.append_assoc, List.cons_append, lines_unbroken_append hb hnl,
    List.append_assoc, List.cons_append, lines_unbroken_append hbody hnl, hls, List.singleton_append]

variable [DecidableEq α]

/-- **A block is read back** from behind complete lines, none of which is the
    opening marker. -/
theorem framed_lines_append (hnl : isBreak nl = true) (hb : Unbroken isBreak b)
    (hbody : Unbroken isBreak body) (he : Unbroken isBreak e) (hne : body ≠ e)
    (hrest : StartsLine isBreak rest) (ht : Complete isBreak t) (hmark : b ∉ lines isBreak t) :
    framed b e (lines isBreak (t ++ (frame nl b e body ++ rest))) = some [body] := by
  obtain ⟨ls, hmem, happ⟩ := exists_lines_append_of_complete ht
  obtain ⟨ls', hframe⟩ := lines_frame hnl hb hbody he hrest
  rw [happ, hframe, framed_append fun hm => hmark (hmem b hm)]
  exact framed_block (by simpa using Ne.symm hne) ls'

/-- Behind a line that is not complete the opening marker is not found, and
    there is no block. -/
theorem framed_lines_append_of_not_complete (hnl : isBreak nl = true) (hb : Unbroken isBreak b)
    (hbody : Unbroken isBreak body) (he : Unbroken isBreak e) (hne : b ≠ body) (hne' : b ≠ e)
    (ht : ¬ Complete isBreak t) (hmark : b ∉ lines isBreak t) :
    framed b e (lines isBreak (t ++ frame nl b e body)) = none := by
  obtain ⟨t', l, rfl, ht', hlb⟩ := @exists_complete_append _ isBreak t
  have hl : l ≠ [] := by
    rintro rfl
    rw [List.append_nil] at ht
    exact ht ht'
  obtain ⟨ls, -, happ⟩ := exists_lines_append_of_complete ht'
  have hlast : lines isBreak (l ++ frame nl b e body) = (l ++ b) :: [body, e] := by
    have hub : Unbroken isBreak (l ++ b) := fun c hc =>
      (List.mem_append.1 hc).elim (hlb c) (hb c)
    rw [frame, ← List.append_assoc, lines_unbroken_append hub hnl, lines_unbroken_append hbody hnl,
      lines_of_unbroken he]
  rw [happ] at hmark
  rw [List.append_assoc, happ, hlast, framed_append fun hm => hmark (List.mem_append_left _ hm)]
  refine framed_eq_none ?_
  simp only [List.mem_cons, List.not_mem_nil, or_false, not_or]
  exact ⟨fun h => hl (List.append_left_eq_self.1 h.symm), hne, hne'⟩

end

end ContinuoRuntime
