/-
  Two ways to write a text inside another, over any alphabet, and how they are read.

  * `double`: the quote sign is written twice; `readDoubled` reads up to a quote
    sign that stands alone (`readDoubled_double`);
  * `escaped`: an escape sign stands before every special character; `readEscaped`
    reads up to a stop sign that is not escaped (`readEscaped_escaped`).
-/
import Mathlib.Data.List.Basic

namespace ContinuoRuntime.Quoting

variable {α : Type} [DecidableEq α]

/-! ## Doubled quotes -/

/-- The text with every quote sign `q` doubled. -/
def double (q : α) (s : List α) : List α := s.flatMap fun c => if c = q then [q, q] else [c]

/-- The text up to the quote sign that ends it, and what follows. -/
def readDoubled (q : α) : List α → Option (List α × List α)
  | [] => none
  | [c] => if c = q then some ([], []) else none
  | c :: d :: rest =>
    if c = q then
      if d = q then (readDoubled q rest).map fun p => (q :: p.1, p.2) else some ([], d :: rest)
    else (readDoubled q (d :: rest)).map fun p => (c :: p.1, p.2)

theorem readDoubled_cons {q c : α} (hc : c ≠ q) (rest : List α) :
    readDoubled q (c :: rest) = (readDoubled q rest).map fun p => (c :: p.1, p.2) := by
  cases rest with
  | nil => simp [readDoubled, hc]
  | cons d rest => rw [readDoubled, if_neg hc]

theorem readDoubled_end {q : α} {rest : List α} (h : rest.head? ≠ some q) :
    readDoubled q (q :: rest) = some ([], rest) := by
  cases rest with
  | nil => rw [readDoubled, if_pos rfl]
  | cons d rest =>
    have hd : d ≠ q := fun heq => h (by rw [heq]; rfl)
    rw [readDoubled, if_pos rfl, if_neg hd]

/-- **Doubled quotes** are read back. -/
theorem readDoubled_double {q : α} {rest : List α} (h : rest.head? ≠ some q) (s : List α) :
    readDoubled q (double q s ++ q :: rest) = some (s, rest) := by
  induction s with
  | nil => exact readDoubled_end h
  | cons c s ih =>
    rw [double, List.flatMap_cons, List.append_assoc, ← double]
    by_cases hc : c = q
    · subst hc
      rw [if_pos rfl, List.cons_append, List.singleton_append, readDoubled, if_pos rfl, if_pos rfl, ih]
      rfl
    · rw [if_neg hc, List.singleton_append, readDoubled_cons hc, ih]
      rfl

/-! ## Escapes -/

/-- The text with the escape sign before every special character. -/
def escaped (esc : α) (special : α → Bool) (s : List α) : List α :=
  s.flatMap fun c => if special c = true then [esc, c] else [c]

/-- The text up to a stop sign that is not escaped, and the rest, which starts with
    it. -/
def readEscaped (esc : α) (stop : α → Bool) : List α → List α × List α
  | [] => ([], [])
  | [c] => if stop c = true then ([], [c]) else if c = esc then ([], []) else ([c], [])
  | c :: d :: rest =>
    if stop c = true then ([], c :: d :: rest)
    else if c = esc then
      let p := readEscaped esc stop rest
      (d :: p.1, p.2)
    else
      let p := readEscaped esc stop (d :: rest)
      (c :: p.1, p.2)

section
variable {esc : α} {stop special : α → Bool}

theorem readEscaped_stop {c : α} (hc : stop c = true) (rest : List α) :
    readEscaped esc stop (c :: rest) = ([], c :: rest) := by
  cases rest with
  | nil => rw [readEscaped, if_pos hc]
  | cons d rest => rw [readEscaped, if_pos hc]

theorem readEscaped_cons {c : α} (hc : stop c = false) (hesc : c ≠ esc) (rest : List α) :
    readEscaped esc stop (c :: rest) =
      (c :: (readEscaped esc stop rest).1, (readEscaped esc stop rest).2) := by
  have hstop : ¬ stop c = true := by rw [hc]; exact Bool.false_ne_true
  cases rest with
  | nil => simp [readEscaped, hc, hesc]
  | cons d rest => rw [readEscaped, if_neg hstop, if_neg hesc]

/-- **Escaped text** is read back, if every stop sign and the escape sign are special. -/
theorem readEscaped_escaped (hesc : stop esc = false) (hself : special esc = true)
    (hspecial : ∀ c, stop c = true → special c = true) {rest : List α}
    (hrest : ∀ c ∈ rest.head?, stop c = true) (s : List α) :
    readEscaped esc stop (escaped esc special s ++ rest) = (s, rest) := by
  induction s with
  | nil =>
    cases rest with
    | nil => rfl
    | cons c rest => exact readEscaped_stop (hrest c rfl) rest
  | cons c s ih =>
    rw [escaped, List.flatMap_cons, List.append_assoc, ← escaped]
    by_cases hc : special c = true
    · have hstop : ¬ stop esc = true := by rw [hesc]; exact Bool.false_ne_true
      rw [if_pos hc, List.cons_append, List.singleton_append, readEscaped, if_neg hstop, if_pos rfl, ih]
    · have hstop : stop c = false := by
        by_contra h
        exact hc (hspecial c (by simpa using h))
      have hne : c ≠ esc := fun heq => hc (heq ▸ hself)
      rw [if_neg hc, List.singleton_append, readEscaped_cons hstop hne, ih]

omit [DecidableEq α] in
/-- A text without special characters needs no escapes. -/
theorem escaped_of_plain {s : List α} (h : ∀ c ∈ s, special c = false) : escaped esc special s = s := by
  induction s with
  | nil => rfl
  | cons c s ih =>
    have hc : ¬ special c = true := by rw [h c List.mem_cons_self]; exact Bool.false_ne_true
    rw [escaped, List.flatMap_cons, if_neg hc, ← escaped, ih fun d hd => h d (List.mem_cons_of_mem _ hd)]
    rfl

end

end ContinuoRuntime.Quoting
