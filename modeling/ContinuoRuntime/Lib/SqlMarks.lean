/-
  SQL tokens with marks: characters that are tokens of their own wherever they
  stand in code, such as `;` and parentheses.

  * `tokens_trailing`: white space and marks at the end of a text add nothing to its
    tokens but marks;
  * `tokens_wrap_newline`, `tokens_wrap_mark`: a text between two others, with a
    newline or a mark after it, has its own tokens there, unless it ends in a
    `--` comment and no newline follows.
-/
import ContinuoRuntime.Lib.SqlLex

namespace ContinuoRuntime.SqlLex

/-- Outside quotes and comments, maybe after half a mark or a quote sign. -/
def Mode.closed : Mode → Bool
  | code | dash | slash | quoteEnd _ => true
  | _ => false

/-- Inside quotes or a block comment: a text cannot end here. -/
def Mode.opened : Mode → Bool
  | quote _ | block _ | blockStar _ | blockSlash _ => true
  | _ => false

theorem Mode.cases_of (m : Mode) : m.closed = true ∨ m = .line ∨ m.opened = true := by
  cases m <;> simp [closed, opened]

section
variable {α : Type} (cls : α → CharClass) (nested : Bool) (isMark : α → Bool)

/-- A step of the lexer, where a mark in code is a token. -/
def markStep (st : St α) (c : α) : St α :=
  if isMark c = true ∧ st.mode.closed = true then ⟨.code, [], (settle st).out ++ [.word [c]]⟩
  else step cls nested st c

/-- The state after a text. -/
def markRun (st : St α) (s : List α) : St α := s.foldl (markStep cls nested isMark) st

/-- The state that a text starts in. -/
def start : St α := ⟨.code, [], []⟩

/-- Where a text ends. -/
def endMode (s : List α) : Mode := (markRun cls nested isMark start s).mode

/-- The tokens of a text. -/
def tokens (s : List α) : List (Token α) := finish (markRun cls nested isMark start s)

theorem markRun_cons (st : St α) (c : α) (s : List α) :
    markRun cls nested isMark st (c :: s) =
      markRun cls nested isMark (markStep cls nested isMark st c) s := rfl

theorem markRun_append (st : St α) (s t : List α) : markRun cls nested isMark st (s ++ t) =
    markRun cls nested isMark (markRun cls nested isMark st s) t := List.foldl_append

theorem settle_after (o : List (Token α)) (st : St α) : settle (st.after o) = (settle st).after o := by
  obtain ⟨m, cur, out⟩ := st
  cases m <;> simp [settle, St.after, flush_append]

theorem markStep_after (o : List (Token α)) (st : St α) (c : α) :
    markStep cls nested isMark (st.after o) c = (markStep cls nested isMark st c).after o := by
  have hmode : (st.after o).mode = st.mode := rfl
  unfold markStep
  rw [hmode, settle_after, step_after]
  split_ifs
  · simp only [St.after, List.append_assoc]
  · rfl

theorem markRun_after (o : List (Token α)) (st : St α) (s : List α) :
    markRun cls nested isMark (st.after o) s = (markRun cls nested isMark st s).after o := by
  induction s generalizing st with
  | nil => rfl
  | cons c s ih => rw [markRun_cons, markRun_cons, markStep_after, ih]

/-- A text after earlier tokens. -/
theorem finish_markRun_after (out : List (Token α)) (s : List α) :
    finish (markRun cls nested isMark ⟨.code, [], out⟩ s) = out ++ tokens cls nested isMark s := by
  have hafter : (⟨.code, [], out⟩ : St α) = start.after out := by simp [start, St.after]
  rw [hafter, markRun_after, finish_after]
  rfl

theorem endMode_after (out : List (Token α)) (s : List α) :
    (markRun cls nested isMark ⟨.code, [], out⟩ s).mode = endMode cls nested isMark s := by
  have hafter : (⟨.code, [], out⟩ : St α) = start.after out := by simp [start, St.after]
  rw [hafter, markRun_after]
  rfl

/-- In code, finishing is settling. -/
theorem finish_closed {st : St α} (h : st.mode.closed = true) :
    finish st = (settle st).out ∧ (settle st).mode = .code ∧ (settle st).cur = [] := by
  obtain ⟨m, cur, out⟩ := st
  cases m <;> first | exact ⟨rfl, rfl, rfl⟩ | cases h

variable {cls nested isMark}

/-! ## One character -/

/-- White space ends a token. -/
theorem markStep_gap {st : St α} {c : α} (hc : isGap cls c = true) (hm : isMark c = false)
    (hst : st.mode.closed = true) : markStep cls nested isMark st c = ⟨.code, [], finish st⟩ := by
  obtain ⟨hfinish, hmode, hcur⟩ := finish_closed hst
  have hstep := step_settle cls nested st hc
  rw [markStep, if_neg (fun h => by rw [hm] at h; cases h.1), ← hstep, hfinish]
  generalize settle st = settled at hmode hcur
  obtain ⟨m, cur, out⟩ := settled
  cases hmode
  cases hcur
  have hcls : cls c = .blank ∨ cls c = .newline := by simpa [isGap] using hc
  rcases hcls with h | h <;> simp [step, codeStep, h, flush]

/-- A mark in code is a token. -/
theorem markStep_mark {st : St α} {c : α} (hm : isMark c = true) (hst : st.mode.closed = true) :
    markStep cls nested isMark st c = ⟨.code, [], finish st ++ [.word [c]]⟩ := by
  rw [markStep, if_pos ⟨hm, hst⟩, (finish_closed hst).1]

/-- A comment ends with its line. -/
theorem markStep_newline {st : St α} {c : α} (hc : cls c = .newline) (hst : st.mode = .line) :
    markStep cls nested isMark st c = ⟨.code, [], finish st⟩ := by
  obtain ⟨m, cur, out⟩ := st
  subst hst
  simp [markStep, Mode.closed, step, hc, finish]

/-- A comment goes on until then. -/
theorem markStep_line {st : St α} {c : α} (hc : cls c ≠ .newline) (hst : st.mode = .line) :
    markStep cls nested isMark st c = ⟨.line, [], finish st⟩ := by
  obtain ⟨m, cur, out⟩ := st
  subst hst
  simp [markStep, Mode.closed, step, hc, finish]

/-- White space and characters without a meaning of their own do not close a quote
    or a block comment. -/
theorem markStep_opened {st : St α} {c : α} (hc : cls c = .blank ∨ cls c = .newline ∨ cls c = .other)
    (hst : st.mode.opened = true) : (markStep cls nested isMark st c).mode.opened = true := by
  obtain ⟨m, cur, out⟩ := st
  rw [markStep, if_neg (fun h => by cases m <;> simp_all [Mode.closed, Mode.opened])]
  cases m with
  | quote q => rcases hc with h | h | h <;> cases q <;> simp [step, h, Quote.cls, Mode.opened]
  | block d => rcases hc with h | h | h <;> simp [step, h, Mode.opened]
  | blockStar d => rcases hc with h | h | h <;> cases d <;> simp [step, h, Mode.opened]
  | blockSlash d => rcases hc with h | h | h <;> simp [step, h, Mode.opened]
  | _ => cases hst

/-- White space, marks and characters without a meaning of their own open nothing. -/
theorem markStep_closed {st : St α} {c : α} (hc : cls c = .blank ∨ cls c = .newline ∨ cls c = .other)
    (hst : st.mode.closed = true) : (markStep cls nested isMark st c).mode.closed = true := by
  unfold markStep
  split
  · rfl
  · obtain ⟨m, cur, out⟩ := st
    cases m with
    | code | dash | slash => rcases hc with h | h | h <;> simp [step, codeStep, h, Mode.closed]
    | quoteEnd q => rcases hc with h | h | h <;> cases q <;> simp [step, codeStep, h, Quote.cls, Mode.closed]
    | _ => cases hst

theorem markRun_closed {s : List α} (hs : ∀ c ∈ s, cls c = .blank ∨ cls c = .newline ∨ cls c = .other) :
    ∀ st : St α, st.mode.closed = true → (markRun cls nested isMark st s).mode.closed = true := by
  induction s with
  | nil => exact fun _ h => h
  | cons c s ih =>
    intro st hst
    exact ih (fun d hd => hs d (List.mem_cons_of_mem _ hd)) _ (markStep_closed (hs c List.mem_cons_self) hst)

/-! ## Quotes -/

section
variable {q : Quote} {d : α} (hd : cls d = q.cls) (hm : isMark d = false)
include hd hm

/-- A quote sign opens a quote, or goes on with one. -/
theorem markStep_quote {st : St α} (hst : st.mode.closed = true) :
    (markStep cls nested isMark st d).mode = .quote q := by
  rw [markStep, if_neg (fun h => by rw [hm] at h; cases h.1)]
  obtain ⟨m, cur, out⟩ := st
  cases m with
  | code | dash | slash => cases q <;> simp [step, codeStep, hd, Quote.cls]
  | quoteEnd q' => cases q <;> cases q' <;> simp [step, codeStep, hd, Quote.cls]
  | _ => cases hst

/-- A text with its quote signs doubled stays in the quote. -/
theorem markRun_doubled [DecidableEq α] (hq : ∀ c, cls c = q.cls → c = d) {body : List α} : ∀ st : St α,
    st.mode = .quote q → (markRun cls nested isMark st (body.flatMap fun c => if c = d then [d, d] else [c])).mode =
      .quote q := by
  induction body with
  | nil => exact fun _ h => h
  | cons c body ih =>
    rintro ⟨m, cur, out⟩ hst
    cases hst
    by_cases hc : c = d
    · have hclose : markStep cls nested isMark ⟨.quote q, cur, out⟩ d = ⟨.quoteEnd q, cur, out⟩ := by
        rw [markStep, if_neg (fun h => by rw [hm] at h; cases h.1)]
        simp [step, hd]
      rw [List.flatMap_cons, if_pos hc, List.cons_append, List.singleton_append, markRun_cons, markRun_cons, hclose]
      exact ih _ (markStep_quote hd hm rfl)
    · have hkeep : markStep cls nested isMark ⟨.quote q, cur, out⟩ c = ⟨.quote q, cur ++ [c], out⟩ := by
        rw [markStep, if_neg (fun h => by cases h.2)]
        have hcls : cls c ≠ q.cls := fun h => hc (hq c h)
        simp [step, hcls]
      rw [List.flatMap_cons, if_neg hc, List.singleton_append, markRun_cons, hkeep]
      exact ih _ rfl

/-- **A quoted text** ends outside quotes. -/
theorem markRun_quoted [DecidableEq α] (hq : ∀ c, cls c = q.cls → c = d) (body : List α) {st : St α}
    (hst : st.mode.closed = true) : (markRun cls nested isMark st
      ([d] ++ body.flatMap (fun c => if c = d then [d, d] else [c]) ++ [d])).mode.closed = true := by
  rw [markRun_append, markRun_append]
  have hbody := @markRun_doubled _ cls nested isMark q d hd hm _ hq body (markRun cls nested isMark st [d])
    (markStep_quote hd hm hst)
  generalize markRun cls nested isMark _ (body.flatMap _) = st' at hbody
  obtain ⟨m, cur, out⟩ := st'
  cases hbody
  have hclose : markStep cls nested isMark ⟨.quote q, cur, out⟩ d = ⟨.quoteEnd q, cur, out⟩ := by
    rw [markStep, if_neg (fun h => by rw [hm] at h; cases h.1)]
    simp [step, hd]
  exact congrArg (fun st => st.mode.closed) hclose

end

/-- A text that ends in a mark, outside quotes, leaves the lexer in code. -/
theorem markRun_mark {s : List α} {m : α} (hm : isMark m = true)
    (hs : (endMode cls nested isMark s).closed = true) : markRun cls nested isMark start (s ++ [m]) =
      ⟨.code, [], tokens cls nested isMark (s ++ [m])⟩ := by
  have hstep : markRun cls nested isMark start (s ++ [m]) =
      ⟨.code, [], tokens cls nested isMark s ++ [.word [m]]⟩ := by
    rw [markRun_append]
    exact markStep_mark hm hs
  rw [hstep, tokens.eq_def _ _ _ (s ++ [m]), hstep]
  rfl

/-! ## The end of a text -/

/-- White space, or the mark `m`. -/
def Trailing (cls : α → CharClass) (isMark : α → Bool) (m c : α) : Prop :=
  isGap cls c = true ∧ isMark c = false ∨ c = m

section
variable {m : α} (hcls : cls m = .other) (hm : isMark m = true)
include hcls

theorem class_of_trailing {c : α} (h : Trailing cls isMark m c) :
    cls c = .blank ∨ cls c = .newline ∨ cls c = .other := by
  rcases h with ⟨h, -⟩ | rfl
  · have hc : cls c = .blank ∨ cls c = .newline := by simpa [isGap] using h
    exact hc.elim .inl fun h => .inr (.inl h)
  · exact .inr (.inr hcls)

theorem opened_trailing {t : List α} (ht : ∀ c ∈ t, Trailing cls isMark m c) : ∀ st : St α,
    st.mode.opened = true → (markRun cls nested isMark st t).mode.opened = true := by
  induction t with
  | nil => exact fun _ h => h
  | cons c t ih =>
    intro st hst
    exact ih (fun d hd => ht d (List.mem_cons_of_mem _ hd)) _
      (markStep_opened (class_of_trailing hcls (ht c List.mem_cons_self)) hst)

/-- A text that does not end inside quotes has no prefix, up to trailing characters,
    that does. -/
theorem not_opened_prefix {s t : List α} (ht : ∀ c ∈ t, Trailing cls isMark m c)
    (h : (endMode cls nested isMark (s ++ t)).opened = false) :
    (endMode cls nested isMark s).opened = false := by
  by_contra hs
  have hopen : (markRun cls nested isMark start s).mode.opened = true := by simpa [endMode] using hs
  rw [endMode, markRun_append, opened_trailing hcls ht _ hopen] at h
  cases h

include hm

/-- **One trailing character**: white space adds no token; a mark is one, unless it
    stands in a `--` comment, which goes on. -/
theorem trailing_step {c : α} (hc : Trailing cls isMark m c) {st : St α} (hst : st.mode.opened = false) :
    (markStep cls nested isMark st c).mode.opened = false ∧
      (finish (markStep cls nested isMark st c) = finish st ∨
        c = m ∧ st.mode.closed = true ∧ finish (markStep cls nested isMark st c) = finish st ++ [.word [m]]) := by
  rcases hc with ⟨hgap, hmark⟩ | rfl
  · rcases Mode.cases_of st.mode with h | h | h
    · rw [markStep_gap hgap hmark h]
      exact ⟨rfl, .inl rfl⟩
    · by_cases hnl : cls c = .newline
      · rw [markStep_newline hnl h]
        exact ⟨rfl, .inl rfl⟩
      · rw [markStep_line hnl h]
        exact ⟨rfl, .inl rfl⟩
    · rw [h] at hst
      cases hst
  · rcases Mode.cases_of st.mode with h | h | h
    · rw [markStep_mark hm h]
      exact ⟨rfl, .inr ⟨rfl, h, rfl⟩⟩
    · rw [markStep_line (by rw [hcls]; decide) h]
      exact ⟨rfl, .inl rfl⟩
    · rw [h] at hst
      cases hst

/-- **Trailing characters** add nothing but marks. -/
theorem trailing_run {t : List α} (ht : ∀ c ∈ t, Trailing cls isMark m c) : ∀ st : St α,
    st.mode.opened = false → (markRun cls nested isMark st t).mode.opened = false ∧
      ∃ j, finish (markRun cls nested isMark st t) = finish st ++ List.replicate j (.word [m]) := by
  induction t with
  | nil => exact fun st hst => ⟨hst, 0, (List.append_nil _).symm⟩
  | cons c t ih =>
    intro st hst
    obtain ⟨hopen, hstep⟩ := @trailing_step _ cls nested isMark m hcls hm c (ht c List.mem_cons_self) st hst
    obtain ⟨hopen', j, hj⟩ := ih (fun d hd => ht d (List.mem_cons_of_mem _ hd)) _ hopen
    refine ⟨hopen', ?_⟩
    rw [markRun_cons, hj]
    rcases hstep with hstep | ⟨-, -, hstep⟩
    · exact ⟨j, by rw [hstep]⟩
    · exact ⟨j + 1, by rw [hstep, List.append_assoc]; rfl⟩

theorem tokens_trailing {s t : List α} (ht : ∀ c ∈ t, Trailing cls isMark m c)
    (hs : (endMode cls nested isMark s).opened = false) :
    ∃ j, tokens cls nested isMark (s ++ t) = tokens cls nested isMark s ++ List.replicate j (.word [m]) := by
  obtain ⟨-, j, hj⟩ :=
    @trailing_run _ cls nested isMark m hcls hm t ht (markRun cls nested isMark start s) hs
  exact ⟨j, by rw [tokens, markRun_append, hj, tokens]⟩

/-- A text that ends in the mark, and not in a comment, has the mark among its
    tokens. -/
theorem mark_mem_tokens {s : List α} (hs : (endMode cls nested isMark s).opened = false)
    (hline : endMode cls nested isMark (s ++ [m]) ≠ .line) :
    .word [m] ∈ tokens cls nested isMark (s ++ [m]) := by
  have hlast : markRun cls nested isMark start (s ++ [m]) =
      markStep cls nested isMark (markRun cls nested isMark start s) m := markRun_append ..
  rcases Mode.cases_of (endMode cls nested isMark s) with h | h | h
  · rw [tokens, hlast, markStep_mark hm h]
    exact List.mem_append_right _ List.mem_cons_self
  · refine absurd ?_ hline
    rw [endMode, hlast, markStep_line (by rw [hcls]; decide) h]
  · rw [h] at hs
    cases hs

end

/-! ## A text between two others -/

variable {before s rest : List α} {out : List (Token α)} {c : α}

/-- **Before a newline**, a text has its own tokens. -/
theorem tokens_wrap_newline (hbefore : markRun cls nested isMark start before = ⟨.code, [], out⟩)
    (hs : (endMode cls nested isMark s).opened = false) (hc : cls c = .newline) (hm : isMark c = false) :
    tokens cls nested isMark (before ++ s ++ c :: rest) =
      out ++ tokens cls nested isMark s ++ tokens cls nested isMark (c :: rest) := by
  have hgap : isGap cls c = true := by simp [isGap, hc]
  have hstart : markStep cls nested isMark start c = ⟨.code, [], []⟩ := markStep_gap hgap hm rfl
  have hstep : markStep cls nested isMark (markRun cls nested isMark ⟨.code, [], out⟩ s) c =
      ⟨.code, [], out ++ tokens cls nested isMark s⟩ := by
    rw [← finish_markRun_after]
    rw [← endMode_after cls nested isMark out] at hs
    rcases Mode.cases_of (markRun cls nested isMark ⟨.code, [], out⟩ s).mode with h | h | h
    · exact markStep_gap hgap hm h
    · exact markStep_newline hc h
    · rw [h] at hs
      cases hs
  rw [tokens, markRun_append, markRun_append, hbefore, markRun_cons, hstep, finish_markRun_after]
  congr 1
  rw [tokens, tokens, markRun_cons, hstart]
  rfl

/-- **Before a mark**, a text has its own tokens, if it does not end in a comment. -/
theorem tokens_wrap_mark (hbefore : markRun cls nested isMark start before = ⟨.code, [], out⟩)
    (hs : (endMode cls nested isMark s).closed = true) (hm : isMark c = true) :
    tokens cls nested isMark (before ++ s ++ c :: rest) =
      out ++ tokens cls nested isMark s ++ tokens cls nested isMark (c :: rest) := by
  have hstart : markStep cls nested isMark start c = ⟨.code, [], [.word [c]]⟩ := markStep_mark hm rfl
  have hrest : tokens cls nested isMark (c :: rest) = [.word [c]] ++ tokens cls nested isMark rest := by
    rw [tokens, markRun_cons, hstart, finish_markRun_after]
  rw [← endMode_after cls nested isMark out] at hs
  rw [hrest, tokens, markRun_append, markRun_append, hbefore, markRun_cons, markStep_mark hm hs,
    finish_markRun_after, finish_markRun_after, List.append_assoc]

/-- In a `--` comment, what follows on the line is lost. -/
theorem tokens_wrap_line (hbefore : markRun cls nested isMark start before = ⟨.code, [], out⟩)
    (hs : endMode cls nested isMark s = .line) {tail : List α} (htail : ∀ c ∈ tail, cls c ≠ .newline) :
    tokens cls nested isMark (before ++ s ++ tail) = out ++ tokens cls nested isMark s := by
  rw [← endMode_after cls nested isMark out] at hs
  rw [tokens, markRun_append, markRun_append, hbefore, ← finish_markRun_after]
  generalize markRun cls nested isMark ⟨.code, [], out⟩ s = st at hs
  induction tail generalizing st with
  | nil => rfl
  | cons c tail ih =>
    rw [markRun_cons, markStep_line (htail c List.mem_cons_self) hs]
    exact ih (fun d hd => htail d (List.mem_cons_of_mem _ hd)) ⟨.line, [], finish st⟩ rfl

end

end ContinuoRuntime.SqlLex
