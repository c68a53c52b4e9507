/-
  How SQL's lexer depends on white space.

  The lexer is a machine over any alphabet whose characters are classified.  In
  code, white space separates; inside quotes it is text; a `--` comment ends at
  a newline; a block comment ends at its mark (and may nest).  A word of code is
  one token here: SQL cuts it further into names, numbers and operators without
  looking at what stands around it.

  * `step_settle`: a gap sees no more of a state than its settled form;
  * `Free`: no gap stands inside quotes, and what follows a `--` comment is
    `Quiet`, that is, emits nothing however its lines are broken;
  * `free_iff`: `Free` texts are exactly those whose tokens depend on their words
    only.
-/
import ContinuoRuntime.Lib.Words

namespace ContinuoRuntime.SqlLex

/-- What the lexer sees of a character. -/
inductive CharClass where
  | blank | newline | squote | dquote | dash | slash | star | other
  deriving DecidableEq

/-- String literals and quoted identifiers. -/
inductive Quote where
  | single | double
  deriving DecidableEq

def Quote.cls : Quote → CharClass
  | single => .squote
  | double => .dquote

inductive Token (α : Type) where
  | word (text : List α)
  | quoted (q : Quote) (text : List α)
  /-- a quote that the text ends in -/
  | unclosed (q : Quote) (text : List α)
  deriving DecidableEq

/-- Where the lexer stands: in code (maybe after a `-` or `/` that may start a
    comment), in a quote (maybe after a quote sign that may be doubled), or in a
    comment (at a depth, maybe after half a mark). -/
inductive Mode where
  | code | dash | slash
  | quote (q : Quote)
  | quoteEnd (q : Quote)
  | line
  | block (d : ℕ)
  | blockStar (d : ℕ)
  | blockSlash (d : ℕ)
  deriving DecidableEq

/-- The mode, the text of the current token, and the tokens so far. -/
structure St (α : Type) where
  mode : Mode
  cur : List α
  out : List (Token α)

section
variable {α : Type} (cls : α → CharClass) (nested : Bool)

/-- The tokens with the current word of code. -/
def flush (cur : List α) (out : List (Token α)) : List (Token α) :=
  if cur = [] then out else out ++ [.word cur]

def codeStep (cur : List α) (out : List (Token α)) (c : α) : St α :=
  match cls c with
  | .blank | .newline => ⟨.code, [], flush cur out⟩
  | .squote => ⟨.quote .single, [], flush cur out⟩
  | .dquote => ⟨.quote .double, [], flush cur out⟩
  | .dash => ⟨.dash, cur ++ [c], out⟩
  | .slash => ⟨.slash, cur ++ [c], out⟩
  | .star | .other => ⟨.code, cur ++ [c], out⟩

def step (st : St α) (c : α) : St α :=
  match st.mode with
  | .code => codeStep cls st.cur st.out c
  | .dash =>
    if cls c = .dash then ⟨.line, [], flush st.cur.dropLast st.out⟩ else codeStep cls st.cur st.out c
  | .slash =>
    if cls c = .star then ⟨.block 0, [], flush st.cur.dropLast st.out⟩
    else codeStep cls st.cur st.out c
  | .quote q =>
    if cls c = q.cls then ⟨.quoteEnd q, st.cur, st.out⟩ else ⟨.quote q, st.cur ++ [c], st.out⟩
  | .quoteEnd q =>
    if cls c = q.cls then ⟨.quote q, st.cur ++ [c], st.out⟩
    else codeStep cls [] (st.out ++ [.quoted q st.cur]) c
  | .line => if cls c = .newline then ⟨.code, [], st.out⟩ else ⟨.line, [], st.out⟩
  | .block d => match cls c with
    | .star => ⟨.blockStar d, [], st.out⟩
    | .slash => ⟨.blockSlash d, [], st.out⟩
    | _ => ⟨.block d, [], st.out⟩
  | .blockStar d => match cls c, d with
    | .slash, 0 => ⟨.code, [], st.out⟩
    | .slash, d + 1 => ⟨.block d, [], st.out⟩
    | .star, d => ⟨.blockStar d, [], st.out⟩
    | _, d => ⟨.block d, [], st.out⟩
  | .blockSlash d => match cls c with
    | .star => if nested then ⟨.block (d + 1), [], st.out⟩ else ⟨.blockStar d, [], st.out⟩
    | .slash => ⟨.blockSlash d, [], st.out⟩
    | _ => ⟨.block d, [], st.out⟩

/-- The state after a text. -/
def run (st : St α) (s : List α) : St α := s.foldl (step cls nested) st

theorem run_cons (st : St α) (c : α) (s : List α) :
    run cls nested st (c :: s) = run cls nested (step cls nested st c) s := rfl

theorem run_append (st : St α) (s t : List α) :
    run cls nested st (s ++ t) = run cls nested (run cls nested st s) t := List.foldl_append

/-- The tokens, at the end of the text. -/
def finish (st : St α) : List (Token α) :=
  match st.mode with
  | .code | .dash | .slash => flush st.cur st.out
  | .quote q => st.out ++ [.unclosed q st.cur]
  | .quoteEnd q => st.out ++ [.quoted q st.cur]
  | .line | .block _ | .blockStar _ | .blockSlash _ => st.out

/-- The tokens of a text that starts in mode `m`. -/
def lexFrom (m : Mode) (s : List α) : List (Token α) := finish (run cls nested ⟨m, [], []⟩ s)

/-- The tokens of an SQL text. -/
def lex (s : List α) : List (Token α) := lexFrom cls nested .code s

/-! ## Earlier tokens do not matter -/

theorem flush_append (o out : List (Token α)) (cur : List α) :
    flush cur (o ++ out) = o ++ flush cur out := by
  unfold flush; split_ifs <;> simp

/-- The state with earlier tokens before its own. -/
def St.after (o : List (Token α)) (st : St α) : St α := ⟨st.mode, st.cur, o ++ st.out⟩

theorem codeStep_after (o : List (Token α)) (cur : List α) (out : List (Token α)) (c : α) :
    codeStep cls cur (o ++ out) c = (codeStep cls cur out c).after o := by
  unfold codeStep
  cases cls c <;> simp [St.after, flush_append]

theorem step_after (o : List (Token α)) (st : St α) (c : α) :
    step cls nested (st.after o) c = (step cls nested st c).after o := by
  obtain ⟨m, cur, out⟩ := st
  cases m with
  | code => exact codeStep_after cls o cur out c
  | dash | slash | quote q | line =>
    simp only [step, St.after]
    split_ifs <;> simp [codeStep_after, St.after, flush_append]
  | quoteEnd q =>
    simp only [step, St.after]
    split_ifs
    · rfl
    · rw [List.append_assoc, codeStep_after]; rfl
  | block d => simp only [step, St.after]; cases cls c <;> rfl
  | blockStar d => simp only [step, St.after]; cases cls c <;> cases d <;> rfl
  | blockSlash d => simp only [step, St.after]; cases cls c <;> cases nested <;> rfl

theorem run_after (o : List (Token α)) (st : St α) (s : List α) :
    run cls nested (st.after o) s = (run cls nested st s).after o := by
  induction s generalizing st with
  | nil => rfl
  | cons c s ih => rw [run_cons, run_cons, step_after, ih]

theorem finish_after (o : List (Token α)) (st : St α) : finish (st.after o) = o ++ finish st := by
  obtain ⟨m, cur, out⟩ := st
  cases m <;> simp [finish, St.after, flush_append]

theorem finish_run_after (m : Mode) (out : List (Token α)) (s : List α) :
    finish (run cls nested ⟨m, [], out⟩ s) = out ++ lexFrom cls nested m s := by
  have := finish_after out (run cls nested ⟨m, [], []⟩ s)
  rw [← run_after] at this
  simpa [St.after, lexFrom] using this

/-! ## Gaps -/

/-- White space. -/
def isGap (c : α) : Bool := cls c = .blank || cls c = .newline

/-- What a gap leaves of a state outside quotes. -/
def settle (st : St α) : St α :=
  match st.mode with
  | .code | .dash | .slash => ⟨.code, [], flush st.cur st.out⟩
  | .quote _ => st
  | .quoteEnd q => ⟨.code, [], st.out ++ [.quoted q st.cur]⟩
  | .line => ⟨.line, [], st.out⟩
  | .block d | .blockStar d | .blockSlash d => ⟨.block d, [], st.out⟩

/-- **A gap** sees no more of a state than its settled form. -/
theorem step_settle (st : St α) {c : α} (hc : isGap cls c = true) :
    step cls nested (settle st) c = step cls nested st c := by
  obtain ⟨m, cur, out⟩ := st
  have hcls : cls c = .blank ∨ cls c = .newline := by simpa [isGap] using hc
  cases m with
  | quote q => rfl
  | blockStar d => rcases hcls with h | h <;> cases d <;> simp [step, settle, h]
  | quoteEnd q => rcases hcls with h | h <;> cases q <;> simp [step, settle, codeStep, h, flush, Quote.cls]
  | _ => rcases hcls with h | h <;> simp [step, settle, codeStep, h, flush]

theorem finish_settle (st : St α) : finish (settle st) = finish st := by
  obtain ⟨m, cur, out⟩ := st
  cases m <;> simp [finish, settle, flush]

theorem finish_run_settle (st : St α) {s : List α} (hs : GapStart (isGap cls) s) :
    finish (run cls nested (settle st) s) = finish (run cls nested st s) := by
  cases s with
  | nil => exact finish_settle st
  | cons c s => rw [run_cons, run_cons, step_settle cls nested st (hs c rfl)]

/-! ## Words -/

/-- The modes that a gap may leave outside quotes. -/
def Mode.plain : Mode → Bool
  | code | line | block _ => true
  | _ => false

/-- The mode a word starts in, if a line break may stand before it. -/
def Mode.broken : Mode → Mode
  | line => code
  | m => m

/-- The settled state after a word. -/
def afterWord (m : Mode) (w : List α) : St α := settle (run cls nested ⟨m, [], []⟩ w)

/-- The tokens that a word completes. -/
def emits (m : Mode) (w : List α) : List (Token α) := (afterWord cls nested m w).out

/-- The mode that a word leaves. -/
def next (m : Mode) (w : List α) : Mode := (afterWord cls nested m w).mode

/-- Words that emit nothing, wherever the lines are broken between them. -/
def Quiet : Mode → List (List α) → Prop
  | _, [] => True
  | m, w :: ws => emits cls nested m.broken w = [] ∧ (next cls nested m.broken w).plain = true ∧
      Quiet (next cls nested m.broken w) ws ∧ (m = .line → Quiet .line ws)

/-- Words whose tokens do not depend on the gaps: none stands inside quotes, and
    the words after a `--` comment are quiet. -/
def Free : Mode → List (List α) → Prop
  | _, [] => True
  | m, w :: ws =>
    if m = .line then Quiet cls nested .line (w :: ws)
    else (next cls nested m w).plain = true ∧ Free (next cls nested m w) ws

instance decidableQuiet [DecidableEq α] : ∀ m ws, Decidable (Quiet cls nested m ws)
  | _, [] => .isTrue trivial
  | m, w :: ws =>
    have := decidableQuiet (next cls nested m.broken w) ws
    have := decidableQuiet .line ws
    inferInstanceAs (Decidable (_ ∧ _ ∧ _ ∧ (_ → _)))

instance decidableFree [DecidableEq α] : ∀ m ws, Decidable (Free cls nested m ws)
  | _, [] => .isTrue trivial
  | m, w :: ws =>
    have := decidableFree (next cls nested m w) ws
    inferInstanceAs (Decidable (if m = .line then Quiet cls nested .line (w :: ws) else _ ∧ _))

/-- The tokens of free words. -/
def wordTokens : Mode → List (List α) → List (Token α)
  | _, [] => []
  | m, w :: ws => if m = .line then [] else emits cls nested m w ++ wordTokens (next cls nested m w) ws

theorem settle_plain {st : St α} (h : (settle st).mode.plain = true) :
    settle st = ⟨(settle st).mode, [], (settle st).out⟩ := by
  obtain ⟨m, cur, out⟩ := st
  cases m with
  | quote q => cases h
  | _ => rfl

theorem settle_not_plain {st : St α} (h : (settle st).mode.plain = false) : ∃ q, st.mode = .quote q := by
  obtain ⟨m, cur, out⟩ := st
  cases m with
  | quote q => exact ⟨q, rfl⟩
  | _ => cases h

theorem lexFrom_word {m : Mode} {w s : List α} (hs : GapStart (isGap cls) s)
    (hn : (next cls nested m w).plain = true) :
    lexFrom cls nested m (w ++ s) = emits cls nested m w ++ lexFrom cls nested (next cls nested m w) s := by
  have hst : afterWord cls nested m w = ⟨next cls nested m w, [], emits cls nested m w⟩ := settle_plain hn
  rw [← finish_run_after, ← hst, afterWord, finish_run_settle cls nested _ hs, lexFrom, run_append]

theorem lexFrom_gap {m : Mode} (hm : m.plain = true) {c : α} (hc : isGap cls c = true) (s : List α) :
    lexFrom cls nested m (c :: s) =
      lexFrom cls nested (if cls c = .newline then m.broken else m) s := by
  have hcls : cls c = .blank ∨ cls c = .newline := by simpa [isGap] using hc
  have hstep : step cls nested ⟨m, [], []⟩ c = ⟨if cls c = .newline then m.broken else m, [], []⟩ := by
    cases m with
    | code | line | block d => rcases hcls with h | h <;> simp [step, codeStep, flush, h, Mode.broken]
    | _ => cases hm
  rw [lexFrom, run_cons, hstep, lexFrom]

theorem lexFrom_line_run {w : List α} (hw : ∀ c ∈ w, isGap cls c = false) (s : List α) :
    lexFrom cls nested .line (w ++ s) = lexFrom cls nested .line s := by
  induction w with
  | nil => rfl
  | cons c w ih =>
    have hc : cls c ≠ .newline := by have := hw c (by simp); simp [isGap] at this; exact this.2
    have hstep : step cls nested ⟨.line, [], []⟩ c = ⟨.line, [], []⟩ := by simp [step, hc]
    rw [List.cons_append, lexFrom, run_cons, hstep]
    exact ih fun d hd => hw d (by simp [hd])

theorem lexFrom_nil {m : Mode} (hm : m.plain = true) : lexFrom cls nested m [] = [] := by
  cases m with
  | code | line | block => rfl
  | _ => cases hm

theorem broken_plain {m : Mode} (hm : m.plain = true) : m.broken.plain = true := by
  cases m <;> first | rfl | cases hm

theorem Quiet.broken {m : Mode} {ws : List (List α)} (h : Quiet cls nested m ws) :
    Quiet cls nested m.broken ws := by
  cases m with
  | line =>
    cases ws with
    | nil => trivial
    | cons w ws => exact ⟨h.1, h.2.1, h.2.2.1, fun hm => by cases hm⟩
  | _ => exact h

/-- Quiet words emit nothing. -/
theorem Quiet.lexFrom_eq {ws : List (List α)} {s : List α} (hl : Layout (isGap cls) ws s) :
    ∀ {m : Mode}, m.plain = true → Quiet cls nested m ws → lexFrom cls nested m s = [] := by
  induction hl with
  | nil => exact fun hm _ => lexFrom_nil cls nested hm
  | gap c hc _ ih =>
    intro m hm hq
    rw [lexFrom_gap cls nested hm hc]
    split_ifs
    · exact ih (broken_plain hm) (hq.broken cls nested)
    · exact ih hm hq
  | @word ws s w hw hs _ ih =>
    intro m hm hq
    by_cases hline : m = .line
    · subst hline
      rw [lexFrom_line_run cls nested hw.2]
      exact ih rfl (hq.2.2.2 rfl)
    · have hb : m.broken = m := by cases m <;> first | rfl | exact absurd rfl hline
      obtain ⟨he, hp, hq', -⟩ := hq
      rw [hb] at he hp hq'
      rw [lexFrom_word cls nested hs hp, he, ih hp hq', List.nil_append]

/-- **The tokens of free words** are read off the words. -/
theorem Free.lexFrom_eq {ws : List (List α)} {s : List α} (hl : Layout (isGap cls) ws s) :
    ∀ {m : Mode}, m.plain = true → Free cls nested m ws →
      lexFrom cls nested m s = wordTokens cls nested m ws := by
  induction hl with
  | nil => exact fun hm _ => lexFrom_nil cls nested hm
  | @gap ws s c hc hl ih =>
    intro m hm hf
    rw [lexFrom_gap cls nested hm hc]
    by_cases hline : m = .line
    · subst hline
      cases ws with
      | nil => split_ifs <;> exact ih rfl trivial
      | cons w ws =>
        have hq : Quiet cls nested .line (w :: ws) := by simpa [Free] using hf
        rw [wordTokens, if_pos rfl]
        split_ifs
        · exact (hq.broken cls nested).lexFrom_eq cls nested hl rfl
        · exact hq.lexFrom_eq cls nested hl rfl
    · have hb : m.broken = m := by cases m <;> first | rfl | exact absurd rfl hline
      rw [hb, ite_self]
      exact ih hm hf
  | @word ws s w hw hs hl ih =>
    intro m hm hf
    by_cases hline : m = .line
    · subst hline
      have hq : Quiet cls nested .line (w :: ws) := by simpa [Free] using hf
      rw [wordTokens, if_pos rfl]
      exact hq.lexFrom_eq cls nested (.word w hw hs hl) rfl
    · rw [Free, if_neg hline] at hf
      rw [lexFrom_word cls nested hs hf.1, ih hf.1 hf.2, wordTokens, if_neg hline]

/-! ## Words that are not free -/

/-- A quote that is open at the start becomes the first token, and what it held
    is a part of its text. -/
theorem quote_shape (q : Quote) : ∀ s : List α,
    (∃ (mk : List α → Token α) (z : List α) (ts : List (Token α)), mk.Injective ∧
      ∀ cur, finish (run cls nested ⟨.quote q, cur, []⟩ s) = mk (cur ++ z) :: ts) ∧
    ∃ (mk : List α → Token α) (z : List α) (ts : List (Token α)), mk.Injective ∧
      ∀ cur, finish (run cls nested ⟨.quoteEnd q, cur, []⟩ s) = mk (cur ++ z) :: ts
  | [] => ⟨⟨.unclosed q, [], [], fun _ _ h => by cases h; rfl, fun cur => by simp [finish, run]⟩,
      ⟨.quoted q, [], [], fun _ _ h => by cases h; rfl, fun cur => by simp [finish, run]⟩⟩
  | c :: s => by
    obtain ⟨⟨mk, z, ts, hmk, h⟩, ⟨mk', z', ts', hmk', h'⟩⟩ := quote_shape q s
    constructor
    · by_cases hc : cls c = q.cls
      · refine ⟨mk', z', ts', hmk', fun cur => ?_⟩
        rw [run_cons, step]
        simpa only [hc, if_pos] using h' cur
      · refine ⟨mk, c :: z, ts, hmk, fun cur => ?_⟩
        rw [run_cons, step]
        simpa [hc] using h (cur ++ [c])
    · by_cases hc : cls c = q.cls
      · refine ⟨mk, c :: z, ts, hmk, fun cur => ?_⟩
        rw [run_cons, step]
        simpa [hc] using h (cur ++ [c])
      · refine ⟨.quoted q, [], finish (run cls nested (codeStep cls [] [] c) s),
          fun _ _ h => by cases h; rfl, fun cur => ?_⟩
        have hstep : step cls nested ⟨.quoteEnd q, cur, []⟩ c =
            (codeStep cls [] [] c).after [.quoted q cur] := by
          rw [← codeStep_after]; simp [step, hc]
        rw [run_cons, hstep, run_after, finish_after, List.append_nil]
        rfl

variable {b nl : α}

/-- After a word that ends inside quotes, one more blank is one more character of
    a token. -/
theorem lexFrom_in_quote {m : Mode} {w : List α} (hn : (next cls nested m w).plain = false)
    (hb : cls b = .blank) (r : List α) :
    lexFrom cls nested m (w ++ b :: r) ≠ lexFrom cls nested m (w ++ b :: b :: r) ∧
      lexFrom cls nested m (w ++ b :: r) ≠ [] := by
  obtain ⟨q, hq⟩ := settle_not_plain hn
  obtain ⟨mk, z, ts, hmk, h⟩ := (quote_shape cls nested q r).1
  have hbq : cls b ≠ q.cls := by rw [hb]; cases q <;> decide
  have hstep : ∀ cur out, step cls nested ⟨.quote q, cur, out⟩ b = ⟨.quote q, cur ++ [b], out⟩ :=
    fun cur out => by simp [step, hbq]
  generalize hst : run cls nested ⟨m, [], []⟩ w = st at hq
  obtain ⟨_, cur, out⟩ := st
  subst hq
  have hr : ∀ cur', finish (run cls nested ⟨.quote q, cur', out⟩ r) = out ++ mk (cur' ++ z) :: ts := by
    intro cur'
    rw [← h cur', ← finish_after, ← run_after, St.after, List.append_nil]
  have h1 : lexFrom cls nested m (w ++ b :: r) = out ++ mk (cur ++ [b] ++ z) :: ts := by
    rw [← hr, lexFrom, run_append, hst, run_cons, hstep]
  have h2 : lexFrom cls nested m (w ++ b :: b :: r) = out ++ mk (cur ++ [b] ++ [b] ++ z) :: ts := by
    rw [← hr, lexFrom, run_append, hst, run_cons, hstep, run_cons, hstep]
  rw [h1, h2]
  refine ⟨fun he => ?_, by simp⟩
  have hlen := congrArg List.length (hmk (List.cons.inj (List.append_cancel_left he)).1)
  simp at hlen

theorem isGap_blank (hb : cls b = .blank) : isGap cls b = true := by simp [isGap, hb]

theorem isGap_newline (hnl : cls nl = .newline) : isGap cls nl = true := by simp [isGap, hnl]

/-- Words that are not quiet emit something in some layout. -/
theorem exists_of_not_quiet (hb : cls b = .blank) (hnl : cls nl = .newline) : ∀ {ws : List (List α)},
    (∀ w ∈ ws, IsRun (isGap cls) w) → ∀ {m : Mode}, m.plain = true → ¬ Quiet cls nested m ws →
    ∃ s, Layout (isGap cls) ws s ∧ GapStart (isGap cls) s ∧ lexFrom cls nested m s ≠ []
  | [], _, _, _, hq => absurd trivial hq
  | w :: ws, hws, m, hm, hq => by
    have hw := hws w (by simp)
    have hws' : ∀ v ∈ ws, IsRun (isGap cls) v := fun v hv => hws v (by simp [hv])
    have hgap := isGap_blank cls hb
    have hone := layout_oneLine hgap hws'
    have hstart := gapStart_oneLine (p := isGap cls) hgap ws
    -- in code, the word itself or what follows it emits something
    have hcode : ¬ (emits cls nested m.broken w = [] ∧ (next cls nested m.broken w).plain = true ∧
        Quiet cls nested (next cls nested m.broken w) ws) →
        ∃ t, Layout (isGap cls) ws t ∧ GapStart (isGap cls) t ∧
          lexFrom cls nested m.broken (w ++ t) ≠ [] := by
      intro hnot
      by_cases hp : (next cls nested m.broken w).plain = true
      · by_cases he : emits cls nested m.broken w = []
        · obtain ⟨t, hl, hs, ht⟩ := exists_of_not_quiet hb hnl hws' hp fun hq' => hnot ⟨he, hp, hq'⟩
          exact ⟨t, hl, hs, by rwa [lexFrom_word cls nested hs hp, he]⟩
        · exact ⟨_, hone, hstart, by rw [lexFrom_word cls nested hstart hp]; simp [he]⟩
      · exact ⟨b :: oneLine b ws, .gap b hgap hone, gapStart_cons hgap _,
          (lexFrom_in_quote cls nested (by simpa using hp) hb _).2⟩
    by_cases hline : m = .line
    · subst hline
      by_cases hrest : Quiet cls nested .line ws
      · obtain ⟨t, hl, hs, ht⟩ := hcode fun h => hq ⟨h.1, h.2.1, h.2.2, fun _ => hrest⟩
        refine ⟨nl :: (w ++ t), .gap nl (isGap_newline cls hnl) (.word w hw hs hl),
          gapStart_cons (isGap_newline cls hnl) _, ?_⟩
        rwa [lexFrom_gap cls nested rfl (isGap_newline cls hnl), if_pos hnl]
      · obtain ⟨t, hl, hs, ht⟩ := exists_of_not_quiet hb hnl hws' rfl hrest
        refine ⟨b :: (w ++ t), .gap b hgap (.word w hw hs hl), gapStart_cons hgap _, ?_⟩
        rwa [lexFrom_gap cls nested rfl hgap, if_neg (by simp [hb]), lexFrom_line_run cls nested hw.2]
    · have hbr : m.broken = m := by cases m <;> first | rfl | exact absurd rfl hline
      obtain ⟨t, hl, hs, ht⟩ := hcode fun h => hq ⟨h.1, h.2.1, h.2.2, fun h' => absurd h' hline⟩
      refine ⟨b :: (w ++ t), .gap b hgap (.word w hw hs hl), gapStart_cons hgap _, ?_⟩
      rwa [lexFrom_gap cls nested hm hgap, hbr, ite_self, ← hbr]

theorem lexFrom_line_oneLine (hb : cls b = .blank) : ∀ {ws : List (List α)},
    (∀ w ∈ ws, IsRun (isGap cls) w) → lexFrom cls nested .line (oneLine b ws) = []
  | [], _ => rfl
  | w :: ws, hws => by
    rw [oneLine, List.flatMap_cons, List.cons_append, lexFrom_gap cls nested rfl (isGap_blank cls hb),
      if_neg (by simp [hb]), lexFrom_line_run cls nested (hws w (by simp)).2]
    exact lexFrom_line_oneLine hb fun v hv => hws v (by simp [hv])

/-- Words that are not free have two layouts with different tokens. -/
theorem exists_of_not_free (hb : cls b = .blank) (hnl : cls nl = .newline) : ∀ {ws : List (List α)},
    (∀ w ∈ ws, IsRun (isGap cls) w) → ∀ {m : Mode}, m.plain = true → ¬ Free cls nested m ws →
    ∃ s t, (Layout (isGap cls) ws s ∧ GapStart (isGap cls) s) ∧
      (Layout (isGap cls) ws t ∧ GapStart (isGap cls) t) ∧
      lexFrom cls nested m s ≠ lexFrom cls nested m t
  | [], _, _, _, hf => absurd trivial hf
  | w :: ws, hws, m, hm, hf => by
    have hw := hws w (by simp)
    have hws' : ∀ v ∈ ws, IsRun (isGap cls) v := fun v hv => hws v (by simp [hv])
    have hgap := isGap_blank cls hb
    by_cases hline : m = .line
    · subst hline
      rw [Free, if_pos rfl] at hf
      obtain ⟨s, hl, hs, hne⟩ := exists_of_not_quiet cls nested hb hnl hws rfl hf
      refine ⟨s, oneLine b (w :: ws), ⟨hl, hs⟩, ⟨layout_oneLine hgap hws, gapStart_oneLine hgap _⟩, ?_⟩
      rwa [lexFrom_line_oneLine cls nested hb hws]
    · have hskip : ∀ s, lexFrom cls nested m (b :: s) = lexFrom cls nested m s := fun s => by
        rw [lexFrom_gap cls nested hm hgap, if_neg (by simp [hb])]
      rw [Free, if_neg hline] at hf
      by_cases hp : (next cls nested m w).plain = true
      · obtain ⟨s, t, hs, ht, hne⟩ := exists_of_not_free hb hnl hws' hp fun h => hf ⟨hp, h⟩
        refine ⟨b :: (w ++ s), b :: (w ++ t), ⟨.gap b hgap (.word w hw hs.2 hs.1), gapStart_cons hgap _⟩,
          ⟨.gap b hgap (.word w hw ht.2 ht.1), gapStart_cons hgap _⟩, ?_⟩
        rw [hskip, hskip, lexFrom_word cls nested hs.2 hp, lexFrom_word cls nested ht.2 hp]
        exact fun h => hne (List.append_cancel_left h)
      · have hone := layout_oneLine hgap hws'
        have hlay : ∀ {r}, Layout (isGap cls) ws (b :: r) → Layout (isGap cls) (w :: ws)
            (b :: (w ++ b :: r)) := fun h => .gap b hgap (.word w hw (gapStart_cons hgap _) h)
        refine ⟨b :: (w ++ b :: oneLine b ws), b :: (w ++ b :: b :: oneLine b ws),
          ⟨hlay (.gap b hgap hone), gapStart_cons hgap _⟩,
          ⟨hlay (.gap b hgap (.gap b hgap hone)), gapStart_cons hgap _⟩, ?_⟩
        rw [hskip, hskip]
        exact (lexFrom_in_quote cls nested (by simpa using hp) hb _).1

/-- **Free texts** are exactly those whose tokens depend on their words only. -/
theorem free_iff (hb : cls b = .blank) (hnl : cls nl = .newline) (s : List α) :
    Free cls nested .code (words (isGap cls) s) ↔
      ∀ t, words (isGap cls) t = words (isGap cls) s → lex cls nested t = lex cls nested s := by
  constructor
  · intro hf t ht
    have hs := hf.lexFrom_eq cls nested (layout_words s) rfl
    have ht' := (ht ▸ hf).lexFrom_eq cls nested (layout_words t) rfl
    rw [lex, lex, hs, ht', ht]
  · intro h
    by_contra hf
    obtain ⟨u, v, hu, hv, hne⟩ := exists_of_not_free cls nested hb hnl (layout_words s).runs rfl hf
    exact hne ((h u hu.1.words_eq).trans (h v hv.1.words_eq).symm)

end

end ContinuoRuntime.SqlLex
