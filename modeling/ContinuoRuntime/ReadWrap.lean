/-
  A read inside the statements of the adapters.

  Every adapter strips the read (`strip`, `rstrip(";")`, `strip`) and puts it
  between parentheses: `EXPLAIN SELECT * FROM (...)` in `check_binds`, `CREATE
  TABLE ... AS (...)` in `build_empty_from_sql`.  Two of the six templates have no
  newline before the closing parenthesis.

  * `bareRead_spec`: what the stripping takes away;
  * `lexemes_wrap`, `lexemes_wrap_line`: the tokens of a text in a template, and in
    one without the newline when the text ends in a comment;
  * `intact_iff`: **a read reaches the engine intact** exactly if its semicolons
    stand together at its end and, without the newline, no `--` comment does.
-/
import ContinuoRuntime.Lib.SqlMarks
import ContinuoRuntime.SqlText

namespace ContinuoRuntime

open SqlLex

/-! ## SQL text -/

/-- What SQL's lexer sees of a character. -/
def sqlCharClass (c : CodePoint) : CharClass :=
  if c.val = 10 ∨ c.val = 13 then .newline
  else if isSpace c then .blank
  else if c = ch '\'' then .squote
  else if c = ch '"' then .dquote
  else if c = ch '-' then .dash
  else if c = ch '/' then .slash
  else if c = ch '*' then .star
  else .other

/-- The terminator and the parentheses are tokens of their own. -/
def isSqlMark (c : CodePoint) : Bool := c == ch ';' || c == ch '(' || c == ch ')'

/-- The tokens of an SQL text; `nested` says whether block comments nest. -/
def sqlLexemes (nested : Bool) (sql : Str) : List (Token CodePoint) :=
  tokens sqlCharClass nested isSqlMark sql

/-- The token `;`. -/
def semicolon : Token CodePoint := .word [ch ';']

theorem isGap_of_isSpace {c : CodePoint} (hc : isSpace c = true) :
    isGap sqlCharClass c = true ∧ isSqlMark c = false := by
  have hmark : ∀ m : CodePoint, isSpace m = false → (c == m) = false := fun m hm =>
    beq_eq_false_iff_ne.2 fun heq => by rw [heq, hm] at hc; cases hc
  refine ⟨?_, ?_⟩
  · unfold isGap sqlCharClass
    split_ifs <;> rfl
  · rw [isSqlMark, hmark _ (by decide), hmark _ (by decide), hmark _ (by decide)]
    rfl

theorem semicolon_class : sqlCharClass (ch ';') = .other ∧ isSqlMark (ch ';') = true := by decide

/-! ## The stripped read -/

/-- `sql.strip().rstrip(";").strip()`; `_bare_read` in the DuckDB adapter. -/
def bareRead (sql : Str) : Str := strip ((strip sql).rdropWhile (· == ch ';'))

/-- White space only. -/
def Blank (s : Str) : Prop := ∀ c ∈ s, isSpace c = true

/-- `sql` is `q` with semicolons after it, and white space around them. -/
def Terminated (sql q : Str) : Prop :=
  ∃ w₁ n w₂, Blank w₁ ∧ Blank w₂ ∧ sql = q ++ (w₁ ++ List.replicate n (ch ';') ++ w₂)

theorem getLast?_rdropWhile {p : CodePoint → Bool} {s : Str} {c : CodePoint}
    (h : (s.rdropWhile p).getLast? = some c) : p c = false := by
  have hne : s.rdropWhile p ≠ [] := by
    rintro hnil
    rw [hnil] at h
    cases h
  rw [List.getLast?_eq_some_getLast hne] at h
  cases h
  exact Bool.eq_false_iff.2 (List.rdropWhile_last_not p s hne)

/-- What `strip` takes away, and what it leaves at the end. -/
theorem strip_spec (s : Str) : ∃ lead trail, Blank lead ∧ Blank trail ∧ s = lead ++ strip s ++ trail ∧
    ∀ c, (strip s).getLast? = some c → isSpace c = false := by
  refine ⟨s.takeWhile isSpace, (s.dropWhile isSpace).rtakeWhile isSpace, fun c hc => ?_, fun c hc => ?_,
    ?_, fun c hc => getLast?_rdropWhile hc⟩
  · exact List.mem_takeWhile_imp hc
  · exact List.mem_rtakeWhile_imp hc
  · rw [strip, List.append_assoc, List.rdropWhile_append_rtakeWhile, List.takeWhile_append_dropWhile]

/-- **What the stripping takes away**: white space, a row of semicolons, and white
    space on both sides; the read that is left ends in neither, unless white space
    and another semicolon followed. -/
theorem bareRead_spec (sql : Str) : ∃ lead w₁ k w₂, Blank lead ∧ Blank w₁ ∧ Blank w₂ ∧
    sql = lead ++ bareRead sql ++ (w₁ ++ List.replicate k (ch ';') ++ w₂) ∧
    (∀ c, (bareRead sql).getLast? = some c → isSpace c = false) ∧
    ((bareRead sql).getLast? = some (ch ';') → w₁ ≠ [] ∧ k ≠ 0) := by
  obtain ⟨lead, w₂, hlead, hw₂, hsql, hlast⟩ := strip_spec sql
  obtain ⟨lead', w₁, hlead', hw₁, hcore, hlast'⟩ := strip_spec ((strip sql).rdropWhile (· == ch ';'))
  have hrow : (strip sql).rtakeWhile (· == ch ';') =
      List.replicate ((strip sql).rtakeWhile (· == ch ';')).length (ch ';') :=
    List.eq_replicate_iff.2 ⟨rfl, fun c hc => by simpa using List.mem_rtakeWhile_imp hc⟩
  have hsplit := @List.rdropWhile_append_rtakeWhile _ (· == ch ';') (strip sql)
  refine ⟨lead ++ lead', w₁, ((strip sql).rtakeWhile (· == ch ';')).length, w₂, ?_, hw₁, hw₂, ?_, hlast', ?_⟩
  · intro c hc
    exact (List.mem_append.1 hc).elim (hlead c) (hlead' c)
  · rw [← hrow, bareRead]
    conv_lhs => rw [hsql, ← hsplit, hcore]
    simp only [List.append_assoc]
  · intro hsemi
    have hw : w₁ ≠ [] := by
      rintro rfl
      rw [List.append_nil] at hcore
      have hend : ((strip sql).rdropWhile (· == ch ';')).getLast? = some (ch ';') := by
        rw [hcore, List.getLast?_append, show strip _ = bareRead sql from rfl, hsemi]
        rfl
      have hno := getLast?_rdropWhile hend
      simp at hno
    refine ⟨hw, fun hk => ?_⟩
    rw [List.length_eq_zero_iff.1 hk, List.append_nil] at hsplit
    have hend : (strip sql).getLast? = some (w₁.getLast hw) := by
      rw [← hsplit, hcore, List.getLast?_append, List.getLast?_eq_some_getLast hw]
      rfl
    have hspace := hw₁ _ (List.getLast_mem hw)
    rw [hlast _ hend] at hspace
    cases hspace

/-- After a semicolon come only semicolons, up to the white space at the end. -/
theorem after_semicolon : ∀ {x a b y : Str} {n : ℕ}, Blank a → Blank b →
    a ++ List.replicate n (ch ';') ++ b = x ++ ch ';' :: y →
      ∃ j, y = List.replicate j (ch ';') ++ b
  | x, c :: a, b, y, n, ha, hb, h => by
    cases x with
    | nil =>
      have hspace := ha c List.mem_cons_self
      rw [(List.cons.inj h).1] at hspace
      exact absurd hspace (by decide)
    | cons d x => exact after_semicolon (fun e he => ha e (List.mem_cons_of_mem _ he)) hb (List.cons.inj h).2
  | x, [], b, y, 0, _, hb, h => by
    have hmem : ch ';' ∈ b := by
      have hb' : b = x ++ ch ';' :: y := h
      rw [hb']
      exact List.mem_append_right _ List.mem_cons_self
    exact absurd (hb _ hmem) (by decide)
  | [], [], b, y, n + 1, _, _, h => ⟨n, ((List.cons.inj h).2).symm⟩
  | d :: x, [], b, y, n + 1, ha, hb, h =>
    have htail : [] ++ List.replicate n (ch ';') ++ b = x ++ ch ';' :: y := (List.cons.inj h).2
    after_semicolon ha hb htail

/-- **A query with its terminators** is stripped to the query, or to less. -/
theorem bareRead_prefix {sql q : Str} (h : Terminated sql q) : ∃ lead t, Blank lead ∧
    (∀ c ∈ t, isSpace c = true ∨ c = ch ';') ∧ q = lead ++ bareRead sql ++ t := by
  obtain ⟨lead, w₁, k, w₂, hlead, hw₁, hw₂, hsql, hlast, hsemi⟩ := bareRead_spec sql
  obtain ⟨a, n, b, ha, hb, hq⟩ := h
  rcases List.append_eq_append_iff.1 (hq.symm.trans hsql) with ⟨x, hx, htail⟩ | ⟨x, hx, htail⟩
  · by_cases hxnil : x = []
    · subst hxnil
      exact ⟨lead, [], hlead, fun c hc => absurd hc List.not_mem_nil, by rw [hx, List.append_nil, List.append_nil]⟩
    by_cases hinner : bareRead sql = []
    · -- nothing is left: `q` is white space
      rw [hinner, List.append_nil] at hx
      refine ⟨q, [], fun c hc => hlead c ?_, fun c hc => absurd hc List.not_mem_nil, by simp [hinner]⟩
      rw [hx]
      exact List.mem_append_left _ hc
    -- otherwise the last character of what is left is a semicolon of the row
    obtain ⟨x', c, rfl⟩ := (List.eq_nil_or_concat' x).resolve_left hxnil
    have hend : (bareRead sql).getLast? = some c := by
      have hboth := congrArg List.getLast? hx
      rw [List.getLast?_append, List.getLast?_append, List.getLast?_concat,
        List.getLast?_eq_some_getLast hinner] at hboth
      rw [List.getLast?_eq_some_getLast hinner]
      exact hboth
    have hc : c = ch ';' := by
      have hmem : c ∈ a ++ List.replicate n (ch ';') ++ b := by
        rw [htail]
        simp
      have hspace := hlast c hend
      rcases List.mem_append.1 hmem with hmem | hmem
      · rcases List.mem_append.1 hmem with hmem | hmem
        · rw [ha c hmem] at hspace
          cases hspace
        · exact (List.mem_replicate.1 hmem).2
      · rw [hb c hmem] at hspace
        cases hspace
    subst hc
    obtain ⟨hw, hk⟩ := hsemi hend
    obtain ⟨j, hj⟩ := after_semicolon ha hb (htail.trans (List.append_cons _ _ _).symm)
    obtain ⟨s, w, rfl⟩ := List.exists_cons_of_ne_nil hw
    have hs := hw₁ s List.mem_cons_self
    cases j with
    | zero =>
      -- white space only, and a semicolon in it
      have hmem : ch ';' ∈ b := by
        have hj' : s :: w ++ List.replicate k (ch ';') ++ w₂ = b := hj
        rw [← hj']
        refine List.mem_append_left _ (List.mem_append_right _ (List.mem_replicate.2 ⟨hk, rfl⟩))
      exact absurd (hb _ hmem) (by decide)
    | succ j =>
      have hhead : s = ch ';' := (List.cons.inj hj).1
      rw [hhead] at hs
      exact absurd hs (by decide)
  · refine ⟨lead, x, hlead, fun c hc => ?_, hx⟩
    have hmem : c ∈ w₁ ++ List.replicate k (ch ';') ++ w₂ := by
      rw [htail]
      exact List.mem_append_left _ hc
    rcases List.mem_append.1 hmem with hmem | hmem
    · rcases List.mem_append.1 hmem with hmem | hmem
      · exact .inl (hw₁ c hmem)
      · exact .inr (List.mem_replicate.1 hmem).2
    · exact .inl (hw₂ c hmem)

/-! ## Quoted names -/

/-- A text after which the lexer stands outside quotes and comments, if it did
    before. -/
def Closes (nested : Bool) (s : Str) : Prop := ∀ st : St CodePoint, st.mode.closed = true →
  (markRun sqlCharClass nested isSqlMark st s).mode.closed = true

theorem closes_quoteIdentifier (nested : Bool) (name : Str) : Closes nested (quoteIdentifier name) := by
  intro st hst
  have hclass : ∀ c, sqlCharClass c = Quote.double.cls → c = ch '"' := by
    intro c hc
    unfold sqlCharClass at hc
    split_ifs at hc with _ _ _ hquote
    all_goals first | exact hquote | cases hc
  rw [quoteIdentifier, replace_singleton]
  exact markRun_quoted (by decide) (by decide) hclass name hst

/-- `sql.Identifier(name)`, as the driver renders it: the text closes its quotes. -/
structure SqlIdentifier where
  text : Str → Str
  closes : ∀ nested name, Closes nested (text name)

/-- An identifier between double quotes, with those in it doubled. -/
def quotedIdentifier : SqlIdentifier := ⟨quoteIdentifier, closes_quoteIdentifier⟩

/-! ## The statements -/

/-- The statements that a read is put into. -/
inductive ReadPath where
  | postgresCheckBinds
  | trinoCheckBinds
  | duckdbCheckBinds
  | postgresBuildEmpty (identifier : SqlIdentifier) (schema table : Str)
  | trinoBuildEmpty (catalog schema table : Str)
  | duckdbBuildEmpty (catalog schema table : Str)

/-- The statement up to the read. -/
def ReadPath.before : ReadPath → Str
  | postgresCheckBinds | duckdbCheckBinds => py "EXPLAIN SELECT * FROM (\n"
  | trinoCheckBinds => py "EXPLAIN (TYPE VALIDATE) SELECT * FROM (\n"
  | postgresBuildEmpty identifier schema table =>
    py "CREATE TABLE " ++ identifier.text schema ++ py "." ++ identifier.text table ++ py " AS ("
  | trinoBuildEmpty catalog schema table =>
    py "CREATE TABLE " ++ quoteIdentifier catalog ++ py "." ++ quoteIdentifier schema ++ py "." ++
      quoteIdentifier table ++ py " AS ("
  | duckdbBuildEmpty catalog schema table =>
    py "CREATE TABLE " ++ quoteIdentifier catalog ++ py "." ++ quoteIdentifier schema ++ py "." ++
      quoteIdentifier table ++ py " AS (\n"

/-- The statement after the read. -/
def ReadPath.after : ReadPath → Str
  | postgresCheckBinds | trinoCheckBinds | duckdbCheckBinds => py "\n) AS __check_binds__"
  | postgresBuildEmpty _ _ _ | trinoBuildEmpty _ _ _ => py ") WITH NO DATA"
  | duckdbBuildEmpty _ _ _ => py "\n) WITH NO DATA"

/-- The statement for a read. -/
def ReadPath.statement (path : ReadPath) (sql : Str) : Str := path.before ++ bareRead sql ++ path.after

/-- A newline stands before the closing parenthesis. -/
def ReadPath.newline : ReadPath → Bool
  | postgresBuildEmpty _ _ _ | trinoBuildEmpty _ _ _ => false
  | _ => true

/-! ## Before the read -/

section
variable {nested : Bool}

theorem Closes.append {s t : Str} (hs : Closes nested s) (ht : Closes nested t) : Closes nested (s ++ t) :=
  fun st hst => by
    rw [markRun_append]
    exact ht _ (hs st hst)

theorem closes_plain {s : Str}
    (hs : s.all (fun c => isGap sqlCharClass c || sqlCharClass c == .other) = true) : Closes nested s := by
  refine markRun_closed fun c hc => ?_
  have hclass := List.all_eq_true.1 hs c hc
  cases h : sqlCharClass c <;> simp [isGap, h] at hclass ⊢

/-- The lexer after an opening parenthesis. -/
theorem run_paren {s : Str} (hs : Closes nested s) :
    markRun sqlCharClass nested isSqlMark start (s ++ py "(") = ⟨.code, [], sqlLexemes nested (s ++ py "(")⟩ :=
  markRun_mark (by decide) (hs start rfl)

/-- The lexer after an opening parenthesis and a newline. -/
theorem run_paren_newline {s : Str} (hs : Closes nested s) :
    markRun sqlCharClass nested isSqlMark start (s ++ py "(\n") =
      ⟨.code, [], sqlLexemes nested (s ++ py "(\n")⟩ := by
  have hsplit : s ++ py "(\n" = s ++ py "(" ++ [ch '\n'] := by simp [py]
  have hrun : markRun sqlCharClass nested isSqlMark start (s ++ py "(\n") =
      ⟨.code, [], sqlLexemes nested (s ++ py "(")⟩ := by
    have hgap : isGap sqlCharClass (ch '\n') = true ∧ isSqlMark (ch '\n') = false :=
      isGap_of_isSpace (by decide)
    have hcode : Mode.closed .code = true := rfl
    rw [hsplit, markRun_append, run_paren hs]
    exact @markStep_gap _ sqlCharClass nested isSqlMark
      ⟨.code, [], sqlLexemes nested (s ++ py "(")⟩ _ hgap.1 hgap.2 hcode
  rw [sqlLexemes, tokens, hrun]
  rfl

/-- **The statement up to the read** ends in code. -/
theorem run_before (path : ReadPath) : markRun sqlCharClass nested isSqlMark start path.before =
    ⟨.code, [], sqlLexemes nested path.before⟩ := by
  have hcreate : Closes nested (py "CREATE TABLE ") := closes_plain (by decide +kernel)
  have hdot : Closes nested (py ".") := closes_plain (by decide +kernel)
  have has : Closes nested (py " AS ") := closes_plain (by decide +kernel)
  have hname := closes_quoteIdentifier nested
  cases path with
  | postgresCheckBinds | duckdbCheckBinds | trinoCheckBinds => rfl
  | postgresBuildEmpty identifier schema table =>
    have hclose := identifier.closes nested
    have hpre := (((hcreate.append (hclose schema)).append hdot).append (hclose table)).append has
    have hrun := run_paren hpre
    rw [List.append_assoc _ (py " AS ")] at hrun
    exact hrun
  | trinoBuildEmpty catalog schema table =>
    have hpre := (((((hcreate.append (hname catalog)).append hdot).append (hname schema)).append hdot).append
      (hname table)).append has
    have hrun := run_paren hpre
    rw [List.append_assoc _ (py " AS ")] at hrun
    exact hrun
  | duckdbBuildEmpty catalog schema table =>
    have hpre := (((((hcreate.append (hname catalog)).append hdot).append (hname schema)).append hdot).append
      (hname table)).append has
    have hrun := run_paren_newline hpre
    rw [List.append_assoc _ (py " AS ")] at hrun
    exact hrun

/-! ## The tokens of the stripped read -/

theorem trailing_of {c : CodePoint} (hc : isSpace c = true ∨ c = ch ';') :
    Trailing sqlCharClass isSqlMark (ch ';') c := hc.imp isGap_of_isSpace id

theorem run_blank {lead : Str} (h : Blank lead) : markRun sqlCharClass nested isSqlMark start lead = start := by
  induction lead with
  | nil => rfl
  | cons c lead ih =>
    obtain ⟨hgap, hmark⟩ := isGap_of_isSpace (h c List.mem_cons_self)
    have hstep : markStep sqlCharClass nested isSqlMark start c = start := markStep_gap hgap hmark rfl
    rw [markRun_cons, hstep]
    exact ih fun d hd => h d (List.mem_cons_of_mem _ hd)

/-- White space before a text. -/
theorem lexemes_blank {lead : Str} (h : Blank lead) (s : Str) :
    sqlLexemes nested (lead ++ s) = sqlLexemes nested s ∧
      endMode sqlCharClass nested isSqlMark (lead ++ s) = endMode sqlCharClass nested isSqlMark s := by
  constructor
  · rw [sqlLexemes, tokens, markRun_append, run_blank h]
    rfl
  · rw [endMode, markRun_append, run_blank h]
    rfl

/-- The text does not end in quotes or in a block comment. -/
def Whole (nested : Bool) (sql : Str) : Prop := (endMode sqlCharClass nested isSqlMark sql).opened = false

/-- White space and semicolons after a text. -/
theorem lexemes_trailing {s t : Str} (ht : ∀ c ∈ t, isSpace c = true ∨ c = ch ';') (h : Whole nested (s ++ t)) :
    Whole nested s ∧ ∃ j, sqlLexemes nested (s ++ t) = sqlLexemes nested s ++ List.replicate j semicolon := by
  have htrail := fun c hc => trailing_of (ht c hc)
  have hs := not_opened_prefix semicolon_class.1 htrail h
  exact ⟨hs, tokens_trailing semicolon_class.1 semicolon_class.2 htrail hs⟩

theorem terminated_trailing {sql q : Str} (h : Terminated sql q) :
    ∃ t, (∀ c ∈ t, isSpace c = true ∨ c = ch ';') ∧ sql = q ++ t := by
  obtain ⟨w₁, n, w₂, hw₁, hw₂, hsql⟩ := h
  refine ⟨_, fun c hc => ?_, hsql⟩
  rcases List.mem_append.1 hc with hc | hc
  · rcases List.mem_append.1 hc with hc | hc
    · exact .inl (hw₁ c hc)
    · exact .inr (List.mem_replicate.1 hc).2
  · exact .inl (hw₂ c hc)

/-- The tokens of a query are told apart from the semicolons after it. -/
theorem query_eq_of_append {a b : List (Token CodePoint)} {m n : ℕ} (ha : semicolon ∉ a) (hb : semicolon ∉ b)
    (h : a ++ List.replicate m semicolon = b ++ List.replicate n semicolon) : a = b := by
  have hfilter := congrArg (List.filter (· ≠ semicolon)) h
  have hkeep : ∀ {l : List (Token CodePoint)}, semicolon ∉ l → l.filter (· ≠ semicolon) = l := fun hl =>
    List.filter_eq_self.2 fun x hx => decide_eq_true fun heq => hl (heq ▸ hx)
  have hdrop : ∀ k, (List.replicate k semicolon).filter (· ≠ semicolon) = [] := fun k =>
    List.filter_eq_nil_iff.2 fun x hx => by simp [(List.mem_replicate.1 hx).2]
  rwa [List.filter_append, List.filter_append, hdrop, hdrop, List.append_nil, List.append_nil, hkeep ha,
    hkeep hb] at hfilter

/-- **A read as the gate accepts it**: its tokens are those of one query, and
    semicolons. -/
structure ReadShape (nested : Bool) (sql : Str) (query : List (Token CodePoint)) : Prop where
  whole : Whole nested sql
  single : semicolon ∉ query
  lexemes : ∃ n, sqlLexemes nested sql = query ++ List.replicate n semicolon

/-- The semicolons of a read stand together at its end; without a newline before
    the closing parenthesis, no comment does. -/
def Wrappable (path : ReadPath) (nested : Bool) (sql : Str) : Prop :=
  ∃ q, Terminated sql q ∧ semicolon ∉ sqlLexemes nested q ∧
    (path.newline = false → endMode sqlCharClass nested isSqlMark q ≠ .line ∧
      ∀ c, q.getLast? = some c → isSpace c = false)

/-- **The read reaches the engine intact**: the statement has its tokens between those
    of the template. -/
def Intact (path : ReadPath) (nested : Bool) (sql : Str) (query : List (Token CodePoint)) : Prop :=
  sqlLexemes nested (path.statement sql) =
    sqlLexemes nested path.before ++ query ++ sqlLexemes nested path.after

/-- The tokens of the stripped read, when the terminators stand at the end. -/
theorem lexemes_bareRead {sql q : Str} {query : List (Token CodePoint)} (h : ReadShape nested sql query)
    (hq : Terminated sql q) (hsemi : semicolon ∉ sqlLexemes nested q) :
    Whole nested (bareRead sql) ∧ sqlLexemes nested (bareRead sql) = query := by
  obtain ⟨tail, htail, rfl⟩ := terminated_trailing hq
  obtain ⟨hwhole, i, hi⟩ := lexemes_trailing htail h.whole
  obtain ⟨n, hn⟩ := h.lexemes
  have hquery : sqlLexemes nested q = query := query_eq_of_append hsemi h.single (hi.symm.trans hn)
  obtain ⟨lead, t, hlead, ht, hsplit⟩ := bareRead_prefix hq
  rw [hsplit] at hwhole
  obtain ⟨hinner, j, hj⟩ := lexemes_trailing ht hwhole
  rw [← hsplit, (lexemes_blank hlead _).1, hquery] at hj
  refine ⟨?_, ?_⟩
  · rw [Whole, ← (lexemes_blank hlead _).2]
    exact hinner
  · cases j with
    | zero => exact (hj.trans (List.append_nil _)).symm
    | succ j =>
      refine absurd ?_ h.single
      rw [hj]
      exact List.mem_append_right _ List.mem_cons_self

/-! ## After the read -/

theorem after_of_newline {path : ReadPath} (h : path.newline = true) : ∃ rest, path.after = ch '\n' :: rest := by
  cases path with
  | postgresBuildEmpty | trinoBuildEmpty => cases h
  | _ => exact ⟨_, rfl⟩

theorem after_of_no_newline {path : ReadPath} (h : path.newline = false) : path.after = py ") WITH NO DATA" := by
  cases path with
  | postgresBuildEmpty | trinoBuildEmpty => rfl
  | _ => cases h

/-- **A text in a template** has its own tokens there, unless it ends in a comment
    and no newline follows. -/
theorem lexemes_wrap (path : ReadPath) {s : Str} (hs : Whole nested s)
    (hline : path.newline = false → endMode sqlCharClass nested isSqlMark s ≠ .line) :
    sqlLexemes nested (path.before ++ s ++ path.after) =
      sqlLexemes nested path.before ++ sqlLexemes nested s ++ sqlLexemes nested path.after := by
  cases hnl : path.newline with
  | true =>
    obtain ⟨rest, hrest⟩ := after_of_newline hnl
    rw [hrest]
    exact tokens_wrap_newline (run_before path) hs (by decide) (by decide)
  | false =>
    have hclosed : (endMode sqlCharClass nested isSqlMark s).closed = true := by
      rcases Mode.cases_of (endMode sqlCharClass nested isSqlMark s) with h | h | h
      · exact h
      · exact absurd h (hline hnl)
      · rw [Whole, h] at hs
        cases hs
    rw [after_of_no_newline hnl]
    exact tokens_wrap_mark (run_before path) hclosed (by decide)

/-- In a comment, the closing parenthesis is lost. -/
theorem lexemes_wrap_line {path : ReadPath} {s : Str} (hnl : path.newline = false)
    (hs : endMode sqlCharClass nested isSqlMark s = .line) :
    sqlLexemes nested (path.before ++ s ++ path.after) =
      sqlLexemes nested path.before ++ sqlLexemes nested s := by
  have hafter : (py ") WITH NO DATA").all (fun c => sqlCharClass c != .newline) = true := by decide +kernel
  rw [after_of_no_newline hnl]
  exact tokens_wrap_line (run_before path) hs fun c hc => by simpa using List.all_eq_true.1 hafter c hc

/-! ## Intact reads -/

theorem intact_of_wrappable {path : ReadPath} {sql : Str} {query : List (Token CodePoint)}
    (h : ReadShape nested sql query) (hw : Wrappable path nested sql) : Intact path nested sql query := by
  obtain ⟨q, hq, hsemi, hend⟩ := hw
  obtain ⟨hwhole, hquery⟩ := lexemes_bareRead h hq hsemi
  rw [Intact, ReadPath.statement, lexemes_wrap path hwhole, hquery]
  intro hnl hline
  obtain ⟨hcomment, hlast⟩ := hend hnl
  obtain ⟨lead, t, hlead, ht, hsplit⟩ := bareRead_prefix hq
  rcases List.eq_nil_or_concat' t with rfl | ⟨t', c, rfl⟩
  · refine hcomment ?_
    rw [hsplit, List.append_nil, (lexemes_blank hlead _).2]
    exact hline
  · -- the query ends in a semicolon, which would be one of its tokens
    have hc : c = ch ';' := by
      refine (ht c (by simp)).resolve_left fun hspace => ?_
      rw [hlast c (by rw [hsplit]; simp)] at hspace
      cases hspace
    subst hc
    obtain ⟨tail, htail, hsql⟩ := terminated_trailing hq
    have hall := h.whole
    rw [hsql] at hall
    have hqwhole := (lexemes_trailing htail hall).1
    rw [hsplit, ← List.append_assoc] at hqwhole
    have hbefore := (lexemes_trailing (fun d hd => .inr (List.mem_singleton.1 hd)) hqwhole).1
    refine hsemi ?_
    rw [hsplit, ← List.append_assoc]
    refine mark_mem_tokens semicolon_class.1 semicolon_class.2 hbefore ?_
    rw [List.append_assoc, ← hsplit]
    exact hcomment

theorem wrappable_of_intact {path : ReadPath} {sql : Str} {query : List (Token CodePoint)}
    (h : ReadShape nested sql query) (hi : Intact path nested sql query) : Wrappable path nested sql := by
  obtain ⟨lead, w₁, k, w₂, hlead, hw₁, hw₂, hsql, hlast, -⟩ := bareRead_spec sql
  have hterm : Terminated sql (lead ++ bareRead sql) := ⟨w₁, k, w₂, hw₁, hw₂, hsql⟩
  obtain ⟨tail, htail, htext⟩ := terminated_trailing hterm
  have hall := h.whole
  rw [htext] at hall
  obtain ⟨hwhole, i, hlex⟩ := lexemes_trailing htail hall
  obtain ⟨n, hn⟩ := h.lexemes
  rw [htext, hlex, (lexemes_blank hlead _).1] at hn
  rw [Whole, (lexemes_blank hlead _).2] at hwhole
  have hline : path.newline = false → endMode sqlCharClass nested isSqlMark (bareRead sql) ≠ .line := by
    intro hnl hcomment
    rw [Intact, ReadPath.statement, lexemes_wrap_line hnl hcomment, List.append_assoc] at hi
    rw [List.append_cancel_left hi, List.append_assoc] at hn
    -- the closing parenthesis would be one of the semicolons
    have hparen : Token.word [ch ')'] ∈ sqlLexemes nested path.after := by
      rw [after_of_no_newline hnl]
      cases nested <;> exact List.mem_cons_self
    have hmem : Token.word [ch ')'] ∈ List.replicate n semicolon := by
      rw [← List.append_cancel_left hn]
      exact List.mem_append_left _ hparen
    exact absurd (List.mem_replicate.1 hmem).2 (by decide)
  rw [Intact, ReadPath.statement, lexemes_wrap path hwhole hline] at hi
  have hquery : sqlLexemes nested (bareRead sql) = query :=
    List.append_cancel_left (List.append_cancel_right hi)
  by_cases hinner : bareRead sql = []
  · refine ⟨[], ⟨lead ++ w₁, k, w₂, fun c hc => (List.mem_append.1 hc).elim (hlead c) (hw₁ c), hw₂, ?_⟩, ?_, ?_⟩
    · conv_lhs => rw [hsql, hinner]
      simp only [List.append_assoc, List.nil_append]
    · rw [← hinner, hquery]
      exact h.single
    · intro hnl
      refine ⟨?_, fun c hc => by cases hc⟩
      rw [← hinner]
      exact hline hnl
  · refine ⟨lead ++ bareRead sql, hterm, ?_, fun hnl => ⟨?_, fun c hc => hlast c ?_⟩⟩
    · rw [(lexemes_blank hlead _).1, hquery]
      exact h.single
    · rw [(lexemes_blank hlead _).2]
      exact hline hnl
    · rw [List.getLast?_append, List.getLast?_eq_some_getLast hinner] at hc
      rw [List.getLast?_eq_some_getLast hinner]
      exact hc

end

/-- **Intact reads**: a read reaches the engine intact exactly if its semicolons
    stand together at its end and, where no newline precedes the closing
    parenthesis, the query before them does not end in a `--` comment. -/
theorem intact_iff (path : ReadPath) (nested : Bool) (sql : Str) (query : List (Token CodePoint))
    (h : ReadShape nested sql query) : Intact path nested sql query ↔ Wrappable path nested sql :=
  ⟨wrappable_of_intact h, intact_of_wrappable h⟩

/-- The read `select 1;`. -/
def terminatedRead : Str := py "select 1;"

theorem terminatedRead_shape : ReadShape true terminatedRead [.word (py "select"), .word (py "1")] :=
  ⟨rfl, by decide, 1, rfl⟩

theorem intact_iff_terminated :
    Intact (.postgresBuildEmpty quotedIdentifier (py "s") (py "t")) true terminatedRead
        [.word (py "select"), .word (py "1")] ↔
      Wrappable (.postgresBuildEmpty quotedIdentifier (py "s") (py "t")) true terminatedRead :=
  intact_iff _ true terminatedRead _ terminatedRead_shape

/-- **A trailing comment** swallows the closing parenthesis of `CREATE TABLE ... AS
    (...)`, and **a second terminator** stays inside the parentheses of `EXPLAIN`. -/
theorem reads_not_intact :
    (ReadShape true (py "select 1 -- one") [.word (py "select"), .word (py "1")] ∧
      ¬ Intact (.postgresBuildEmpty quotedIdentifier (py "s") (py "t")) true (py "select 1 -- one")
        [.word (py "select"), .word (py "1")]) ∧
    ReadShape true (py "select 1; ;") [.word (py "select"), .word (py "1")] ∧
      ¬ Intact .duckdbCheckBinds true (py "select 1; ;") [.word (py "select"), .word (py "1")] :=
  ⟨⟨⟨rfl, by decide, 0, rfl⟩, by unfold Intact; decide +kernel⟩, ⟨rfl, by decide, 2, rfl⟩,
    by unfold Intact; decide +kernel⟩

end ContinuoRuntime
