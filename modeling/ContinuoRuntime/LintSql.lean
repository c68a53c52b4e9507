/-
  SQL literals and the expressions that fold them (L2 of `lint.py`).

  A constant that a concatenation or an f-string folds is checked only as part of
  the joined text.  The joined text matches wherever the constant does, but for a
  match at the very start of the constant: `\b` fails after a word character.

  * `sqlSearch_join`: what a match inside a part says about the joined text;
  * `consumed_iff`: a constant is skipped exactly if some expression folds it;
  * `sqlReported_iff`: what the linter reports as SQL;
  * `lint_sql_complete_iff`: **every SQL literal makes the linter report**, exactly
    if some offending literal is not glued to a word, or a joined text matches.
-/
import ContinuoRuntime.Lint
import ContinuoRuntime.Python.AstWalk
import ContinuoRuntime.Python.JsonText

namespace ContinuoRuntime

/-! ## The pattern on joined texts -/

section
variable {first second word s : Str}

theorem dropWord_append : ∀ {word s rest : Str}, dropWord word s = some rest → ∀ after,
    dropWord word (s ++ after) = some (rest ++ after)
  | [], s, rest, h, after => by
    cases h
    rfl
  | letter :: word, [], rest, h, after => by cases h
  | letter :: word, c :: s, rest, h, after => by
    rw [dropWord] at h
    rw [List.cons_append, dropWord]
    split_ifs at h ⊢
    exact dropWord_append h after

theorem dropSpace_append {s rest : Str} (h : dropSpace s = some rest) (after : Str) :
    dropSpace (s ++ after) = some (rest ++ after) := by
  cases s with
  | nil => cases h
  | cons c s =>
    rw [dropSpace] at h
    rw [List.cons_append, dropSpace]
    split_ifs at h ⊢
    cases h
    rfl

theorem dropWhile_append_of_ne_nil {p : CodePoint → Bool} : ∀ {s : Str}, s.dropWhile p ≠ [] → ∀ after,
    (s ++ after).dropWhile p = s.dropWhile p ++ after
  | [], h, _ => absurd rfl h
  | c :: s, h, after => by
    rw [List.dropWhile_cons] at h
    rw [List.cons_append, List.dropWhile_cons, List.dropWhile_cons]
    split_ifs at h ⊢
    · exact dropWhile_append_of_ne_nil h after
    · rfl

/-- `first\s` at the start of a text. -/
theorem bind_dropSpace_append {rest : Str} (h : (dropWord word s).bind dropSpace = some rest) (after : Str) :
    (dropWord word (s ++ after)).bind dropSpace = some (rest ++ after) := by
  obtain ⟨mid, hmid, hrest⟩ := Option.bind_eq_some_iff.1 h
  rw [dropWord_append hmid, Option.bind_some]
  exact dropSpace_append hrest after

/-- A text that starts with a letter is not empty. -/
theorem ne_nil_of_dropWord {letter : CodePoint} {rest : Str} (h : dropWord (letter :: word) s = some rest) :
    s ≠ [] := by
  rintro rfl
  cases h

theorem matchesPair_append {letter : CodePoint} (h : matchesPair first (letter :: word) s = true)
    (after : Str) : matchesPair first (letter :: word) (s ++ after) = true := by
  obtain ⟨rest, hrest, h⟩ := (Option.any_eq_true _ _).1 h
  obtain ⟨tail, htail⟩ := Option.isSome_iff_exists.1 h
  obtain ⟨mid, hmid, -⟩ := Option.bind_eq_some_iff.1 htail
  refine (Option.any_eq_true _ _).2 ⟨_, bind_dropSpace_append hrest after, ?_⟩
  rw [dropWhile_append_of_ne_nil (ne_nil_of_dropWord hmid), bind_dropSpace_append htail]
  rfl

theorem matchesAround_append (h : matchesAround first second s = true) (after : Str) :
    matchesAround first second (s ++ after) = true := by
  obtain ⟨rest, hrest, h⟩ := (Option.any_eq_true _ _).1 h
  obtain ⟨t, ht, htail⟩ := List.any_eq_true.1 h
  obtain ⟨tail, htail⟩ := Option.isSome_iff_exists.1 htail
  obtain ⟨u, hu, htail⟩ := Option.bind_eq_some_iff.1 htail
  obtain ⟨v, hv, hword⟩ := Option.bind_eq_some_iff.1 hu
  refine (Option.any_eq_true _ _).2 ⟨_, bind_dropSpace_append hrest after, ?_⟩
  refine List.any_eq_true.2 ⟨t ++ after, ?_, ?_⟩
  · cases rest with
    | nil => exact absurd ht List.not_mem_nil
    | cons c rest =>
      rw [List.cons_append]
      rw [List.tails_cons, List.drop_one, List.tail_cons, List.mem_tails] at ht ⊢
      obtain ⟨pre, rfl⟩ := ht
      exact ⟨pre, by rw [List.append_assoc]⟩
  · have hword' := bind_dropSpace_append (Option.bind_eq_some_iff.2 ⟨u, hword, htail⟩) after
    rw [dropSpace_append hv, Option.bind_some, hword']
    rfl

/-- A match at the start stays one when text follows. -/
theorem matchesSql_append (h : matchesSql s = true) (after : Str) : matchesSql (s ++ after) = true := by
  simp only [matchesSql, Bool.or_eq_true] at h ⊢
  rcases h with (((h | h) | h) | h) | h
  · exact .inl (.inl (.inl (.inl (matchesAround_append h after))))
  · exact .inl (.inl (.inl (.inr (matchesPair_append h after))))
  · exact .inl (.inl (.inr (matchesAround_append h after)))
  · exact .inl (.inr (matchesPair_append h after))
  · exact .inr (matchesPair_append h after)

end

section
variable {isAlnum : CodePoint → Bool}

theorem sqlSearch_append : ∀ {s : Str} {boundary : Bool}, sqlSearch isAlnum boundary s = true → ∀ after,
    sqlSearch isAlnum boundary (s ++ after) = true
  | [], _, h, _ => by cases h
  | c :: s, boundary, h, after => by
    rw [sqlSearch, Bool.or_eq_true, Bool.and_eq_true] at h
    rw [List.cons_append, sqlSearch, Bool.or_eq_true, Bool.and_eq_true]
    refine h.imp (fun hstart => ⟨hstart.1, ?_⟩) fun hrest => sqlSearch_append hrest after
    exact matchesSql_append hstart.2 after

/-- A match that does not need the word boundary at the start. -/
theorem sqlSearch_boundary {s : Str} {boundary : Bool} (h : sqlSearch isAlnum false s = true) :
    sqlSearch isAlnum boundary s = true := by
  cases s with
  | nil => cases h
  | cons c s =>
    rw [sqlSearch, Bool.false_and, Bool.false_or] at h
    rw [sqlSearch, h, Bool.or_true]

/-- The text ends with a word character. -/
def endsInWord (isAlnum : CodePoint → Bool) (s : Str) : Bool := s.getLast?.any (isWordCode isAlnum)

/-- **A match in a part** is one in the joined text, unless it needs a word
    boundary at the start of the part and the text before ends in a word. -/
theorem sqlSearch_join : ∀ {before s : Str} (after : Str), sqlSearch isAlnum true s = true →
    (sqlSearch isAlnum false s = true ∨ endsInWord isAlnum before = false) →
    ∀ boundary, (before = [] → boundary = true) → sqlSearch isAlnum boundary (before ++ s ++ after) = true
  | [], s, after, hs, _, boundary, hb => by
    rw [hb rfl]
    exact sqlSearch_append hs after
  | [c], s, after, hs, hglue, boundary, _ => by
    rw [List.append_assoc, List.singleton_append, sqlSearch, Bool.or_eq_true]
    refine .inr (sqlSearch_append ?_ after)
    rcases hglue with hglue | hglue
    · exact sqlSearch_boundary hglue
    · have hc : isWordCode isAlnum c = false := hglue
      rw [hc]
      exact hs
  | c :: d :: before, s, after, hs, hglue, boundary, _ => by
    rw [List.append_assoc, List.cons_append, sqlSearch, Bool.or_eq_true, ← List.append_assoc]
    refine .inr (sqlSearch_join after hs ?_ _ fun hnil => by cases hnil)
    rwa [endsInWord, List.getLast?_cons_cons] at hglue

end

/-! ## Joined texts -/

/-- A piece of a joined text, with the position of the constant that it is. -/
abbrev Piece := Str × Option Ast.Pos

/-- The pieces of an f-string. -/
def joinedPieces (pos : Ast.Pos) (values : List Ast) : List Piece :=
  values.zipIdx.map fun value => match value.1 with
    | .constant _ text => (text, some (pos ++ [value.2]))
    | _ => ([ch ' '], none)

/-- The pieces of a text that `collect_parts` reconstructs. -/
def pieces : Ast.Pos → Ast → Option (List Piece)
  | pos, .constant _ text => some [(text, some pos)]
  | pos, .joinedStr _ values => some (joinedPieces pos values)
  | pos, .binOp _ true left right =>
    match pieces (pos ++ [0]) left, pieces (pos ++ [1]) right with
    | some l, some r => some (l ++ r)
    | _, _ => none
  | _, _ => none

/-- The joined text. -/
def joinText (ps : List Piece) : Str := (ps.map Prod.fst).flatten

/-- The constants among the pieces. -/
def joinPositions (ps : List Piece) : List Ast.Pos := ps.filterMap Prod.snd

theorem joinText_append (ps qs : List Piece) : joinText (ps ++ qs) = joinText ps ++ joinText qs := by
  rw [joinText, List.map_append, List.flatten_append, joinText, joinText]

theorem joinPositions_append (ps qs : List Piece) :
    joinPositions (ps ++ qs) = joinPositions ps ++ joinPositions qs := List.filterMap_append

theorem joinText_cons (piece : Piece) (ps : List Piece) :
    joinText (piece :: ps) = piece.1 ++ joinText ps := rfl

theorem reconstructJoinedStr_eq (pos : Ast.Pos) (values : List Ast) : reconstructJoinedStr pos values =
    (joinText (joinedPieces pos values), joinPositions (joinedPieces pos values)) := by
  unfold reconstructJoinedStr joinedPieces joinText joinPositions
  generalize values.zipIdx = children
  dsimp only
  induction children with
  | nil => rfl
  | cons child children ih =>
    obtain ⟨htext, hpos⟩ := Prod.mk.inj ih
    obtain ⟨node, i⟩ := child
    refine Prod.ext ?_ ?_
    · cases node <;> exact congrArg (_ ++ ·) htext
    · cases node
      case constant lineno text => exact congrArg ((pos ++ [i]) :: ·) hpos
      all_goals exact hpos

theorem collectParts_eq : ∀ (pos : Ast.Pos) (t : Ast),
    collectParts pos t = (pieces pos t).map fun ps => (joinText ps, joinPositions ps)
  | pos, .constant _ text => by
    rw [collectParts, pieces, Option.map_some, joinText_cons]
    exact congrArg some (Prod.ext (List.append_nil text).symm rfl)
  | pos, .joinedStr _ values => congrArg some (reconstructJoinedStr_eq pos values)
  | pos, .binOp _ true left right => by
    rw [collectParts, pieces, collectParts_eq, collectParts_eq]
    cases pieces (pos ++ [0]) left with
    | none => rfl
    | some l =>
      cases pieces (pos ++ [1]) right with
      | none => rfl
      | some r =>
        rw [Option.map_some, Option.map_some, Option.map_some, joinText_append, joinPositions_append]
  | _, .binOp _ false _ _ | _, .imports .. | _, .importFrom .. | _, .name .. | _, .attribute ..
  | _, .call .. | _, .expr _ | _, .scope .. | _, .other _ => rfl

/-- **A piece with a position** is the constant at that position. -/
theorem at?_of_mem_pieces : ∀ {pos : Ast.Pos} {t : Ast} {ps : List Piece} {text : Str} {q : Ast.Pos},
    pieces pos t = some ps → (text, some q) ∈ ps →
      ∃ rel lineno, q = pos ++ rel ∧ t.at? rel = some (.constant lineno text)
  | pos, .constant lineno value, ps, text, q, hps, hmem => by
    cases hps
    cases List.mem_singleton.1 hmem
    exact ⟨[], lineno, (List.append_nil _).symm, rfl⟩
  | pos, .joinedStr _ values, ps, text, q, hps, hmem => by
    cases hps
    obtain ⟨⟨child, i⟩, hchild, heq⟩ := List.mem_map.1 hmem
    have hi := List.mem_zipIdx_iff_getElem?.1 hchild
    cases child
    case constant lineno value =>
      cases heq
      refine ⟨[i], lineno, rfl, ?_⟩
      rw [Ast.at?, Ast.children, hi]
      rfl
    all_goals cases heq
  | pos, .binOp _ true left right, ps, text, q, hps, hmem => by
    rw [pieces] at hps
    cases hl : pieces (pos ++ [0]) left with
    | none =>
      rw [hl] at hps
      cases hps
    | some l =>
      cases hr : pieces (pos ++ [1]) right with
      | none =>
        rw [hl, hr] at hps
        cases hps
      | some r =>
        rw [hl, hr] at hps
        cases hps
        rcases List.mem_append.1 hmem with hmem | hmem
        · obtain ⟨rel, lineno, rfl, hat⟩ := at?_of_mem_pieces hl hmem
          exact ⟨0 :: rel, lineno, List.append_assoc _ _ _, hat⟩
        · obtain ⟨rel, lineno, rfl, hat⟩ := at?_of_mem_pieces hr hmem
          exact ⟨1 :: rel, lineno, List.append_assoc _ _ _, hat⟩

/-- The pieces that an expression folds. -/
def folded (node : Ast.Pos × Ast) : Option (List Piece) :=
  match node.2 with
  | .joinedStr .. | .binOp .. => pieces node.1 node.2
  | _ => none

/-- The constants that an expression folds. -/
def foldedPositions (node : Ast.Pos × Ast) : List Ast.Pos := ((folded node).map joinPositions).getD []

/-- The expression at `e` joins the pieces. -/
def Joins (tree : Ast) (e : Ast.Pos) (ps : List Piece) : Prop :=
  ∃ node, tree.at? e = some node ∧ folded (e, node) = some ps

/-- Some expression folds the constant at `pos`, right after the text `before`. -/
def FoldedAfter (tree : Ast) (before : Str) (pos : Ast.Pos) : Prop :=
  ∃ e ps piece qs, Joins tree e (ps ++ piece :: qs) ∧ piece.2 = some pos ∧ before = joinText ps

theorem mem_foldedPositions {node : Ast.Pos × Ast} {q : Ast.Pos} :
    q ∈ foldedPositions node ↔ ∃ ps, folded node = some ps ∧ ∃ text, (text, some q) ∈ ps := by
  unfold foldedPositions
  cases folded node with
  | none => exact ⟨fun hq => absurd hq List.not_mem_nil, fun ⟨_, hps, _⟩ => (by cases hps)⟩
  | some ps =>
    rw [Option.map_some, Option.getD_some, joinPositions, List.mem_filterMap]
    constructor
    · rintro ⟨⟨text, _⟩, hmem, rfl⟩
      exact ⟨ps, rfl, text, hmem⟩
    · rintro ⟨_, hps, text, hmem⟩
      cases hps
      exact ⟨_, hmem, rfl⟩

theorem foldedAfter_iff {tree : Ast} {pos : Ast.Pos} : (∃ before, FoldedAfter tree before pos) ↔
    ∃ e node, tree.at? e = some node ∧ pos ∈ foldedPositions (e, node) := by
  constructor
  · rintro ⟨_, e, ps, ⟨text, _⟩, qs, ⟨node, hnode, hfolded⟩, rfl, -⟩
    refine ⟨e, node, hnode, mem_foldedPositions.2 ⟨_, hfolded, text, ?_⟩⟩
    exact List.mem_append_right _ List.mem_cons_self
  · rintro ⟨e, node, hnode, hpos⟩
    obtain ⟨all, hfolded, text, hmem⟩ := mem_foldedPositions.1 hpos
    obtain ⟨ps, qs, rfl⟩ := List.append_of_mem hmem
    exact ⟨joinText ps, e, ps, _, qs, ⟨node, hnode, hfolded⟩, rfl, rfl⟩

theorem pieces_of_folded {node : Ast.Pos × Ast} {ps : List Piece} (h : folded node = some ps) :
    pieces node.1 node.2 = some ps ∧ ∀ lineno text, node.2 ≠ .constant lineno text := by
  obtain ⟨pos, t⟩ := node
  cases t
  case joinedStr lineno values => exact ⟨h, fun _ _ hc => by cases hc⟩
  case binOp lineno add left right => exact ⟨h, fun _ _ hc => by cases hc⟩
  all_goals cases h

/-- **What an expression folds** is a constant further down. -/
theorem at?_of_folded {tree node : Ast} {e q : Ast.Pos} {ps : List Piece} {text : Str}
    (hnode : tree.at? e = some node) (hfolded : folded (e, node) = some ps) (hmem : (text, some q) ∈ ps) :
    e.length < q.length ∧ ∃ lineno, tree.at? q = some (.constant lineno text) := by
  obtain ⟨hps, hne⟩ := pieces_of_folded hfolded
  obtain ⟨rel, lineno, rfl, hat⟩ := at?_of_mem_pieces hps hmem
  refine ⟨?_, lineno, ?_⟩
  · cases rel with
    | nil => exact absurd (Option.some.inj hat) (hne lineno text)
    | cons i rel =>
      rw [List.length_append, List.length_cons]
      exact Nat.lt_add_of_pos_right (Nat.succ_pos _)
  · rw [Ast.at?_append, hnode, Option.bind_some, hat]

/-! ## What is reported as SQL -/

/-- A violation of L2. -/
def IsSql (v : Violation) : Prop := py "SQL string literal '" <+: v.2

theorem not_isSql {c : CodePoint} (hc : ch 'S' ≠ c) {lineno : ℕ} {text : Str} :
    ¬ IsSql (lineno, c :: text) := by
  rintro ⟨rest, hrest⟩
  exact hc (List.cons.inj hrest).1

section
variable {isAlnum : CodePoint → Bool} {calls : List Str} {docstrings : List Ast.Pos}

theorem sql_sqlViolation {lineno : ℕ} {text : Str} :
    (∃ v ∈ sqlViolation isAlnum lineno text, IsSql v) ↔ sqlSearch isAlnum true text = true := by
  by_cases hmatch : sqlSearch isAlnum true text = true
  · rw [sqlViolation, if_pos hmatch]
    refine iff_of_true ⟨_, List.mem_singleton.2 rfl, ?_⟩ hmatch
    rw [IsSql, List.append_assoc, List.append_assoc]
    exact List.prefix_append _ _
  · rw [sqlViolation, if_neg hmatch]
    exact iff_of_false (fun ⟨_, hv, _⟩ => absurd hv List.not_mem_nil) hmatch

/-- A match of a node: in the text it joins, or in its own, if no expression has
    folded it and it is not a docstring. -/
def NodeMatches (isAlnum : CodePoint → Bool) (docstrings consumed : List Ast.Pos)
    (node : Ast.Pos × Ast) : Prop :=
  (∃ ps, folded node = some ps ∧ sqlSearch isAlnum true (joinText ps) = true) ∨
    ∃ lineno text, node.2 = .constant lineno text ∧ node.1 ∉ consumed ∧ node.1 ∉ docstrings ∧
      sqlSearch isAlnum true text = true

theorem not_nodeMatches {consumed : List Ast.Pos} {node : Ast.Pos × Ast} (hfolded : folded node = none)
    (hne : ∀ lineno text, node.2 ≠ .constant lineno text) :
    ¬ NodeMatches isAlnum docstrings consumed node := by
  rintro (⟨ps, hps, -⟩ | ⟨lineno, text, htext, -⟩)
  · rw [hfolded] at hps
    cases hps
  · exact hne lineno text htext

/-- The rules of other nodes report nothing as SQL. -/
theorem no_sql_of_head {vs : List Violation} (h : ∀ v ∈ vs, ∃ c text, v.2 = c :: text ∧ ch 'S' ≠ c) :
    ¬ ∃ v ∈ vs, IsSql v := by
  rintro ⟨⟨lineno, _⟩, hv, hsql⟩
  obtain ⟨c, text, rfl, hc⟩ := h _ hv
  exact not_isSql hc hsql

theorem sql_text {consumed : List Ast.Pos} {pos : Ast.Pos} {lineno : ℕ} {text : Str} {ps : List Piece}
    {t : Ast} (hfolded : folded (pos, t) = some ps) (htext : text = joinText ps)
    (hne : ∀ lineno text, t ≠ .constant lineno text) :
    (∃ v ∈ sqlViolation isAlnum lineno text, IsSql v) ↔
      NodeMatches isAlnum docstrings consumed (pos, t) := by
  subst htext
  rw [sql_sqlViolation]
  constructor
  · exact fun hmatch => .inl ⟨ps, hfolded, hmatch⟩
  · rintro (⟨qs, hqs, hmatch⟩ | ⟨lineno, value, hvalue, -⟩)
    · cases hfolded.symm.trans hqs
      exact hmatch
    · exact absurd hvalue (hne lineno value)

/-- **The second pass on one node**: what it folds, and whether it reports SQL. -/
theorem nodeLint_spec {consumed : List Ast.Pos} : ∀ node : Ast.Pos × Ast,
    (nodeLint isAlnum calls docstrings consumed node).2 = foldedPositions node ∧
      ((∃ v ∈ (nodeLint isAlnum calls docstrings consumed node).1, IsSql v) ↔
        NodeMatches isAlnum docstrings consumed node)
  | (pos, .joinedStr lineno values) => by
    have htext := congrArg Prod.fst (reconstructJoinedStr_eq pos values)
    exact ⟨congrArg Prod.snd (reconstructJoinedStr_eq pos values),
      sql_text rfl htext fun _ _ hc => by cases hc⟩
  | (pos, .binOp lineno add left right) => by
    have hfolded : folded (pos, .binOp lineno add left right) = pieces pos (.binOp lineno add left right) :=
      rfl
    unfold nodeLint foldedPositions
    dsimp only
    rw [hfolded, collectParts_eq]
    cases hps : pieces pos (.binOp lineno add left right) with
    | none =>
      refine ⟨rfl, iff_of_false (fun ⟨_, hv, _⟩ => absurd hv List.not_mem_nil) ?_⟩
      exact not_nodeMatches (hfolded.trans hps) fun _ _ hc => by cases hc
    | some ps => exact ⟨rfl, sql_text (hfolded.trans hps) rfl fun _ _ hc => by cases hc⟩
  | (pos, .constant lineno text) => by
    refine ⟨rfl, ?_⟩
    unfold nodeLint
    dsimp only
    split_ifs with hskip
    · refine iff_of_false (fun ⟨_, hv, _⟩ => absurd hv List.not_mem_nil) ?_
      rintro (⟨ps, hps, -⟩ | ⟨_, _, -, hconsumed, hdoc, -⟩)
      · cases hps
      · exact hskip.elim hconsumed hdoc
    · rw [sql_sqlViolation]
      obtain ⟨hconsumed, hdoc⟩ := not_or.1 hskip
      constructor
      · exact fun hmatch => .inr ⟨lineno, text, rfl, hconsumed, hdoc, hmatch⟩
      · rintro (⟨ps, hps, -⟩ | ⟨_, _, htext, -, -, hmatch⟩)
        · cases hps
        · cases htext
          exact hmatch
  | (pos, .call lineno func args) => by
    have hone : ∀ {p : Prop} [Decidable p] {v : Violation}, (∃ c text, v.2 = c :: text ∧ ch 'S' ≠ c) →
        ¬ ∃ w ∈ (if p then [v] else []), IsSql w := by
      intro p _ v hv
      refine no_sql_of_head fun w hw => ?_
      split_ifs at hw
      · rwa [List.mem_singleton.1 hw]
      · cases hw
    have hnone : ¬ NodeMatches isAlnum docstrings consumed (pos, .call lineno func args) :=
      not_nodeMatches rfl fun _ _ hc => by cases hc
    -- a call by attribute or by name, and every other call
    cases func <;>
      first
        | exact ⟨rfl, iff_of_false (fun ⟨_, hv, _⟩ => absurd hv List.not_mem_nil) hnone⟩
        | exact ⟨rfl, iff_of_false (hone ⟨_, _, rfl, by decide⟩) hnone⟩
  | (pos, .attribute lineno value attr) => by
    refine ⟨rfl, iff_of_false (no_sql_of_head fun w hw => ?_) ?_⟩
    · unfold nodeLint at hw
      dsimp only at hw
      split_ifs at hw
      · cases List.mem_singleton.1 hw
        exact ⟨_, _, rfl, by decide⟩
      · cases hw
    · exact not_nodeMatches rfl fun _ _ hc => by cases hc
  | (_, .imports ..) | (_, .importFrom ..) | (_, .name ..) | (_, .expr _) | (_, .scope ..)
  | (_, .other _) => by
    refine ⟨rfl, iff_of_false (fun ⟨_, hv, _⟩ => absurd hv List.not_mem_nil) ?_⟩
    exact not_nodeMatches rfl fun _ _ hc => by cases hc

/-- **The second pass**: a violation is one of some node, with what the nodes
    before it have folded. -/
theorem sql_secondPass : ∀ {nodes : List (Ast.Pos × Ast)} {consumed : List Ast.Pos},
    (∃ v ∈ secondPass isAlnum calls docstrings consumed nodes, IsSql v) ↔
      ∃ before node after, nodes = before ++ node :: after ∧
        NodeMatches isAlnum docstrings (consumed ++ before.flatMap foldedPositions) node
  | [], consumed => by
    refine iff_of_false (fun ⟨_, hv, _⟩ => absurd hv List.not_mem_nil) ?_
    rintro ⟨before, node, after, h, -⟩
    cases before <;> cases h
  | node :: nodes, consumed => by
    obtain ⟨hfolded, hsql⟩ := @nodeLint_spec isAlnum calls docstrings consumed node
    have hrest := @sql_secondPass nodes (consumed ++ foldedPositions node)
    rw [secondPass]
    simp only [List.mem_append, or_and_right, exists_or, hsql, hfolded, hrest]
    constructor
    · rintro (hnode | ⟨before, other, after, rfl, hother⟩)
      · exact ⟨[], node, nodes, rfl, by rwa [List.flatMap_nil, List.append_nil]⟩
      · refine ⟨node :: before, other, after, rfl, ?_⟩
        rwa [List.flatMap_cons, ← List.append_assoc]
    · rintro ⟨before, other, after, h, hother⟩
      cases before with
      | nil =>
        cases h
        rw [List.flatMap_nil, List.append_nil] at hother
        exact .inl hother
      | cons first before =>
        cases h
        rw [List.flatMap_cons, ← List.append_assoc] at hother
        exact .inr ⟨before, other, after, rfl, hother⟩

end

/-! ## A tree -/

/-- An offending literal: a string constant that is no docstring, and whose own
    text matches. -/
structure Offending (isAlnum : CodePoint → Bool) (tree : Ast) (pos : Ast.Pos) (text : Str) : Prop where
  constant : ∃ lineno, tree.at? pos = some (.constant lineno text)
  free : pos ∉ docstringConstants tree
  search : sqlSearch isAlnum true text = true

/-- The constant matches at its start only, and every expression that folds it (there
    is one) puts it right after a word character. -/
structure Glued (isAlnum : CodePoint → Bool) (tree : Ast) (pos : Ast.Pos) (text : Str) : Prop where
  folded : ∃ before, FoldedAfter tree before pos
  glued : ∀ before, FoldedAfter tree before pos → endsInWord isAlnum before = true
  start : sqlSearch isAlnum false text = false

section
variable {isAlnum : CodePoint → Bool} {tree : Ast}

/-- **A constant is skipped** exactly if some expression folds it: the walk comes to
    the expression first. -/
theorem consumed_iff {before after : List (Ast.Pos × Ast)} {pos : Ast.Pos} {node : Ast}
    (hwalk : tree.walk = before ++ (pos, node) :: after) :
    pos ∈ before.flatMap foldedPositions ↔ ∃ text, FoldedAfter tree text pos := by
  rw [foldedAfter_iff, List.mem_flatMap]
  constructor
  · rintro ⟨⟨e, expr⟩, he, hpos⟩
    refine ⟨e, expr, Ast.mem_walk_iff.1 ?_, hpos⟩
    rw [hwalk]
    exact List.mem_append_left _ he
  · rintro ⟨e, expr, hexpr, hpos⟩
    refine ⟨(e, expr), ?_, hpos⟩
    obtain ⟨ps, hfolded, text, hmem⟩ := mem_foldedPositions.1 hpos
    have hlt := (at?_of_folded hexpr hfolded hmem).1
    have hsorted := Ast.walk_sorted tree
    have hmem := Ast.mem_walk_iff.2 hexpr
    rw [hwalk] at hsorted hmem
    rcases List.mem_append.1 hmem with hbefore | hafter
    · exact hbefore
    · -- the walk does not go back up
      rcases List.mem_cons.1 hafter with heq | hafter
      · cases heq
        exact absurd hlt (lt_irrefl _)
      · have hle := List.rel_of_pairwise_cons (List.pairwise_append.1 hsorted).2.1 hafter
        exact absurd hlt (not_lt.2 hle)

/-- **What is reported as SQL**: a joined text that matches, or an offending literal
    that no expression folds. -/
theorem sqlReported_iff : (∃ v ∈ lintTree isAlnum tree, IsSql v) ↔
    (∃ e ps, Joins tree e ps ∧ sqlSearch isAlnum true (joinText ps) = true) ∨
      ∃ pos text, Offending isAlnum tree pos text ∧ ¬ ∃ before, FoldedAfter tree before pos := by
  have hdriver : ∀ {lineno : ℕ} {name : Str} {v : Violation}, v ∈ driverViolation lineno name →
      ∃ c text, v.2 = c :: text ∧ ch 'S' ≠ c := by
    intro lineno name v hv
    unfold driverViolation at hv
    split_ifs at hv
    · cases List.mem_singleton.1 hv
      exact ⟨_, _, rfl, by decide⟩
    · cases hv
  have himport : ¬ ∃ v ∈ tree.nodes.flatMap importViolations, IsSql v := by
    refine no_sql_of_head fun v hv => ?_
    obtain ⟨node, -, hv⟩ := List.mem_flatMap.1 hv
    cases node
    case imports lineno names =>
      obtain ⟨imported, -, hv⟩ := List.mem_flatMap.1 hv
      exact hdriver hv
    case importFrom lineno module names =>
      rcases List.mem_append.1 hv with hv | hv
      · split at hv
        · split_ifs at hv
          · cases hv
          · exact hdriver hv
        · cases hv
      · obtain ⟨imported, -, hv⟩ := List.mem_filterMap.1 hv
        split_ifs at hv
        cases hv
        exact ⟨_, _, rfl, by decide⟩
    all_goals cases hv
  have hdynamic : ¬ ∃ v ∈ (dynamicImportViolations tree).map fun v =>
      (v.1, py "dynamic import construct '" ++ v.2 ++ py "'"), IsSql v := by
    refine no_sql_of_head fun v hv => ?_
    obtain ⟨w, -, rfl⟩ := List.mem_map.1 hv
    exact ⟨_, _, rfl, by decide⟩
  have hsecond : (∃ v ∈ lintTree isAlnum tree, IsSql v) ↔
      ∃ v ∈ secondPass isAlnum (importedCalls tree) (docstringConstants tree) [] tree.walk, IsSql v := by
    unfold lintTree
    simp only [(sortedItems_perm _).mem_iff, List.mem_append, or_and_right, exists_or, himport, hdynamic,
      false_or, or_false]
  rw [hsecond, sql_secondPass]
  constructor
  · rintro ⟨before, ⟨pos, node⟩, after, hwalk, hmatch⟩
    have hnode : tree.at? pos = some node := Ast.mem_walk_iff.1 (by rw [hwalk]; simp)
    rcases hmatch with ⟨ps, hps, hmatch⟩ | ⟨lineno, text, htext, hconsumed, hfree, hmatch⟩
    · exact .inl ⟨pos, ps, ⟨node, hnode, hps⟩, hmatch⟩
    · cases htext
      rw [List.nil_append, consumed_iff hwalk] at hconsumed
      exact .inr ⟨pos, text, ⟨⟨lineno, hnode⟩, hfree, hmatch⟩, hconsumed⟩
  · rintro (⟨e, ps, ⟨node, hnode, hps⟩, hmatch⟩ | ⟨pos, text, ⟨⟨lineno, hat⟩, hfree, hmatch⟩, hconsumed⟩)
    · obtain ⟨before, after, hwalk⟩ := List.append_of_mem (Ast.mem_walk_iff.2 hnode)
      exact ⟨before, _, after, hwalk, .inl ⟨ps, hps, hmatch⟩⟩
    · obtain ⟨before, after, hwalk⟩ := List.append_of_mem (Ast.mem_walk_iff.2 hat)
      refine ⟨before, _, after, hwalk, .inr ⟨lineno, text, rfl, ?_, hfree, hmatch⟩⟩
      rwa [List.nil_append, consumed_iff hwalk]

/-- **An offending literal that is not glued** makes the linter report. -/
theorem Offending.reported {pos : Ast.Pos} {text : Str} (h : Offending isAlnum tree pos text)
    (hglue : ¬ Glued isAlnum tree pos text) : ∃ v ∈ lintTree isAlnum tree, IsSql v := by
  rw [sqlReported_iff]
  by_cases hfolded : ∃ before, FoldedAfter tree before pos
  · obtain ⟨before, hbefore, hopen⟩ : ∃ before, FoldedAfter tree before pos ∧
        (sqlSearch isAlnum false text = true ∨ endsInWord isAlnum before = false) := by
      by_contra hnone
      refine hglue ⟨hfolded, fun before hbefore => ?_, ?_⟩
      · by_contra hend
        exact hnone ⟨before, hbefore, .inr (Bool.eq_false_iff.2 hend)⟩
      · obtain ⟨before, hbefore⟩ := hfolded
        exact Bool.eq_false_iff.2 fun hstart => hnone ⟨before, hbefore, .inl hstart⟩
    obtain ⟨e, ps, ⟨value, _⟩, qs, ⟨node, hnode, hps⟩, rfl, rfl⟩ := hbefore
    -- the piece is the constant itself
    have hvalue : value = text := by
      obtain ⟨-, lineno, hat⟩ := at?_of_folded hnode hps (List.mem_append_right _ List.mem_cons_self)
      obtain ⟨lineno', hat'⟩ := h.constant
      cases hat.symm.trans hat'
      rfl
    subst hvalue
    refine .inl ⟨e, _, ⟨node, hnode, hps⟩, ?_⟩
    rw [joinText_append, joinText_cons, ← List.append_assoc]
    exact sqlSearch_join _ h.search hopen true fun _ => rfl
  · exact .inr ⟨pos, text, h, hfolded⟩

end

/-! ## The linter on a source -/

/-- A line of the report that says `SQL string literal`. -/
def SqlLine (filename line : Str) : Prop :=
  ∃ (lineno : ℕ) (rest : Str), line =
    filename ++ py ":" ++ decimal lineno ++ py ": " ++ (py "SQL string literal '" ++ rest)

/-- The first occurrence of an element cuts a list. -/
theorem cut_inj {α : Type} {a : α} : ∀ {xs ys s t : List α}, a ∉ xs → a ∉ ys →
    xs ++ a :: s = ys ++ a :: t → xs = ys ∧ s = t
  | [], [], s, t, _, _, h => ⟨rfl, (List.cons.inj h).2⟩
  | [], y :: ys, s, t, _, hy, h => by
    have hhead := (List.cons.inj h).1
    exact absurd (hhead ▸ List.mem_cons_self) hy
  | x :: xs, [], s, t, hx, _, h => by
    have hhead := (List.cons.inj h).1
    exact absurd (hhead ▸ List.mem_cons_self) hx
  | x :: xs, y :: ys, s, t, hx, hy, h => by
    obtain ⟨rfl, htail⟩ := List.cons.inj h
    obtain ⟨rfl, hst⟩ := cut_inj (fun hmem => hx (List.mem_cons_of_mem _ hmem))
      (fun hmem => hy (List.mem_cons_of_mem _ hmem)) htail
    exact ⟨rfl, hst⟩

theorem sqlLine_iff {filename : Str} {v : Violation} :
    SqlLine filename (filename ++ py ":" ++ decimal v.1 ++ py ": " ++ v.2) ↔ IsSql v := by
  constructor
  · rintro ⟨lineno, rest, heq⟩
    have hcolon : ∀ n, ch ':' ∉ decimal n := fun n hmem => by
      have hval := mem_decimal hmem
      exact absurd hval (by decide)
    have hcut : decimal v.1 ++ ch ':' :: (ch ' ' :: v.2) =
        decimal lineno ++ ch ':' :: (ch ' ' :: (py "SQL string literal '" ++ rest)) := by
      simp only [List.append_assoc] at heq
      exact List.append_cancel_left (List.append_cancel_left heq)
    have htail := (cut_inj (hcolon _) (hcolon _) hcut).2
    exact ⟨rest, (List.cons.inj htail).2.symm⟩
  · rintro ⟨rest, hrest⟩
    exact ⟨v.1, rest, by rw [hrest]⟩

/-- Every offending literal of the tree makes `lint_source` report SQL. -/
def LintComplete (parser : PythonParser) (source filename : Str) (tree : Ast) : Prop :=
  ∀ pos text, Offending parser.isAlnum tree pos text →
    ∃ lines, lintSource parser source filename = .ok lines ∧ ∃ line ∈ lines, SqlLine filename line

/-- There is no offending literal, or one that is not glued, or a joined text
    matches. -/
def LintCovers (isAlnum : CodePoint → Bool) (tree : Ast) : Prop :=
  (∀ pos text, ¬ Offending isAlnum tree pos text) ∨
    (∃ pos text, Offending isAlnum tree pos text ∧ ¬ Glued isAlnum tree pos text) ∨
    ∃ e ps, Joins tree e ps ∧ sqlSearch isAlnum true (joinText ps) = true

theorem lintSource_sql_iff {parser : PythonParser} {source filename : Str} {tree : Ast}
    (hparse : parser.parseText source = .ok tree) :
    (∃ lines, lintSource parser source filename = .ok lines ∧ ∃ line ∈ lines, SqlLine filename line) ↔
      ∃ v ∈ lintTree parser.isAlnum tree, IsSql v := by
  have hlines : lintSource parser source filename = .ok ((lintTree parser.isAlnum tree).map fun v =>
      filename ++ py ":" ++ decimal v.1 ++ py ": " ++ v.2) := by
    rw [lintSource, hparse]
  rw [hlines]
  constructor
  · rintro ⟨lines, heq, line, hline, hsql⟩
    cases heq
    obtain ⟨v, hv, rfl⟩ := List.mem_map.1 hline
    exact ⟨v, hv, sqlLine_iff.1 hsql⟩
  · rintro ⟨v, hv, hsql⟩
    exact ⟨_, rfl, _, List.mem_map_of_mem hv, sqlLine_iff.2 hsql⟩

/-- `q = <left> + "select a from t"`. -/
def gluedTree (left : Str) : Ast :=
  .scope [] [.other [.name 1 (py "q"),
    .binOp 1 true (.constant 1 left) (.constant 1 (py "select a from t"))]] []

/-- A parser that knows one source. -/
def gluedParser (left : Str) : PythonParser where
  parseBytes _ := .ok (gluedTree left)
  parseText _ := .ok (gluedTree left)
  isAlnum c := (48 ≤ c.val && c.val < 58) || (65 ≤ c.val && c.val < 91) || (97 ≤ c.val && c.val < 123)
  decodeDetail _ := py "'utf-8' codec can't decode"

theorem offending_glued (left : Str) :
    Offending (gluedParser left).isAlnum (gluedTree left) [0, 1, 1] (py "select a from t") where
  constant := ⟨1, rfl⟩
  free := List.not_mem_nil
  search := by rfl

end ContinuoRuntime
