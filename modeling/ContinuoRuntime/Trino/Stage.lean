/-
  Writing a stage: what `createStage` and `insertBatches` leave, and `dropStage` behind
  them.

  * `createStage_triple`, `insertBatches_triple`: only the stage changes, and in the end
    it has every row once, in order;
  * `dropStage_triple`: it raises nothing.
-/
import ContinuoRuntime.Trino.Writes

namespace ContinuoRuntime

variable {server : TrinoServer}

/-! ## One statement -/

/-- A statement is refused, or returns with its effect, or fails. -/
theorem executeTrino_triple {stmt : TrinoStatement} {P Q : TrinoSession → Prop} {R : Exc → TrinoSession → Prop}
    (hrefused : ∀ s, P s → stmt.apply server.eq s.tables = none → ∀ e, e.cls.isException = true →
      R e (s.log ⟨stmt, some e, false, s.tables⟩))
    (hok : ∀ s tables, P s → stmt.apply server.eq s.tables = some tables → Q (s.log ⟨stmt, none, true, tables⟩))
    (hfault : ∀ s tables, P s → stmt.apply server.eq s.tables = some tables → ∀ e took, e.cls.isException = true →
      R e (s.log ⟨stmt, some e, took, if took then tables else s.tables⟩)) :
    Prog.Triple P (executeTrino server stmt) (fun _ => Q) R := by
  intro s hs
  unfold executeTrino
  cases happly : stmt.apply server.eq s.tables with
  | none =>
    refine ⟨fun a s' h => (by cases h), fun e s' h => ?_⟩
    cases h
    exact hrefused s hs happly _ (server.refusal stmt).property
  | some tables =>
    dsimp only
    cases hfaults : server.faults s.events stmt with
    | none =>
      refine ⟨fun a s' h => ?_, fun e s' h => (by cases h)⟩
      cases h
      exact hok s tables hs happly
    | some fault =>
      refine ⟨fun a s' h => (by cases h), fun e s' h => ?_⟩
      cases h
      exact hfault s tables hs happly fault.exc fault.tookEffect fault.exception

/-! ## The stage -/

/-- The statements of `createStage` and `insertBatches`. -/
def TrinoStatement.fills (stage : Str) : TrinoStatement → Bool
  | selectLocation _ => true
  | createLike table _ _ => table == stage
  | insertValues table _ _ _ => table == stage
  | _ => false

/-- Only the stage has changed so far. -/
structure Staging (base : TrinoTables) (stage : Str) (ref : Option Str) (s : TrinoSession) : Prop where
  tables : ∀ name, name ≠ stage → s.tables name = base name
  moments : ∀ ev ∈ s.events, ∀ name, name ≠ stage → ev.after name = base name
  stmts : ∀ ev ∈ s.events, ev.stmt.fills stage = true
  ref : s.stageRef = ref

/-- So far every statement has returned, and this is the stage. -/
structure Staged (base : TrinoTables) (stage : Str) (ref : Option Str) (content : Option (List TableRow))
    (s : TrinoSession) : Prop extends Staging base stage ref s where
  content : s.tables stage = content
  returned : ∀ ev ∈ s.events, ev.raised = none

/-- Every statement that raised has failed without effect. -/
def NoneTookEffect (events : List TrinoEvent) : Prop := ∀ ev ∈ events, ev.raised ≠ none → ev.applied = false

section
variable {base : TrinoTables} {stage : Str} {ref : Option Str}

/-- A statement that fills the stage is sent. -/
theorem Staging.log {s : TrinoSession} (h : Staging base stage ref s) {ev : TrinoEvent}
    (hstmt : ev.stmt.fills stage = true) (hafter : ∀ name, name ≠ stage → ev.after name = base name) :
    Staging base stage ref (s.log ev) where
  tables := hafter
  moments ev' hev := (List.mem_append.1 hev).elim (h.moments ev') fun hev => List.mem_singleton.1 hev ▸ hafter
  stmts ev' hev := (List.mem_append.1 hev).elim (h.stmts ev') fun hev => List.mem_singleton.1 hev ▸ hstmt
  ref := h.ref

theorem Staged.log {s : TrinoSession} {content content' : Option (List TableRow)}
    (h : Staged base stage ref content s) {stmt : TrinoStatement} {after : TrinoTables}
    (hstmt : stmt.fills stage = true) (hafter : ∀ name, name ≠ stage → after name = base name)
    (hcontent : after stage = content') : Staged base stage ref content' (s.log ⟨stmt, none, true, after⟩) where
  toStaging := h.toStaging.log hstmt hafter
  content := hcontent
  returned ev hev := (List.mem_append.1 hev).elim (h.returned ev) fun hev => List.mem_singleton.1 hev ▸ rfl

/-- A statement that fills the stage: without effect, it leaves the stage as it was. -/
theorem fill_triple {stmt : TrinoStatement} (hstmt : stmt.fills stage = true)
    {content content' : Option (List TableRow)}
    (happly : ∀ tables tables', (∀ name, name ≠ stage → tables name = base name) → tables stage = content →
      stmt.apply server.eq tables = some tables' →
      (∀ name, name ≠ stage → tables' name = base name) ∧ tables' stage = content') :
    Prog.Triple (Staged base stage ref content) (executeTrino server stmt)
      (fun _ => Staged base stage ref content') fun _ s =>
        Staging base stage ref s ∧ (NoneTookEffect s.events → s.tables stage = content) := by
  refine executeTrino_triple (fun s hs _ e _ => ?_) (fun s tables hs htables => ?_) fun s tables hs htables e took _ => ?_
  · exact ⟨hs.toStaging.log hstmt hs.tables, fun _ => hs.content⟩
  · obtain ⟨hothers, hcontent⟩ := happly s.tables tables hs.tables hs.content htables
    exact hs.log hstmt hothers hcontent
  · obtain ⟨hothers, -⟩ := happly s.tables tables hs.tables hs.content htables
    refine ⟨hs.toStaging.log hstmt ?_, fun hquiet => ?_⟩
    · cases took with
      | true => exact hothers
      | false => exact hs.tables
    · have htook : took = false := hquiet _ (List.mem_append_right _ List.mem_cons_self) nofun
      rw [htook]
      exact hs.content

/-- The start of a method. -/
structure Fresh (base : TrinoTables) (stage : Str) (ref : Option Str) (s : TrinoSession) : Prop where
  tables : s.tables = base
  events : s.events = []
  absent : base stage = none
  ref : s.stageRef = ref

theorem Fresh.staged {s : TrinoSession} (h : Fresh base stage ref s) : Staged base stage ref none s where
  tables name _ := by rw [h.tables]
  moments ev hev := by rw [h.events] at hev; cases hev
  stmts ev hev := by rw [h.events] at hev; cases hev
  ref := h.ref
  content := by rw [h.tables, h.absent]
  returned ev hev := by rw [h.events] at hev; cases hev

/-- What raises before the statement that creates the stage. -/
abbrev Unstaged (base : TrinoTables) (stage : Str) (ref : Option Str) (_ : Exc) (s : TrinoSession) : Prop :=
  Staging base stage ref s ∧ (NoneTookEffect s.events → s.tables stage = none)

theorem lift_staged {α : Type} {x : Except Exc α} {content : Option (List TableRow)} :
    Prog.Triple (Staged base stage ref content) (Prog.lift x) (fun _ => Staged base stage ref content)
      fun _ s => Staging base stage ref s ∧ (NoneTookEffect s.events → s.tables stage = content) :=
  Prog.Triple.lift (fun _ _ _ hs => hs) fun _ _ _ hs => ⟨hs.toStaging, fun _ => hs.content⟩

/-- **The stage is created**, empty. -/
theorem createStage_triple {catalog schema table token : Str} (hstage : stage = stagePrefix ++ token) :
    Prog.Triple (Fresh base stage ref) (createStage server catalog schema table token)
      (fun name s => name = stage ∧ Staged base stage ref (some []) s) (Unstaged base stage ref) := by
  subst hstage
  refine Prog.Triple.mono ?_ (fun s hs => hs.staged) (fun _ _ hs => hs) fun _ _ hs => hs
  refine Prog.Triple.bind lift_staged fun _ => Prog.Triple.bind lift_staged fun _ => ?_
  refine Prog.Triple.bind (Q := fun _ => Staged base (stagePrefix ++ token) ref none) ?_ fun location => ?_
  · refine Prog.Triple.bind lift_staged fun _ => Prog.Triple.bind (fill_triple rfl ?_) fun _ => lift_staged
    intro tables tables' hothers hcontent happly
    obtain ⟨_, _, rfl⟩ := Option.map_eq_some_iff.1 happly
    exact ⟨hothers, hcontent⟩
  refine Prog.Triple.bind lift_staged fun stageLocation => ?_
  refine Prog.Triple.bind (Q := fun _ => Staged base (stagePrefix ++ token) ref (some [])) (fill_triple ?_ ?_)
    fun _ => Prog.Triple.pure fun s hs => ⟨rfl, hs⟩
  · exact beq_self_eq_true _
  · intro tables tables' hothers hcontent happly
    rw [TrinoStatement.apply] at happly
    split_ifs at happly
    cases happly
    exact ⟨fun name hname => (Function.update_of_ne hname _ _).trans (hothers name hname), Function.update_self ..⟩

/-! ## The rows -/

theorem length_toPylist (data : ArrowTable) : data.toPylist.length = data.numRows := List.length_ofFn

/-- A row has nothing but the columns of the table. -/
theorem toPylist_within {data : ArrowTable} {row : TableRow} (h : row ∈ data.toPylist) {c : Str}
    (hc : c ∉ data.columnNames) : row c = none := by
  obtain ⟨i, rfl⟩ := (List.mem_ofFn' _ _).1 h
  have hnone : data.columns.filter (fun column => column.name = c) = [] :=
    List.filter_eq_nil_iff.2 fun column hcolumn hname =>
      hc (List.mem_map.2 ⟨column, hcolumn, of_decide_eq_true hname⟩)
  dsimp only
  rw [hnone]
  rfl

theorem tuplesOf_flatMap {width : ℕ} {f : TableRow → List (Option ArrowValue)} (hf : ∀ row, (f row).length = width) :
    ∀ rows : List TableRow, tuplesOf width rows.length (rows.flatMap f) = rows.map f
  | [] => rfl
  | row :: rows => by
    rw [List.length_cons, tuplesOf, List.flatMap_cons, List.map_cons, List.take_left' (hf row),
      List.drop_left' (hf row), tuplesOf_flatMap hf rows]

theorem lookup_zip_map {f : Str → Option ArrowValue} {c : Str} : ∀ columns : List Str,
    (columns.zip (columns.map f)).lookup c = if c ∈ columns then some (f c) else none
  | [] => rfl
  | column :: columns => by
    rw [List.map_cons, List.zip_cons_cons, List.lookup_cons, lookup_zip_map columns]
    by_cases hc : c = column
    · subst hc
      simp
    · rw [beq_eq_false_iff_ne.2 hc]
      simp [hc]

/-- The row of a tuple of its columns is the row. -/
theorem tupleRow_map {columns : List Str} {row : TableRow} (h : ∀ c, c ∉ columns → row c = none) :
    tupleRow columns (columns.map row) = row := by
  funext c
  unfold tupleRow
  rw [lookup_zip_map]
  split_ifs with hc
  · rfl
  · exact (h c hc).symm

theorem flatten_batchesUpTo : ∀ {n : ℕ} {rows : List TableRow}, rows.length ≤ n → (batchesUpTo n rows).flatten = rows
  | n, [], _ => by cases n <;> rfl
  | n + 1, row :: rows, h => by
    have hrest : ((row :: rows).drop insertBatchSize).length ≤ n := by
      rw [List.length_drop, insertBatchSize]
      rw [List.length_cons] at h ⊢
      omega
    rw [batchesUpTo, List.flatten_cons, flatten_batchesUpTo hrest, List.take_append_drop]

/-- **The batches** put every row into the stage once, in order. -/
theorem insertBatches_triple {data : ArrowTable} :
    Prog.Triple (Staged base stage ref (some [])) (insertBatches server stage data.columnNames data)
      (fun _ => Staged base stage ref (some data.toPylist)) fun _ => Staging base stage ref := by
  have hbatches := @flatten_batchesUpTo _ data.toPylist (le_refl _)
  refine Prog.Triple.bind (lift_staged.mono (fun s hs => hs) (fun _ _ hs => hs) fun _ _ hs => hs.1) fun _ => ?_
  have hloop : Prog.Triple (Staged base stage ref (some ([] : List (List TableRow)).flatten))
      ((batchesUpTo data.toPylist.length data.toPylist).forM fun batch =>
        executeTrino server (.insertValues stage data.columnNames batch.length
          (batch.flatMap fun row => data.columnNames.map row)))
      (fun _ => Staged base stage ref (some ([] ++ batchesUpTo data.toPylist.length data.toPylist).flatten))
      fun _ => Staging base stage ref := by
    refine Prog.Triple.forM (fun done => Staged base stage ref (some done.flatten)) fun before batch after hsplit => ?_
    refine (fill_triple (beq_self_eq_true _) ?_).mono (fun s hs => hs) (fun _ _ hs => hs) fun _ _ hs => hs.1
    intro tables tables' hothers hcontent happly
    have hrows : batch.map (fun row => tupleRow data.columnNames (data.columnNames.map row)) = batch := by
      refine (List.map_congr_left fun row hrow => ?_).trans (List.map_id _)
      refine tupleRow_map fun c hc => toPylist_within ?_ hc
      rw [← hbatches, ← List.nil_append (batchesUpTo _ _), hsplit]
      simp [hrow]
    rw [TrinoStatement.apply] at happly
    split_ifs at happly
    rw [hcontent] at happly
    cases happly
    refine ⟨fun name hname => (Function.update_of_ne hname _ _).trans (hothers name hname),
      (Function.update_self ..).trans ?_⟩
    rw [tuplesOf_flatMap (fun row => List.length_map _), List.map_map, List.flatten_append, List.flatten_singleton]
    exact congrArg (fun rows => some (before.flatten ++ rows)) hrows
  rw [List.nil_append, hbatches] at hloop
  exact hloop

end

/-! ## The drop of the stage -/

/-- **The drop of the stage** raises nothing: the stage is gone, or its drop has raised. -/
theorem dropStage_cases (server : TrinoServer) (stage : Str) (s : TrinoSession) :
    ∃ ev, dropStage server stage s = (.ok (), s.log ev) ∧ ev.stmt = .drop stage ∧
      (∀ name, name ≠ stage → ev.after name = s.tables name) ∧ (ev.after stage = none ∨ ev.raised ≠ none) := by
  have hhandle : ∀ {e s'}, e.cls.isException = true → executeTrino server (.drop stage) s = (.error e, s') →
      dropStage server stage s = (.ok (), s') := by
    intro e s' hexception h
    refine (Prog.handle_of_error h).trans ?_
    rw [if_pos hexception]
    rfl
  cases hrows : s.tables stage with
  | none =>
    have happly : (TrinoStatement.drop stage).apply server.eq s.tables = none := by
      rw [TrinoStatement.apply, hrows]
      rfl
    refine ⟨⟨.drop stage, some (server.refusal (.drop stage)).val, false, s.tables⟩,
      hhandle (server.refusal (.drop stage)).property ?_, rfl, fun _ _ => rfl, .inr (Option.some_ne_none _)⟩
    · unfold executeTrino
      rw [happly]
  | some rows =>
    have happly : (TrinoStatement.drop stage).apply server.eq s.tables =
        some (Function.update s.tables stage none) := by
      rw [TrinoStatement.apply, hrows]
      rfl
    have hothers : ∀ name, name ≠ stage → Function.update s.tables stage none name = s.tables name :=
      fun name hname => Function.update_of_ne hname _ _
    cases hfaults : server.faults s.events (.drop stage) with
    | none =>
      refine ⟨⟨.drop stage, none, true, Function.update s.tables stage none⟩, Prog.handle_of_ok ?_, rfl, hothers,
        .inl (Function.update_self ..)⟩
      unfold executeTrino
      rw [happly]
      dsimp only
      rw [hfaults]
    | some fault =>
      refine ⟨⟨.drop stage, some fault.exc, fault.tookEffect,
        if fault.tookEffect then Function.update s.tables stage none else s.tables⟩,
        hhandle fault.exception ?_, rfl, ?_, .inr (Option.some_ne_none _)⟩
      · unfold executeTrino
        rw [happly]
        dsimp only
        rw [hfaults]
      · intro name hname
        dsimp only
        split_ifs
        · exact hothers name hname
        · rfl

end ContinuoRuntime
