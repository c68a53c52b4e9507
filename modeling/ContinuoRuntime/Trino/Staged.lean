/-
  `append` and `_upsert` of the Trino adapter: all or nothing.

  The rows go into a stage, and from there into the target by one statement.

  * `keyedOverride`: what an upsert is for;
  * `writeViaStage_triple`: the target is written by the last statement only;
  * `staged_all_or_nothing`: **the target is as before exactly if a statement of the
    write has raised**, whatever becomes of the drop of the stage.
-/
import ContinuoRuntime.Trino.Swap

namespace ContinuoRuntime

/-! ## What the methods are for -/

/-- The methods that write the target by one statement. -/
inductive StagedOp where
  | append
  | upsert (primaryKey : List Str)

/-- A prior row with the key of a data row takes its other columns; the data rows with new
    keys are added. -/
def keyedOverride (eq : ArrowValue → ArrowValue → Bool) (columns primaryKey : List Str) (prior data : List TableRow) :
    List TableRow :=
  (prior.map fun t => match data.find? fun s => Rows.joins eq primaryKey t s with
    | some s => fun c => if c ∈ columns ∧ c ∉ primaryKey then s c else t c
    | none => t) ++ data.filter fun s => !prior.any fun t => Rows.joins eq primaryKey t s

namespace StagedOp

/-- What the target has behind the method. -/
def result (eq : ArrowValue → ArrowValue → Bool) (columns : List Str) (prior data : List TableRow) :
    StagedOp → List TableRow
  | append => prior ++ data
  | upsert primaryKey => keyedOverride eq columns primaryKey prior data

/-- The method. -/
def run (server : TrinoServer) (catalog schema table token : Str) (data : ArrowTable) : StagedOp → TrinoProg Unit
  | append => appendTrino server catalog schema table token data
  | upsert primaryKey => upsertTrino server catalog schema table token data primaryKey

/-- Its statement on the target. -/
def final (table stage : Str) (columns : List Str) : StagedOp → TrinoStatement
  | append => .insertSelect table stage columns
  | upsert primaryKey => .merge table stage (mergeClauses columns primaryKey)

/-- The names that it quotes for this statement. -/
def quoted (columns : List Str) : StagedOp → List Str
  | append => columns
  | upsert primaryKey => primaryKey ++ columns

/-- `final_statement`. -/
def finalStatement (table : Str) (columns : List Str) : StagedOp → Str → Except Exc TrinoStatement
  | append => appendStatement table columns
  | upsert primaryKey => mergeStatement table columns primaryKey

end StagedOp

/-- The statement changes a table of this name. -/
def TrinoStatement.writes (name : Str) : TrinoStatement → Bool
  | selectLocation _ => false
  | createLike table _ _ | insertValues table _ _ _ | insertSelect table _ _ | merge table _ _ => table == name
  | rename table name' => table == name || name' == name
  | drop table => table == name

/-! ## The statement on the target -/

theorem quoteAll_eq_ok {names : List Str} (h : ∀ name ∈ names, name ≠ []) : ∃ quoted, names.mapM trinoQuote = .ok quoted :=
  exists_mapM_eq_ok fun name hname => ⟨_, if_neg (h name hname)⟩

theorem StagedOp.finalStatement_eq_ok {op : StagedOp} {table stage : Str} {columns : List Str} {stmt : TrinoStatement}
    (h : op.finalStatement table columns stage = .ok stmt) : stmt = op.final table stage columns := by
  cases op with
  | append =>
    obtain ⟨quoted, -, h⟩ := bind_eq_ok.1 h
    cases h
    rfl
  | upsert primaryKey =>
    obtain ⟨quoted, -, h⟩ := bind_eq_ok.1 h
    obtain ⟨quoted', -, h⟩ := bind_eq_ok.1 h
    cases h
    rfl

theorem StagedOp.exists_finalStatement {op : StagedOp} {table stage : Str} {columns : List Str}
    (h : ∀ name ∈ op.quoted columns, name ≠ []) : ∃ stmt, op.finalStatement table columns stage = .ok stmt := by
  cases op with
  | append =>
    obtain ⟨quoted, hquoted⟩ := quoteAll_eq_ok h
    exact ⟨_, bind_eq_ok.2 ⟨quoted, hquoted, rfl⟩⟩
  | upsert primaryKey =>
    obtain ⟨quoted, hquoted⟩ := quoteAll_eq_ok fun name hname => h name (List.mem_append_left _ hname)
    obtain ⟨quoted', hquoted'⟩ := quoteAll_eq_ok fun name hname => h name (List.mem_append_right _ hname)
    exact ⟨_, bind_eq_ok.2 ⟨quoted, hquoted, bind_eq_ok.2 ⟨quoted', hquoted', rfl⟩⟩⟩

/-- **The `MERGE`** overrides by key, for every split of the columns. -/
theorem strictMerge_eq {eq : ArrowValue → ArrowValue → Bool} {columns primaryKey : List Str}
    {prior data rows : List TableRow} (hdata : ∀ row ∈ data, ∀ c, c ∉ columns → row c = none)
    (h : Rows.strictMerge eq (mergeClauses columns primaryKey) prior data = some rows) :
    rows = keyedOverride eq columns primaryKey prior data := by
  unfold Rows.strictMerge at h
  split_ifs at h with hmany
  cases h
  unfold Rows.merged keyedOverride
  refine congrArg₂ (· ++ ·) (List.map_congr_left fun t ht => ?_) ?_
  · have hle : (Rows.matched eq (mergeClauses columns primaryKey) data t).length ≤ 1 := by
      refine not_lt.1 fun hlt => hmany ?_
      exact List.any_eq_true.2 ⟨t, ht, decide_eq_true hlt⟩
    have hfind : (Rows.matched eq (mergeClauses columns primaryKey) data t).getLast? =
        data.find? fun s => Rows.joins eq primaryKey t s := by
      rw [← List.head?_filter]
      have hfilter : Rows.matched eq (mergeClauses columns primaryKey) data t =
          data.filter fun s => Rows.joins eq primaryKey t s := rfl
      rw [hfilter] at hle ⊢
      generalize (data.filter fun s => Rows.joins eq primaryKey t s) = found at hle ⊢
      rcases found with _ | ⟨s, _ | ⟨s', rest⟩⟩
      · rfl
      · rfl
      · simp at hle
    unfold Rows.mergedRow
    rw [hfind]
    cases data.find? fun s => Rows.joins eq primaryKey t s with
    | none => rfl
    | some s =>
      funext c
      simp [Rows.assign, mergeClauses]
  · refine (List.map_congr_left fun s hs => ?_).trans (List.map_id _)
    exact Rows.pick_of_within (hdata s (List.mem_filter.1 hs).1) fun c => Iff.rfl

/-- The last statement writes what the method is for. -/
theorem StagedOp.apply_final {op : StagedOp} {eq : ArrowValue → ArrowValue → Bool} {table stage : Str}
    {data : ArrowTable} {tables tables' : TrinoTables} {prior : List TableRow} (htable : tables table = some prior)
    (hstage : tables stage = some data.toPylist)
    (h : (op.final table stage data.columnNames).apply eq tables = some tables') :
    tables' table = some (op.result eq data.columnNames prior data.toPylist) := by
  have hwithin : ∀ row ∈ data.toPylist, ∀ c, c ∉ data.columnNames → row c = none :=
    fun row hrow c hc => toPylist_within hrow hc
  cases op with
  | append =>
    rw [final, TrinoStatement.apply, htable, hstage] at h
    split_ifs at h
    cases h
    refine (Function.update_self ..).trans (congrArg (fun rows => some (prior ++ rows)) ?_)
    exact (List.map_congr_left fun row hrow => Rows.pick_of_within (hwithin row hrow) fun c => Iff.rfl).trans
      (List.map_id _)
  | upsert primaryKey =>
    rw [final, TrinoStatement.apply, htable, hstage] at h
    dsimp only at h
    split_ifs at h
    obtain ⟨rows, hrows, rfl⟩ := Option.map_eq_some_iff.1 h
    exact (Function.update_self ..).trans (congrArg some (strictMerge_eq hwithin hrows))

theorem StagedOp.final_writes (op : StagedOp) (table stage : Str) (columns : List Str) :
    (op.final table stage columns).writes table = true := by
  cases op <;> exact beq_self_eq_true _

theorem writes_of_fills {stmt : TrinoStatement} {stage table : Str} (h : stmt.fills stage = true)
    (hne : table ≠ stage) : stmt.writes table = false := by
  cases stmt with
  | selectLocation name => rfl
  | createLike name source location =>
    rw [TrinoStatement.fills, beq_iff_eq] at h
    exact beq_eq_false_iff_ne.2 (h ▸ hne.symm)
  | insertValues name columns tuples params =>
    rw [TrinoStatement.fills, beq_iff_eq] at h
    exact beq_eq_false_iff_ne.2 (h ▸ hne.symm)
  | _ => cases h

/-! ## What a method leaves -/

/-- The statements that name the target as what they write. -/
def targetWrites (table : Str) (events : List TrinoEvent) : List TrinoEvent :=
  events.filter fun ev => ev.stmt.writes table

/-- A method that has returned. -/
structure Written (table stage : Str) (final : TrinoStatement) (rows : List TableRow) (s : TrinoSession) : Prop where
  target : s.tables table = some rows
  writes : ∃ ev, targetWrites table s.events = [ev] ∧ ev.stmt = final
  returned : ∀ ev ∈ s.events, ev.stmt ≠ .drop stage → ev.raised = none

/-- A method that has raised. -/
structure Unwritten (table : Str) (final : TrinoStatement) (prior : List TableRow) (s : TrinoSession) : Prop where
  target : NoneTookEffect s.events → s.tables table = some prior
  writes : targetWrites table s.events = [] ∨ ∃ ev, targetWrites table s.events = [ev] ∧ ev.stmt = final

section
variable {server : TrinoServer} {base : TrinoTables} {table stage : Str} {prior rows : List TableRow}
  {final : TrinoStatement}

theorem targetWrites_log {s : TrinoSession} {ev : TrinoEvent} : targetWrites table (s.log ev).events =
    targetWrites table s.events ++ if ev.stmt.writes table then [ev] else [] := by
  unfold targetWrites TrinoSession.log
  rw [List.filter_append]
  refine congrArg (s.events.filter (fun ev => ev.stmt.writes table) ++ ·) ?_
  cases h : ev.stmt.writes table <;> simp [h]

theorem Staging.no_writes {s : TrinoSession} {ref : Option Str} (h : Staging base stage ref s)
    (hne : table ≠ stage) : targetWrites table s.events = [] :=
  List.filter_eq_nil_iff.2 fun ev hev => by rw [writes_of_fills (h.stmts ev hev) hne]; decide

theorem Staging.unwritten {s : TrinoSession} {ref : Option Str} (h : Staging base stage ref s)
    (hne : table ≠ stage) (hprior : base table = some prior) : Unwritten table final prior s :=
  ⟨fun _ => (h.tables table hne).trans hprior, .inl (h.no_writes hne)⟩

theorem drop_writes (hne : table ≠ stage) : (TrinoStatement.drop stage).writes table = false :=
  beq_eq_false_iff_ne.2 hne.symm

theorem Written.log_drop {s : TrinoSession} (h : Written table stage final rows s) {ev : TrinoEvent}
    (hne : table ≠ stage) (hstmt : ev.stmt = .drop stage)
    (hafter : ∀ name, name ≠ stage → ev.after name = s.tables name) : Written table stage final rows (s.log ev) where
  target := (hafter table hne).trans h.target
  writes := by
    rw [targetWrites_log, hstmt, drop_writes hne, if_neg (by decide), List.append_nil]
    exact h.writes
  returned ev' hev hother := by
    rcases List.mem_append.1 hev with hev | hev
    · exact h.returned ev' hev hother
    · exact absurd (List.mem_singleton.1 hev ▸ hstmt) hother

theorem Unwritten.log_drop {s : TrinoSession} (h : Unwritten table final prior s) {ev : TrinoEvent}
    (hne : table ≠ stage) (hstmt : ev.stmt = .drop stage)
    (hafter : ∀ name, name ≠ stage → ev.after name = s.tables name) : Unwritten table final prior (s.log ev) where
  target hquiet := (hafter table hne).trans (h.target hquiet.of_append)
  writes := by
    rw [targetWrites_log, hstmt, drop_writes hne, if_neg (by decide), List.append_nil]
    exact h.writes

/-- **The last statement** writes the target, or leaves it. -/
theorem final_triple {op : StagedOp} {data : ArrowTable} (hne : table ≠ stage) (hprior : base table = some prior) :
    Prog.Triple (Staged base stage none (some data.toPylist))
      (executeTrino server (op.final table stage data.columnNames))
      (fun _ => Written table stage (op.final table stage data.columnNames)
        (op.result server.eq data.columnNames prior data.toPylist))
      fun _ => Unwritten table (op.final table stage data.columnNames) prior := by
  have hwrites := op.final_writes table stage data.columnNames
  have htable : ∀ {s}, Staged base stage none (some data.toPylist) s → s.tables table = some prior := fun hs =>
    (hs.tables table hne).trans hprior
  have honly : ∀ {s} {ev : TrinoEvent}, Staged base stage none (some data.toPylist) s →
      ev.stmt = op.final table stage data.columnNames → targetWrites table (s.log ev).events = [ev] := by
    intro s ev hs hstmt
    rw [targetWrites_log, hs.toStaging.no_writes hne, hstmt, if_pos hwrites, List.nil_append]
  refine executeTrino_triple (fun s hs happly e _ => ?_) (fun s tables hs happly => ?_)
    fun s tables hs happly e took _ => ?_
  · exact ⟨fun _ => (htable hs : s.tables table = some prior), .inr ⟨_, honly hs rfl, rfl⟩⟩
  · refine ⟨op.apply_final (htable hs) hs.content happly, ⟨_, honly hs rfl, rfl⟩, fun ev hev _ => ?_⟩
    exact (List.mem_append.1 hev).elim (hs.returned ev) fun hev => List.mem_singleton.1 hev ▸ rfl
  · refine ⟨fun hquiet => ?_, .inr ⟨_, honly hs rfl, rfl⟩⟩
    have htook : took = false := hquiet _ (List.mem_append_right _ List.mem_cons_self) nofun
    rw [htook]
    exact (htable hs : s.tables table = some prior)

/-- The `finally` of `_write_via_stage`. -/
theorem dropStage_triple {P : TrinoSession → Prop} {R : Exc → TrinoSession → Prop}
    (h : ∀ s ev, P s → ev.stmt = .drop stage → (∀ name, name ≠ stage → ev.after name = s.tables name) → P (s.log ev)) :
    Prog.Triple P (dropStage server stage) (fun _ => P) R := by
  intro s hs
  obtain ⟨ev, hdrop, hstmt, hafter, -⟩ := dropStage_cases server stage s
  refine ⟨fun a s' hrun => ?_, fun e s' hrun => ?_⟩
  · cases hdrop.symm.trans hrun
    exact h s ev hs hstmt hafter
  · cases hdrop.symm.trans hrun

/-- **A write through a stage.** -/
theorem writeViaStage_triple {op : StagedOp} {catalog schema token : Str} {data : ArrowTable}
    (hstage : stage = stagePrefix ++ token) (hne : table ≠ stage) (hprior : base table = some prior) :
    Prog.Triple (Fresh base stage none)
      (writeViaStage server catalog schema table token data (op.finalStatement table data.columnNames))
      (fun _ => Written table stage (op.final table stage data.columnNames)
        (op.result server.eq data.columnNames prior data.toPylist))
      fun _ => Unwritten table (op.final table stage data.columnNames) prior := by
  refine Prog.Triple.bind (Q := fun name s => name = stage ∧ Staged base stage none (some []) s)
    ((createStage_triple hstage).mono (fun s hs => hs) (fun _ _ hs => hs) fun _ s hs => hs.1.unwritten hne hprior)
    fun name => ?_
  by_cases hname : name = stage
  · subst hname
    refine Prog.Triple.always (S := fun _ => Written table name (op.final table name data.columnNames)
        (op.result server.eq data.columnNames prior data.toPylist))
      (T := fun _ => Unwritten table (op.final table name data.columnNames) prior) ?_
      (fun _ => dropStage_triple fun s ev hs hstmt hafter => hs.log_drop hne hstmt hafter)
      fun _ => dropStage_triple fun s ev hs hstmt hafter => hs.log_drop hne hstmt hafter
    refine Prog.Triple.bind (insertBatches_triple.mono (fun s hs => hs.2) (fun _ _ hs => hs)
      fun _ s hs => hs.unwritten hne hprior) fun _ => ?_
    refine Prog.Triple.bind (Q := fun stmt s => stmt = op.final table name data.columnNames ∧
      Staged base name none (some data.toPylist) s) (Prog.Triple.lift (fun stmt hstmt s hs =>
        ⟨StagedOp.finalStatement_eq_ok hstmt, hs⟩) fun _ _ s hs => hs.toStaging.unwritten hne hprior) fun stmt => ?_
    by_cases hstmt : stmt = op.final table name data.columnNames
    · subst hstmt
      exact (final_triple hne hprior).mono (fun s hs => hs.2) (fun _ _ hs => hs) fun _ _ hs => hs
    · exact fun s hs => absurd hs.1 hstmt
  · exact fun s hs => absurd hs.1 hname

/-- A method with rows. -/
theorem run_eq {op : StagedOp} {catalog schema token : Str} {data : ArrowTable} (h : data.numRows ≠ 0) :
    op.run server catalog schema table token data = (do
      let _ ← Prog.lift (trinoTableRef catalog schema table)
      writeViaStage server catalog schema table token data (op.finalStatement table data.columnNames)) := by
  cases op <;> exact if_neg h

theorem run_triple {op : StagedOp} {catalog schema token : Str} {data : ArrowTable} (hrows : data.numRows ≠ 0)
    (hstage : stage = stagePrefix ++ token) (hne : table ≠ stage) (hprior : base table = some prior) :
    Prog.Triple (Fresh base stage none) (op.run server catalog schema table token data)
      (fun _ => Written table stage (op.final table stage data.columnNames)
        (op.result server.eq data.columnNames prior data.toPylist))
      fun _ => Unwritten table (op.final table stage data.columnNames) prior := by
  rw [run_eq hrows]
  exact Prog.Triple.bind (Prog.Triple.lift (fun _ _ _ hs => hs) fun _ _ s hs =>
    hs.staged.toStaging.unwritten hne hprior) fun _ => writeViaStage_triple hstage hne hprior

end

/-! ## What raises -/

/-- A statement other than the drop of the stage has raised. -/
def Blamed (stage : Str) (events : List TrinoEvent) : Prop :=
  ∃ ev ∈ events, ev.stmt ≠ .drop stage ∧ ev.raised ≠ none

/-- The names are not empty, and the location of the target is known: nothing but a
    statement can fail. -/
structure Ready (server : TrinoServer) (catalog schema table stage : Str) (names : List Str) : Prop where
  names : ∀ name ∈ catalog :: schema :: table :: names, name ≠ []
  location : ∃ location rest, server.locations table = [some location :: rest] ∧ location ≠ [] ∧
    ∃ sibling, siblingLocation server location stage = .ok sibling

section
variable {server : TrinoServer} {catalog schema table stage token : Str} {names : List Str}

theorem tableRef_eq_ok {name : Str} (hcatalog : catalog ≠ []) (hschema : schema ≠ []) (hname : name ≠ []) :
    ∃ ref, trinoTableRef catalog schema name = .ok ref := by
  unfold trinoTableRef trinoQuote
  rw [if_neg hcatalog, if_neg hschema, if_neg hname]
  exact ⟨_, rfl⟩

/-- A statement is blamed for what it raises. -/
theorem execute_blamed {P : TrinoSession → Prop} {stmt : TrinoStatement} (hstmt : stmt ≠ .drop stage) :
    Prog.Triple P (executeTrino server stmt) (fun _ _ => True) fun _ s => Blamed stage s.events :=
  executeTrino_triple (fun _ _ _ _ _ => ⟨_, List.mem_append_right _ List.mem_cons_self, hstmt, nofun⟩)
    (fun _ _ _ _ => trivial)
    fun _ _ _ _ _ _ _ => ⟨_, List.mem_append_right _ List.mem_cons_self, hstmt, nofun⟩

theorem lift_of_ok {α : Type} {x : Except Exc α} {a : α} (h : x = .ok a) {P : TrinoSession → Prop}
    {R : Exc → TrinoSession → Prop} : Prog.Triple P (Prog.lift x) (fun b _ => b = a) R :=
  Prog.Triple.lift (fun b hb _ _ => Except.ok.inj (hb.symm.trans h)) fun e he => by cases h.symm.trans he

/-- A computation that returns. -/
theorem lift_bind_of_ok {α β : Type} {x : Except Exc α} {a : α} (h : x = .ok a) (f : α → TrinoProg β) :
    (Prog.lift x >>= f) = f a := by
  subst h
  rfl

/-- With the names and the location there, `createStage` is two statements. -/
theorem createStage_eq (h : Ready server catalog schema table (stagePrefix ++ token) names) :
    ∃ sibling, createStage server catalog schema table token = (do
      executeTrino server (.selectLocation table)
      executeTrino server (.createLike (stagePrefix ++ token) table sibling)
      pure (stagePrefix ++ token)) := by
  obtain ⟨location, rest, hlocation, hne, sibling, hsibling⟩ := h.location
  have hcatalog : catalog ≠ [] := h.names _ (by simp)
  have hschema : schema ≠ [] := h.names _ (by simp)
  obtain ⟨ref, href⟩ := tableRef_eq_ok hcatalog hschema (h.names table (by simp))
  obtain ⟨stageRef, hstageRef⟩ := @tableRef_eq_ok catalog schema (stagePrefix ++ token) hcatalog hschema
    (List.append_ne_nil_of_left_ne_nil (by decide) _)
  obtain ⟨propertiesRef, hpropertiesRef⟩ := @tableRef_eq_ok catalog schema (table ++ py "$properties") hcatalog
    hschema (List.append_ne_nil_of_right_ne_nil _ (by decide))
  refine ⟨sibling, ?_⟩
  unfold createStage tableLocation
  rw [lift_bind_of_ok href, lift_bind_of_ok hstageRef, lift_bind_of_ok hpropertiesRef, bind_assoc, hlocation]
  dsimp only
  rw [if_neg hne, lift_bind_of_ok rfl, lift_bind_of_ok hsibling]

theorem createStage_blamed (h : Ready server catalog schema table (stagePrefix ++ token) names)
    {P : TrinoSession → Prop} : Prog.Triple P (createStage server catalog schema table token) (fun _ _ => True)
      fun _ s => Blamed (stagePrefix ++ token) s.events := by
  obtain ⟨sibling, hsame⟩ := createStage_eq h
  rw [hsame]
  refine Prog.Triple.bind (execute_blamed (TrinoStatement.noConfusion ·)) fun _ => ?_
  exact Prog.Triple.bind (execute_blamed (TrinoStatement.noConfusion ·)) fun _ => Prog.Triple.pure fun _ _ => trivial

theorem insertBatches_blamed {name : Str} {data : ArrowTable} (h : ∀ column ∈ data.columnNames, column ≠ [])
    {P : TrinoSession → Prop} : Prog.Triple P (insertBatches server name data.columnNames data) (fun _ _ => True)
      fun _ s => Blamed stage s.events := by
  obtain ⟨quoted, hquoted⟩ := quoteAll_eq_ok h
  refine Prog.Triple.bind (lift_of_ok hquoted) fun _ => ?_
  have hloop := @Prog.Triple.forM Exc TrinoSession (List TableRow) (fun batch => executeTrino server
    (.insertValues name data.columnNames batch.length (batch.flatMap fun row => data.columnNames.map row)))
    (fun _ s => Blamed stage s.events) (fun _ _ => True) [] (batchesUpTo data.toPylist.length data.toPylist)
    fun before batch after _ => execute_blamed (TrinoStatement.noConfusion ·)
  exact hloop.mono (fun _ _ => trivial) (fun _ _ hs => hs) fun _ _ hs => hs

/-- **What raises is a statement**, if the names and the location are there. -/
theorem run_blamed {op : StagedOp} {data : ArrowTable} (hrows : data.numRows ≠ 0)
    (h : Ready server catalog schema table (stagePrefix ++ token) (op.quoted data.columnNames)) :
    Prog.Triple (fun _ => True) (op.run server catalog schema table token data) (fun _ _ => True)
      fun _ s => Blamed (stagePrefix ++ token) s.events := by
  have hquoted : ∀ name ∈ op.quoted data.columnNames, name ≠ [] := fun name hname => h.names name (by simp [hname])
  have hcolumns : ∀ name ∈ data.columnNames, name ≠ [] := by
    cases op with
    | append => exact hquoted
    | upsert primaryKey => exact fun name hname => hquoted name (List.mem_append_right _ hname)
  obtain ⟨ref, href⟩ := @tableRef_eq_ok catalog schema table (h.names _ (by simp)) (h.names _ (by simp))
    (h.names _ (by simp))
  have hdrop : ∀ {name : Str}, Prog.Triple (fun s : TrinoSession => Blamed (stagePrefix ++ token) s.events)
      (dropStage server name) (fun _ s => Blamed (stagePrefix ++ token) s.events)
      fun _ s => Blamed (stagePrefix ++ token) s.events := fun {name} =>
    @dropStage_triple server name _ _ fun s ev hs _ _ => by
      obtain ⟨ev', hev, hblamed⟩ := hs
      exact ⟨ev', List.mem_append_left _ hev, hblamed⟩
  rw [run_eq hrows]
  refine Prog.Triple.bind (lift_of_ok href) fun _ => ?_
  refine Prog.Triple.bind (createStage_blamed h) fun name => ?_
  obtain ⟨stmt, hstmt⟩ := @StagedOp.exists_finalStatement op table name data.columnNames hquoted
  refine Prog.Triple.always (S := fun _ _ => True) (T := fun _ s => Blamed (stagePrefix ++ token) s.events) ?_
    (fun _ => dropStage_triple fun _ _ _ _ _ => trivial) fun _ => hdrop
  refine Prog.Triple.bind (insertBatches_blamed hcolumns) fun _ => ?_
  refine Prog.Triple.bind (lift_of_ok hstmt) fun stmt' => ?_
  by_cases hsame : stmt' = op.final table name data.columnNames
  · subst hsame
    refine execute_blamed ?_
    cases op <;> exact (TrinoStatement.noConfusion ·)
  · exact fun s hs => absurd (hs.trans (StagedOp.finalStatement_eq_ok hstmt)) hsame

end

/-- **All or nothing**: a method that returns has written its result, one that raises has
    left the target, if what raised had no effect; with the names and the location there,
    it raises exactly if a statement other than the drop of the stage has raised; one
    statement names the target as what it writes; and no rows send no statement. -/
theorem staged_all_or_nothing (server : TrinoServer) (catalog schema table token : Str) (data : ArrowTable)
    (op : StagedOp) (tables : TrinoTables) (prior : List TableRow) (hprior : tables table = some prior)
    (hstage : tables (stagePrefix ++ token) = none) (result : Except Exc Unit) (s : TrinoSession)
    (hrun : op.run server catalog schema table token data (.start tables) = (result, s))
    (hquiet : NoneTookEffect s.events) :
    (result = .ok () → s.tables table = some (op.result server.eq data.columnNames prior data.toPylist)) ∧
    (∀ e, result = .error e → s.tables table = some prior) ∧
    (Blamed (stagePrefix ++ token) s.events → ∃ e, result = .error e) ∧
    (Ready server catalog schema table (stagePrefix ++ token) (op.quoted data.columnNames) →
      ∀ e, result = .error e → Blamed (stagePrefix ++ token) s.events) ∧
    (targetWrites table s.events).length ≤ 1 ∧
    (∀ ev ∈ targetWrites table s.events, ev.stmt = op.final table (stagePrefix ++ token) data.columnNames) ∧
    (result = .ok () → data.numRows ≠ 0 → (targetWrites table s.events).length = 1) ∧
    (data.numRows = 0 → result = .ok () ∧ s = .start tables) := by
  have hne : table ≠ stagePrefix ++ token := fun h => by
    rw [h, hstage] at hprior
    cases hprior
  by_cases hrows : data.numRows = 0
  · have hnothing : op.run server catalog schema table token data (.start tables) = (.ok (), .start tables) := by
      cases op <;> exact congrFun (if_pos hrows) _
    cases hnothing.symm.trans hrun
    have hnone : data.toPylist = [] := List.length_eq_zero_iff.1 ((length_toPylist data).trans hrows)
    refine ⟨fun _ => ?_, nofun, ?_, fun _ => nofun, Nat.zero_le 1, nofun, fun _ h => absurd hrows h, fun _ => ⟨rfl, rfl⟩⟩
    · rw [hnone]
      refine hprior.trans (congrArg some ?_)
      cases op with
      | append => exact (List.append_nil _).symm
      | upsert primaryKey => exact (List.append_nil _).symm.trans (congrArg (· ++ []) (List.map_id _).symm)
    · rintro ⟨ev, hev, -⟩
      cases hev
  obtain ⟨hok, herror⟩ := @run_triple server tables table (stagePrefix ++ token) prior op catalog schema token data
    hrows rfl hne hprior _ (fresh_start hstage)
  have hblamed := @run_blamed server catalog schema table token op data hrows
  cases result with
  | ok u =>
    have hwritten := hok _ _ hrun
    obtain ⟨ev, hwrites, hstmt⟩ := hwritten.writes
    refine ⟨fun _ => hwritten.target, nofun, ?_, fun _ => nofun, ?_, ?_, fun _ _ => ?_, fun h => absurd h hrows⟩
    · rintro ⟨ev', hev', hother, hraised⟩
      exact absurd (hwritten.returned ev' hev' hother) hraised
    · rw [hwrites]
      exact le_refl 1
    · intro ev' hev'
      rw [hwrites, List.mem_singleton] at hev'
      exact hev' ▸ hstmt
    · rw [hwrites]
      rfl
  | error e =>
    have hunwritten := herror _ _ hrun
    refine ⟨nofun, fun _ _ => hunwritten.target hquiet, fun _ => ⟨e, rfl⟩,
      fun hready _ _ => (hblamed hready _ trivial).2 _ _ hrun, ?_, ?_, nofun, fun h => absurd h hrows⟩
    · rcases hunwritten.writes with hwrites | ⟨ev, hwrites, -⟩
      · rw [hwrites]
        exact Nat.zero_le 1
      · rw [hwrites]
        exact le_refl 1
    · intro ev' hev'
      rcases hunwritten.writes with hwrites | ⟨ev, hwrites, hstmt⟩
      · rw [hwrites] at hev'
        cases hev'
      · rw [hwrites, List.mem_singleton] at hev'
        exact hev' ▸ hstmt

/-- The drop of the stage fails. -/
def dropFails : List TrinoEvent → TrinoStatement → Option TrinoFault
  | _, .drop _ => some ⟨.text (.other (py "TrinoQueryError")) (py "drop"), false, rfl⟩
  | _, _ => none

theorem one_typed : (ArrowValue.int 1).hasType (.int true 64) = true := by decide

/-- One row. -/
def oneRow : ArrowTable := ⟨1, [⟨py "a", .int true 64, true, fun _ => some ⟨.int 1, one_typed⟩⟩]⟩

/-- An `append` of one row whose stage is not dropped. -/
def appendRun : Except Exc Unit × TrinoSession :=
  StagedOp.append.run (trinoServer dropFails) (py "c") (py "s") (py "t") (py "0") oneRow
    (.start (Function.update (fun _ => none) (py "t") (some [fun _ => none])))

theorem staged_all_or_nothing_append :
    appendRun.2.tables (py "t") = some ([fun _ => none] ++ oneRow.toPylist) := by
  have hreturned : appendRun.1 = .ok () := by rfl
  have hquiet : NoneTookEffect appendRun.2.events := by
    unfold NoneTookEffect
    decide
  exact (staged_all_or_nothing (trinoServer dropFails) (py "c") (py "s") (py "t") (py "0") oneRow .append
    (Function.update (fun _ => none) (py "t") (some [fun _ => none])) [fun _ => none] (Function.update_self ..)
    rfl appendRun.1 appendRun.2 rfl hquiet).1 hreturned

end ContinuoRuntime
