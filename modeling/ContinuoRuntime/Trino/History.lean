/-
  The table of a Trino node over many runs.

  Each run writes with names of its own, on a server that may fail any statement without
  effect.  The abstract table has rows, or is stranded: the target is unbound, and its
  rows are under an old name.

  * `Content.Step`: what one call makes of the abstract table;
  * `TrinoWrite.step`: the adapter's calls do nothing else;
  * `history_content`: **every history is one of the abstract table**.
-/
import ContinuoRuntime.Trino.Staged

namespace ContinuoRuntime

/-! ## Calls -/

/-- The writing methods of the adapter. -/
inductive TrinoOp where
  | load
  | staged (op : StagedOp)

/-- A call, with the token of its names, and the server as the call meets it. -/
structure TrinoWrite where
  op : TrinoOp
  data : ArrowTable
  token : Str
  server : TrinoServer

section
variable (catalog schema table : Str)

namespace TrinoWrite

/-- The method. -/
def run (w : TrinoWrite) : TrinoProg Unit :=
  match w.op with
  | .load => loadTrino w.server catalog schema table w.token w.data
  | .staged op => op.run w.server catalog schema table w.token w.data

/-- What the table is to have. -/
def result (w : TrinoWrite) (rows : List TableRow) : List TableRow :=
  match w.op with
  | .load => w.data.toPylist
  | .staged op => op.result w.server.eq w.data.columnNames rows w.data.toPylist

end TrinoWrite

/-- Calls one after another: how each ended and what it sent, and the tables behind the last. -/
def runWrites : List TrinoWrite → TrinoTables → List (Except Exc Unit × List TrinoEvent) × TrinoTables
  | [], tables => ([], tables)
  | w :: ws, tables =>
    let (result, s) := w.run catalog schema table (.start tables)
    let (results, tables) := runWrites ws s.tables
    ((result, s.events) :: results, tables)

end

/-! ## The abstract table -/

/-- A table with rows, or with its rows under an old name. -/
inductive Content where
  | live (rows : List TableRow)
  | stranded (rows : List TableRow)

/-- The table is there so. -/
def Content.Holds (table : Str) (tokens : List Str) (tables : TrinoTables) : Content → Prop
  | live rows => tables table = some rows
  | stranded rows => tables table = none ∧ ∃ token ∈ tokens, tables (oldName token) = some rows

/-- What a call makes of the table.  Only a `load` that raises can leave it other than it
    was: written, if only the old rows were not dropped; or stranded, if both renames onto
    its name have failed. -/
inductive Content.Step (w : TrinoWrite) : Except Exc Unit → Content → Content → Prop where
  | returned {rows : List TableRow} : Step w (.ok ()) (live rows) (live (w.result rows))
  | raised {e : Exc} {c : Content} : Step w (.error e) c c
  | swapped {e : Exc} {rows : List TableRow} (h : w.op = .load) : Step w (.error e) (live rows) (live (w.result rows))
  | stranding {e : Exc} {rows : List TableRow} (h : w.op = .load) : Step w (.error e) (live rows) (stranded rows)
  /-- no rows to write -/
  | idle {rows : List TableRow} (h : w.op ≠ .load) (hrows : w.data.numRows = 0) :
      Step w (.ok ()) (stranded rows) (stranded rows)

/-- Calls with these outcomes. -/
inductive Content.Run : List TrinoWrite → List (Except Exc Unit) → Content → Content → Prop where
  | nil {c : Content} : Run [] [] c c
  | cons {w : TrinoWrite} {ws : List TrinoWrite} {result : Except Exc Unit} {results : List (Except Exc Unit)}
      {c c' c'' : Content} (h : Content.Step w result c c') (hrun : Run ws results c' c'') :
      Run (w :: ws) (result :: results) c c''

/-- No rows change no table. -/
theorem StagedOp.result_nil {op : StagedOp} {eq : ArrowValue → ArrowValue → Bool} {columns : List Str}
    {prior data : List TableRow} (h : data = []) : op.result eq columns prior data = prior := by
  subst h
  cases op with
  | append => exact List.append_nil _
  | upsert primaryKey => exact (List.append_nil _).trans (List.map_id _)

/-! ## Quiet statements -/

variable {server : TrinoServer}

/-- If no statement raised that took effect, the tables are such. -/
def Quietly (P : TrinoTables → Prop) (s : TrinoSession) : Prop := NoneTookEffect s.events → P s.tables

/-- A statement does its work, or nothing. -/
theorem execute_quietly {stmt : TrinoStatement} {P Q : TrinoTables → Prop} {ref : Option Str}
    (h : ∀ tables tables', P tables → stmt.apply server.eq tables = some tables' → Q tables') :
    Prog.Triple (fun s => Quietly P s ∧ s.stageRef = ref) (executeTrino server stmt)
      (fun _ s => Quietly Q s ∧ s.stageRef = ref)
      fun e s => e.cls.isException = true ∧ Quietly P s ∧ s.stageRef = ref := by
  refine executeTrino_triple ?_ ?_ ?_
  · rintro s ⟨hs, href⟩ - e he
    exact ⟨he, fun hquiet => hs hquiet.of_append, href⟩
  · rintro s tables ⟨hs, href⟩ happly
    exact ⟨fun hquiet => h s.tables tables (hs hquiet.of_append) happly, href⟩
  · rintro s tables ⟨hs, href⟩ - e took he
    refine ⟨he, fun hquiet => ?_, href⟩
    have htook : took = false := hquiet _ (List.mem_append_right _ List.mem_cons_self) nofun
    rw [htook]
    exact hs hquiet.of_append

/-! ## `load` -/

section
variable {w : Swap}

/-- A `load` has left the prior rows, or the new ones, or the prior rows under the old name. -/
def Settled (w : Swap) (tables : TrinoTables) : Prop :=
  ∃ t st o, w.Holds t st o tables ∧ (t = some w.prior ∨ t = some w.new ∨ (t = none ∧ o = some w.prior))

theorem Settled.of_holds {tables : TrinoTables} {t st o : Option (List TableRow)} (h : w.Holds t st o tables)
    (hcases : t = some w.prior ∨ t = some w.new ∨ (t = none ∧ o = some w.prior)) : Settled w tables :=
  ⟨t, st, o, h, hcases⟩

/-- The drop of the stage settles no less. -/
theorem Settled.drop {tables tables' : TrinoTables} (h : Settled w tables)
    (hafter : ∀ name, name ≠ w.stage → tables' name = tables name) : Settled w tables' := by
  obtain ⟨t, st, o, hholds, hcases⟩ := h
  refine ⟨t, tables' w.stage, o, ⟨?_, rfl, ?_, fun name ht hst ho => ?_⟩, hcases⟩
  · rw [hafter _ w.table_ne_stage, hholds.table]
  · rw [hafter _ w.apart.symm, hholds.old]
  · rw [hafter _ hst, hholds.others name ht hst ho]

/-- What an exception on its way to the `finally` has settled. -/
def Settling (w : Swap) (s : TrinoSession) : Prop :=
  Quietly (Settled w) s ∧ (s.stageRef = none ∨ s.stageRef = some w.stage)

theorem setStageRef_quietly {P : TrinoTables → Prop} {ref ref' : Option Str} {R : Exc → TrinoSession → Prop} :
    Prog.Triple (fun s => Quietly P s ∧ s.stageRef = ref) (setStageRef ref')
      (fun _ s => Quietly P s ∧ s.stageRef = ref') R := by
  rintro s ⟨hs, -⟩
  refine ⟨fun a s' h => ?_, fun e s' h => (by cases h)⟩
  cases h
  exact ⟨hs, rfl⟩

/-- **The swap** settles, however it ends. -/
theorem swapIn_settling :
    Prog.Triple (fun s => Quietly (w.Holds none (some w.new) (some w.prior)) s ∧ s.stageRef = some w.stage)
      (swapIn server w.table w.stage w.old) (fun _ _ => True) fun _ => Settling w := by
  refine Prog.Triple.bind (Q := fun _ s => Quietly (w.Holds (some w.new) none (some w.prior)) s ∧
    s.stageRef = some w.stage) ?_ fun _ => ?_
  · refine Prog.Triple.handle (execute_quietly fun tables tables' hholds happly => hholds.swapped happly) fun e => ?_
    by_cases hexception : e.cls.isException = true
    · rw [if_pos hexception]
      refine Prog.Triple.bind (Q := fun _ => Settling w) ?_ fun _ => Prog.Triple.raise fun _ hs => hs
      refine Prog.Triple.handle (S := fun e s => e.cls.isException = true ∧ Settling w s)
        ((execute_quietly fun tables tables' hholds happly => hholds.recovered happly).mono (fun s hs => hs.2)
          (fun _ s hs => ⟨fun hquiet => .of_holds (hs.1 hquiet) (.inl rfl), .inr hs.2⟩)
          fun e s hs => ⟨hs.1, fun hquiet => .of_holds (hs.2.1 hquiet) (.inr (.inr ⟨rfl, rfl⟩)), .inr hs.2.2⟩)
        fun e' => ?_
      by_cases hexception' : e'.cls.isException = true
      · rw [if_pos hexception']
        exact Prog.Triple.pure fun s hs => hs.2
      · exact fun s hs => absurd hs.1 hexception'
    · exact fun s hs => absurd hs.1 hexception
  refine Prog.Triple.bind setStageRef_quietly fun _ => ?_
  refine (execute_quietly (Q := w.Holds (some w.new) none none) fun tables tables' hholds happly =>
    hholds.dropped happly).mono (fun s hs => hs) (fun _ _ _ => trivial) fun _ s hs => ?_
  exact ⟨fun hquiet => .of_holds (hs.2.1 hquiet) (.inr (.inl rfl)), .inl hs.2.2⟩

/-- While the stage is filled, the target has the prior rows. -/
theorem Staging.settling {s : TrinoSession} {ref : Option Str} (h : Staging w.base w.stage ref s)
    (href : ref = none ∨ ref = some w.stage) : Settling w s := by
  refine ⟨fun _ => @Settled.of_holds w s.tables (some w.prior) (s.tables w.stage) none ⟨?_, rfl, ?_, ?_⟩ (.inl rfl), ?_⟩
  · exact (h.tables _ w.table_ne_stage).trans w.target
  · exact (h.tables _ w.apart.symm).trans w.freshOld
  · exact fun name _ hst _ => h.tables name hst
  · rw [h.ref]
    exact href

/-- The `finally` of `load`. -/
theorem finally_settling : Prog.Triple (Settling w)
    (fun s => match s.stageRef with
      | some stage => dropStage server stage s
      | none => (.ok (), s) : TrinoProg Unit)
    (fun _ => Quietly (Settled w)) fun _ => Quietly (Settled w) := by
  rintro s ⟨hs, href | href⟩
  · refine ⟨fun a s' h => ?_, fun e s' h => ?_⟩
    · simp only [href] at h
      cases h
      exact hs
    · simp only [href] at h
      cases h
  · have hdrop := @dropStage_triple server w.stage (Quietly (Settled w)) (fun _ => Quietly (Settled w))
      (fun s ev hs _ hafter hquiet => (hs hquiet.of_append).drop hafter) s hs
    refine ⟨fun a s' h => hdrop.1 a s' ?_, fun e s' h => hdrop.2 e s' ?_⟩
    · simpa only [href] using h
    · simpa only [href] using h

/-- **A `load`** that raises has settled. -/
theorem load_settled {catalog schema token : Str} {data : ArrowTable} (hstage : w.stage = stagePrefix ++ token)
    (hold : w.old = oldName token) (hnew : w.new = data.toPylist) :
    Prog.Triple (Fresh w.base w.stage none) (loadTrino server catalog schema w.table token data)
      (fun _ _ => True) fun _ => Quietly (Settled w) := by
  have hlift : ∀ {α : Type} {x : Except Exc α}, Prog.Triple (Fresh w.base w.stage none) (Prog.lift x)
      (fun _ => Fresh w.base w.stage none) fun _ => Quietly (Settled w) := fun {α x} =>
    Prog.Triple.lift (fun _ _ _ hs => hs) fun e _ s hs => (hs.staged.toStaging.settling (.inl rfl)).1
  unfold loadTrino
  rw [← hold]
  refine Prog.Triple.bind hlift fun _ => Prog.Triple.bind hlift fun _ => ?_
  refine Prog.Triple.bind (Q := fun _ => Fresh w.base w.stage none) ?_ fun _ => ?_
  · intro s hs
    refine ⟨fun a s' h => ?_, fun e s' h => (by cases h)⟩
    cases h
    exact { hs with ref := rfl }
  refine Prog.Triple.always (S := fun _ _ => True) (T := fun _ => Settling w) ?_ (fun _ => ?_) fun _ => finally_settling
  · refine Prog.Triple.bind (Q := fun name s => name = w.stage ∧ Staged w.base w.stage none (some []) s)
      ((createStage_triple hstage).mono (fun s hs => hs) (fun _ _ hs => hs) fun _ s hs => hs.1.settling (.inl rfl))
      fun name => ?_
    by_cases hname : name = w.stage
    · subst hname
      refine Prog.Triple.bind (setStageRef_triple.mono (fun s hs => hs.2) (fun _ _ hs => hs) fun _ _ hs => hs)
        fun _ => ?_
      refine Prog.Triple.bind (Q := fun _ => Staged w.base w.stage (some w.stage) (some w.new)) ?_ fun _ => ?_
      · rw [hnew]
        split_ifs with hrows
        · exact insertBatches_triple.mono (fun s hs => hs) (fun _ _ hs => hs) fun _ s hs => hs.settling (.inr rfl)
        · have hnone : data.toPylist = [] :=
            List.length_eq_zero_iff.1 ((length_toPylist data).trans (not_not.1 hrows))
          rw [hnone]
          exact Prog.Triple.pure fun s hs => hs
      refine Prog.Triple.bind (Q := fun _ s => Quietly (w.Holds none (some w.new) (some w.prior)) s ∧
        s.stageRef = some w.stage) ?_ fun _ => swapIn_settling
      refine (execute_quietly fun tables tables' hholds happly => hholds.away happly).mono
        (fun s hs => ⟨fun _ => hs.holds, hs.ref⟩) (fun _ _ hs => hs) fun _ s hs => ?_
      exact ⟨fun hquiet => .of_holds (hs.2.1 hquiet) (.inl rfl), .inr hs.2.2⟩
    · exact fun s hs => absurd hs.1 hname
  · intro s _
    cases href : s.stageRef with
    | none =>
      refine ⟨fun a s' _ => trivial, fun e s' h => ?_⟩
      simp only [href] at h
      cases h
    | some stage =>
      refine ⟨fun a s' _ => trivial, fun e s' h => ?_⟩
      obtain ⟨ev, hdrop, -⟩ := dropStage_cases server stage s
      simp only [href] at h
      cases hdrop.symm.trans h

end

/-! ## Without a target -/

/-- Nothing has happened to the tables. -/
structure Untouched (base : TrinoTables) (s : TrinoSession) : Prop where
  tables : s.tables = base
  ref : s.stageRef = none

section
variable {base : TrinoTables} {catalog schema table : Str}

theorem lift_untouched {α : Type} {x : Except Exc α} :
    Prog.Triple (Untouched base) (Prog.lift x) (fun _ => Untouched base) fun _ => Untouched base :=
  Prog.Triple.lift (fun _ _ _ hs => hs) fun _ _ _ hs => hs

/-- The stage cannot be created: the location of the target is not found. -/
theorem createStage_unbound {token : Str} (htable : base table = none) :
    Prog.Triple (Untouched base) (createStage server catalog schema table token)
      (fun _ _ => False) fun _ => Untouched base := by
  refine Prog.Triple.bind lift_untouched fun _ => Prog.Triple.bind lift_untouched fun _ => ?_
  refine Prog.Triple.bind (Q := fun _ _ => False) ?_ fun _ s hs => hs.elim
  refine Prog.Triple.bind lift_untouched fun _ => ?_
  refine Prog.Triple.bind (Q := fun _ _ => False) ?_ fun _ s hs => hs.elim
  have hrefused : ∀ s : TrinoSession, Untouched base s →
      (TrinoStatement.selectLocation table).apply server.eq s.tables = none := fun s hs => by
    rw [TrinoStatement.apply, hs.tables, htable]
    rfl
  refine executeTrino_triple (fun s hs _ e _ => ⟨hs.tables, hs.ref⟩) (fun s tables hs happly => ?_)
    fun s tables hs happly e took _ => ?_
  · cases (hrefused s hs).symm.trans happly
  · cases (hrefused s hs).symm.trans happly

/-- **Without a target**, a call raises and changes nothing, or has no rows to write. -/
theorem run_unbound {w : TrinoWrite} (htable : base table = none) :
    Prog.Triple (Untouched base) (w.run catalog schema table)
      (fun _ s => s.tables = base ∧ w.op ≠ .load ∧ w.data.numRows = 0) fun _ s => s.tables = base := by
  unfold TrinoWrite.run
  cases hop : w.op with
  | load =>
    dsimp only
    unfold loadTrino
    refine Prog.Triple.mono (Q := fun _ _ => False) (R := fun _ => Untouched base) ?_ (fun _ hs => hs)
      (fun _ _ hs => hs.elim) fun _ _ hs => hs.tables
    refine Prog.Triple.bind lift_untouched fun _ => Prog.Triple.bind lift_untouched fun _ => ?_
    refine Prog.Triple.bind (Q := fun _ => Untouched base) ?_ fun _ => ?_
    · intro s hs
      refine ⟨fun a s' h => ?_, fun e s' h => (by cases h)⟩
      cases h
      exact ⟨hs.tables, rfl⟩
    refine Prog.Triple.always (S := fun _ _ => False) (T := fun _ => Untouched base)
      (Prog.Triple.bind (createStage_unbound htable) fun _ s hs => hs.elim) (fun _ s hs => hs.elim) fun _ s hs => ?_
    refine ⟨fun a s' h => ?_, fun e s' h => ?_⟩
    · simp only [hs.ref] at h
      cases h
      exact hs
    · simp only [hs.ref] at h
      cases h
  | staged op =>
    dsimp only
    by_cases hrows : w.data.numRows = 0
    · have hnothing : op.run w.server catalog schema table w.token w.data = pure () := by
        cases op <;> exact if_pos hrows
      rw [hnothing]
      exact Prog.Triple.pure fun s hs => ⟨hs.tables, nofun, hrows⟩
    · rw [run_eq hrows]
      refine Prog.Triple.mono (Q := fun _ _ => False) (R := fun _ => Untouched base) ?_ (fun _ hs => hs)
        (fun _ _ hs => hs.elim) fun _ _ hs => hs.tables
      refine Prog.Triple.bind lift_untouched fun _ => ?_
      exact Prog.Triple.bind (createStage_unbound htable) fun _ s hs => hs.elim

end

/-! ## The other tables -/

section
variable {base : TrinoTables} {table stage : Str}

/-- Only the target and the stage have changed. -/
def OnlyTarget (base : TrinoTables) (table stage : Str) (tables : TrinoTables) : Prop :=
  ∀ name, name ≠ table → name ≠ stage → tables name = base name

theorem final_onlyTarget {op : StagedOp} {columns : List Str} :
    Prog.Triple (fun s => OnlyTarget base table stage s.tables)
      (executeTrino server (op.final table stage columns)) (fun _ s => OnlyTarget base table stage s.tables)
      fun _ s => OnlyTarget base table stage s.tables := by
  have hwrites : ∀ tables tables', (op.final table stage columns).apply server.eq tables = some tables' →
      ∀ name, name ≠ table → tables' name = tables name := by
    intro tables tables' happly name hname
    cases op with
    | append =>
      rw [StagedOp.final, TrinoStatement.apply] at happly
      split at happly
      · split_ifs at happly
        cases happly
        exact Function.update_of_ne hname _ _
      · cases happly
    | upsert primaryKey =>
      rw [StagedOp.final, TrinoStatement.apply] at happly
      split at happly
      · split_ifs at happly
        obtain ⟨rows, -, rfl⟩ := Option.map_eq_some_iff.1 happly
        exact Function.update_of_ne hname _ _
      · cases happly
  refine executeTrino_triple (fun s hs _ _ _ => hs) (fun s tables hs happly => ?_) fun s tables hs happly e took _ => ?_
  · exact fun name ht hst => (hwrites _ _ happly name ht).trans (hs name ht hst)
  · cases took with
    | true => exact fun name ht hst => (hwrites _ _ happly name ht).trans (hs name ht hst)
    | false => exact hs

/-- **A staged write** changes the target and its stage only. -/
theorem staged_onlyTarget {op : StagedOp} {catalog schema token : Str} {data : ArrowTable}
    (hstage : stage = stagePrefix ++ token) :
    Prog.Triple (Fresh base stage none) (op.run server catalog schema table token data)
      (fun _ s => OnlyTarget base table stage s.tables) fun _ s => OnlyTarget base table stage s.tables := by
  have hstaging : ∀ {s : TrinoSession} {ref : Option Str}, Staging base stage ref s →
      OnlyTarget base table stage s.tables := fun hs name _ hst => hs.tables name hst
  by_cases hrows : data.numRows = 0
  · have hnothing : op.run server catalog schema table token data = pure () := by
      cases op <;> exact if_pos hrows
    rw [hnothing]
    exact Prog.Triple.pure fun s hs => hstaging hs.staged.toStaging
  rw [run_eq hrows]
  refine Prog.Triple.bind (Prog.Triple.lift (fun _ _ _ hs => hs) fun _ _ s hs => hstaging hs.staged.toStaging)
    fun _ => ?_
  refine Prog.Triple.bind (Q := fun name s => name = stage ∧ Staged base stage none (some []) s)
    ((createStage_triple hstage).mono (fun s hs => hs) (fun _ _ hs => hs) fun _ s hs => hstaging hs.1) fun name => ?_
  by_cases hname : name = stage
  · subst hname
    have hdrop := @dropStage_triple server name (fun s => OnlyTarget base table name s.tables)
      (fun _ s => OnlyTarget base table name s.tables)
      fun s ev hs _ hafter other ht hst => (hafter other hst).trans (hs other ht hst)
    refine Prog.Triple.always (S := fun _ s => OnlyTarget base table name s.tables)
      (T := fun _ s => OnlyTarget base table name s.tables) ?_ (fun _ => hdrop) fun _ => hdrop
    refine Prog.Triple.bind (Q := fun _ s => OnlyTarget base table name s.tables)
      (insertBatches_triple.mono (fun s hs => hs.2) (fun _ s hs => hstaging hs.toStaging) fun _ s hs => hstaging hs)
      fun _ => ?_
    refine Prog.Triple.bind (Q := fun stmt s => stmt = op.final table name data.columnNames ∧
      OnlyTarget base table name s.tables) (Prog.Triple.lift (fun stmt hstmt s hs =>
        ⟨StagedOp.finalStatement_eq_ok hstmt, hs⟩) fun _ _ s hs => hs) fun stmt => ?_
    by_cases hstmt : stmt = op.final table name data.columnNames
    · subst hstmt
      exact final_onlyTarget.mono (fun s hs => hs.2) (fun _ _ hs => hs) fun _ _ hs => hs
    · exact fun s hs => absurd hs.1 hstmt
  · exact fun s hs => absurd hs.1 hname

end

/-! ## One call -/

/-- A stage and an old name are never the same, whatever the tokens. -/
theorem stage_ne_oldName (token token' : Str) : stagePrefix ++ token ≠ oldName token' := fun h => by
  have hstart := congrArg (List.take 12) h
  rw [oldName, List.take_append_of_le_length (by decide), List.take_append_of_le_length (by decide)] at hstart
  exact absurd hstart (by decide)

section
variable {catalog schema table : Str} {tables : TrinoTables} {w : TrinoWrite}

/-- The names of a call are free. -/
structure TrinoWrite.Free (w : TrinoWrite) (table : Str) (tables : TrinoTables) : Prop where
  stage : tables (stagePrefix ++ w.token) = none
  old : tables (oldName w.token) = none
  table_ne_stage : table ≠ stagePrefix ++ w.token
  table_ne_old : table ≠ oldName w.token

/-- The tables that the call has to do with are the only ones that changed. -/
def TrinoWrite.Only (w : TrinoWrite) (table : Str) (tables tables' : TrinoTables) : Prop :=
  ∀ name, name ≠ table → name ≠ stagePrefix ++ w.token → name ≠ oldName w.token → tables' name = tables name

/-- **A `load`** on a table with rows. -/
theorem load_step (hop : w.op = .load) (hfree : w.Free table tables) {rows : List TableRow}
    (htable : tables table = some rows) {result : Except Exc Unit} {s : TrinoSession}
    (hrun : w.run catalog schema table (.start tables) = (result, s)) (hquiet : NoneTookEffect s.events) :
    (∃ c, Content.Step w result (.live rows) c ∧ c.Holds table [w.token] s.tables) ∧ w.Only table tables s.tables := by
  let swap : Swap := ⟨tables, table, stagePrefix ++ w.token, oldName w.token, rows, w.data.toPylist, htable,
    hfree.stage, hfree.old, stage_ne_old w.token⟩
  have hresult : w.result rows = w.data.toPylist := by
    unfold TrinoWrite.result
    rw [hop]
  unfold TrinoWrite.run at hrun
  rw [hop] at hrun
  have hfresh := fresh_start hfree.stage
  cases result with
  | ok u =>
    have hswapped : Swapped swap s := (@load_triple' swap w.server catalog schema w.token w.data rfl rfl rfl _ hfresh).1
      _ _ hrun
    refine ⟨⟨_, .returned, ?_⟩, hswapped.holds.others⟩
    rw [hresult]
    exact hswapped.holds.table
  | error e =>
    obtain ⟨t, st, o, hholds, hcases⟩ : Settled swap s.tables :=
      (@load_settled w.server swap catalog schema w.token w.data rfl rfl rfl _ hfresh).2 _ _ hrun hquiet
    refine ⟨?_, hholds.others⟩
    rcases hcases with rfl | rfl | ⟨rfl, rfl⟩
    · exact ⟨_, .raised, hholds.table⟩
    · refine ⟨_, .swapped hop, ?_⟩
      rw [hresult]
      exact hholds.table
    · exact ⟨_, .stranding hop, hholds.table, w.token, List.mem_singleton_self _, hholds.old⟩

/-- **A staged write** on a table with rows. -/
theorem staged_step {op : StagedOp} (hop : w.op = .staged op) (hfree : w.Free table tables) {rows : List TableRow}
    (htable : tables table = some rows) {result : Except Exc Unit} {s : TrinoSession}
    (hrun : w.run catalog schema table (.start tables) = (result, s)) (hquiet : NoneTookEffect s.events) :
    (∃ c, Content.Step w result (.live rows) c ∧ c.Holds table [w.token] s.tables) ∧ w.Only table tables s.tables := by
  have hresult : w.result rows = op.result w.server.eq w.data.columnNames rows w.data.toPylist := by
    unfold TrinoWrite.result
    rw [hop]
  unfold TrinoWrite.run at hrun
  rw [hop] at hrun
  have hfresh := fresh_start hfree.stage
  have honly := @staged_onlyTarget w.server tables table _ op catalog schema w.token w.data rfl _ hfresh
  refine ⟨?_, fun name ht hst _ => ?_⟩
  · by_cases hrows : w.data.numRows = 0
    · have hnothing : op.run w.server catalog schema table w.token w.data (.start tables) =
          (.ok (), .start tables) := by
        cases op <;> exact congrFun (if_pos hrows) _
      cases hnothing.symm.trans hrun
      have hnone : w.data.toPylist = [] := List.length_eq_zero_iff.1 ((length_toPylist w.data).trans hrows)
      refine ⟨_, .returned, ?_⟩
      rw [hresult, op.result_nil hnone]
      exact htable
    · obtain ⟨hok, herror⟩ := @run_triple w.server tables table _ rows op catalog schema w.token w.data hrows rfl
        hfree.table_ne_stage htable _ hfresh
      cases result with
      | ok u =>
        refine ⟨_, .returned, ?_⟩
        rw [hresult]
        exact (hok _ _ hrun).target
      | error e => exact ⟨_, .raised, (herror _ _ hrun).target hquiet⟩
  · cases result with
    | ok u => exact honly.1 _ _ hrun name ht hst
    | error e => exact honly.2 _ _ hrun name ht hst

theorem oldName_inj {token token' : Str} (h : oldName token = oldName token') : token = token' :=
  List.append_cancel_left h

/-- More tokens hide nothing. -/
theorem Content.Holds.mono {c : Content} {tokens tokens' : List Str} (h : c.Holds table tokens tables)
    (hsub : tokens ⊆ tokens') : c.Holds table tokens' tables := by
  cases c with
  | live rows => exact h
  | stranded rows =>
    obtain ⟨htable, token, htoken, hold⟩ := h
    exact ⟨htable, token, hsub htoken, hold⟩

/-- **One call** makes a step of the abstract table, and changes no other table. -/
theorem TrinoWrite.step {c : Content} {seen : List Str} (hc : c.Holds table seen tables) (hfree : w.Free table tables)
    {result : Except Exc Unit} {s : TrinoSession}
    (hrun : w.run catalog schema table (.start tables) = (result, s)) (hquiet : NoneTookEffect s.events) :
    (∃ c', Content.Step w result c c' ∧ c'.Holds table (w.token :: seen) s.tables) ∧ w.Only table tables s.tables := by
  cases c with
  | live rows =>
    have hlive : (∃ c', Content.Step w result (.live rows) c' ∧ c'.Holds table [w.token] s.tables) ∧
        w.Only table tables s.tables := by
      cases hop : w.op with
      | load => exact load_step hop hfree hc hrun hquiet
      | staged op => exact staged_step hop hfree hc hrun hquiet
    obtain ⟨⟨c', hstep, hholds⟩, honly⟩ := hlive
    exact ⟨⟨c', hstep, hholds.mono (List.cons_subset_cons _ (List.nil_subset _))⟩, honly⟩
  | stranded rows =>
    obtain ⟨htable, token, htoken, hold⟩ := hc
    obtain ⟨hok, herror⟩ := @run_unbound tables catalog schema table w htable (.start tables) ⟨rfl, rfl⟩
    have hkept : ∀ {tables'}, tables' = tables → (Content.stranded rows).Holds table (w.token :: seen) tables' := by
      rintro _ rfl
      exact ⟨htable, token, List.mem_cons_of_mem _ htoken, hold⟩
    cases result with
    | ok u =>
      obtain ⟨htables, hop, hrows⟩ := hok _ _ hrun
      exact ⟨⟨_, .idle hop hrows, hkept htables⟩, fun name _ _ _ => by rw [htables]⟩
    | error e =>
      have htables := herror _ _ hrun
      exact ⟨⟨_, .raised, hkept htables⟩, fun name _ _ _ => by rw [htables]⟩

end

/-! ## Histories -/

/-- The names of every call are free, and no two calls share them. -/
structure FreshTokens (ws : List TrinoWrite) (table : Str) (tables : TrinoTables) : Prop where
  nodup : (ws.map TrinoWrite.token).Nodup
  free : ∀ w ∈ ws, w.Free table tables

/-- What the calls that returned make of the rows, in order. -/
def returnedRows : List TrinoWrite → List (Except Exc Unit) → List TableRow → List TableRow
  | w :: ws, .ok () :: results, rows => returnedRows ws results (w.result rows)
  | _ :: ws, .error _ :: results, rows => returnedRows ws results rows
  | _, _, rows => rows

/-- Without a `load` that raised, the abstract table has what the calls that returned have
    made of it. -/
theorem Content.Run.live {ws : List TrinoWrite} {results : List (Except Exc Unit)} {c c' : Content}
    (h : Content.Run ws results c c') {rows : List TableRow} (hc : c = .live rows)
    (hloads : ∀ p ∈ ws.zip results, p.1.op = .load → p.2 = .ok ()) : c' = .live (returnedRows ws results rows) := by
  induction h generalizing rows with
  | nil => exact hc
  | @cons w ws result results c c' c'' hstep hrun ih =>
    have hrest : ∀ p ∈ ws.zip results, p.1.op = .load → p.2 = .ok () := fun p hp => hloads p (List.mem_cons_of_mem _ hp)
    have hfirst := hloads (w, result) List.mem_cons_self
    subst hc
    cases hstep with
    | returned => exact ih rfl hrest
    | raised => exact ih rfl hrest
    | swapped hop => cases hfirst hop
    | stranding hop => cases hfirst hop

/-- **Every history** of calls with fresh names, on servers whose failing statements have no
    effect, is one of the abstract table: a call that returns has written, one that raises
    has changed nothing, but for a `load` that has written all the same or has stranded the
    table, whose rows stay under an old name.  If no `load` has raised, the table has what
    the calls that returned have made of it.  No other table is changed. -/
theorem history_content (catalog schema table : Str) (ws : List TrinoWrite) (tables : TrinoTables)
    (rows : List TableRow) (hrows : tables table = some rows) (hfresh : FreshTokens ws table tables)
    (hquiet : ∀ out ∈ (runWrites catalog schema table ws tables).1, NoneTookEffect out.2) :
    ∃ c, Content.Run ws ((runWrites catalog schema table ws tables).1.map Prod.fst) (.live rows) c ∧
      c.Holds table (ws.map TrinoWrite.token) (runWrites catalog schema table ws tables).2 ∧
      ((∀ p ∈ ws.zip ((runWrites catalog schema table ws tables).1.map Prod.fst), p.1.op = .load → p.2 = .ok ()) →
        (runWrites catalog schema table ws tables).2 table =
          some (returnedRows ws ((runWrites catalog schema table ws tables).1.map Prod.fst) rows)) ∧
      ∀ name, name ≠ table → (∀ w ∈ ws, name ≠ stagePrefix ++ w.token ∧ name ≠ oldName w.token) →
        (runWrites catalog schema table ws tables).2 name = tables name := by
  have hall : ∀ (ws : List TrinoWrite) (tables : TrinoTables) (c : Content) (seen : List Str),
      c.Holds table seen tables → FreshTokens ws table tables →
      (∀ out ∈ (runWrites catalog schema table ws tables).1, NoneTookEffect out.2) →
      (∃ c', Content.Run ws ((runWrites catalog schema table ws tables).1.map Prod.fst) c c' ∧
        c'.Holds table (seen ++ ws.map TrinoWrite.token) (runWrites catalog schema table ws tables).2) ∧
      ∀ name, name ≠ table → (∀ w ∈ ws, name ≠ stagePrefix ++ w.token ∧ name ≠ oldName w.token) →
        (runWrites catalog schema table ws tables).2 name = tables name := by
    intro ws
    induction ws with
    | nil =>
      intro tables c seen hc _ _
      refine ⟨⟨c, .nil, ?_⟩, fun _ _ _ => rfl⟩
      rwa [List.map_nil, List.append_nil]
    | cons w ws ih =>
      intro tables c seen hc hfresh hquiet
      obtain ⟨hnodup, hnames⟩ := hfresh
      rw [List.map_cons, List.nodup_cons] at hnodup
      rcases hrun : w.run catalog schema table (.start tables) with ⟨result, s⟩
      have hruns : runWrites catalog schema table (w :: ws) tables =
          ((result, s.events) :: (runWrites catalog schema table ws s.tables).1,
            (runWrites catalog schema table ws s.tables).2) := by
        rw [runWrites, hrun]
      rw [hruns] at hquiet ⊢
      obtain ⟨⟨c', hstep, hc'⟩, honly⟩ := TrinoWrite.step hc (hnames w List.mem_cons_self) hrun
        (hquiet _ List.mem_cons_self)
      have hother : ∀ w' ∈ ws, w'.token ≠ w.token := fun w' hw' heq => hnodup.1 (heq ▸ List.mem_map_of_mem hw')
      have hfresh' : FreshTokens ws table s.tables := by
        refine ⟨hnodup.2, fun w' hw' => ?_⟩
        obtain ⟨hstage, hold, htable, htable'⟩ := hnames w' (List.mem_cons_of_mem _ hw')
        refine ⟨?_, ?_, htable, htable'⟩
        · rw [honly _ htable.symm (fun h => hother w' hw' (List.append_cancel_left h)) (stage_ne_oldName _ _)]
          exact hstage
        · rw [honly _ htable'.symm (stage_ne_oldName _ _).symm fun h => hother w' hw' (oldName_inj h)]
          exact hold
      obtain ⟨⟨c'', hruns', hc''⟩, hothers⟩ := ih s.tables c' (w.token :: seen) hc' hfresh'
        fun out hout => hquiet out (List.mem_cons_of_mem _ hout)
      refine ⟨⟨c'', .cons hstep hruns', hc''.mono ?_⟩, fun name hname hnot => ?_⟩
      · intro token htoken
        simp only [List.mem_append, List.mem_cons, List.map_cons] at htoken ⊢
        tauto
      · rw [hothers name hname fun w' hw' => hnot w' (List.mem_cons_of_mem _ hw')]
        exact honly name hname (hnot w List.mem_cons_self).1 (hnot w List.mem_cons_self).2
  obtain ⟨⟨c, hrun, hc⟩, hothers⟩ := hall ws tables (.live rows) [] hrows hfresh hquiet
  refine ⟨c, hrun, hc, fun hloads => ?_, hothers⟩
  cases hrun.live rfl hloads
  exact hc

/-- A schema with one table of one row. -/
def oneTable : TrinoTables := Function.update (fun _ => none) (py "t") (some [fun _ => none])

/-- An `append` whose stage is not dropped, and a `load` that strands the table. -/
def strandingWrites : List TrinoWrite :=
  [⟨.staged .append, oneRow, py "0", trinoServer dropFails⟩, ⟨.load, ⟨0, []⟩, py "1", trinoServer renamesFail⟩]

theorem history_content_stranding :
    ∃ c, Content.Run strandingWrites ((runWrites (py "c") (py "s") (py "t") strandingWrites oneTable).1.map Prod.fst)
      (.live [fun _ => none]) c ∧ c.Holds (py "t") (strandingWrites.map TrinoWrite.token)
        (runWrites (py "c") (py "s") (py "t") strandingWrites oneTable).2 := by
  have hquiet : ∀ out ∈ (runWrites (py "c") (py "s") (py "t") strandingWrites oneTable).1, NoneTookEffect out.2 := by
    unfold NoneTookEffect
    decide
  have hfresh : FreshTokens strandingWrites (py "t") oneTable := by
    refine ⟨by decide, fun w hw => ?_⟩
    rw [strandingWrites, List.mem_cons, List.mem_singleton] at hw
    rcases hw with rfl | rfl
    · exact ⟨rfl, rfl, by decide, by decide⟩
    · exact ⟨rfl, rfl, by decide, by decide⟩
  obtain ⟨c, hrun, hc, -⟩ := history_content (py "c") (py "s") (py "t") strandingWrites oneTable [fun _ => none] rfl
    hfresh hquiet
  exact ⟨c, hrun, hc⟩

end ContinuoRuntime
