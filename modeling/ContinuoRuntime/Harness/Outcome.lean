/-
  What `run_node` reports, and how its process ends.

  The handlers make a result block of an `Exception` that has a text; a `SystemExit`
  or another `BaseException` passes them, as does what `str` of an exception raises.

  * `ResultContract`: one block, and the exit status and the write agree with it;
  * `runNode_result_iff`: **a run keeps it exactly if** what leaves the `try` can be
    reported and `close` does not end the process against the block.
-/
import ContinuoRuntime.Harness.Gates

namespace ContinuoRuntime

open NodeRun

/-! ## The contract -/

/-- A write has returned. -/
def WriteReturned (events : List AdapterEvent) : Prop := ∃ e ∈ events, e.call.isWrite = true ∧ e.raised = none

/-- **The result contract**: one block, whose status is `success` exactly if the process
    exits with 0, and exactly if the write has returned. -/
def ResultContract (w : NodeRun) : Prop :=
  ∃ block, (w.runNode .start).2.printed = [block] ∧
    (exitStatus (w.runNode .start).1 = 0 ↔ block.status = py "success") ∧
    (block.status = py "success" ↔ WriteReturned (w.runNode .start).2.events)

/-- `close` raises from this state what the `finally` does not swallow. -/
def CloseEscapes (s : RunState) (e : Exc) : Prop :=
  ∃ a, s.active = some a ∧ a.answer s.events .close = .error e ∧ e.cls.isException = false

/-- What leaves the `try` can be reported, and what leaves `close` ends the process as
    the block says. -/
structure Tame (w : NodeRun) : Prop where
  reportable : ∀ e s, w.tryBody .start = (.error e, s) → Reportable e
  close : ∀ e, CloseEscapes w.handled.2 e →
    (exitStatus (.error e) = 0 ↔ WriteReturned w.handled.2.events)

/-! ## Events -/

theorem trace_writeReturned {w : NodeRun} {t : RunTarget} {completed : Bool} {events : List AdapterEvent}
    (h : w.Trace t completed events) : completed = true ↔ WriteReturned events := by
  have hearly : ∀ {before : List AdapterEvent}, (∀ e ∈ before, t.Early e) → ¬ WriteReturned before := by
    rintro before hbefore ⟨e, he, hwrite, -⟩
    rw [(hbefore e he).kinds.1] at hwrite
    cases hwrite
  cases h with
  | early hevents => exact ⟨fun h => (by cases h), fun h => absurd h (hearly hevents)⟩
  | ensured h =>
    refine ⟨fun h => (by cases h), ?_⟩
    rintro ⟨e, he, hwrite, hraised⟩
    rcases List.mem_append.1 he with he | he
    · exact absurd ⟨e, he, hwrite, hraised⟩ (hearly h.early)
    · rw [List.mem_singleton.1 he] at hwrite
      cases hwrite
  | shaped h =>
    refine ⟨fun h => (by cases h), ?_⟩
    rintro ⟨e, he, hwrite, hraised⟩
    simp only [List.mem_append, List.mem_cons, List.not_mem_nil, or_false] at he
    rcases he with he | rfl | rfl
    · exact absurd ⟨e, he, hwrite, hraised⟩ (hearly h.early)
    · cases hwrite
    · cases hwrite
  | @written conformed before shape h hshape raised =>
    constructor
    · intro hraised
      exact ⟨⟨t.writeCall conformed, raised⟩, List.mem_append_right _ List.mem_cons_self, writeCall_kinds.1,
        Option.isNone_iff_eq_none.1 hraised⟩
    · rintro ⟨e, he, hwrite, hraised⟩
      simp only [List.mem_append, List.mem_cons, List.not_mem_nil, or_false] at he
      rcases he with (he | rfl | he) | rfl
      · exact absurd ⟨e, he, hwrite, hraised⟩ (hearly h.early)
      · cases hwrite
      · rw [hshape.mem e he] at hwrite
        cases hwrite
      · rw [show raised = none from hraised]
        rfl

theorem writeReturned_close {events : List AdapterEvent} {raised : Option Exc} :
    WriteReturned (events ++ [⟨.close, raised⟩]) ↔ WriteReturned events := by
  constructor
  · rintro ⟨e, he, hwrite, hraised⟩
    rcases List.mem_append.1 he with he | he
    · exact ⟨e, he, hwrite, hraised⟩
    · rw [List.mem_singleton.1 he] at hwrite
      cases hwrite
  · rintro ⟨e, he, h⟩
    exact ⟨e, List.mem_append_left _ he, h⟩

/-! ## The `finally` -/

/-- A `finally` that changes the outcome raises what escapes from `close`. -/
theorem closeAdapter_fst (s : RunState) :
    ((closeAdapter s).1 = .ok () ∧ ∀ e, ¬ CloseEscapes s e) ∨
      ∃ e, (closeAdapter s).1 = .error e ∧ CloseEscapes s e ∧ ∀ e', CloseEscapes s e' → e' = e := by
  cases hactive : s.active with
  | none =>
    refine .inl ⟨by unfold closeAdapter; rw [hactive], ?_⟩
    rintro e ⟨a, ha, -⟩
    rw [hactive] at ha
    cases ha
  | some a =>
    rw [closeAdapter_some hactive]
    cases hanswer : a.answer s.events .close with
    | ok reply =>
      refine .inl ⟨rfl, ?_⟩
      rintro e ⟨a', ha', he, -⟩
      cases hactive.symm.trans ha'
      cases hanswer.symm.trans he
    | error e =>
      dsimp only
      by_cases hexception : e.cls.isException = true
      · refine .inl ⟨if_pos hexception, ?_⟩
        rintro e' ⟨a', ha', he, hbase⟩
        cases hactive.symm.trans ha'
        cases hanswer.symm.trans he
        rw [hexception] at hbase
        cases hbase
      · refine .inr ⟨e, if_neg hexception, ⟨a, hactive, hanswer, by simpa using hexception⟩, ?_⟩
        rintro e' ⟨a', ha', he, -⟩
        cases hactive.symm.trans ha'
        cases hanswer.symm.trans he
        rfl

theorem runNode_printed (w : NodeRun) : (w.runNode .start).2.printed = w.handled.2.printed := by
  rw [runNode_eq]
  exact closeAdapter_events.2.1

theorem runNode_writeReturned (w : NodeRun) :
    WriteReturned (w.runNode .start).2.events ↔ WriteReturned w.handled.2.events := by
  rw [runNode_eq]
  rcases closeAdapter_events.2.2 with ⟨-, hevents⟩ | ⟨-, raised, hevents⟩
  · rw [hevents]
  · rw [hevents, writeReturned_close]

/-! ## Outcomes -/

/-- A run with one block keeps the contract exactly if its `finally` agrees with it. -/
theorem resultContract_of_block {w : NodeRun} {block : NodeResult} {n : ℤ} (hprinted : w.handled.2.printed = [block])
    (hn : w.handled.1 = .ok n) (hexit : n = 0 ↔ block.status = py "success")
    (hwrite : block.status = py "success" ↔ WriteReturned w.handled.2.events) :
    ResultContract w ↔ ∀ e, CloseEscapes w.handled.2 e →
      (exitStatus (.error e) = 0 ↔ WriteReturned w.handled.2.events) := by
  unfold ResultContract
  simp only [runNode_printed, runNode_writeReturned, hprinted, List.cons.injEq, and_true, exists_eq_left']
  rw [and_iff_left hwrite]
  rcases closeAdapter_fst w.handled.2 with ⟨hok, hnone⟩ | ⟨e, herror, hescapes, hunique⟩
  · have hfst : (w.runNode .start).1 = w.handled.1 := Prog.always_fst_of_ok hok
    rw [hfst, hn]
    exact ⟨fun _ e he => absurd he (hnone e), fun _ => hexit⟩
  · have hfst : (w.runNode .start).1 = .error e := Prog.always_fst_of_error herror
    rw [hfst, hwrite]
    refine ⟨fun h e' he' => ?_, fun h => h e hescapes⟩
    rw [hunique e' he']
    exact h

/-- **The result contract** holds of a run exactly if it is tame. -/
theorem runNode_result_iff (w : NodeRun) : ResultContract w ↔ Tame w := by
  have hfail : ∀ {e s}, w.tryBody .start = (.error e, s) → s.printed = [] → ¬ WriteReturned s.events →
      (ResultContract w ↔ Tame w) := by
    intro e s htry hprinted hwrite
    have hhandled : w.handled = report ((w.env (py "NODE_ID")).getD []) e s := Prog.handle_of_error htry
    by_cases hreportable : Reportable e
    · obtain ⟨message, hreport⟩ := @report_of_reportable ((w.env (py "NODE_ID")).getD []) e hreportable s
      rw [hreport, hprinted] at hhandled
      have hne : py "error" ≠ py "success" := by decide
      rw [@resultContract_of_block w ⟨py "error", message, 1, _⟩ 1 (by rw [hhandled]; rfl) (by rw [hhandled])
        ⟨fun h => (by cases h), fun h => absurd h hne⟩ ⟨fun h => absurd h hne, fun h => ?_⟩]
      · refine ⟨fun h => ⟨fun e' s' htry' => ?_, h⟩, fun h => h.close⟩
        cases htry.symm.trans htry'
        exact hreportable
      · rw [hhandled] at h
        exact absurd h hwrite
    · obtain ⟨e', hreport⟩ := @report_of_not_reportable ((w.env (py "NODE_ID")).getD []) e hreportable s
      rw [hreport] at hhandled
      refine iff_of_false ?_ fun h => hreportable (h.reportable e s htry)
      rintro ⟨block, hblock, -⟩
      rw [runNode_printed, hhandled] at hblock
      cases hprinted.symm.trans hblock
  rcases tryBody_cases w with ⟨e, -, htry⟩ | ⟨t, -, ⟨e, s, htry, hs, htrace⟩ | ⟨s, htry, hs⟩⟩
  · refine hfail htry rfl ?_
    rintro ⟨e, he, -⟩
    cases he
  · exact hfail htry hs.printed fun h => by cases (trace_writeReturned htrace).2 h
  · have hhandled : w.handled = (.ok 0, s) := Prog.handle_of_ok htry
    obtain ⟨rows, hprinted⟩ := hs.printed
    have hwrite := (trace_writeReturned hs.trace).1 rfl
    rw [@resultContract_of_block w ⟨py "success", rows, 0, _⟩ 0 (by rw [hhandled]; exact hprinted)
      (by rw [hhandled]) ⟨fun _ => rfl, fun _ => rfl⟩ ⟨fun _ => by rw [hhandled]; exact hwrite, fun _ => rfl⟩]
    refine ⟨fun h => ⟨fun e' s' htry' => ?_, h⟩, fun h => h.close⟩
    cases htry.symm.trans htry'

/-! ## A script that exits -/

/-- A contract with one `python-api` node. -/
def oneNodeDocument : Document where
  heap := {
    size := 5
    cell
      | 0 => .dict ⟨[(.str (py "schema"), .str (py "s")), (.str (py "table"), .str (py "t")),
          (.str (py "owner"), .str (py "o")), (.str (py "schedule"), .str (py "d")),
          (.str (py "criticality"), .str (py "CORE")), (.str (py "kind"), .str (py "python-api")),
          (.str (py "script"), .str (py "x.py")), (.str (py "output_columns"), .ref 1)], apiFields_keys⟩
      | 1 => .list [.ref 2]
      | 2 => .dict ⟨[(.str (py "name"), .str (py "a")), (.str (py "type"), .str (py "TEXT"))], textColumn_keys⟩
      | 3 => .dict ⟨[(.str (py "nodes"), .ref 4)], nodes_keys⟩
      | 4 => .list [.ref 0] }
  root := .ref 3

/-- An adapter that does what it is asked. -/
def obligingAdapter : Adapter where
  typeName := py "Adapter"
  validates := false
  appendCapable := true
  upsertCapable := true
  answer _
    | .fetch _ => .ok ⟨0, []⟩
    | .tableColumns _ _ => .ok ([] : List LiveColumn)
    | .validateConfig _ _ | .ensureTable _ _ _ _ _ | .load _ _ _ | .append _ _ _ | .upsert _ _ _ _ => .ok ()
    | .ensureSchema _ | .dropSchema _ | .buildEmptyFromSql _ _ _ | .cloneEmptyFromProd _ _ _ => .ok ()
    | .buildEmptyFromColumns _ _ _ _ | .checkBinds _ | .fromEnv | .close => .ok ()

/-- A run of the node with this script. -/
def scriptRun (script : Script) : NodeRun where
  env key := if key = py "NODE_ID" then some (py "node.s.t")
    else if key = py "TABLE_NAME" then some (py "t")
    else if key = py "TARGET_SCHEMA" then some (py "s")
    else none
  environ _ := none
  adapter := some obligingAdapter
  entryPoints := []
  lang := plainLang
  parser := emptySql
  yaml _ := ⟨[], .ok oneNodeDocument⟩
  files _ := [(py "n.yml", [])]
  resolve text := .ok (pureParts text)
  isFile _ := true
  importFile _ := .module (.ok (some script))
  fetchCsv _ := .ok []
  readCsv _ _ := .ok ⟨0, []⟩
  casts := selfCast
  casefold := id

/-- `sys.exit(0)` in `run()`. -/
def exitingRun : NodeRun := scriptRun (.ends (.error (.text (.systemExit (.int 0)) (py "0"))))

/-- **A script that exits**: no block is printed, and the process ends with 0. -/
theorem runNode_exits : (exitingRun.runNode .start).2.printed = [] ∧
    exitStatus (exitingRun.runNode .start).1 = 0 ∧ ¬ ResultContract exitingRun := by
  have hprinted : (exitingRun.runNode .start).2.printed = [] := rfl
  refine ⟨hprinted, rfl, ?_⟩
  rintro ⟨block, hblock, -⟩
  rw [hprinted] at hblock
  cases hblock

end ContinuoRuntime
