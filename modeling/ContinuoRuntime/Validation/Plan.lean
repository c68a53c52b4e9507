/-
  What an operation of the validation runner does on the adapter.

  An operation is a list of steps, calls and checks: it stops at the first that fails.

  * `attempt_eq`: the operations of `main` are such lists;
  * `attempt_triple`: what has happened when one ends.
-/
import ContinuoRuntime.Validation.Runner

namespace ContinuoRuntime

/-! ## Steps -/

/-- A call of the adapter, or a check in between. -/
inductive RunnerStep where
  | call (call : AdapterCall)
  | check (result : Except Exc Unit)

/-- The calls among the steps. -/
def stepCalls : List RunnerStep → List AdapterCall
  | [] => []
  | .call c :: steps => c :: stepCalls steps
  | .check _ :: steps => stepCalls steps

/-- One step. -/
def RunnerStep.run (a : Adapter) : RunnerStep → RunProg Unit
  | call c => invoke a c
  | check result => Prog.lift result

/-- The event of a call that has returned. -/
def returnedEvent (c : AdapterCall) : AdapterEvent := ⟨c, none⟩

theorem stepCalls_append : ∀ {steps steps' : List RunnerStep},
    stepCalls (steps ++ steps') = stepCalls steps ++ stepCalls steps'
  | [], _ => rfl
  | .call c :: _, _ => congrArg (c :: ·) stepCalls_append
  | .check _ :: steps, _ => @stepCalls_append steps _

theorem stepCalls_map {α : Type} {f : α → AdapterCall} : ∀ {xs : List α},
    stepCalls (xs.map fun x => .call (f x)) = xs.map f
  | [] => rfl
  | _ :: _ => congrArg (_ :: ·) stepCalls_map

/-- The steps of the checks of `build_from_columns`, and its build. -/
def columnSteps (reads : Json Str) (build : AdapterCall) : List RunnerStep :=
  match reads.iterate with
  | .ok sqls => sqls.map (fun sql => .call (.checkBinds sql)) ++ [.call build]
  | .error e => [.check (.error e)]

/-- The steps of an operation. -/
def ValidationRun.steps (w : ValidationRun) (job : RunnerJob) : List RunnerStep :=
  match job.op with
  | .ensureSchema => [.call (.ensureSchema job.schema)]
  | .dropSchema => [.call (.dropSchema job.schema)]
  | .buildFromSql table sql =>
    [.call (.ensureSchema job.schema), .call (.buildEmptyFromSql job.schema table sql)]
  | .checkBinds _ sql => [.call (.ensureSchema job.schema), .call (.checkBinds (.str sql))]
  | .buildFromColumns table outputColumns config csvSource reads =>
    .call (.ensureSchema job.schema) :: .check (w.checkCsvHeader csvSource outputColumns) ::
      columnSteps reads (.buildEmptyFromColumns job.schema table outputColumns config)
  | .cloneFromProd table prodSchema =>
    [.call (.ensureSchema job.schema), .call (.cloneEmptyFromProd job.schema prodSchema table)]

section
variable {w : ValidationRun} {a : Adapter}

theorem bind_pure_unit (x : RunProg Unit) : (do x; pure ()) = x := bind_pure x

theorem forM_map_steps {sqls : List (Json Str)} :
    (sqls.map fun sql => RunnerStep.call (.checkBinds sql)).forM (RunnerStep.run a) =
      sqls.forM fun sql => invoke a (.checkBinds sql) := by
  rw [List.forM_eq_forM, List.forM_map]
  rfl

theorem forM_pair {first second : AdapterCall} :
    ([.call first, .call second] : List RunnerStep).forM (RunnerStep.run a) = (do
      invoke a first
      invoke a second) :=
  congrArg (invoke a first >>= ·) (funext fun _ => bind_pure_unit _)

theorem forM_columnSteps {reads : Json Str} {build : AdapterCall} :
    (columnSteps reads build).forM (RunnerStep.run a) = (do
      let sqls ← Prog.lift reads.iterate
      sqls.forM fun sql => invoke a (.checkBinds sql)
      invoke a build) := by
  unfold columnSteps
  cases reads.iterate with
  | ok sqls =>
    have hlast : ([.call build] : List RunnerStep).forM (RunnerStep.run a) = invoke a build := bind_pure_unit _
    have happend : (sqls.map (fun sql => RunnerStep.call (.checkBinds sql)) ++ [RunnerStep.call build]).forM
        (RunnerStep.run a) = (do
          (sqls.map fun sql => RunnerStep.call (.checkBinds sql)).forM (RunnerStep.run a)
          ([.call build] : List RunnerStep).forM (RunnerStep.run a)) := List.forM_append
    dsimp only
    rw [happend, hlast, forM_map_steps]
    rfl
  | error e => rfl

/-- **The operations** run their steps. -/
theorem attempt_eq (job : RunnerJob) (cls : AdapterClass) :
    w.attempt job cls = construct cls >>= fun a => (w.steps job).forM (RunnerStep.run a) := by
  unfold ValidationRun.attempt ValidationRun.steps
  refine congrArg (construct cls >>= ·) (funext fun a => ?_)
  cases job.op with
  | ensureSchema => exact (bind_pure_unit _).symm
  | dropSchema => exact (bind_pure_unit _).symm
  | buildFromSql table sql => exact forM_pair.symm
  | checkBinds table sql => exact forM_pair.symm
  | buildFromColumns table outputColumns config csvSource reads =>
    refine congrArg (invoke a _ >>= ·) (funext fun _ => ?_)
    refine congrArg (Prog.lift (w.checkCsvHeader csvSource outputColumns) >>= ·) (funext fun _ => ?_)
    exact forM_columnSteps.symm
  | cloneFromProd table prodSchema => exact forM_pair.symm

/-! ## What has happened -/

/-- The checks among the steps have passed. -/
def Passed (steps : List RunnerStep) : Prop := ∀ result, .check result ∈ steps → result = .ok ()

/-- The events of an adapter that was constructed, and of these calls. -/
def callEvents (calls : List AdapterCall) : List AdapterEvent :=
  ⟨.fromEnv, none⟩ :: calls.map returnedEvent

/-- **How an operation ends**: with all its steps, or at the first that fails. -/
inductive Attempted (steps : List RunnerStep) : Bool → List AdapterEvent → Prop
  | unconstructed (e : Exc) : Attempted steps false [⟨.fromEnv, some e⟩]
  | refused {before after : List RunnerStep} {result : Except Exc Unit}
      (hsteps : steps = before ++ .check result :: after) (hbefore : Passed before) (hresult : result ≠ .ok ()) :
      Attempted steps false (callEvents (stepCalls before))
  | raised {before after : List RunnerStep} {call : AdapterCall}
      (hsteps : steps = before ++ .call call :: after) (hbefore : Passed before) (e : Exc) :
      Attempted steps false (callEvents (stepCalls before) ++ [⟨call, some e⟩])
  | done (hpassed : Passed steps) : Attempted steps true (callEvents (stepCalls steps))

theorem callEvents_append {calls : List AdapterCall} {c : AdapterCall} :
    callEvents calls ++ [returnedEvent c] = callEvents (calls ++ [c]) := by
  unfold callEvents
  rw [List.map_append, List.cons_append]
  rfl

/-- Behind the steps that are done. -/
structure AfterSteps (a : Adapter) (done : List RunnerStep) (s : RunState) : Prop where
  active : s.active = some a
  printed : s.printed = []
  events : s.events = callEvents (stepCalls done)
  passed : Passed done

/-- An operation that has been left by an exception. -/
structure Stopped (steps : List RunnerStep) (s : RunState) : Prop where
  printed : s.printed = []
  attempted : Attempted steps false s.events

/-- One step, behind those before it. -/
theorem step_triple {steps before after : List RunnerStep} {step : RunnerStep}
    (hsteps : steps = before ++ step :: after) : Prog.Triple (AfterSteps a before) (step.run a)
      (fun _ => AfterSteps a (before ++ [step])) fun _ => Stopped steps := by
  cases step with
  | call c =>
    have hpassed : Passed before → Passed (before ++ [.call c]) := fun h result hmem => by
      rcases List.mem_append.1 hmem with hmem | hmem
      · exact h result hmem
      · cases List.mem_singleton.1 hmem
    refine Prog.Triple.bind (Q := fun _ => AfterSteps a (before ++ [.call c])) ?_ fun _ =>
      Prog.Triple.pure fun s hs => hs
    intro s hs
    refine ⟨fun reply s' h => ?_, fun e s' h => ?_⟩
    · obtain ⟨-, rfl⟩ := callAdapter_ok h
      refine ⟨hs.active, hs.printed, ?_, hpassed hs.passed⟩
      rw [stepCalls_append, hs.events]
      exact callEvents_append
    · obtain ⟨-, rfl⟩ := callAdapter_error h
      refine ⟨hs.printed, ?_⟩
      rw [hs.events]
      exact .raised hsteps hs.passed e
  | check result =>
    refine Prog.Triple.lift ?_ ?_
    · rintro ⟨⟩ hok s hs
      refine ⟨hs.active, hs.printed, ?_, fun r hmem => ?_⟩
      · rw [stepCalls_append, hs.events]
        exact congrArg callEvents (List.append_nil _).symm
      · rcases List.mem_append.1 hmem with hmem | hmem
        · exact hs.passed r hmem
        · cases List.mem_singleton.1 hmem
          exact hok
    · intro e herror s hs
      refine ⟨hs.printed, ?_⟩
      rw [hs.events]
      exact .refused hsteps hs.passed (by rw [herror]; nofun)

/-- **An operation**, from the start of a run. -/
theorem attempt_triple (job : RunnerJob) (cls : AdapterClass) :
    Prog.Triple (fun s => s = .start) (w.attempt job cls)
      (fun _ s => (∃ a, s.active = some a) ∧ s.printed = [] ∧ Attempted (w.steps job) true s.events)
      fun _ => Stopped (w.steps job) := by
  rw [attempt_eq]
  refine Prog.Triple.bind (Q := fun a => AfterSteps a []) ?_ fun a => ?_
  · rintro s rfl
    unfold construct
    cases cls.fromEnv with
    | ok a =>
      refine ⟨fun a' s' h => ?_, fun e s' h => (by cases h)⟩
      cases h
      exact ⟨rfl, rfl, rfl, fun result hmem => (by cases hmem)⟩
    | error e =>
      refine ⟨fun a' s' h => (by cases h), fun e' s' h => ?_⟩
      cases h
      exact ⟨rfl, .unconstructed e⟩
  · refine (Prog.Triple.forM (AfterSteps a) (fun before step after hsplit => step_triple hsplit)).mono
      (fun s hs => hs) (fun _ s hs => ?_) fun _ _ hs => hs
    refine ⟨⟨a, hs.active⟩, hs.printed, ?_⟩
    rw [hs.events]
    exact .done hs.passed

end

end ContinuoRuntime
