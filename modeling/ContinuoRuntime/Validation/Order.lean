/-
  The order of the adapter calls of the validation runner.

  * `Attempted.completed_iff`: an operation has run to its end exactly if every call
    that it requires was made and has returned;
  * `Attempted.build`: the build of `build_from_columns` comes behind every check;
  * `main_events`: the calls of a whole run.
-/
import ContinuoRuntime.Validation.Plan

namespace ContinuoRuntime

/-! ## Required calls -/

/-- The calls that an operation requires; a `reads` that is no sequence has none. -/
def RunnerJob.requires (job : RunnerJob) : Option (List AdapterCall) :=
  match job.op with
  | .ensureSchema => some [.ensureSchema job.schema]
  | .dropSchema => some [.dropSchema job.schema]
  | .buildFromSql table sql => some [.ensureSchema job.schema, .buildEmptyFromSql job.schema table sql]
  | .checkBinds _ sql => some [.ensureSchema job.schema, .checkBinds (.str sql)]
  | .buildFromColumns table outputColumns config _ reads =>
    match reads.iterate with
    | .ok sqls => some (.ensureSchema job.schema :: sqls.map .checkBinds ++
        [.buildEmptyFromColumns job.schema table outputColumns config])
    | .error _ => none
  | .cloneFromProd table prodSchema =>
    some [.ensureSchema job.schema, .cloneEmptyFromProd job.schema prodSchema table]

/-- The construction and the end of an adapter. -/
def AdapterCall.isLifecycle : AdapterCall → Bool
  | fromEnv | close => true
  | _ => false

/-- The calls of the operation itself. -/
def operationEvents (events : List AdapterEvent) : List AdapterEvent :=
  events.filter fun e => !e.call.isLifecycle

/-- **Every required call** was made, in order, and has returned. -/
def RunnerJob.Completed (job : RunnerJob) (events : List AdapterEvent) : Prop :=
  ∃ calls, job.requires = some calls ∧ operationEvents events = calls.map returnedEvent

section
variable {w : ValidationRun} {job : RunnerJob}

theorem operationEvents_append {events events' : List AdapterEvent} :
    operationEvents (events ++ events') = operationEvents events ++ operationEvents events' :=
  List.filter_append ..

theorem operationEvents_callEvents {calls : List AdapterCall} (h : ∀ c ∈ calls, c.isLifecycle = false) :
    operationEvents (callEvents calls) = calls.map returnedEvent := by
  unfold operationEvents callEvents
  rw [List.filter_cons_of_neg (by decide), List.filter_eq_self]
  intro e he
  obtain ⟨c, hc, rfl⟩ := List.mem_map.1 he
  rw [show (returnedEvent c).call.isLifecycle = false from h c hc]
  rfl

theorem mem_stepCalls {c : AdapterCall} : ∀ {steps : List RunnerStep}, c ∈ stepCalls steps ↔ .call c ∈ steps
  | [] => by simp [stepCalls]
  | .call c' :: steps => by simp [stepCalls, @mem_stepCalls c steps]
  | .check _ :: steps => by simp [stepCalls, @mem_stepCalls c steps]

theorem stepCalls_not_lifecycle : ∀ c ∈ stepCalls (w.steps job), c.isLifecycle = false := by
  intro c hc
  rw [mem_stepCalls] at hc
  unfold ValidationRun.steps columnSteps at hc
  cases hop : job.op with
  | buildFromColumns table outputColumns config csvSource reads =>
    rw [hop] at hc
    cases hreads : reads.iterate with
    | ok sqls =>
      simp only [hreads, List.mem_cons, List.mem_append, List.mem_map, List.not_mem_nil, or_false] at hc
      rcases hc with h | h | ⟨sql, -, h⟩ | h <;> cases h <;> rfl
    | error e =>
      simp only [hreads, List.mem_cons, List.not_mem_nil, or_false] at hc
      rcases hc with h | h | h <;> cases h
      rfl
  | _ =>
    rw [hop] at hc
    simp only [List.mem_cons, List.not_mem_nil, or_false] at hc
    first
      | (cases hc; rfl)
      | (rcases hc with h | h <;> cases h <;> rfl)

/-- The steps that have all passed make the required calls. -/
theorem requires_of_passed (h : Passed (w.steps job)) : job.requires = some (stepCalls (w.steps job)) := by
  unfold ValidationRun.steps RunnerJob.requires columnSteps at *
  cases hop : job.op with
  | buildFromColumns table outputColumns config csvSource reads =>
    rw [hop] at h
    dsimp only at h ⊢
    cases hreads : reads.iterate with
    | ok sqls =>
      dsimp only
      rw [stepCalls, stepCalls, stepCalls_append, stepCalls_map]
      rfl
    | error e =>
      rw [hreads] at h
      cases h (.error e) (by simp)
  | _ => rfl

/-- A check that fails: the csv header, or what the reads are. -/
theorem failed_check {before after : List RunnerStep} {result : Except Exc Unit}
    (hsteps : w.steps job = before ++ .check result :: after) :
    stepCalls before = [.ensureSchema job.schema] ∧ ∀ calls, job.requires = some calls → 2 ≤ calls.length := by
  unfold ValidationRun.steps at hsteps
  unfold RunnerJob.requires
  cases hop : job.op with
  | buildFromColumns table outputColumns config csvSource reads =>
    rw [hop] at hsteps
    dsimp only at hsteps ⊢
    have hlength : ∀ calls, (match reads.iterate with
        | .ok sqls => some (.ensureSchema job.schema :: sqls.map AdapterCall.checkBinds ++
            [.buildEmptyFromColumns job.schema table outputColumns config])
        | .error _ => none) = some calls → 2 ≤ calls.length := by
      intro calls h
      cases hreads : reads.iterate with
      | ok sqls =>
        rw [hreads] at h
        cases h
        simp
      | error e =>
        rw [hreads] at h
        cases h
    refine ⟨?_, hlength⟩
    rcases List.append_eq_cons_iff.1 hsteps.symm with ⟨rfl, h⟩ | ⟨before', rfl, h⟩
    · cases h
    · rcases List.append_eq_cons_iff.1 h.symm with ⟨rfl, -⟩ | ⟨before'', rfl, h'⟩
      · rfl
      · unfold columnSteps at h'
        cases hreads : reads.iterate with
        | ok sqls =>
          rw [hreads] at h'
          dsimp only at h'
          have hmem : RunnerStep.check result ∈ sqls.map (fun sql => RunnerStep.call (.checkBinds sql)) ++
              [.call (.buildEmptyFromColumns job.schema table outputColumns config)] := by
            rw [h']
            exact List.mem_append_right _ List.mem_cons_self
          simp at hmem
        | error e =>
          rw [hreads] at h'
          cases before'' with
          | nil => rfl
          | cons step rest =>
            have := congrArg List.length h'
            simp at this
  | _ =>
    rw [hop] at hsteps
    have hmem : RunnerStep.check result ∈ before ++ .check result :: after :=
      List.mem_append_right _ List.mem_cons_self
    rw [← hsteps] at hmem
    simp at hmem

theorem requires_ne_nil : job.requires ≠ some [] := by
  unfold RunnerJob.requires
  cases job.op with
  | buildFromColumns table outputColumns config csvSource reads =>
    dsimp only
    cases reads.iterate with
    | ok sqls => simp
    | error e => simp
  | _ => simp

/-- **An operation has run to its end** exactly if its required calls have returned. -/
theorem Attempted.completed_iff {completed : Bool} {events : List AdapterEvent}
    (h : Attempted (w.steps job) completed events) : completed = true ↔ job.Completed events := by
  have hlifecycle : ∀ {before after : List RunnerStep}, w.steps job = before ++ after →
      operationEvents (callEvents (stepCalls before)) = (stepCalls before).map returnedEvent := by
    intro before after hsteps
    refine operationEvents_callEvents fun c hc => @stepCalls_not_lifecycle w job c ?_
    rw [hsteps, stepCalls_append]
    exact List.mem_append_left _ hc
  cases h with
  | unconstructed e =>
    refine ⟨fun h => (by cases h), ?_⟩
    rintro ⟨calls, hcalls, hevents⟩
    cases calls with
    | nil => exact absurd hcalls requires_ne_nil
    | cons c calls => cases hevents
  | refused hsteps =>
    refine ⟨fun h => (by cases h), ?_⟩
    rintro ⟨calls, hcalls, hevents⟩
    obtain ⟨hbefore, hlength⟩ := failed_check hsteps
    have htwo := hlength calls hcalls
    rw [hlifecycle hsteps, hbefore] at hevents
    have hsame := congrArg List.length hevents
    simp only [List.length_map, List.length_singleton] at hsame
    omega
  | @raised before after call hsteps hbefore e =>
    refine ⟨fun h => (by cases h), ?_⟩
    rintro ⟨calls, hcalls, hevents⟩
    have hcall : call.isLifecycle = false := by
      refine @stepCalls_not_lifecycle w job call ?_
      rw [mem_stepCalls, hsteps]
      exact List.mem_append_right _ List.mem_cons_self
    have hmem : (⟨call, some e⟩ : AdapterEvent) ∈ calls.map returnedEvent := by
      rw [← hevents, operationEvents_append]
      refine List.mem_append_right _ (List.mem_filter.2 ⟨List.mem_singleton.2 rfl, ?_⟩)
      rw [hcall]
      rfl
    obtain ⟨c, -, hc⟩ := List.mem_map.1 hmem
    cases hc
  | done hpassed =>
    refine ⟨fun _ => ⟨_, requires_of_passed hpassed, ?_⟩, fun _ => rfl⟩
    exact hlifecycle (List.append_nil _).symm

/-! ## The build -/

/-- `build_empty_from_columns`. -/
def AdapterCall.isBuild : AdapterCall → Bool
  | buildEmptyFromColumns .. => true
  | _ => false

/-- The steps before the build. -/
def checkSteps (w : ValidationRun) (schema csvSource : Str) (outputColumns : Json Str) (sqls : List (Json Str)) :
    List RunnerStep :=
  .call (.ensureSchema schema) :: .check (w.checkCsvHeader csvSource outputColumns) ::
    sqls.map fun sql => .call (.checkBinds sql)

theorem stepCalls_checkSteps {schema csvSource : Str} {outputColumns : Json Str} {sqls : List (Json Str)} :
    stepCalls (checkSteps w schema csvSource outputColumns sqls) =
      .ensureSchema schema :: sqls.map .checkBinds := by
  unfold checkSteps
  rw [stepCalls, stepCalls, stepCalls_map]

/-- Part of the checks holds no build. -/
theorem callEvents_no_build {schema csvSource : Str} {outputColumns : Json Str} {sqls : List (Json Str)}
    {before : List RunnerStep} (h : before <+: checkSteps w schema csvSource outputColumns sqls) :
    ∀ e ∈ callEvents (stepCalls before), e.call.isBuild = false := by
  obtain ⟨rest, hrest⟩ := h
  intro e he
  rcases List.mem_cons.1 he with rfl | he
  · rfl
  obtain ⟨c, hc, rfl⟩ := List.mem_map.1 he
  have hmem : c ∈ stepCalls (checkSteps w schema csvSource outputColumns sqls) := by
    rw [← hrest, stepCalls_append]
    exact List.mem_append_left _ hc
  rw [stepCalls_checkSteps] at hmem
  rcases List.mem_cons.1 hmem with rfl | hmem
  · rfl
  · obtain ⟨sql, -, rfl⟩ := List.mem_map.1 hmem
    rfl

/-- Steps that stop before the last one are some of the checks. -/
theorem prefix_of_append_eq {α : Type} {front before after : List α} {last x : α}
    (h : front ++ [last] = before ++ x :: after) : before <+: front := by
  have hlength := congrArg List.length h
  simp only [List.length_append, List.length_cons, List.length_nil] at hlength
  refine List.prefix_of_prefix_length_le ⟨x :: after, h.symm⟩ (List.prefix_append _ _) ?_
  omega

theorem last_or_mem {α : Type} {front before after : List α} {last x : α}
    (h : front ++ [last] = before ++ x :: after) : (before = front ∧ x = last) ∨ x ∈ front := by
  rcases List.eq_nil_or_concat after with rfl | ⟨after, y, rfl⟩
  · obtain ⟨rfl, hlast⟩ := List.append_inj' h rfl
    cases hlast
    exact .inl ⟨rfl, rfl⟩
  · have h' : front ++ [last] = (before ++ x :: after) ++ [y] := by
      rw [h]
      simp
    rw [(List.append_inj' h' rfl).1]
    exact .inr (List.mem_append_right _ List.mem_cons_self)

theorem steps_columns {table csvSource : Str} {outputColumns config reads : Json Str}
    (hop : job.op = .buildFromColumns table outputColumns config csvSource reads) {sqls : List (Json Str)}
    (hreads : reads.iterate = .ok sqls) : w.steps job = checkSteps w job.schema csvSource outputColumns sqls ++
      [.call (.buildEmptyFromColumns job.schema table outputColumns config)] := by
  unfold ValidationRun.steps checkSteps columnSteps
  rw [hop]
  dsimp only
  rw [hreads]
  rfl

theorem Attempted.mem {completed : Bool} {steps : List RunnerStep} {events : List AdapterEvent}
    (h : Attempted steps completed events) : ∀ e ∈ events, e.call = .fromEnv ∨ .call e.call ∈ steps := by
  have hcalls : ∀ {before : List RunnerStep}, (∀ step ∈ before, step ∈ steps) →
      ∀ e ∈ callEvents (stepCalls before), e.call = .fromEnv ∨ .call e.call ∈ steps := by
    intro before hbefore e he
    rcases List.mem_cons.1 he with rfl | he
    · exact .inl rfl
    obtain ⟨c, hc, rfl⟩ := List.mem_map.1 he
    exact .inr (hbefore _ (mem_stepCalls.1 hc))
  intro e he
  cases h with
  | unconstructed exc => exact .inl (by rw [List.mem_singleton.1 he])
  | refused hsteps => exact hcalls (fun step hmem => hsteps ▸ List.mem_append_left _ hmem) e he
  | raised hsteps =>
    rcases List.mem_append.1 he with he | he
    · exact hcalls (fun step hmem => hsteps ▸ List.mem_append_left _ hmem) e he
    · rw [List.mem_singleton.1 he, hsteps]
      exact .inr (List.mem_append_right _ List.mem_cons_self)
  | done => exact hcalls (fun step hmem => hmem) e he

/-- **The build** comes behind the schema, the csv header and every read, in order. -/
theorem Attempted.build {completed : Bool} {events before after tail : List AdapterEvent} {e : AdapterEvent}
    (h : Attempted (w.steps job) completed events) {table csvSource : Str} {outputColumns config reads : Json Str}
    (hop : job.op = .buildFromColumns table outputColumns config csvSource reads)
    (htail : ∀ e ∈ tail, e.call = .close) (hsplit : events ++ tail = before ++ e :: after)
    (he : e.call.isBuild = true) : w.checkCsvHeader csvSource outputColumns = .ok () ∧
      ∃ sqls, reads.iterate = .ok sqls ∧
        before = callEvents (.ensureSchema job.schema :: sqls.map .checkBinds) ∧
        e.call = .buildEmptyFromColumns job.schema table outputColumns config := by
  have hnone : ∀ {events : List AdapterEvent}, (∀ e ∈ events, e.call.isBuild = false) → e ∉ events :=
    fun h hmem => by
      rw [h e hmem] at he
      cases he
  have htail' : ∀ e ∈ tail, e.call.isBuild = false := fun e he => by rw [htail e he]; rfl
  have hmem : e ∈ events ++ tail := hsplit ▸ List.mem_append_right _ List.mem_cons_self
  have hevents : e ∈ events := (List.mem_append.1 hmem).resolve_right (hnone htail')
  cases hreads : reads.iterate with
  | error exc =>
    rcases h.mem e hevents with hcall | hcall
    · rw [hcall] at he
      cases he
    · unfold ValidationRun.steps columnSteps at hcall
      rw [hop] at hcall
      simp only [hreads, List.mem_cons, List.not_mem_nil, or_false] at hcall
      rcases hcall with hcall | hcall | hcall
      · rw [RunnerStep.call.inj hcall] at he
        cases he
      · cases hcall
      · cases hcall
  | ok sqls =>
    have hsteps := steps_columns (w := w) hop hreads
    -- the build is the last step: what stands before it are the checks
    have hlast : ∀ {back : List AdapterEvent} {raised : Option Exc}, (∀ e ∈ back, e.call.isBuild = false) →
        Passed (checkSteps w job.schema csvSource outputColumns sqls) →
        callEvents (stepCalls (checkSteps w job.schema csvSource outputColumns sqls)) ++
          ⟨.buildEmptyFromColumns job.schema table outputColumns config, raised⟩ :: back = before ++ e :: after →
        w.checkCsvHeader csvSource outputColumns = .ok () ∧ ∃ sqls', (Except.ok sqls : Except Exc (List (Json Str))) = .ok sqls' ∧
          before = callEvents (.ensureSchema job.schema :: sqls'.map .checkBinds) ∧
          e.call = .buildEmptyFromColumns job.schema table outputColumns config := by
      intro back raised hback hpassed heq
      have hfront := callEvents_no_build (w := w) (List.prefix_refl
        (checkSteps w job.schema csvSource outputColumns sqls))
      obtain ⟨rfl, rfl, -⟩ := (List.append_cons_inj_of_notMem (hnone hfront) (hnone hback)).1 heq
      exact ⟨hpassed _ (by simp [checkSteps]), sqls, rfl, by rw [stepCalls_checkSteps], rfl⟩
    generalize hall : w.steps job = steps at h
    rw [hsteps] at hall
    cases h with
    | unconstructed exc =>
      rw [List.mem_singleton.1 hevents] at he
      cases he
    | refused hsplit' =>
      exact absurd hevents (hnone (callEvents_no_build (prefix_of_append_eq (hall.trans hsplit'))))
    | @raised front rest call hsplit' hbefore exc =>
      have hfront := prefix_of_append_eq (hall.trans hsplit')
      rcases List.mem_append.1 hevents with hmem | hmem
      · exact absurd hmem (hnone (callEvents_no_build hfront))
      have hcall := List.mem_singleton.1 hmem
      rcases last_or_mem (hall.trans hsplit') with ⟨rfl, hbuild⟩ | hmem
      · cases RunnerStep.call.inj hbuild
        refine @hlast tail (some exc) htail' hbefore ?_
        rw [← hsplit]
        simp
      · have hcheck := mem_stepCalls.2 hmem
        rw [stepCalls_checkSteps] at hcheck
        rw [hcall] at he
        rcases List.mem_cons.1 hcheck with rfl | hcheck
        · cases he
        · obtain ⟨sql, -, rfl⟩ := List.mem_map.1 hcheck
          cases he
    | done hpassed =>
      rw [← hall] at hpassed hsplit
      refine @hlast tail none htail' (fun result hmem => hpassed result (List.mem_append_left _ hmem)) ?_
      rw [← hsplit, stepCalls_append]
      exact (List.append_assoc _ [returnedEvent _] tail).symm.trans (congrArg (· ++ tail) callEvents_append)

end

end ContinuoRuntime
