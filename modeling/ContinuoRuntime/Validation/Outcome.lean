/-
  What the validation runner reports, and how its process ends.

  * `Fit`: the inputs with which there is something to do;
  * `RunnerContract`: one block, that agrees with the exit status and with the calls
    made, and the order of these calls;
  * `main_contract_iff`: **a run keeps it exactly if** what it has to report can be
    reported, and what leaves `close` changes nothing.
-/
import ContinuoRuntime.Validation.Order
import ContinuoRuntime.Harness.Gates

namespace ContinuoRuntime

namespace ValidationRun

/-- The handlers of the runner make a block of it: it is an `Exception`, with a text. -/
def Reportable (e : Exc) : Prop := e.cls.isException = true ∧ ∃ text, e.str = .ok text

/-! ## The inputs -/

/-- The variable is missing, or empty. -/
def unset (w : ValidationRun) (name : Str) : Prop := (w.environ name).getD [] = []

/-- The operations with a candidate SQL. -/
def isSqlOp (w : ValidationRun) : Prop := w.opName = py "build_from_sql" ∨ w.opName = py "check_binds"

/-- A spec with output columns, whose `config` is an object and whose `csv_source` is a text. -/
structure FitSpec (spec : List (Str × Json Str)) : Prop where
  outputColumns : ((spec.lookup (py "output_columns")).getD .null).truthy = true
  config : (spec.lookup (py "config")).getD .null = .null ∨
    ∃ members, (spec.lookup (py "config")).getD .null = .obj members
  csvSource : ∃ source, (spec.lookup (py "csv_source")).getD (.str []) = .str source

/-- The inputs are there: nothing is asked of a warehouse without them. -/
structure Fit (w : ValidationRun) : Prop where
  schema : ¬ w.unset (py "DBT_TARGET_SCHEMA")
  op : w.opName ∈ nodeOps ++ schemaOps
  table : w.opName ∈ nodeOps → ¬ w.unset (py "TABLE_NAME")
  prodSchema : w.opName = py "clone_from_prod" → ¬ w.unset (py "PROD_SCHEMA")
  sql : w.isSqlOp → ∃ sql, w.loadCandidateSql = .ok sql ∧ sql ≠ []
  spec : w.opName = py "build_from_columns" → ∃ spec, w.loadCandidateSpec = .ok spec ∧ FitSpec spec
  engine : ∃ engine cls required, discoverAdapter w.reprStr w.entryPoints = .ok (engine, cls) ∧
    cls.requiredEnv = .ok required ∧ ∀ name ∈ required, ¬ w.unset name

/-- What it has raised. -/
def failureOf {α : Type} : Except Exc α → Option Exc
  | .error e => some e
  | .ok _ => none

/-- What reading the candidate raises, where `main` reads it. -/
def candidateFailure (w : ValidationRun) : Option Exc :=
  if (w.environ (py "DBT_TARGET_SCHEMA")).getD [] = [] ∨ (w.environ (py "TABLE_NAME")).getD [] = [] then none
  else if w.opName = py "build_from_sql" ∨ w.opName = py "check_binds" then failureOf w.loadCandidateSql
  else if w.opName = py "build_from_columns" then failureOf w.loadCandidateSpec
  else none

section
variable {w : ValidationRun}

theorem requireVar_eq_ok {name value : Str} (h : w.requireVar name = .ok value) : ¬ w.unset name := by
  unfold requireVar at h
  dsimp only at h
  split_ifs at h with hempty
  exact hempty

theorem requireVar_of_set {name : Str} (h : ¬ w.unset name) :
    w.requireVar name = .ok ((w.environ name).getD []) := if_neg h

theorem requireVar_of_unset {name : Str} (h : w.unset name) :
    w.requireVar name = .error (.exit (py "missing required env var " ++ name) .usage w.nodeId) := if_pos h

theorem reportLoad_eq_ok {α : Type} {code : Exc → ErrorCode} {uniqueId : Str} {x : Except Exc α} {a : α} :
    reportLoad code uniqueId x = .ok a ↔ x = .ok a := by
  cases x with
  | ok b => exact Iff.rfl.trans (by simp [reportLoad])
  | error e =>
    refine iff_of_false (fun h => ?_) fun h => (by cases h)
    unfold reportLoad at h
    dsimp only at h
    split_ifs at h
    split at h <;> cases h

/-- The spec is taken exactly if it is fit; nothing else is raised of it. -/
theorem specOp_cases {table uniqueId : Str} {spec : List (Str × Json Str)} :
    (FitSpec spec ∧ ∃ outputColumns config csvSource reads, specOp table uniqueId spec =
      .ok (.buildFromColumns table outputColumns config csvSource reads)) ∨
    (¬ FitSpec spec ∧ ∃ message, specOp table uniqueId spec = .error (.exit message .usage uniqueId)) := by
  unfold specOp
  dsimp only
  by_cases htruthy : ((spec.lookup (py "output_columns")).getD .null).truthy = false
  · rw [if_pos htruthy]
    exact .inr ⟨fun h => (by rw [h.outputColumns] at htruthy; cases htruthy), _, rfl⟩
  rw [if_neg htruthy]
  have hcolumns : ((spec.lookup (py "output_columns")).getD .null).truthy = true := by simpa using htruthy
  cases hcsv : (spec.lookup (py "csv_source")).getD (.str []) with
  | str source =>
    cases hconfig : (spec.lookup (py "config")).getD .null with
    | null => exact .inl ⟨⟨hcolumns, .inl hconfig, source, hcsv⟩, _, _, _, _, rfl⟩
    | obj members => exact .inl ⟨⟨hcolumns, .inr ⟨members, hconfig⟩, source, hcsv⟩, _, _, _, _, rfl⟩
    | _ =>
      refine .inr ⟨fun h => ?_, _, rfl⟩
      rcases h.config with h | ⟨members, h⟩
      · rw [hconfig] at h
        cases h
      · rw [hconfig] at h
        cases h
  | _ =>
    have hno : ¬ FitSpec spec := by
      intro h
      obtain ⟨source, h⟩ := h.csvSource
      rw [hcsv] at h
      cases h
    cases (spec.lookup (py "config")).getD .null <;> exact .inr ⟨hno, _, rfl⟩

/-- What is known of the inputs of a job. -/
structure Gathered (w : ValidationRun) (job : RunnerJob) : Prop where
  schema : ¬ w.unset (py "DBT_TARGET_SCHEMA")
  op : w.opName ∈ nodeOps ++ schemaOps
  table : w.opName ∈ nodeOps → ¬ w.unset (py "TABLE_NAME")
  prodSchema : w.opName = py "clone_from_prod" → ¬ w.unset (py "PROD_SCHEMA")
  sql : w.isSqlOp → ∃ sql, w.loadCandidateSql = .ok sql ∧ sql ≠ []
  spec : w.opName = py "build_from_columns" → ∃ spec, w.loadCandidateSpec = .ok spec ∧ FitSpec spec
  drop : w.opName = py "drop_schema" → job.op = .dropSchema

/-- **A job** has its inputs. -/
theorem gather_ok {job : RunnerJob} (h : w.gather = .ok job) : w.Gathered job := by
  unfold gather at h
  obtain ⟨schema, hschema, h⟩ := bind_eq_ok.1 h
  have hset := requireVar_eq_ok hschema
  dsimp only at h
  by_cases hnode : w.opName ∈ nodeOps
  · rw [if_pos hnode] at h
    obtain ⟨table, htable, h⟩ := bind_eq_ok.1 h
    have hop : w.opName ∈ nodeOps ++ schemaOps := List.mem_append_left _ hnode
    have hdrop : w.opName = py "drop_schema" → job.op = .dropSchema := fun hdrop => by
      rw [hdrop] at hnode
      exact absurd hnode (by decide)
    have htable' := fun _ : w.opName ∈ nodeOps => requireVar_eq_ok htable
    by_cases hsql : w.opName = py "build_from_sql" ∨ w.opName = py "check_binds"
    · rw [if_pos hsql] at h
      obtain ⟨sql, hload, h⟩ := bind_eq_ok.1 h
      by_cases hempty : sql = []
      · rw [if_pos hempty] at h
        cases h
      have hother : w.opName ≠ py "clone_from_prod" ∧ w.opName ≠ py "build_from_columns" := by
        rcases hsql with hsql | hsql
        · rw [hsql]
          decide
        · rw [hsql]
          decide
      exact ⟨hset, hop, htable', fun h => absurd h hother.1, fun _ => ⟨sql, reportLoad_eq_ok.1 hload, hempty⟩,
        fun h => absurd h hother.2, hdrop⟩
    rw [if_neg hsql] at h
    by_cases hcolumns : w.opName = py "build_from_columns"
    · rw [if_pos hcolumns] at h
      obtain ⟨spec, hload, h⟩ := bind_eq_ok.1 h
      obtain ⟨op, hspec, h⟩ := bind_eq_ok.1 h
      rcases @specOp_cases table (orText w.nodeId (py "model." ++ table)) spec with
        ⟨hfit, -⟩ | ⟨-, message, hrefused⟩
      · exact ⟨hset, hop, htable', fun h => absurd (h.symm.trans hcolumns) (by decide), fun h => absurd h hsql,
          fun _ => ⟨spec, reportLoad_eq_ok.1 hload, hfit⟩, hdrop⟩
      · cases hspec.symm.trans hrefused
    rw [if_neg hcolumns] at h
    obtain ⟨prodSchema, hprod, -⟩ := bind_eq_ok.1 h
    exact ⟨hset, hop, htable', fun _ => requireVar_eq_ok hprod, fun h => absurd h hsql,
      fun h => absurd h hcolumns, hdrop⟩
  · rw [if_neg hnode] at h
    by_cases hschemaOp : w.opName ∈ schemaOps
    · rw [if_pos hschemaOp] at h
      cases h
      have hother : ∀ op, op ∈ nodeOps → w.opName ≠ op := fun op hop heq => hnode (heq ▸ hop)
      refine ⟨hset, List.mem_append_right _ hschemaOp, fun h => absurd h hnode,
        fun h => absurd h (hother _ (by decide)), fun h => ?_, fun h => absurd h (hother _ (by decide)), fun h => ?_⟩
      · exact h.elim (fun h => absurd h (hother _ (by decide))) fun h => absurd h (hother _ (by decide))
      · exact if_neg fun hensure => absurd (hensure.symm.trans h) (by decide)
    · rw [if_neg hschemaOp] at h
      cases h

/-- `main` ends with a block. -/
def isExit : Refusal → Prop
  | .exit _ _ _ => True
  | .raised _ => False

theorem not_escapes_requireVar {name : Str} : ¬ Escapes isExit (w.requireVar name) := by
  by_cases h : w.unset name
  · rw [requireVar_of_unset h, escapes_error]
    exact not_not.2 trivial
  · rw [requireVar_of_set h]
    exact not_escapes_ok

/-- A failed load leaves `main` with a block exactly if it can be reported. -/
theorem escapes_reportLoad {α : Type} {code : Exc → ErrorCode} {uniqueId : Str} {x : Except Exc α} :
    Escapes isExit (reportLoad code uniqueId x) ↔ ∃ e, x = .error e ∧ ¬ Reportable e := by
  cases x with
  | ok a =>
    refine iff_of_false not_escapes_ok ?_
    rintro ⟨e, h, -⟩
    cases h
  | error e =>
    simp only [Except.error.injEq, exists_eq_left']
    unfold reportLoad Reportable
    dsimp only
    by_cases hexception : e.cls.isException = true
    · rw [if_pos hexception]
      cases hstr : e.str with
      | ok text => simp [hexception, escapes_error, isExit]
      | error inner => simp [escapes_error, isExit]
    · rw [if_neg hexception]
      simp [hexception, escapes_error, isExit]

theorem not_escapes_specOp {table uniqueId : Str} {spec : List (Str × Json Str)} :
    ¬ Escapes isExit (specOp table uniqueId spec) := by
  rcases @specOp_cases table uniqueId spec with ⟨-, _, _, _, _, h⟩ | ⟨-, message, h⟩
  · rw [h]
    exact not_escapes_ok
  · rw [h, escapes_error]
    exact not_not.2 trivial

/-- **Reading the inputs** is left by an exception exactly if reading the candidate
    raises one that cannot be reported. -/
theorem escapes_gather : Escapes isExit w.gather ↔ ∃ e, w.candidateFailure = some e ∧ ¬ Reportable e := by
  have hload : ∀ {α : Type} {x : Except Exc α}, (∃ e, x = .error e ∧ ¬ Reportable e) ↔
      ∃ e, failureOf x = some e ∧ ¬ Reportable e := by
    intro α x
    cases x with
    | ok a => simp [failureOf]
    | error e => simp [failureOf]
  unfold gather candidateFailure
  rw [escapes_bind, or_iff_right not_escapes_requireVar]
  by_cases hschema : (w.environ (py "DBT_TARGET_SCHEMA")).getD [] = []
  · rw [if_pos (Or.inl hschema)]
    refine iff_of_false ?_ ?_
    · rintro ⟨schema, h, -⟩
      exact requireVar_eq_ok h hschema
    · rintro ⟨e, h, -⟩
      cases h
  rw [requireVar_of_set hschema]
  simp only [Except.ok.injEq, exists_eq_left']
  by_cases hnode : w.opName ∈ nodeOps
  · rw [if_pos hnode, escapes_bind, or_iff_right not_escapes_requireVar]
    by_cases htable : (w.environ (py "TABLE_NAME")).getD [] = []
    · rw [if_pos (Or.inr htable)]
      refine iff_of_false ?_ ?_
      · rintro ⟨table, h, -⟩
        exact requireVar_eq_ok h htable
      · rintro ⟨e, h, -⟩
        cases h
    rw [requireVar_of_set htable, if_neg (not_or.2 ⟨hschema, htable⟩)]
    simp only [Except.ok.injEq, exists_eq_left']
    by_cases hsql : w.opName = py "build_from_sql" ∨ w.opName = py "check_binds"
    · rw [if_pos hsql, if_pos hsql, escapes_bind, escapes_reportLoad, hload, or_iff_left]
      rintro ⟨sql, -, h⟩
      split_ifs at h
      · exact escapes_error.1 h trivial
      · exact not_escapes_ok h
      · exact not_escapes_ok h
    rw [if_neg hsql, if_neg hsql]
    by_cases hcolumns : w.opName = py "build_from_columns"
    · rw [if_pos hcolumns, if_pos hcolumns, escapes_bind, escapes_reportLoad, hload, or_iff_left]
      rintro ⟨spec, -, h⟩
      rw [escapes_bind] at h
      rcases h with h | ⟨op, -, h⟩
      · exact not_escapes_specOp h
      · exact not_escapes_ok h
    · rw [if_neg hcolumns, if_neg hcolumns, escapes_bind]
      refine iff_of_false (not_or.2 ⟨not_escapes_requireVar, ?_⟩) ?_
      · rintro ⟨prodSchema, -, h⟩
        exact not_escapes_ok h
      · rintro ⟨e, h, -⟩
        cases h
  · have hother : ∀ op, op ∈ nodeOps → w.opName ≠ op := fun op hop heq => hnode (heq ▸ hop)
    have hfalse : ¬ ∃ e, (none : Option Exc) = some e ∧ ¬ Reportable e := by
      rintro ⟨e, h, -⟩
      cases h
    have hsql : ¬ (w.opName = py "build_from_sql" ∨ w.opName = py "check_binds") :=
      not_or.2 ⟨hother _ (by decide), hother _ (by decide)⟩
    have hcolumns : w.opName ≠ py "build_from_columns" := hother _ (by decide)
    rw [if_neg hnode, if_neg hsql, if_neg hcolumns, ite_self]
    refine iff_of_false (fun h => ?_) hfalse
    split_ifs at h
    · exact not_escapes_ok h
    · exact not_escapes_ok h
    · exact escapes_error.1 h trivial

/-! ## The adapter class -/

/-- The plugin is found, or what is wrong can be reported. -/
structure Discovered (w : ValidationRun) : Prop where
  reportable : ∀ e, discoverAdapter w.reprStr w.entryPoints = .error e →
    e.cls = .adapterDiscoveryError ∧ Reportable e
  required : ∀ engine cls, discoverAdapter w.reprStr w.entryPoints = .ok (engine, cls) →
    ∃ required, cls.requiredEnv = .ok required

theorem choose_ok {uniqueId : Str} {cls : AdapterClass} (h : w.choose uniqueId = .ok cls) :
    ∃ engine required, discoverAdapter w.reprStr w.entryPoints = .ok (engine, cls) ∧
      cls.requiredEnv = .ok required ∧ ∀ name ∈ required, ¬ w.unset name := by
  unfold choose at h
  cases hdiscover : discoverAdapter w.reprStr w.entryPoints with
  | error e =>
    rw [hdiscover] at h
    dsimp only at h
    split_ifs at h
    cases reportLoad_eq_ok.1 h
  | ok found =>
    obtain ⟨engine, cls'⟩ := found
    rw [hdiscover] at h
    dsimp only at h
    cases hrequired : cls'.requiredEnv with
    | error e =>
      rw [hrequired] at h
      cases h
    | ok required =>
      rw [hrequired] at h
      dsimp only at h
      split_ifs at h with hmissing
      cases h
      refine ⟨engine, required, rfl, hrequired, fun name hname hunset => ?_⟩
      have hmem : name ∈ required.filter fun name => (w.environ name).getD [] = [] :=
        List.mem_filter.2 ⟨hname, decide_eq_true hunset⟩
      rw [not_not.1 hmissing] at hmem
      cases hmem

theorem escapes_choose {uniqueId : Str} : Escapes isExit (w.choose uniqueId) ↔ ¬ w.Discovered := by
  unfold choose
  cases hdiscover : discoverAdapter w.reprStr w.entryPoints with
  | error e =>
    have hdiscovered : w.Discovered ↔ e.cls = .adapterDiscoveryError ∧ Reportable e := by
      refine ⟨fun h => h.reportable e hdiscover, fun h => ⟨fun e' he => ?_, fun engine cls he => ?_⟩⟩
      · cases hdiscover.symm.trans he
        exact h
      · cases hdiscover.symm.trans he
    rw [hdiscovered, not_and]
    dsimp only
    split_ifs with hcls
    · rw [escapes_reportLoad]
      simp [hcls]
    · rw [escapes_error]
      exact iff_of_true id fun h => absurd h hcls
  | ok found =>
    obtain ⟨engine, cls⟩ := found
    have hdiscovered : w.Discovered ↔ ∃ required, cls.requiredEnv = .ok required := by
      refine ⟨fun h => h.required engine cls hdiscover, fun h => ⟨fun e' he => ?_, fun engine' cls' he => ?_⟩⟩
      · cases hdiscover.symm.trans he
      · cases hdiscover.symm.trans he
        exact h
    rw [hdiscovered]
    dsimp only
    cases hrequired : cls.requiredEnv with
    | error e =>
      rw [escapes_error]
      refine iff_of_true id ?_
      rintro ⟨required, h⟩
      cases h
    | ok required =>
      refine iff_of_false (fun h => ?_) fun h => h ⟨required, rfl⟩
      dsimp only at h
      split_ifs at h
      · exact escapes_error.1 h trivial
      · exact not_escapes_ok h

/-! ## The ends of a run -/

/-- `close` raises from this state what the `finally` does not swallow. -/
def CloseRaises (s : RunState) (e : Exc) : Prop :=
  ∃ a raised, s.active = some a ∧ a.answer s.events .close = .error raised ∧
    if raised.cls.isException then logException raised = .error e else e = raised

theorem closeRunner_cases (s : RunState) : ∃ result tail,
    closeRunner s = (result, { s with events := s.events ++ tail }) ∧ (∀ e ∈ tail, e.call = .close) ∧
      ∀ e, CloseRaises s e ↔ result = .error e := by
  rcases s with ⟨_ | a, events, printed⟩
  · refine ⟨.ok (), [], ?_, fun e he => (by cases he), fun e => iff_of_false ?_ nofun⟩
    · rw [List.append_nil]
      rfl
    · rintro ⟨a, raised, h, -⟩
      cases h
  · cases hanswer : a.answer events .close with
    | ok reply =>
      have hcall : callAdapter a .close ⟨some a, events, printed⟩ =
          (.ok reply, ⟨some a, events ++ [⟨.close, none⟩], printed⟩) := by
        unfold callAdapter
        rw [hanswer]
      refine ⟨.ok (), [⟨.close, none⟩], Prog.handle_of_ok (Prog.bind_of_ok hcall),
        fun e he => (by rw [List.mem_singleton.1 he]), fun e => iff_of_false ?_ nofun⟩
      rintro ⟨a', raised, ha, hraised, -⟩
      cases ha
      cases hanswer.symm.trans hraised
    | error raised =>
      have hcall : callAdapter a .close ⟨some a, events, printed⟩ =
          (.error raised, ⟨some a, events ++ [⟨.close, some raised⟩], printed⟩) := by
        unfold callAdapter
        rw [hanswer]
      have hraises : ∀ e, CloseRaises ⟨some a, events, printed⟩ e ↔
          if raised.cls.isException then logException raised = .error e else e = raised := by
        intro e
        refine ⟨?_, fun h => ⟨a, raised, rfl, hanswer, h⟩⟩
        rintro ⟨a', raised', ha, hraised, h⟩
        cases ha
        cases hanswer.symm.trans hraised
        exact h
      refine ⟨if raised.cls.isException then logException raised else .error raised, [⟨.close, some raised⟩],
        (Prog.handle_of_error (Prog.bind_of_error hcall)).trans ?_,
        fun e he => (by rw [List.mem_singleton.1 he]), fun e => ?_⟩
      · split_ifs
        · rfl
        · rfl
      · rw [hraises]
        split_ifs
        · exact Iff.rfl
        · exact ⟨fun h => by rw [h], fun h => (Except.error.inj h).symm⟩

theorem printError {message uniqueId : Str} {s : RunState} : printBlock (py "error") message 0 uniqueId s =
    (.ok (), { s with printed := s.printed ++ [⟨py "error", message, 0, uniqueId⟩] }) :=
  printBlock_eq (Nat.pow_pos (by decide))

theorem settle_exit {message uniqueId : Str} {code : ErrorCode} {s : RunState} :
    ((Refusal.exit message code uniqueId).settle : RunProg Unit) s =
      (.error (.text (.systemExit (.int code.value)) (decimalInt code.value)),
        { s with printed := s.printed ++ [⟨py "error", message, 0, uniqueId⟩] }) := by
  have hsettle : ((Refusal.exit message code uniqueId).settle : RunProg Unit) = (do
      printBlock (py "error") message 0 uniqueId
      sysExit code) := rfl
  have hprint := @printError message uniqueId s
  rw [hsettle, Prog.bind_of_ok hprint]
  rfl

theorem failed_of_reportable {uniqueId : Str} {e : Exc} {s : RunState} (h : Reportable e) : ∃ message,
    failed uniqueId e s = (.error (.text (.systemExit (.int 1)) (decimalInt 1)),
      { s with printed := s.printed ++ [⟨py "error", message, 0, uniqueId⟩] }) := by
  obtain ⟨hexception, text, htext⟩ := h
  have hlog : Prog.lift (logException e) s = (.ok (), s) := by
    unfold logException
    rw [htext]
    rfl
  have hstr : Prog.lift e.str s = (.ok text, s) := by
    rw [htext]
    rfl
  have hprint := @printError text uniqueId s
  unfold failed
  rw [if_pos hexception, Prog.bind_of_ok hlog, Prog.bind_of_ok hstr, Prog.bind_of_ok hprint]
  exact ⟨text, rfl⟩

theorem failed_of_not_reportable {uniqueId : Str} {e : Exc} {s : RunState} (h : ¬ Reportable e) :
    ∃ e', failed uniqueId e s = (.error e', s) := by
  unfold failed
  by_cases hexception : e.cls.isException = true
  · rw [if_pos hexception]
    cases hstr : e.str with
    | ok text => exact absurd ⟨hexception, text, hstr⟩ h
    | error inner =>
      cases hlog : logException e with
      | ok u =>
        rw [Prog.bind_of_ok (rfl : Prog.lift (Except.ok u : Except Exc Unit) s = (.ok u, s))]
        exact ⟨inner, Prog.bind_of_error rfl⟩
      | error e' => exact ⟨e', Prog.bind_of_error rfl⟩
  · rw [if_neg hexception]
    exact ⟨e, rfl⟩

/-! ## The contract -/

/-- The operation has run to its end: each of its calls was made and has returned. -/
def Done (w : ValidationRun) : Prop :=
  ∃ job, w.gather = .ok job ∧ job.Completed (w.main .start).2.events

/-- `build_empty_from_columns` of this job, behind its checks. -/
def Checked (w : ValidationRun) (job : RunnerJob) (before : List AdapterEvent) (call : AdapterCall) : Prop :=
  ∃ table outputColumns config csvSource reads sqls,
    job.op = .buildFromColumns table outputColumns config csvSource reads ∧
    w.checkCsvHeader csvSource outputColumns = .ok () ∧ reads.iterate = .ok sqls ∧
    before = callEvents (.ensureSchema job.schema :: sqls.map .checkBinds) ∧
    call = .buildEmptyFromColumns job.schema table outputColumns config

/-- **The contract of the runner**: one block, that agrees with the exit status and with
    the calls made; a build only behind its checks; no schema for a `drop_schema`; and no
    adapter without the inputs. -/
structure RunnerContract (w : ValidationRun) : Prop where
  block : ∃ block, (w.main .start).2.printed = [block] ∧ (w.exitCode = 0 ↔ block.status = py "success") ∧
    (block.status = py "success" ↔ w.Done)
  build : ∀ before e after, (w.main .start).2.events = before ++ e :: after → e.call.isBuild = true →
    ∃ job, w.gather = .ok job ∧ w.Checked job before e.call
  drop : w.opName = py "drop_schema" → ∀ e ∈ (w.main .start).2.events, ∀ schema, e.call ≠ .ensureSchema schema
  unfit : ¬ w.Fit → (w.main .start).2.events = []

/-- What there is to report can be reported, and what leaves `close` changes nothing. -/
structure Tame (w : ValidationRun) : Prop where
  fetched : ∀ e, w.candidateFailure = some e → Reportable e
  discovered : (∃ job, w.gather = .ok job) → w.Discovered
  attempted : ∀ job cls e s, w.gather = .ok job → w.choose job.uniqueId = .ok cls →
    w.attempt job cls .start = (.error e, s) → Reportable e
  closed : ∀ job cls result s e, w.gather = .ok job → w.choose job.uniqueId = .ok cls →
    w.attempt job cls .start = (result, s) → CloseRaises s e → result ≠ .ok () ∧ exitStatus (.error e) ≠ 0

/-! ## Runs with an adapter class -/

section
variable {job : RunnerJob} {cls : AdapterClass} (hjob : w.gather = .ok job) (hcls : w.choose job.uniqueId = .ok cls)
include hjob hcls

theorem main_chosen : w.main = (do
    Prog.always ((w.attempt job cls).handle (failed job.uniqueId)) closeRunner
    printBlock (py "success") [] 0 job.uniqueId) := by
  unfold main
  rw [hjob]
  dsimp only
  rw [hcls]

/-- Behind an operation that has returned. -/
theorem main_of_ok {s : RunState} (h : w.attempt job cls .start = (.ok (), s)) :
    ∃ tail, (∀ e ∈ tail, e.call = .close) ∧ (w.main .start).2.events = s.events ++ tail ∧
      (((∀ e, ¬ CloseRaises s e) ∧ (w.main .start).1 = .ok () ∧
        (w.main .start).2.printed = s.printed ++ [⟨py "success", [], 0, job.uniqueId⟩]) ∨
      ((∃ e, CloseRaises s e) ∧ (w.main .start).2.printed = s.printed)) := by
  have htry : (w.attempt job cls).handle (failed job.uniqueId) .start = (.ok (), s) := Prog.handle_of_ok h
  obtain ⟨result, tail, hclose, htail, hraises⟩ := closeRunner_cases s
  refine ⟨tail, htail, ?_⟩
  rw [main_chosen hjob hcls]
  cases result with
  | ok u =>
    rw [Prog.bind_of_ok (Prog.always_of_ok htry hclose), printBlock_success]
    refine ⟨rfl, .inl ⟨fun e he => ?_, rfl, rfl⟩⟩
    cases (hraises e).1 he
  | error e =>
    rw [Prog.bind_of_error (Prog.always_of_error htry hclose)]
    exact ⟨rfl, .inr ⟨⟨e, (hraises e).2 rfl⟩, rfl⟩⟩

/-- Behind an operation that was left by an exception. -/
theorem main_of_error {e : Exc} {s : RunState} (h : w.attempt job cls .start = (.error e, s)) :
    ∃ tail, (∀ e ∈ tail, e.call = .close) ∧ (w.main .start).2.events = s.events ++ tail ∧
      ((Reportable e ∧ (∃ message, (w.main .start).2.printed = s.printed ++ [⟨py "error", message, 0, job.uniqueId⟩]) ∧
        ∃ raised, (w.main .start).1 = .error raised ∧ (∀ e', CloseRaises s e' → e' = raised) ∧
          (exitStatus (.error raised) = 1 ∨ CloseRaises s raised)) ∨
      (¬ Reportable e ∧ (w.main .start).2.printed = s.printed)) := by
  have hmain : ∀ {raised s'}, (w.attempt job cls).handle (failed job.uniqueId) .start = (.error raised, s') →
      ∃ tail, (∀ e ∈ tail, e.call = .close) ∧ ∃ last, w.main .start =
        (.error last, { s' with events := s'.events ++ tail }) ∧ (∀ e', CloseRaises s' e' → e' = last) ∧
        (last = raised ∨ CloseRaises s' last) := by
    intro raised s' htry
    obtain ⟨result, tail, hclose, htail, hraises⟩ := closeRunner_cases s'
    refine ⟨tail, htail, ?_⟩
    rw [main_chosen hjob hcls]
    cases result with
    | ok u =>
      exact ⟨raised, Prog.bind_of_error (Prog.always_of_ok htry hclose), fun e' he' => (by cases (hraises e').1 he'),
        .inl rfl⟩
    | error last =>
      refine ⟨last, Prog.bind_of_error (Prog.always_of_error htry hclose), fun e' he' => ?_, .inr ((hraises last).2 rfl)⟩
      exact (Except.error.inj ((hraises e').1 he')).symm
  by_cases hreportable : Reportable e
  · obtain ⟨message, hfailed⟩ := @failed_of_reportable job.uniqueId e s hreportable
    obtain ⟨tail, htail, last, hmain, hraises, hlast⟩ := hmain ((Prog.handle_of_error h).trans hfailed)
    rw [hmain]
    refine ⟨tail, htail, rfl, .inl ⟨hreportable, ⟨message, rfl⟩, last, rfl, hraises, hlast.imp ?_ id⟩⟩
    rintro rfl
    rfl
  · obtain ⟨e', hfailed⟩ := @failed_of_not_reportable job.uniqueId e s hreportable
    obtain ⟨tail, htail, last, hmain, -⟩ := hmain ((Prog.handle_of_error h).trans hfailed)
    rw [hmain]
    exact ⟨tail, htail, rfl, .inr ⟨hreportable, rfl⟩⟩

end

/-! ## The contract of a run -/

theorem completed_append {job : RunnerJob} {events tail : List AdapterEvent} (htail : ∀ e ∈ tail, e.call = .close) :
    job.Completed (events ++ tail) ↔ job.Completed events := by
  have hnone : operationEvents tail = [] := List.filter_eq_nil_iff.2 fun e he => by rw [htail e he]; decide
  unfold RunnerJob.Completed
  rw [operationEvents_append, hnone, List.append_nil]

theorem done_iff {job : RunnerJob} (hjob : w.gather = .ok job) :
    w.Done ↔ job.Completed (w.main .start).2.events := by
  refine ⟨?_, fun h => ⟨job, hjob, h⟩⟩
  rintro ⟨job', hjob', h⟩
  cases hjob.symm.trans hjob'
  exact h

theorem not_done (h : (w.main .start).2.events = []) : ¬ w.Done := by
  rintro ⟨job, -, calls, hcalls, hevents⟩
  rw [h] at hevents
  cases calls with
  | nil => exact requires_ne_nil hcalls
  | cons c calls => cases hevents

/-- A build among the steps of an operation. -/
theorem build_step {job : RunnerJob} {c : AdapterCall} (h : .call c ∈ w.steps job) (hbuild : c.isBuild = true) :
    ∃ table outputColumns config csvSource reads,
      job.op = .buildFromColumns table outputColumns config csvSource reads := by
  unfold steps at h
  cases hop : job.op with
  | buildFromColumns table outputColumns config csvSource reads => exact ⟨_, _, _, _, _, rfl⟩
  | _ =>
    rw [hop] at h
    simp only [List.mem_cons, RunnerStep.call.injEq, List.not_mem_nil, or_false] at h
    first
      | (rw [h] at hbuild; cases hbuild)
      | (rcases h with h | h <;> · rw [h] at hbuild; cases hbuild)

/-- The parts of the contract about the calls, of what an operation has done. -/
theorem calls_of_attempted {job : RunnerJob} {cls : AdapterClass} {completed : Bool}
    {events tail : List AdapterEvent} (hjob : w.gather = .ok job) (hcls : w.choose job.uniqueId = .ok cls)
    (h : Attempted (w.steps job) completed events) (htail : ∀ e ∈ tail, e.call = .close)
    (hmain : (w.main .start).2.events = events ++ tail) :
    (∀ before e after, (w.main .start).2.events = before ++ e :: after → e.call.isBuild = true →
      ∃ job, w.gather = .ok job ∧ w.Checked job before e.call) ∧
    (w.opName = py "drop_schema" → ∀ e ∈ (w.main .start).2.events, ∀ schema, e.call ≠ .ensureSchema schema) ∧
    w.Fit := by
  have hgathered := gather_ok hjob
  refine ⟨?_, ?_, hgathered.schema, hgathered.op, hgathered.table, hgathered.prodSchema, hgathered.sql,
    hgathered.spec, ?_⟩
  · intro before e after hsplit hbuild
    rw [hmain] at hsplit
    have hmem : e ∈ events ++ tail := hsplit ▸ List.mem_append_right _ List.mem_cons_self
    rcases List.mem_append.1 hmem with he | he
    · rcases h.mem e he with hcall | hcall
      · rw [hcall] at hbuild
        cases hbuild
      · obtain ⟨table, outputColumns, config, csvSource, reads, hop⟩ := build_step hcall hbuild
        obtain ⟨hheader, sqls, hreads, hbefore, hcall⟩ := h.build hop htail hsplit hbuild
        exact ⟨job, hjob, table, outputColumns, config, csvSource, reads, sqls, hop, hheader, hreads, hbefore, hcall⟩
    · rw [htail e he] at hbuild
      cases hbuild
  · intro hdrop e he schema hcall
    have hop := hgathered.drop hdrop
    rw [hmain] at he
    rcases List.mem_append.1 he with he | he
    · rcases h.mem e he with h | h
      · cases hcall.symm.trans h
      · unfold steps at h
        rw [hop, hcall] at h
        cases List.mem_singleton.1 h
    · cases hcall.symm.trans (htail e he)
  · obtain ⟨engine, required, hdiscover, hrequired, hset⟩ := choose_ok hcls
    exact ⟨engine, cls, required, hdiscover, hrequired, hset⟩

/-- A run that is refused with a block keeps the contract. -/
theorem contract_of_exit {message uniqueId : Str} {code : ErrorCode}
    (h : w.main = (Refusal.exit message code uniqueId).settle) : RunnerContract w := by
  have hmain : w.main .start = (.error (.text (.systemExit (.int code.value)) (decimalInt code.value)),
      ⟨none, [], [⟨py "error", message, 0, uniqueId⟩]⟩) := by
    rw [h, settle_exit]
    rfl
  have hevents : (w.main .start).2.events = [] := by rw [hmain]
  have hexit : w.exitCode ≠ 0 := by
    unfold exitCode
    rw [hmain]
    cases code with
    | failure => exact of_decide_eq_false rfl
    | usage => exact of_decide_eq_false rfl
  have hne : py "error" ≠ py "success" := by decide
  refine ⟨⟨_, by rw [hmain], iff_of_false hexit hne, iff_of_false hne (not_done hevents)⟩, ?_, ?_, fun _ => hevents⟩
  · intro before e after hsplit
    rw [hevents] at hsplit
    cases before <;> cases hsplit
  · intro _ e he
    rw [hevents] at he
    cases he

/-- A run that an exception leaves before there is an adapter prints nothing. -/
theorem not_contract_of_raised {e : Exc} (h : w.main = (Refusal.raised e).settle) : ¬ RunnerContract w := by
  intro hcontract
  obtain ⟨block, hblock, -⟩ := hcontract.block
  rw [h] at hblock
  cases hblock

/-- The contract of a run with an adapter class: its operation has returned, or what it
    raised can be reported. -/
theorem contract_iff_of_chosen {job : RunnerJob} {cls : AdapterClass} (hjob : w.gather = .ok job)
    (hcls : w.choose job.uniqueId = .ok cls) (hfetched : ∀ e, w.candidateFailure = some e → Reportable e)
    (hdiscovered : w.Discovered) : RunnerContract w ↔ w.Tame := by
  have htame : ∀ {result s}, w.attempt job cls .start = (result, s) → (w.Tame ↔
      (∀ e, result = .error e → Reportable e) ∧
        ∀ e, CloseRaises s e → result ≠ .ok () ∧ exitStatus (.error e) ≠ 0) := by
    intro result s hattempt
    refine ⟨fun h => ⟨?_, fun e => h.closed job cls result s e hjob hcls hattempt⟩, fun h =>
      ⟨hfetched, fun _ => hdiscovered, ?_, ?_⟩⟩
    · rintro e rfl
      exact h.attempted job cls e s hjob hcls hattempt
    · intro job' cls' e s' hjob' hcls' hattempt'
      cases hjob.symm.trans hjob'
      cases hcls.symm.trans hcls'
      cases hattempt.symm.trans hattempt'
      exact h.1 e rfl
    · intro job' cls' result' s' e hjob' hcls' hattempt'
      cases hjob.symm.trans hjob'
      cases hcls.symm.trans hcls'
      cases hattempt.symm.trans hattempt'
      exact h.2 e
  have hne : py "error" ≠ py "success" := by decide
  rcases hattempt : w.attempt job cls .start with ⟨e | ⟨⟩, s⟩
  · obtain ⟨hprinted, hattempted⟩ := (attempt_triple job cls .start rfl).2 e s hattempt
    obtain ⟨tail, htail, hevents, hmain⟩ := main_of_error hjob hcls hattempt
    obtain ⟨hbuild, hdrop, hfit⟩ := calls_of_attempted hjob hcls hattempted htail hevents
    have hdone : ¬ w.Done := by
      rw [done_iff hjob, hevents, completed_append htail, ← hattempted.completed_iff]
      nofun
    rw [htame hattempt]
    rcases hmain with ⟨hreportable, ⟨message, hblock⟩, last, hlast, hraises, hexit⟩ | ⟨hnot, hblock⟩
    · have hcode : w.exitCode = exitStatus (.error last) := by
        unfold exitCode
        rw [hlast]
        rfl
      rw [hprinted] at hblock
      constructor
      · intro h
        refine ⟨fun e' he' => (Except.error.inj he') ▸ hreportable, fun e' he' => ⟨nofun, fun hzero => ?_⟩⟩
        obtain ⟨block, hblock', hiff, -⟩ := h.block
        cases hblock.symm.trans hblock'
        rw [hraises e' he', ← hcode, hiff] at hzero
        exact hne hzero
      · intro h
        refine ⟨⟨_, hblock, iff_of_false ?_ hne, iff_of_false hne hdone⟩, hbuild, hdrop, fun hunfit => absurd hfit hunfit⟩
        rw [hcode]
        rcases hexit with hexit | hexit
        · rw [hexit]
          decide
        · exact (h.2 last hexit).2
    · refine iff_of_false (fun h => ?_) fun h => hnot (h.1 e rfl)
      obtain ⟨block, hblock', -⟩ := h.block
      rw [hblock, hprinted] at hblock'
      cases hblock'
  · obtain ⟨-, hprinted, hattempted⟩ := (attempt_triple job cls .start rfl).1 () s hattempt
    obtain ⟨tail, htail, hevents, hmain⟩ := main_of_ok hjob hcls hattempt
    obtain ⟨hbuild, hdrop, hfit⟩ := calls_of_attempted hjob hcls hattempted htail hevents
    have hdone : w.Done := by
      rw [done_iff hjob, hevents, completed_append htail, ← hattempted.completed_iff]
    rw [htame hattempt]
    rcases hmain with ⟨hquiet, hok, hblock⟩ | ⟨⟨e, he⟩, hblock⟩
    · have hcode : w.exitCode = 0 := by
        unfold exitCode
        rw [hok]
        rfl
      rw [hprinted] at hblock
      exact iff_of_true ⟨⟨_, hblock, iff_of_true hcode rfl, iff_of_true rfl hdone⟩, hbuild, hdrop,
        fun hunfit => absurd hfit hunfit⟩ ⟨nofun, fun e he => absurd he (hquiet e)⟩
    · refine iff_of_false (fun h => ?_) fun h => (h.2 e he).1 rfl
      obtain ⟨block, hblock', -⟩ := h.block
      rw [hblock, hprinted] at hblock'
      cases hblock'

/-- **The contract of the runner** holds of a run exactly if it is tame. -/
theorem main_contract_iff (w : ValidationRun) : RunnerContract w ↔ w.Tame := by
  cases hjob : w.gather with
  | error refusal =>
    have hmain : w.main = refusal.settle := by
      unfold main
      rw [hjob]
    have hescapes := @escapes_gather w
    rw [hjob, escapes_error] at hescapes
    have htame : w.Tame ↔ isExit refusal := by
      rw [← not_iff_not, hescapes]
      refine ⟨fun h => ?_, fun ⟨e, he, hnot⟩ h => hnot (h.fetched e he)⟩
      by_contra hall
      refine h ⟨fun e he => by_contra fun hnot => hall ⟨e, he, hnot⟩, ?_, ?_, ?_⟩
      · rintro ⟨job, h⟩
        cases hjob.symm.trans h
      · intro job cls e s h
        cases hjob.symm.trans h
      · intro job cls result s e h
        cases hjob.symm.trans h
    rw [htame]
    cases refusal with
    | exit message code uniqueId => exact iff_of_true (contract_of_exit hmain) trivial
    | raised e => exact iff_of_false (not_contract_of_raised hmain) id
  | ok job =>
    have hfetched : ∀ e, w.candidateFailure = some e → Reportable e := by
      have hescapes := @escapes_gather w
      rw [hjob] at hescapes
      exact fun e he => by_contra fun hnot => not_escapes_ok (hescapes.2 ⟨e, he, hnot⟩)
    cases hcls : w.choose job.uniqueId with
    | error refusal =>
      have hmain : w.main = refusal.settle := by
        unfold main
        rw [hjob]
        dsimp only
        rw [hcls]
      have hescapes := @escapes_choose w job.uniqueId
      rw [hcls, escapes_error, not_iff_not] at hescapes
      have htame : w.Tame ↔ isExit refusal := by
        rw [hescapes]
        refine ⟨fun h => h.discovered ⟨job, hjob⟩, fun h => ⟨hfetched, fun _ => h, ?_, ?_⟩⟩
        · intro job' cls e s hjob' hcls'
          cases hjob.symm.trans hjob'
          cases hcls.symm.trans hcls'
        · intro job' cls result s e hjob' hcls'
          cases hjob.symm.trans hjob'
          cases hcls.symm.trans hcls'
      rw [htame]
      cases refusal with
      | exit message code uniqueId => exact iff_of_true (contract_of_exit hmain) trivial
      | raised e => exact iff_of_false (not_contract_of_raised hmain) id
    | ok cls =>
      have hdiscovered : w.Discovered := by
        have hescapes := @escapes_choose w job.uniqueId
        rw [hcls] at hescapes
        exact not_not.1 fun hnot => not_escapes_ok (hescapes.2 hnot)
      exact contract_iff_of_chosen hjob hcls hfetched hdiscovered

end

/-! ## An exception without a text -/

/-- An adapter whose calls raise this. -/
def raisingAdapter (e : Exc) : Adapter where
  typeName := py "Adapter"
  validates := false
  appendCapable := false
  upsertCapable := false
  answer _ _ := .error e

/-- `ensure_schema`, on an engine whose calls raise this. -/
def raisingRun (e : Exc) : ValidationRun where
  environ key := if key = py "DBT_TARGET_SCHEMA" then some (py "s")
    else if key = py "VALIDATION_OP" then some (py "ensure_schema")
    else none
  entryPoints := [⟨py "duckdb", .ok (some ⟨.ok [], .ok (raisingAdapter e)⟩)⟩]
  reprStr := id
  s3Client := .ok ()
  getObject _ _ := .ok []
  detail _ := []
  jsonLoads _ := .ok .null
  fetchHeaderLine _ := .ok []
  csvRow _ := .ok []
  reprSorted _ := .ok []

/-- `ensure_schema` raises an exception whose `__str__` raises. -/
def silentRun : ValidationRun :=
  raisingRun (.custom (.other (py "Error")) (.raises (.text .valueError [])) (.gives []) (.gives []))

/-- **An exception whose `str` raises**: no block is printed. -/
theorem main_prints_nothing : (silentRun.main .start).2.printed = [] ∧ ¬ RunnerContract silentRun := by
  have hprinted : (silentRun.main .start).2.printed = [] := rfl
  refine ⟨hprinted, fun h => ?_⟩
  obtain ⟨block, hblock, -⟩ := h.block
  rw [hprinted] at hblock
  cases hblock

end ValidationRun

end ContinuoRuntime
