/-
  Runs of the validation runner that keep its contract, by what answers them.

  * `attempt_orderly`: what an operation raises, and the adapter that it leaves;
  * `tame_of_plain`: **a run** whose S3, csv source, plugin and adapter raise plain
    exceptions only is tame.
-/
import ContinuoRuntime.Validation.Outcome
import ContinuoRuntime.Harness.Orderly

namespace ContinuoRuntime

namespace ValidationRun

theorem reportable_of_plain {e : Exc} (h : e.Plain) : Reportable e := ⟨h.isException, h.str⟩

/-- **What answers a run** raises plain exceptions only: S3, the csv source, the plugin, and
    the adapter. -/
structure Plain (w : ValidationRun) : Prop where
  s3Client : Orderly w.s3Client
  getObject : ∀ bucket key, Orderly (w.getObject bucket key)
  jsonLoads : ∀ text, Orderly (w.jsonLoads text)
  fetchHeaderLine : ∀ uri, Orderly (w.fetchHeaderLine uri)
  csvRow : ∀ line, Orderly (w.csvRow line)
  reprSorted : ∀ values, Orderly (w.reprSorted values)
  plugins : ∀ ep ∈ w.entryPoints, Orderly ep.load ∧ ∀ cls, ep.load = .ok (some cls) →
    (∃ required, cls.requiredEnv = .ok required) ∧ Orderly cls.fromEnv ∧ ∀ a, cls.fromEnv = .ok a → a.Plain

section
variable {w : ValidationRun} (h : w.Plain)
include h

/-! ## The candidate -/

theorem fetchText_orderly {uri : Str} : Orderly (w.fetchText uri) := by
  unfold fetchText
  refine not_escapes_bind ?_ fun parts _ => not_escapes_bind h.s3Client fun _ _ =>
    not_escapes_bind (h.getObject _ _) fun body _ => ?_
  · unfold parseS3Uri
    dsimp only
    split_ifs
    · exact orderly_text rfl
    · exact not_escapes_ok
    · exact orderly_text rfl
  · split
    · exact not_escapes_ok
    · exact orderly_text rfl

theorem loadCandidateSql_orderly : Orderly w.loadCandidateSql := by
  unfold loadCandidateSql
  dsimp only
  split_ifs
  · exact not_escapes_ok
  · exact fetchText_orderly h

theorem loadCandidateSpec_orderly : Orderly w.loadCandidateSpec := by
  unfold loadCandidateSpec
  dsimp only
  split_ifs
  · exact orderly_text rfl
  · refine not_escapes_bind (fetchText_orderly h) fun text _ => not_escapes_bind (h.jsonLoads _) fun spec _ => ?_
    split
    · exact not_escapes_ok
    · exact orderly_text rfl

theorem candidateFailure_plain {e : Exc} (he : w.candidateFailure = some e) : e.Plain := by
  have hfailure : ∀ {α : Type} {x : Except Exc α}, Orderly x → failureOf x = some e → e.Plain := by
    intro α x hx hfailure
    cases x with
    | ok a => cases hfailure
    | error e' =>
      cases hfailure
      exact expected_of_not_escapes hx rfl
  unfold candidateFailure at he
  split_ifs at he
  · exact hfailure (loadCandidateSql_orderly h) he
  · exact hfailure (loadCandidateSpec_orderly h) he

/-! ## The operation -/

omit h in
theorem iterate_orderly {value : Json Str} : Orderly value.iterate := by
  cases value with
  | arr | str | obj => exact not_escapes_ok
  | null | bool | int | float => exact orderly_text rfl

omit h in
theorem subscript_orderly {key : Str} {value : Json Str} : Orderly (value.subscript key) := by
  unfold Json.subscript
  split
  · split
    · exact not_escapes_ok
    · exact orderly_text rfl
  · exact orderly_text rfl
  · exact orderly_text rfl
  · exact orderly_text rfl

theorem checkCsvHeader_orderly {csvSource : Str} {outputColumns : Json Str} :
    Orderly (w.checkCsvHeader csvSource outputColumns) := by
  unfold checkCsvHeader
  split_ifs
  · exact not_escapes_ok
  · split
    · refine not_escapes_bind not_escapes_ok fun uri _ => not_escapes_bind (h.fetchHeaderLine uri) fun line _ => ?_
      split_ifs
      · exact orderly_text rfl
      · refine not_escapes_bind iterate_orderly fun columns _ =>
          not_escapes_bind (not_escapes_mapM fun _ _ => subscript_orderly) fun declared _ =>
          not_escapes_bind (h.csvRow line) fun header _ => ?_
        unfold checkDeclared
        split
        · exact orderly_text rfl
        · dsimp only
          split_ifs
          · exact not_escapes_bind (h.reprSorted _) fun _ _ => orderly_text rfl
          · exact not_escapes_ok
    · exact orderly_text rfl

/-- The checks of an operation. -/
theorem steps_orderly {job : RunnerJob} {result : Except Exc Unit} (hmem : .check result ∈ w.steps job) :
    Orderly result := by
  unfold steps at hmem
  cases hop : job.op with
  | buildFromColumns table outputColumns config csvSource reads =>
    rw [hop] at hmem
    simp only [List.mem_cons, RunnerStep.check.injEq, reduceCtorEq, false_or] at hmem
    rcases hmem with rfl | hmem
    · exact checkCsvHeader_orderly h
    · unfold columnSteps at hmem
      split at hmem
      · simp at hmem
      next e he =>
        cases List.mem_singleton.1 hmem
        exact orderly_error (expected_of_not_escapes iterate_orderly he)
  | _ =>
    rw [hop] at hmem
    simp at hmem

omit h in
/-- One step leaves the adapter. -/
theorem step_orderly {a : Adapter} (ha : a.Plain) {step : RunnerStep}
    (hstep : ∀ result, step = .check result → Orderly result) :
    Prog.Triple (fun s => s.active = some a) (step.run a) (fun _ s => s.active = some a)
      fun e s => e.Plain ∧ s.active = some a := by
  cases step with
  | call c =>
    refine Prog.Triple.bind (Q := fun _ s => s.active = some a) (fun s hs => ?_) fun _ =>
      Prog.Triple.pure fun _ hs => hs
    refine ⟨fun reply s' hcall => ?_, fun e s' hcall => ?_⟩
    · rw [(callAdapter_ok hcall).2]
      exact hs
    · obtain ⟨hanswer, rfl⟩ := callAdapter_error hcall
      exact ⟨expected_of_not_escapes (ha _ _) hanswer, hs⟩
  | check result =>
    exact Prog.Triple.lift (fun _ _ _ hs => hs) fun e he s hs =>
      ⟨expected_of_not_escapes (hstep result rfl) he, hs⟩

/-- **An operation** raises plain exceptions only, and its adapter is plain. -/
theorem attempt_orderly {job : RunnerJob} {cls : AdapterClass} (hcls : w.choose job.uniqueId = .ok cls) :
    Prog.Triple (fun s => s = .start) (w.attempt job cls) (fun _ s => ∀ a, s.active = some a → a.Plain)
      fun e s => e.Plain ∧ ∀ a, s.active = some a → a.Plain := by
  obtain ⟨engine, required, hdiscover, -, -⟩ := choose_ok hcls
  obtain ⟨ep, hep, hload⟩ := exists_of_discoverAdapter hdiscover
  obtain ⟨-, hfromEnv, hplain⟩ := (h.plugins ep hep).2 _ hload
  rw [attempt_eq]
  refine Prog.Triple.bind (Q := fun a s => a.Plain ∧ s.active = some a) ?_ fun a => ?_
  · rintro s rfl
    unfold construct
    cases hcase : cls.fromEnv with
    | ok a =>
      refine ⟨fun a' s' hrun => ?_, fun e s' hrun => (by cases hrun)⟩
      cases hrun
      exact ⟨hplain a hcase, rfl⟩
    | error e =>
      refine ⟨fun a' s' hrun => (by cases hrun), fun e' s' hrun => ?_⟩
      cases hrun
      exact ⟨expected_of_not_escapes hfromEnv hcase, fun a ha => by cases ha⟩
  · rintro s ⟨ha, hactive⟩
    have hleft : ∀ {s : RunState}, s.active = some a → ∀ a', s.active = some a' → a'.Plain := by
      intro s hs a' ha'
      cases hs.symm.trans ha'
      exact ha
    have hsteps : Prog.Triple (fun s => s.active = some a) ((w.steps job).forM (RunnerStep.run a))
        (fun _ s => s.active = some a) fun e s => e.Plain ∧ s.active = some a := by
      refine @Prog.Triple.forM Exc RunState _ _ (fun e s => e.Plain ∧ s.active = some a)
        (fun _ s => s.active = some a) [] _ ?_
      intro before step after hsplit
      refine step_orderly ha fun result hcheck => steps_orderly h (?_ : .check result ∈ w.steps job)
      rw [← List.nil_append (w.steps job), hsplit, hcheck]
      exact List.mem_append_right before List.mem_cons_self
    exact (hsteps.mono (fun _ hs => hs) (fun _ _ hs => hleft hs) fun _ _ hs => ⟨hs.1, hleft hs.2⟩) s hactive

/-- **Plain answers**: what there is to report can be reported, and `close` changes nothing. -/
theorem tame_of_plain : w.Tame := by
  have hdiscover := @discoverAdapter_error w.reprStr _ fun ep hep => (h.plugins ep hep).1
  have hclosed : ∀ {s : RunState} {e : Exc}, (∀ a, s.active = some a → a.Plain) → ¬ CloseRaises s e := by
    rintro s e hs ⟨a, raised, hactive, hanswer, hraises⟩
    have hplain := expected_of_not_escapes (hs a hactive _ _) hanswer
    obtain ⟨text, htext⟩ := hplain.str
    rw [if_pos hplain.isException, logException, htext] at hraises
    cases hraises
  refine ⟨fun e he => reportable_of_plain (candidateFailure_plain h he), fun _ => ⟨fun e he => ?_, ?_⟩, ?_, ?_⟩
  · obtain ⟨hcls, hplain⟩ := expected_of_not_escapes hdiscover he
    exact ⟨hcls, reportable_of_plain hplain⟩
  · intro engine cls hfound
    obtain ⟨ep, hep, hload⟩ := exists_of_discoverAdapter hfound
    exact ((h.plugins ep hep).2 _ hload).1
  · intro job cls e s hjob hcls hattempt
    exact reportable_of_plain ((attempt_orderly h hcls .start rfl).2 e s hattempt).1
  · intro job cls result s e hjob hcls hattempt he
    refine absurd he (hclosed ?_)
    cases result with
    | ok u => exact (attempt_orderly h hcls .start rfl).1 u s hattempt
    | error e => exact ((attempt_orderly h hcls .start rfl).2 e s hattempt).2

end

/-- An engine whose calls raise a plain exception. -/
theorem raisingRun_tame {e : Exc} (h : e.Plain) : (raisingRun e).Tame := by
  refine tame_of_plain {
    s3Client := not_escapes_ok
    getObject := fun _ _ => not_escapes_ok
    jsonLoads := fun _ => not_escapes_ok
    fetchHeaderLine := fun _ => not_escapes_ok
    csvRow := fun _ => not_escapes_ok
    reprSorted := fun _ => not_escapes_ok
    plugins := fun ep hep => ?_ }
  rw [List.mem_singleton.1 hep]
  refine ⟨not_escapes_ok, fun cls hcls => ?_⟩
  cases hcls
  refine ⟨⟨_, rfl⟩, not_escapes_ok, fun a ha => ?_⟩
  cases ha
  exact fun _ _ => orderly_error h

end ValidationRun

end ContinuoRuntime
