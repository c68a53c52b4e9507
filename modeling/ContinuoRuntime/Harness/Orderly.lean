/-
  Runs that keep the result contract, by what answers them.

  An exception is plain if it is an `Exception` that gives each of its texts.  What the
  runtime raises itself is plain, and its handlers make plain exceptions of plain ones.

  * `conform_orderly`, `produce_orderly`: each stage of `run_node`;
  * `tame_of_plain`: **a run** whose script, adapter, readers and contract raise plain
    exceptions only is tame.
-/
import ContinuoRuntime.Harness.Outcome
import ContinuoRuntime.CsvGate

namespace ContinuoRuntime

/-! ## Plain exceptions -/

/-- An `Exception` that gives each of its texts. -/
structure Exc.Plain (e : Exc) : Prop where
  isException : e.cls.isException = true
  str : ∃ text, e.str = .ok text
  format : ∃ text, e.format = .ok text
  sentinelMessage : ∃ text, e.sentinelMessage = .ok text

/-- It raises plain exceptions only. -/
abbrev Orderly {α : Type} (x : Except Exc α) : Prop := ¬ Escapes Exc.Plain x

theorem Exc.plain_text {c : ExcClass} {msg : Str} (h : c.isException = true) : (Exc.text c msg).Plain :=
  ⟨h, ⟨_, rfl⟩, ⟨_, rfl⟩, ⟨_, rfl⟩⟩

theorem orderly_error {α : Type} {e : Exc} (h : e.Plain) : Orderly (.error e : Except Exc α) := by
  rw [Orderly, escapes_error]
  exact not_not.2 h

/-- **What the runtime raises itself** is plain. -/
theorem orderly_text {α : Type} {c : ExcClass} {msg : Str} (h : c.isException = true) :
    Orderly (.error (.text c msg) : Except Exc α) := orderly_error (Exc.plain_text h)

theorem orderly_contractError {α : Type} {msg : Str} : Orderly (contractError msg : Except Exc α) := orderly_text rfl

/-- A plain exception can be reported. -/
theorem NodeRun.reportable_of_plain {e : Exc} (h : e.Plain) : NodeRun.Reportable e := by
  refine ⟨h.isException, ?_⟩
  unfold asked
  split_ifs
  · exact h.sentinelMessage
  · exact h.format

/-- A handler makes a plain exception of a plain one. -/
theorem wrapException_plain {keep : ExcClass → Bool} {cls : ExcClass} {before : Str} {e : Exc} (h : e.Plain)
    (hcls : cls.isException = true) : (wrapException keep cls before e).Plain := by
  obtain ⟨detail, hdetail⟩ := h.format
  unfold wrapException
  split_ifs
  · exact h
  · rw [hdetail]
    exact Exc.plain_text hcls

/-! ## `conform` -/

/-- The errors on values are plain. -/
theorem plain_unstructural (cls : ExcClass) (msg : Str) (h : cls.isException = true)
    (_ : Unstructural (.text cls msg)) : (Exc.text cls msg).Plain :=
  Exc.plain_text h

theorem conform_orderly {casts : ArrowCast} (hcasts : SafeCast casts) {reprStr : Str → Str} {table : ArrowTable}
    {columns : List Column} {extraColumns : ExtraColumns} :
    Orderly (conform casts reprStr table columns extraColumns) := by
  rw [conform_eq]
  refine not_escapes_bind ?_ fun _ _ => not_escapes_conformRest plain_unstructural hcasts table columns
  unfold structuralCheck
  split_ifs
  · exact orderly_text rfl
  · exact orderly_text rfl
  · exact not_escapes_ok
  · exact orderly_text rfl

/-! ## Answers -/

/-- A script that is given plain exceptions ends with one, or with a value of which
    `to_arrow` makes a table or raises one. -/
def Script.Plain : Script → Prop
  | .ends (.ok value) => Orderly (toArrow value)
  | .ends (.error e) => e.Plain
  | .read _ k => ∀ result, Orderly result → (k result).Plain

/-- What the file of a script raises is plain, and so is what the script does. -/
def ScriptFile.Plain : ScriptFile → Prop
  | .raised e | .module (.error e) => e.Plain
  | .module (.ok (some script)) => script.Plain
  | .noLoader | .module (.ok none) => True

/-- The adapter raises plain exceptions only. -/
def Adapter.Plain (a : Adapter) : Prop := ∀ events call, Orderly (a.answer events call)

/-- A part of a run that raises plain exceptions only. -/
abbrev OrderlyProg {α : Type} (x : RunProg α) : Prop :=
  Prog.Triple (fun _ => True) x (fun _ _ => True) fun e _ => e.Plain

theorem lift_orderly {α : Type} {x : Except Exc α} (h : Orderly x) : OrderlyProg (Prog.lift x) :=
  Prog.Triple.lift (fun _ _ _ _ => trivial) fun _ he _ _ => expected_of_not_escapes h he

theorem OrderlyProg.bind {α β : Type} {x : RunProg α} {f : α → RunProg β} (hx : OrderlyProg x)
    (hf : ∀ a, OrderlyProg (f a)) : OrderlyProg (x >>= f) :=
  Prog.Triple.bind hx hf

theorem callAdapter_orderly {a : Adapter} {call : AdapterCall} (ha : a.Plain) : OrderlyProg (callAdapter a call) :=
  fun _ _ => ⟨fun _ _ _ => trivial, fun _ _ h => expected_of_not_escapes (ha _ _) (callAdapter_error h).1⟩

/-- The plugin is one of the entry points. -/
theorem exists_of_discoverAdapter {reprStr : Str → Str} {eps : List EntryPoint} {found : Str × AdapterClass}
    (h : discoverAdapter reprStr eps = .ok found) : ∃ ep ∈ eps, ep.load = .ok (some found.2) := by
  unfold discoverAdapter discoveryError at h
  split at h
  · cases h
  next ep =>
    split at h
    · split_ifs at h
      obtain ⟨_, -, h⟩ := bind_eq_ok.1 h
      cases h
    · cases h
    next cls hload =>
      cases h
      exact ⟨ep, List.mem_singleton_self ep, hload⟩
  · cases h

/-- What discovery fails with, if the entry points are plain. -/
theorem discoverAdapter_error {reprStr : Str → Str} {eps : List EntryPoint} (h : ∀ ep ∈ eps, Orderly ep.load) :
    ¬ Escapes (fun e => e.cls = .adapterDiscoveryError ∧ e.Plain) (discoverAdapter reprStr eps) := by
  have hdiscovery : ∀ msg, ¬ Escapes (fun e => e.cls = .adapterDiscoveryError ∧ e.Plain)
      (discoveryError msg : Except Exc (Str × AdapterClass)) := fun msg => by
    rw [discoveryError, escapes_error, not_not]
    exact ⟨rfl, Exc.plain_text rfl⟩
  unfold discoverAdapter
  split
  · exact hdiscovery _
  next ep =>
    split
    next exc hexc =>
      have hplain := expected_of_not_escapes (h ep (List.mem_singleton_self ep)) hexc
      obtain ⟨detail, hdetail⟩ := hplain.format
      rw [if_pos hplain.isException, hdetail]
      exact hdiscovery _
    · exact hdiscovery _
    · exact not_escapes_ok
  · exact hdiscovery _

namespace NodeRun
variable {w : NodeRun} {a : Adapter} {reads : Dict Str Str}

/-- `ctx.read` returns a table or gives the script a plain exception. -/
theorem contextRead_orderly (ha : a.Plain) {memo : List (Str × ArrowTable)} {name : Str} :
    Prog.Triple (fun _ => True) (w.contextRead a reads memo name) (fun result _ => Orderly result.1)
      fun _ _ => False := by
  unfold contextRead
  split
  · exact Prog.Triple.pure fun _ _ => orderly_text rfl
  · split
    · exact Prog.Triple.pure fun _ _ => not_escapes_ok
    · refine Prog.Triple.handle (S := fun e _ => e.Plain) ?_ fun e => ?_
      · exact Prog.Triple.bind (callAdapter_orderly ha) fun table => Prog.Triple.pure fun _ _ => not_escapes_ok
      · intro s he
        exact Prog.Triple.pure (P := fun _ => True) (fun _ _ => orderly_error (wrapException_plain he rfl)) s trivial

theorem runScript_orderly (ha : a.Plain) {script : Script} (hscript : script.Plain) :
    ∀ memo, Prog.Triple (fun _ => True) (w.runScript a reads script memo) (fun value _ => Orderly (toArrow value))
      fun e _ => e.Plain := by
  induction script with
  | ends outcome =>
    intro memo
    refine Prog.Triple.lift ?_ ?_
    · rintro value rfl s -
      exact hscript
    · rintro e rfl s -
      exact hscript
  | read name k ih =>
    intro memo
    refine Prog.Triple.bind ((contextRead_orderly ha).mono (fun _ h => h) (fun _ _ h => h) fun _ _ h => h.elim)
      fun result s hresult => ?_
    exact ih result.1 (hscript result.1 hresult) result.2 s trivial

theorem writeError_plain {t : RunTarget} {e : Exc} (h : e.Plain) : (writeError t e).Plain := by
  obtain ⟨detail, hdetail⟩ := h.str
  unfold writeError
  split_ifs
  · rw [hdetail]
    exact Exc.plain_text rfl
  · exact wrapException_plain h rfl

/-- **What answers a run** raises plain exceptions only: the contract loader, the plugin, the
    adapter, the script, the readers of the csv source, and the casts. -/
structure Plain (w : NodeRun) : Prop where
  contracts : Orderly (loadContractDir w.lang w.parser (strictLoad w.lang w.yaml) false w.contractDir
    (w.files w.contractDir))
  plugins : ∀ ep ∈ w.entryPoints, Orderly ep.load ∧
    ∀ cls, ep.load = .ok (some cls) → Orderly cls.requiredEnv ∧ Orderly cls.fromEnv
  adapter : ∀ a, w.obtainAdapter = .ok a → a.Plain
  resolve : ∀ text, Orderly (w.resolve text)
  script : ∀ path, (w.importFile path).Plain
  fetchCsv : ∀ uri, Orderly (w.fetchCsv uri)
  readCsv : ∀ bytes types, Orderly (w.readCsv bytes types)
  casts : SafeCast w.casts

section
variable (h : w.Plain)
include h

theorem loadScript_orderly {node : Node} {repoRoot : Str} : Orderly (w.loadScript node repoRoot) := by
  unfold loadScript
  refine not_escapes_bind ?_ fun path _ => ?_
  · unfold resolveScriptPath
    split_ifs
    · exact orderly_contractError
    · refine not_escapes_bind (h.resolve _) fun path _ => not_escapes_bind (h.resolve _) fun root _ => ?_
      split_ifs
      · exact not_escapes_ok
      · exact orderly_contractError
      · exact orderly_contractError
  · have hplain := h.script path
    generalize w.importFile path = file at hplain ⊢
    rcases file with _ | e | (e | _ | script)
    · exact orderly_contractError
    · exact orderly_error (wrapException_plain hplain rfl)
    · exact orderly_error hplain
    · exact orderly_text rfl
    · exact not_escapes_ok

theorem plain_of_loadScript {node : Node} {repoRoot : Str} {script : Script}
    (hload : w.loadScript node repoRoot = .ok script) : script.Plain := by
  obtain ⟨path, -, hload⟩ := bind_eq_ok.1 hload
  have hplain := h.script path
  generalize w.importFile path = file at hplain hload
  rcases file with _ | e | (e | _ | loaded)
  · cases hload
  · cases hload
  · cases hload
  · cases hload
  · cases hload
    exact hplain

theorem produceCsv_orderly {node : Node} : Orderly (w.produceCsv node) := by
  unfold produceCsv
  split
  · refine not_escapes_bind not_escapes_ok fun source _ => ?_
    dsimp only
    split
    · refine not_escapes_bind not_escapes_ok fun uri _ => ?_
      refine not_escapes_bind (not_escapes_mapM fun _ _ =>
        not_escapes_bind (not_escapes_declaredType plain_unstructural _) fun _ _ => not_escapes_ok)
        fun columnTypes _ => ?_
      have hparsed := not_escapes_bind (h.fetchCsv uri) fun bytes _ => h.readCsv bytes columnTypes
      split
      · exact not_escapes_ok
      next e he => exact orderly_error (wrapException_plain (expected_of_not_escapes hparsed he) rfl)
    · exact orderly_text rfl
  · exact orderly_text rfl

/-- **A producer** raises plain exceptions only. -/
theorem produce_orderly {node : Node} (ha : a.Plain) {appRoot : Str} : OrderlyProg (w.produce node a appRoot) := by
  have hscript : OrderlyProg (w.produceFromScript node a appRoot) := by
    refine Prog.Triple.bind (Q := fun script _ => script.Plain) ?_ fun script => ?_
    · exact Prog.Triple.lift (fun _ hload _ _ => plain_of_loadScript h hload) fun _ he _ _ =>
        expected_of_not_escapes (loadScript_orderly h) he
    · refine Prog.Triple.bind (Q := fun value _ => Orderly (toArrow value)) ?_ fun value s hvalue =>
        lift_orderly hvalue s trivial
      intro s hplain
      refine Prog.Triple.handle (runScript_orderly ha hplain []) (fun e => ?_) s trivial
      exact Prog.Triple.raise fun _ he => wrapException_plain he rfl
  unfold produce
  cases node.kind with
  | pythonNode => exact hscript
  | pythonApi => exact hscript
  | pythonCsv => exact lift_orderly (produceCsv_orderly h)

/-! ## The run -/

theorem obtainAdapter_orderly : Orderly w.obtainAdapter := by
  unfold obtainAdapter
  split
  · exact not_escapes_ok
  · have hbuild : Orderly w.buildAdapter := by
      unfold buildAdapter
      have hdiscover : Orderly (discoverAdapter w.lang.reprStr w.entryPoints) := fun ⟨e, he, hnot⟩ =>
        hnot (expected_of_not_escapes (discoverAdapter_error fun ep hep => (h.plugins ep hep).1) he).2
      refine not_escapes_bind hdiscover fun found hfound => ?_
      obtain ⟨ep, hep, hload⟩ := exists_of_discoverAdapter hfound
      obtain ⟨hrequired, hfromEnv⟩ := (h.plugins ep hep).2 _ hload
      refine not_escapes_bind hrequired fun required _ => ?_
      dsimp only
      split_ifs
      · exact orderly_text rfl
      · exact hfromEnv
    split
    · exact not_escapes_ok
    next e he => exact orderly_error (wrapException_plain (expected_of_not_escapes hbuild he) rfl)

theorem prepare_orderly : Orderly w.prepare := by
  have henv : ∀ key, Orderly (requireEnv w.lang.reprStr w.env key) := by
    intro key
    unfold requireEnv
    dsimp only
    split_ifs
    · exact orderly_contractError
    · exact not_escapes_ok
  unfold prepare
  refine not_escapes_bind (henv _) fun nodeId _ => not_escapes_bind (henv _) fun tableName _ =>
    not_escapes_bind (henv _) fun targetSchema _ => not_escapes_bind h.contracts fun nodes _ =>
    not_escapes_bind ?_ fun node _ => not_escapes_bind (obtainAdapter_orderly h) fun adapter _ => not_escapes_ok
  unfold selectNode
  split
  · split
    · exact not_escapes_ok
    · exact orderly_contractError
  · exact orderly_contractError

/-- The work of the `try` raises plain exceptions only. -/
theorem work_orderly {t : RunTarget} (ht : t.adapter.Plain) : OrderlyProg (w.work t) := by
  have hcall : ∀ call, OrderlyProg (callAdapter t.adapter call) := fun call => callAdapter_orderly ht
  have hunit : OrderlyProg (pure () : RunProg Unit) := Prog.Triple.pure fun _ _ => trivial
  unfold work
  refine OrderlyProg.bind ?_ fun _ => OrderlyProg.bind ?_ fun writer => OrderlyProg.bind (produce_orderly h ht)
    fun table => OrderlyProg.bind (lift_orderly (conform_orderly h.casts)) fun conformed =>
    OrderlyProg.bind ?_ fun _ => OrderlyProg.bind ?_ fun _ => Prog.Triple.pure fun _ _ => trivial
  · unfold validateConfigEarly
    split_ifs
    · refine Prog.Triple.handle (S := fun e _ => e.Plain) ((hcall _).bind fun _ => hunit) fun e => ?_
      exact Prog.Triple.raise fun _ he => wrapException_plain he rfl
    · exact hunit
  · refine lift_orderly ?_
    unfold writerFor
    dsimp only
    split
    · exact not_escapes_ok
    · split_ifs
      · exact not_escapes_ok
      · exact orderly_text rfl
  · refine Prog.Triple.handle (S := fun e _ => e.Plain) ((hcall _).bind fun _ => OrderlyProg.bind ?_ fun _ =>
      (hcall _).bind fun _ => hunit) fun e => Prog.Triple.raise fun _ he => writeError_plain he
    split_ifs
    · refine (hcall _).bind fun live => ?_
      dsimp only
      split_ifs
      · exact hunit
      · exact Prog.Triple.raise fun _ _ => Exc.plain_text rfl
    · exact hunit
  · exact printSuccess_triple fun _ _ => trivial

/-- **Plain answers**: what such a run raises can be reported, and `close` ends it as its
    block says. -/
theorem tame_of_plain : Tame w := by
  have hclosed : ∀ {s : RunState} {e : Exc}, (∀ a, s.active = some a → a.Plain) → ¬ CloseEscapes s e := by
    rintro s e hs ⟨a, hactive, hanswer, hbase⟩
    have hplain := expected_of_not_escapes (hs a hactive _ _) hanswer
    rw [hplain.isException] at hbase
    cases hbase
  have hadapter : ∀ {t : RunTarget}, w.prepare = .ok t → t.adapter.Plain := by
    intro t ht
    unfold prepare at ht
    obtain ⟨_, -, ht⟩ := bind_eq_ok.1 ht
    obtain ⟨_, -, ht⟩ := bind_eq_ok.1 ht
    obtain ⟨_, -, ht⟩ := bind_eq_ok.1 ht
    obtain ⟨_, -, ht⟩ := bind_eq_ok.1 ht
    obtain ⟨_, -, ht⟩ := bind_eq_ok.1 ht
    obtain ⟨a, ha, ht⟩ := bind_eq_ok.1 ht
    cases ht
    exact h.adapter a ha
  have htry : OrderlyProg w.tryBody := by
    refine Prog.Triple.bind (Q := fun t _ => t.adapter.Plain) ?_ fun t => ?_
    · exact Prog.Triple.lift (fun t ht _ _ => hadapter ht) fun e he _ _ =>
        expected_of_not_escapes (prepare_orderly h) he
    · intro s ht
      have hset : OrderlyProg (setActive t.adapter) := fun _ _ => ⟨fun _ _ _ => trivial, fun _ _ he => by cases he⟩
      exact (hset.bind fun _ => work_orderly h ht) s trivial
  refine ⟨fun e s he => reportable_of_plain ((htry .start trivial).2 e s he), fun e he => ?_⟩
  refine absurd he (hclosed fun a ha => ?_)
  rcases handled_events w with ⟨-, hnone, -⟩ | ⟨t, -, ht, hactive, -⟩
  · cases ha.symm.trans hnone
  · cases ha.symm.trans hactive
    exact hadapter ht

end

/-- A plain script is tame where everything else obliges. -/
theorem scriptRun_tame {script : Script} (h : script.Plain) : Tame (scriptRun script) := by
  refine tame_of_plain {
    contracts := ?_
    plugins := fun ep hep => by cases hep
    adapter := ?_
    resolve := fun _ => not_escapes_ok
    script := fun _ => h
    fetchCsv := fun _ => not_escapes_ok
    readCsv := fun _ _ => not_escapes_ok
    casts := safeCast_selfCast }
  · have hok : (loadContractDir plainLang emptySql (strictLoad plainLang fun _ => ⟨[], .ok oneNodeDocument⟩) false
        (scriptRun script).contractDir [(py "n.yml", [])]).isOk = true := rfl
    rintro ⟨e, he, -⟩
    have hfalse : (Except.error e : Except Exc (List Node)).isOk = true := he ▸ hok
    cases hfalse
  · intro a ha events call
    cases ha
    cases call <;> exact not_escapes_ok

end NodeRun

end ContinuoRuntime
