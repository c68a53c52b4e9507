/-
  What `run_node` does before it writes.

  * `Trace`: the adapter calls of the `try`, with what has succeeded before each;
  * `work_triple`: the `try` makes no others;
  * `runNode_gated`: **one write at most**, behind every check, and one `close`.
-/
import ContinuoRuntime.Harness.RunNode

namespace ContinuoRuntime

/-! ## Traces -/

/-- The events of a config check that has passed. -/
def RunTarget.validated (t : RunTarget) : List AdapterEvent :=
  if t.adapter.validates then [⟨t.validateCall, none⟩] else []

/-- The calls before `ensure_table`. -/
def RunTarget.Early (t : RunTarget) (e : AdapterEvent) : Prop :=
  e.call = t.validateCall ∨ ∃ sql, e.call = .fetch sql

theorem RunTarget.Early.kinds {t : RunTarget} {e : AdapterEvent} (h : t.Early e) :
    e.call.isWrite = false ∧ e.call.isEnsureTable = false ∧ e.call ≠ .close := by
  rcases h with h | ⟨sql, h⟩
  · rw [h]
    exact ⟨rfl, rfl, nofun⟩
  · rw [h]
    exact ⟨rfl, rfl, nofun⟩

namespace NodeRun

variable (w : NodeRun) (t : RunTarget)

/-- The config check, the capability check, the producer and `conform` have succeeded,
    in this order, and these are the calls so far. -/
structure Conformed (conformed : ArrowTable) (events : List AdapterEvent) : Prop where
  prepared : w.prepare = .ok t
  capable : t.adapter.Supports t.node.modeType
  produced : ∃ fetches table s s', s.events = t.validated ∧ s'.events = events ∧
    events = t.validated ++ fetches ∧ (∀ e ∈ fetches, ∃ sql, e.call = .fetch sql) ∧
    w.produce t.node t.adapter t.appRoot s = (.ok table, s') ∧
    conform w.casts w.lang.reprStr table t.node.outputColumns t.node.extraColumns = .ok conformed

/-- A shape check that has passed, behind these events; a replace has none. -/
inductive Shaped (before : List AdapterEvent) : List AdapterEvent → Prop
  | replace (h : t.node.modeType = .replace) : Shaped before []
  | same {live : List LiveColumn} (h : t.node.modeType ≠ .replace)
      (hlive : t.adapter.answer before (.tableColumns t.targetSchema t.tableName) = .ok live)
      (hempty : (shapeDiff w.casefold t.node.outputColumns live).IsEmpty) :
      Shaped before [⟨t.shapeCall, none⟩]

/-- **The adapter calls of the `try`**, and whether the write has returned. -/
inductive Trace : Bool → List AdapterEvent → Prop
  | early {events : List AdapterEvent} (h : ∀ e ∈ events, t.Early e) : Trace false events
  | ensured {conformed : ArrowTable} {before : List AdapterEvent} (h : w.Conformed t conformed before)
      (raised : Option Exc) : Trace false (before ++ [⟨t.ensureCall, raised⟩])
  | shaped {conformed : ArrowTable} {before : List AdapterEvent} (h : w.Conformed t conformed before)
      (raised : Option Exc) : Trace false (before ++ [⟨t.ensureCall, none⟩, ⟨t.shapeCall, raised⟩])
  | written {conformed : ArrowTable} {before shape : List AdapterEvent} (h : w.Conformed t conformed before)
      (hshape : w.Shaped t (before ++ [⟨t.ensureCall, none⟩]) shape) (raised : Option Exc) :
      Trace raised.isNone
        (before ++ ⟨t.ensureCall, none⟩ :: shape ++ [⟨t.writeCall conformed, raised⟩])

/-- In the `try`, with this adapter, and nothing printed. -/
structure Working (s : RunState) : Prop where
  active : s.active = some t.adapter
  printed : s.printed = []

/-- The `try` is left by an exception. -/
def Failed (s : RunState) : Prop := Working t s ∧ w.Trace t false s.events

/-! ## The producer -/

/-- Declared reads only. -/
def OnlyFetches (s s' : RunState) : Prop :=
  s'.active = s.active ∧ s'.printed = s.printed ∧
    ∃ fetches, s'.events = s.events ++ fetches ∧ ∀ e ∈ fetches, ∃ sql, e.call = .fetch sql

theorem OnlyFetches.refl (s : RunState) : OnlyFetches s s :=
  ⟨rfl, rfl, [], (List.append_nil _).symm, fun e he => by cases he⟩

theorem OnlyFetches.trans (s s' s'' : RunState) (h : OnlyFetches s s') (h' : OnlyFetches s' s'') :
    OnlyFetches s s'' := by
  obtain ⟨hactive, hprinted, fetches, hevents, hfetches⟩ := h
  obtain ⟨hactive', hprinted', fetches', hevents', hfetches'⟩ := h'
  refine ⟨hactive'.trans hactive, hprinted'.trans hprinted, fetches ++ fetches', ?_, fun e he => ?_⟩
  · rw [hevents', hevents, List.append_assoc]
  · exact (List.mem_append.1 he).elim (hfetches e) (hfetches' e)

theorem fetch_changes (a : Adapter) (sql : Str) : Prog.Changes OnlyFetches (callAdapter a (.fetch sql)) := by
  intro s
  unfold callAdapter
  split
  · exact ⟨rfl, rfl, _, rfl, fun e he => ⟨sql, by rw [List.mem_singleton.1 he]⟩⟩
  · exact ⟨rfl, rfl, _, rfl, fun e he => ⟨sql, by rw [List.mem_singleton.1 he]⟩⟩

theorem contextRead_changes (a : Adapter) (reads : Dict Str Str) (memo : List (Str × ArrowTable)) (name : Str) :
    Prog.Changes OnlyFetches (w.contextRead a reads memo name) := by
  unfold contextRead
  split
  · exact Prog.Changes.pure OnlyFetches.refl
  · split
    · exact Prog.Changes.pure OnlyFetches.refl
    · exact Prog.Changes.handle OnlyFetches.trans
        (Prog.Changes.bind OnlyFetches.trans (fetch_changes a _) fun _ => Prog.Changes.pure OnlyFetches.refl)
        fun _ => Prog.Changes.pure OnlyFetches.refl

theorem runScript_changes (a : Adapter) (reads : Dict Str Str) (script : Script) :
    ∀ memo, Prog.Changes OnlyFetches (w.runScript a reads script memo) := by
  induction script with
  | ends outcome => exact fun memo => Prog.Changes.lift OnlyFetches.refl
  | read name k ih =>
    exact fun memo => Prog.Changes.bind OnlyFetches.trans (w.contextRead_changes a reads memo name)
      fun result => ih result.1 result.2

/-- **A producer** calls the adapter for declared reads only. -/
theorem produce_changes (node : Node) (a : Adapter) (appRoot : Str) :
    Prog.Changes OnlyFetches (w.produce node a appRoot) := by
  have hscript : Prog.Changes OnlyFetches (w.produceFromScript node a appRoot) := by
    refine Prog.Changes.bind OnlyFetches.trans (Prog.Changes.lift OnlyFetches.refl) fun script => ?_
    refine Prog.Changes.bind OnlyFetches.trans ?_ fun value => Prog.Changes.lift OnlyFetches.refl
    exact Prog.Changes.handle OnlyFetches.trans (w.runScript_changes a node.reads script [])
      fun e => Prog.Changes.raise OnlyFetches.refl
  unfold produce
  cases node.kind with
  | pythonNode => exact hscript
  | pythonApi => exact hscript
  | pythonCsv => exact Prog.Changes.lift OnlyFetches.refl

/-! ## Stages -/

variable {w t}

theorem callAdapter_triple {a : Adapter} {call : AdapterCall} {P : RunState → Prop}
    {Q : call.Reply → RunState → Prop} {R : Exc → RunState → Prop}
    (hok : ∀ s reply, P s → a.answer s.events call = .ok reply →
      Q reply { s with events := s.events ++ [⟨call, none⟩] })
    (herror : ∀ s e, P s → R e { s with events := s.events ++ [⟨call, some e⟩] }) :
    Prog.Triple P (callAdapter a call) Q R := by
  intro s hs
  refine ⟨fun reply s' h => ?_, fun e s' h => ?_⟩
  · obtain ⟨hanswer, rfl⟩ := callAdapter_ok h
    exact hok s reply hs hanswer
  · obtain ⟨-, rfl⟩ := callAdapter_error h
    exact herror s e hs

theorem validate_triple : Prog.Triple (fun s => Working t s ∧ s.events = []) (validateConfigEarly t)
    (fun _ s => Working t s ∧ s.events = t.validated) fun _ => w.Failed t := by
  have hearly : ∀ raised : Option Exc, w.Trace t false [⟨t.validateCall, raised⟩] := fun raised =>
    .early fun e he => .inl (by rw [List.mem_singleton.1 he])
  unfold validateConfigEarly RunTarget.validated
  split_ifs
  · refine Prog.Triple.handle_raise (Prog.Triple.bind (Q := fun _ s => Working t s ∧
      s.events = [⟨t.validateCall, none⟩]) (callAdapter_triple ?_ ?_) fun _ => Prog.Triple.pure fun s hs => hs)
    · rintro s reply ⟨hs, hevents⟩ -
      exact ⟨⟨hs.active, hs.printed⟩, by rw [hevents]; rfl⟩
    · rintro s e ⟨hs, hevents⟩
      exact ⟨⟨hs.active, hs.printed⟩, by rw [hevents]; exact hearly (some e)⟩
  · exact Prog.Triple.pure fun s hs => hs

theorem early_validated : ∀ e ∈ t.validated, t.Early e := by
  unfold RunTarget.validated
  split_ifs
  · exact fun e he => .inl (by rw [List.mem_singleton.1 he])
  · exact fun e he => by cases he

theorem produce_triple : Prog.Triple (fun s => Working t s ∧ s.events = t.validated)
    (w.produce t.node t.adapter t.appRoot)
    (fun table s => Working t s ∧ ∃ fetches s₀, s₀.events = t.validated ∧ s.events = t.validated ++ fetches ∧
      (∀ e ∈ fetches, ∃ sql, e.call = .fetch sql) ∧
      w.produce t.node t.adapter t.appRoot s₀ = (.ok table, s)) fun _ => w.Failed t := by
  rintro s ⟨hs, hevents⟩
  have hchanges := w.produce_changes t.node t.adapter t.appRoot s
  refine ⟨fun table s' h => ?_, fun e s' h => ?_⟩
  · rw [h] at hchanges
    obtain ⟨hactive, hprinted, fetches, hnew, hfetches⟩ := hchanges
    rw [hevents] at hnew
    exact ⟨⟨hactive.trans hs.active, hprinted.trans hs.printed⟩, fetches, s, hevents, hnew, hfetches, h⟩
  · rw [h] at hchanges
    obtain ⟨hactive, hprinted, fetches, hnew, hfetches⟩ := hchanges
    rw [hevents] at hnew
    refine ⟨⟨hactive.trans hs.active, hprinted.trans hs.printed⟩, ?_⟩
    rw [hnew]
    refine .early fun e he => ?_
    exact (List.mem_append.1 he).elim (early_validated e) fun he => .inr (hfetches e he)

theorem checkShape_triple {conformed : ArrowTable} {before : List AdapterEvent}
    (h : w.Conformed t conformed before) (hmode : t.node.modeType ≠ .replace) :
    Prog.Triple (fun s => Working t s ∧ s.events = before ++ [⟨t.ensureCall, none⟩]) (w.checkShape t)
      (fun _ s => Working t s ∧ ∃ shape, w.Shaped t (before ++ [⟨t.ensureCall, none⟩]) shape ∧
        s.events = before ++ ⟨t.ensureCall, none⟩ :: shape) fun _ => w.Failed t := by
  have htrace : ∀ raised : Option Exc,
      w.Trace t false (before ++ [⟨t.ensureCall, none⟩] ++ [⟨t.shapeCall, raised⟩]) := fun raised => by
    rw [List.append_assoc]
    exact .shaped h raised
  refine Prog.Triple.bind (Q := fun live s => Working t s ∧
    t.adapter.answer (before ++ [⟨t.ensureCall, none⟩]) (.tableColumns t.targetSchema t.tableName) = .ok live ∧
    s.events = before ++ [⟨t.ensureCall, none⟩] ++ [⟨t.shapeCall, none⟩]) (callAdapter_triple ?_ ?_) fun live => ?_
  · rintro s live ⟨hs, hevents⟩ hlive
    rw [hevents] at hlive
    exact ⟨⟨hs.active, hs.printed⟩, hlive, by rw [hevents]; rfl⟩
  · rintro s e ⟨hs, hevents⟩
    exact ⟨⟨hs.active, hs.printed⟩, by rw [hevents]; exact htrace (some e)⟩
  · dsimp only
    split_ifs with hempty
    · refine Prog.Triple.pure fun s hs => ⟨hs.1, _, .same hmode hs.2.1 hempty, ?_⟩
      rw [hs.2.2, List.append_assoc]
      rfl
    · exact Prog.Triple.raise fun s hs => ⟨hs.1, by rw [hs.2.2]; exact htrace none⟩

theorem write_eq (conformed : ArrowTable) : (writers t.node.modeType).write t.targetSchema t.tableName conformed
    t.node.primaryKey = t.writeCall conformed := by
  unfold RunTarget.writeCall
  cases t.node.modeType <;> rfl

/-- **The write section.** -/
theorem writeSection_triple {conformed : ArrowTable} {before : List AdapterEvent}
    (h : w.Conformed t conformed before) :
    Prog.Triple (fun s => Working t s ∧ s.events = before)
      (w.writeSection t (writers t.node.modeType) conformed)
      (fun _ s => Working t s ∧ w.Trace t true s.events) fun _ => w.Failed t := by
  refine Prog.Triple.handle_raise (Prog.Triple.bind (Q := fun _ s => Working t s ∧
    s.events = before ++ [⟨t.ensureCall, none⟩]) (callAdapter_triple ?_ ?_) fun _ => ?_)
  · rintro s reply ⟨hs, hevents⟩ -
    exact ⟨⟨hs.active, hs.printed⟩, by rw [hevents]⟩
  · rintro s e ⟨hs, hevents⟩
    exact ⟨⟨hs.active, hs.printed⟩, by rw [hevents]; exact .ensured h (some e)⟩
  · refine Prog.Triple.bind (Q := fun _ s => Working t s ∧ ∃ shape,
      w.Shaped t (before ++ [⟨t.ensureCall, none⟩]) shape ∧
        s.events = before ++ ⟨t.ensureCall, none⟩ :: shape) ?_ fun _ => ?_
    · cases hmode : t.node.modeType with
      | replace => exact Prog.Triple.pure fun s hs => ⟨hs.1, [], .replace hmode, hs.2⟩
      | append => exact checkShape_triple h (by rw [hmode]; decide)
      | upsert => exact checkShape_triple h (by rw [hmode]; decide)
    · rw [write_eq]
      refine Prog.Triple.bind (Q := fun _ s => Working t s ∧ w.Trace t true s.events)
        (callAdapter_triple ?_ ?_) fun _ => Prog.Triple.pure fun s hs => hs
      · rintro s reply ⟨hs, shape, hshape, hevents⟩ -
        refine ⟨⟨hs.active, hs.printed⟩, ?_⟩
        rw [hevents]
        exact .written h hshape none
      · rintro s e ⟨hs, shape, hshape, hevents⟩
        refine ⟨⟨hs.active, hs.printed⟩, ?_⟩
        rw [hevents]
        exact .written h hshape (some e)

/-- A run whose write has returned. -/
structure Succeeded (w : NodeRun) (t : RunTarget) (s : RunState) : Prop where
  active : s.active = some t.adapter
  printed : ∃ rows, s.printed = [⟨py "success", rows, 0, t.nodeId⟩]
  trace : w.Trace t true s.events

theorem printSuccess_triple {message uniqueId : Str} {P Q : RunState → Prop} {R : Exc → RunState → Prop}
    (h : ∀ s, P s → Q { s with printed := s.printed ++ [⟨py "success", message, 0, uniqueId⟩] }) :
    Prog.Triple P (printBlock (py "success") message 0 uniqueId) (fun _ => Q) R := by
  intro s hs
  rw [printBlock_success]
  refine ⟨fun a s' heq => ?_, fun e s' heq => by cases heq⟩
  cases heq
  exact h s hs

/-- **The `try`**, from the adapter on. -/
theorem work_triple (hprepared : w.prepare = .ok t) :
    Prog.Triple (fun s => Working t s ∧ s.events = []) (w.work t)
      (fun n s => n = 0 ∧ Succeeded w t s) fun _ => w.Failed t := by
  refine Prog.Triple.bind validate_triple fun _ => ?_
  refine Prog.Triple.bind (Q := fun writer s => (writer = writers t.node.modeType ∧
    t.adapter.Supports t.node.modeType) ∧ Working t s ∧ s.events = t.validated)
    (Prog.Triple.lift (fun writer hwriter s hs => ⟨writerFor_eq_ok_iff.1 hwriter, hs⟩) fun e _ s hs => ?_)
    fun writer => ?_
  · refine ⟨hs.1, ?_⟩
    rw [hs.2]
    exact .early early_validated
  by_cases hwriter : writer = writers t.node.modeType ∧ t.adapter.Supports t.node.modeType
  · obtain ⟨rfl, hcapable⟩ := hwriter
    refine Prog.Triple.bind (produce_triple.mono (fun s hs => hs.2) (fun _ _ hs => hs) fun _ _ hs => hs)
      fun table => ?_
    refine Prog.Triple.bind (Q := fun conformed s => Working t s ∧ w.Conformed t conformed s.events)
      (Prog.Triple.lift ?_ ?_) fun conformed => ?_
    · rintro conformed hconformed s ⟨hs, fetches, s₀, hs₀, hevents, hfetches, hproduce⟩
      exact ⟨hs, hprepared, hcapable, fetches, table, s₀, s, hs₀, rfl, hevents, hfetches, hproduce, hconformed⟩
    · rintro e - s ⟨hs, fetches, s₀, hs₀, hevents, hfetches, hproduce⟩
      refine ⟨hs, ?_⟩
      rw [hevents]
      refine .early fun e he => ?_
      exact (List.mem_append.1 he).elim (early_validated e) fun he => .inr (hfetches e he)
    · refine Prog.Triple.bind (Q := fun _ s => Working t s ∧ w.Trace t true s.events) ?_ fun _ => ?_
      · exact fun s hs => writeSection_triple hs.2 s ⟨hs.1, rfl⟩
      · refine Prog.Triple.bind (Q := fun _ => Succeeded w t) (printSuccess_triple ?_) fun _ =>
          Prog.Triple.pure fun s hs => ⟨rfl, hs⟩
        rintro s ⟨hs, htrace⟩
        exact ⟨hs.active, ⟨_, by rw [hs.printed]; rfl⟩, htrace⟩
  · exact fun s hs => absurd hs.1 hwriter

/-! ## Handlers and `finally` -/

/-- What the handlers of `run_node` ask of an exception. -/
def asked (e : Exc) : Except Exc Str := if e.cls.isHarness then e.sentinelMessage else e.format

/-- The handlers of `run_node` make a block of it: it is an `Exception`, and answers
    with a text. -/
def Reportable (e : Exc) : Prop := e.cls.isException = true ∧ ∃ text, asked e = .ok text

theorem isException_of_isHarness {c : ExcClass} (h : c.isHarness = true) : c.isException = true := by
  cases c <;> first | rfl | cases h

theorem report_of_reportable {nodeId : Str} {e : Exc} (h : Reportable e) (s : RunState) : ∃ message,
    report nodeId e s = (.ok 1, { s with printed := s.printed ++ [⟨py "error", message, 1, nodeId⟩] }) := by
  obtain ⟨hexception, text, htext⟩ := h
  have hprint : ∀ message, (do
      printBlock (py "error") message 1 nodeId
      pure 1 : RunProg ℤ) s =
        (.ok 1, { s with printed := s.printed ++ [⟨py "error", message, 1, nodeId⟩] }) := by
    intro message
    have hp := @printBlock_error s message nodeId
    rw [Prog.bind_of_ok hp]
    rfl
  have hlift : Prog.lift (asked e) s = (.ok text, s) := by rw [htext]; rfl
  unfold report
  unfold asked at hlift
  split_ifs at hlift ⊢ with hharness
  · exact ⟨_, (Prog.bind_of_ok hlift).trans (hprint _)⟩
  · exact ⟨_, (Prog.bind_of_ok hlift).trans (hprint _)⟩

theorem report_of_not_reportable {nodeId : Str} {e : Exc} (h : ¬ Reportable e) (s : RunState) :
    ∃ e', report nodeId e s = (.error e', s) := by
  unfold report
  by_cases hexception : e.cls.isException = true
  · cases hasked : asked e with
    | ok text => exact absurd ⟨hexception, text, hasked⟩ h
    | error inner =>
      unfold asked at hasked
      split_ifs at hasked ⊢
      · exact ⟨inner, Prog.bind_of_error (by rw [hasked]; rfl)⟩
      · exact ⟨inner, Prog.bind_of_error (by rw [hasked]; rfl)⟩
  · have hharness : ¬ e.cls.isHarness = true := fun hh => hexception (isException_of_isHarness hh)
    rw [if_neg hharness, if_neg hexception]
    exact ⟨e, rfl⟩

/-- The `finally` closes what was obtained, and swallows an `Exception`. -/
theorem closeAdapter_some {a : Adapter} {s : RunState} (h : s.active = some a) : closeAdapter s =
    match a.answer s.events .close with
    | .ok _ => (.ok (), { s with events := s.events ++ [⟨.close, none⟩] })
    | .error e => (if e.cls.isException then .ok () else .error e,
        { s with events := s.events ++ [⟨.close, some e⟩] }) := by
  unfold closeAdapter Prog.handle callAdapter
  rw [h]
  dsimp only
  cases a.answer s.events .close with
  | ok reply => rfl
  | error e =>
    dsimp only
    split_ifs <;> rfl

/-- What the `finally` leaves. -/
theorem closeAdapter_events {s : RunState} : (closeAdapter s).2.active = s.active ∧
    (closeAdapter s).2.printed = s.printed ∧
    ((s.active = none ∧ (closeAdapter s).2.events = s.events) ∨
      (s.active ≠ none ∧ ∃ raised, (closeAdapter s).2.events = s.events ++ [⟨.close, raised⟩])) := by
  cases h : s.active with
  | none =>
    unfold closeAdapter
    simp [h]
  | some a =>
    rw [closeAdapter_some h]
    split
    · exact ⟨h, rfl, .inr ⟨nofun, none, rfl⟩⟩
    · next e he => exact ⟨h, rfl, .inr ⟨nofun, some e, rfl⟩⟩

theorem report_events {nodeId : Str} {e : Exc} {s : RunState} :
    (report nodeId e s).2.active = s.active ∧ (report nodeId e s).2.events = s.events := by
  by_cases h : Reportable e
  · obtain ⟨message, hreport⟩ := report_of_reportable h s
    rw [hreport]
    exact ⟨rfl, rfl⟩
  · obtain ⟨e', hreport⟩ := report_of_not_reportable h s
    rw [hreport]
    exact ⟨rfl, rfl⟩

/-- The `try` is left by an exception before an adapter is there, or behind it; or
    the write has returned. -/
theorem tryBody_cases (w : NodeRun) :
    (∃ e, w.prepare = .error e ∧ w.tryBody .start = (.error e, .start)) ∨
    ∃ t, w.prepare = .ok t ∧
      ((∃ e s, w.tryBody .start = (.error e, s) ∧ w.Failed t s) ∨
        ∃ s, w.tryBody .start = (.ok 0, s) ∧ Succeeded w t s) := by
  cases hprepare : w.prepare with
  | error e =>
    refine .inl ⟨e, rfl, Prog.bind_of_error ?_⟩
    rw [hprepare]
    rfl
  | ok t =>
    refine .inr ⟨t, rfl, ?_⟩
    have hbody : w.tryBody .start = w.work t ⟨some t.adapter, [], []⟩ := by
      have hlift : Prog.lift w.prepare RunState.start = (.ok t, .start) := by rw [hprepare]; rfl
      have hset : setActive t.adapter .start = (.ok (), ⟨some t.adapter, [], []⟩) := rfl
      unfold tryBody
      rw [Prog.bind_of_ok hlift, Prog.bind_of_ok hset]
    obtain ⟨hok, herror⟩ := work_triple hprepare ⟨some t.adapter, [], []⟩ ⟨⟨rfl, rfl⟩, rfl⟩
    rcases hwork : w.work t ⟨some t.adapter, [], []⟩ with ⟨e | n, s⟩
    · exact .inl ⟨e, s, hbody.trans hwork, herror e s hwork⟩
    · obtain ⟨rfl, hs⟩ := hok n s hwork
      exact .inr ⟨s, hbody.trans hwork, hs⟩

/-- Everything but the `finally`. -/
def handled (w : NodeRun) : Except Exc ℤ × RunState :=
  w.tryBody.handle (report ((w.env (py "NODE_ID")).getD [])) .start

theorem runNode_eq (w : NodeRun) : (w.runNode .start).2 = (closeAdapter w.handled.2).2 := Prog.always_snd

theorem handled_events (w : NodeRun) :
    ((∃ e, w.prepare = .error e) ∧ w.handled.2.active = none ∧ w.handled.2.events = []) ∨
    ∃ t completed, w.prepare = .ok t ∧ w.handled.2.active = some t.adapter ∧ w.Trace t completed w.handled.2.events := by
  unfold handled
  rcases tryBody_cases w with ⟨e, hprepare, htry⟩ | ⟨t, hprepare, ⟨e, s, htry, hs, htrace⟩ | ⟨s, htry, hs⟩⟩
  · rw [Prog.handle_of_error htry, report_events.1, report_events.2]
    exact .inl ⟨⟨e, hprepare⟩, rfl, rfl⟩
  · rw [Prog.handle_of_error htry, report_events.1, report_events.2]
    exact .inr ⟨t, false, hprepare, hs.active, htrace⟩
  · rw [Prog.handle_of_ok htry]
    exact .inr ⟨t, true, hprepare, hs.active, hs.trace⟩

/-- **The calls of a run**: none, or those of the `try` and `close`. -/
theorem runNode_events (w : NodeRun) :
    ((∃ e, w.prepare = .error e) ∧ (w.runNode .start).2.events = []) ∨
    ∃ t completed body raised, w.prepare = .ok t ∧ w.Trace t completed body ∧
      (w.runNode .start).2.events = body ++ [⟨.close, raised⟩] := by
  obtain ⟨-, -, hclose⟩ := @closeAdapter_events w.handled.2
  rw [runNode_eq]
  rcases handled_events w with ⟨hprepare, hactive, hevents⟩ | ⟨t, completed, hprepare, hactive, htrace⟩
  · rcases hclose with ⟨-, hsame⟩ | ⟨hnone, -⟩
    · exact .inl ⟨hprepare, hsame.trans hevents⟩
    · exact absurd hactive hnone
  · rcases hclose with ⟨hnone, -⟩ | ⟨-, raised, hnew⟩
    · rw [hactive] at hnone
      cases hnone
    · exact .inr ⟨t, completed, _, raised, hprepare, htrace, hnew⟩

/-! ## The gates -/

theorem Conformed.early {conformed : ArrowTable} {events : List AdapterEvent}
    (h : w.Conformed t conformed events) : ∀ e ∈ events, t.Early e := by
  obtain ⟨fetches, table, s, s', -, -, rfl, hfetches, -, -⟩ := h.produced
  exact fun e he => (List.mem_append.1 he).elim (early_validated e) fun he => .inr (hfetches e he)

theorem Shaped.mem {before shape : List AdapterEvent} (h : w.Shaped t before shape) :
    ∀ e ∈ shape, e.call = t.shapeCall := by
  cases h with
  | replace => exact fun e he => by cases he
  | same => exact fun e he => by rw [List.mem_singleton.1 he]

theorem writeCall_kinds {conformed : ArrowTable} : (t.writeCall conformed).isWrite = true ∧
    (t.writeCall conformed).isEnsureTable = false ∧ t.writeCall conformed ≠ .close := by
  unfold RunTarget.writeCall
  cases t.node.modeType <;> exact ⟨rfl, rfl, nofun⟩

/-- Every call of the `try` is an early one, `ensure_table`, the shape check, or the
    write. -/
theorem Trace.mem {completed : Bool} {events : List AdapterEvent} (h : w.Trace t completed events) :
    ∀ e ∈ events, t.Early e ∨ e.call = t.ensureCall ∨ e.call = t.shapeCall ∨
      ∃ conformed, e.call = t.writeCall conformed := by
  intro e he
  cases h with
  | early hearly => exact .inl (hearly e he)
  | ensured h =>
    rcases List.mem_append.1 he with he | he
    · exact .inl (h.early e he)
    · exact .inr (.inl (by rw [List.mem_singleton.1 he]))
  | shaped h =>
    simp only [List.mem_append, List.mem_cons, List.not_mem_nil, or_false] at he
    rcases he with he | rfl | rfl
    · exact .inl (h.early e he)
    · exact .inr (.inl rfl)
    · exact .inr (.inr (.inl rfl))
  | written h hshape =>
    simp only [List.mem_append, List.mem_cons, List.not_mem_nil, or_false] at he
    rcases he with (he | rfl | he) | rfl
    · exact .inl (h.early e he)
    · exact .inr (.inl rfl)
    · exact .inr (.inr (.inl (hshape.mem e he)))
    · exact .inr (.inr (.inr ⟨_, rfl⟩))

theorem Trace.no_close {completed : Bool} {events : List AdapterEvent} (h : w.Trace t completed events) :
    ∀ e ∈ events, e.call ≠ .close := by
  intro e he
  rcases h.mem e he with h | h | h | ⟨conformed, h⟩
  · exact h.kinds.2.2
  · rw [h]
    exact nofun
  · rw [h]
    exact nofun
  · rw [h]
    exact writeCall_kinds.2.2

/-- **`ensure_table`** comes behind `conform`. -/
theorem Trace.ensure {completed : Bool} {events back before after : List AdapterEvent} {e : AdapterEvent}
    (h : w.Trace t completed events) (hback : ∀ e ∈ back, e.call.isEnsureTable = false)
    (hsplit : events ++ back = before ++ e :: after) (he : e.call.isEnsureTable = true) :
    ∃ conformed, w.Conformed t conformed before ∧ e.call = t.ensureCall := by
  have hearly : ∀ {events : List AdapterEvent}, (∀ e ∈ events, t.Early e) → e ∉ events := fun h hmem => by
    rw [(h e hmem).kinds.2.1] at he
    cases he
  have hlate : ∀ {events : List AdapterEvent}, (∀ e ∈ events, e.call.isEnsureTable = false) → e ∉ events :=
    fun h hmem => by
      rw [h e hmem] at he
      cases he
  cases h with
  | early hevents =>
    have hmem : e ∈ events ++ back := hsplit ▸ List.mem_append_right _ List.mem_cons_self
    exact absurd hmem (by simp [hearly hevents, hlate hback])
  | ensured h =>
    rw [List.append_assoc, List.singleton_append] at hsplit
    obtain ⟨rfl, rfl, -⟩ := (List.append_cons_inj_of_notMem (hearly h.early) (hlate hback)).1 hsplit
    exact ⟨_, h, rfl⟩
  | shaped h raised =>
    rw [List.append_assoc, List.cons_append] at hsplit
    have hrest : ∀ e ∈ [⟨t.shapeCall, raised⟩] ++ back, e.call.isEnsureTable = false := by
      rw [List.singleton_append, List.forall_mem_cons]
      exact ⟨rfl, hback⟩
    obtain ⟨rfl, rfl, -⟩ := (List.append_cons_inj_of_notMem (hearly h.early) (hlate hrest)).1 hsplit
    exact ⟨_, h, rfl⟩
  | @written conformed before' shape h hshape raised =>
    rw [List.append_assoc, List.append_assoc, List.cons_append] at hsplit
    have hrest : ∀ e ∈ shape ++ ([⟨t.writeCall conformed, raised⟩] ++ back), e.call.isEnsureTable = false := by
      intro e he
      rcases List.mem_append.1 he with he | he
      · rw [hshape.mem e he]
        rfl
      rcases List.mem_append.1 he with he | he
      · rw [List.mem_singleton.1 he]
        exact writeCall_kinds.2.1
      · exact hback e he
    obtain ⟨rfl, rfl, -⟩ := (List.append_cons_inj_of_notMem (hearly h.early) (hlate hrest)).1 hsplit
    exact ⟨_, h, rfl⟩

/-- **A write** comes behind `ensure_table` and the shape check, and is the only one. -/
theorem Trace.write {completed : Bool} {events back before after : List AdapterEvent} {e : AdapterEvent}
    (h : w.Trace t completed events) (hback : ∀ e ∈ back, e.call.isWrite = false)
    (hsplit : events ++ back = before ++ e :: after) (he : e.call.isWrite = true) :
    ∃ conformed prior shape, w.Conformed t conformed prior ∧
      w.Shaped t (prior ++ [⟨t.ensureCall, none⟩]) shape ∧ before = prior ++ ⟨t.ensureCall, none⟩ :: shape ∧
      e.call = t.writeCall conformed ∧ ∀ e' ∈ before ++ after, e'.call.isWrite = false := by
  have hnone : ∀ {events : List AdapterEvent}, (∀ e ∈ events, e.call.isWrite = false) → e ∉ events :=
    fun h hmem => by
      rw [h e hmem] at he
      cases he
  have hmem : e ∈ events ++ back := hsplit ▸ List.mem_append_right _ List.mem_cons_self
  have hevents : e ∈ events := (List.mem_append.1 hmem).resolve_right (hnone hback)
  cases h with
  | early hearly => exact absurd hevents (hnone fun e he => (hearly e he).kinds.1)
  | ensured h =>
    rcases List.mem_append.1 hevents with hmem | hmem
    · exact absurd hmem (hnone fun e he => (h.early e he).kinds.1)
    · rw [List.mem_singleton.1 hmem] at he
      cases he
  | shaped h =>
    simp only [List.mem_append, List.mem_cons, List.not_mem_nil, or_false] at hevents
    rcases hevents with hmem | rfl | rfl
    · exact absurd hmem (hnone fun e he => (h.early e he).kinds.1)
    · cases he
    · cases he
  | @written conformed prior shape h hshape raised =>
    have hfront : ∀ e ∈ prior ++ ⟨t.ensureCall, none⟩ :: shape, e.call.isWrite = false := by
      intro e he
      rcases List.mem_append.1 he with he | he
      · exact (h.early e he).kinds.1
      rcases List.mem_cons.1 he with rfl | he
      · rfl
      · rw [hshape.mem e he]
        rfl
    rw [List.append_assoc, List.singleton_append] at hsplit
    obtain ⟨rfl, rfl, rfl⟩ := (List.append_cons_inj_of_notMem (hnone hfront) (hnone hback)).1 hsplit
    refine ⟨conformed, prior, shape, h, hshape, rfl, rfl, fun e' he' => ?_⟩
    exact (List.mem_append.1 he').elim (hfront e') (hback e')

end NodeRun

open NodeRun

/-- **The gates of a run**, whatever the environment, the contract, the script and the
    adapter do: `ensure_table` comes behind `conform`; a write comes behind the config
    check, the capability check, the producer, `conform`, `ensure_table` and, unless it is
    a replace, a shape check without a difference, it is the one that the node's mode
    selects, with the conformed table and the declared key, and there is no other; and an
    adapter that was obtained is closed once, at the end. -/
theorem runNode_gated (w : NodeRun) :
    (∀ before e after, (w.runNode .start).2.events = before ++ e :: after → e.call.isEnsureTable = true →
      ∃ t conformed, w.Conformed t conformed before ∧ e.call = t.ensureCall) ∧
    (∀ before e after, (w.runNode .start).2.events = before ++ e :: after → e.call.isWrite = true →
      ∃ t conformed prior shape, w.Conformed t conformed prior ∧
        w.Shaped t (prior ++ [⟨t.ensureCall, none⟩]) shape ∧ before = prior ++ ⟨t.ensureCall, none⟩ :: shape ∧
        e.call = t.writeCall conformed ∧ ∀ e' ∈ before ++ after, e'.call.isWrite = false) ∧
    ((∃ t, w.prepare = .ok t) → ∃ body raised, (w.runNode .start).2.events = body ++ [⟨.close, raised⟩] ∧
      ∀ e ∈ body, e.call ≠ .close) ∧
    ((∃ e, w.prepare = .error e) → (w.runNode .start).2.events = []) := by
  rcases runNode_events w with ⟨⟨e, hprepare⟩, hevents⟩ | ⟨t, completed, body, raised, hprepare, htrace, hevents⟩
  · rw [hevents]
    refine ⟨?_, ?_, ?_, fun _ => rfl⟩
    · intro before e after hsplit
      cases before <;> cases hsplit
    · intro before e after hsplit
      cases before <;> cases hsplit
    · rintro ⟨t, ht⟩
      rw [hprepare] at ht
      cases ht
  · rw [hevents]
    refine ⟨fun before e after hsplit he => ?_, fun before e after hsplit he => ?_, fun _ => ?_, ?_⟩
    · obtain ⟨conformed, h⟩ := htrace.ensure (fun e he => by rw [List.mem_singleton.1 he]; rfl) hsplit he
      exact ⟨t, conformed, h⟩
    · obtain ⟨conformed, prior, shape, h⟩ :=
        htrace.write (fun e he => by rw [List.mem_singleton.1 he]; rfl) hsplit he
      exact ⟨t, conformed, prior, shape, h⟩
    · exact ⟨body, raised, rfl, htrace.no_close⟩
    · rintro ⟨e, he⟩
      rw [hprepare] at he
      cases he

end ContinuoRuntime
