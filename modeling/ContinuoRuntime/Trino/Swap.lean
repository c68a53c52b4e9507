/-
  `load` of the Trino adapter: the swap never loses data.

  Once the stage is full, the target goes to a private name, the stage takes its place,
  and the old rows are dropped; a failed second rename is followed by an attempt to undo
  the first.

  * `SafeTables`: the prior rows are under the target or the old name, or the target has
    the new rows;
  * `Left`: what is known when an exception is on its way to the `finally`;
  * `load_swap`: **every moment of every run is safe**, and what a run leaves.
-/
import ContinuoRuntime.Trino.Stage

namespace ContinuoRuntime

/-! ## Safety -/

/-- The tables that `load` has to do with, and their rows. -/
structure Swap where
  base : TrinoTables
  table : Str
  stage : Str
  old : Str
  prior : List TableRow
  new : List TableRow
  target : base table = some prior
  freshStage : base stage = none
  freshOld : base old = none
  apart : stage ≠ old

/-- **No data is lost**, and no other table is changed. -/
structure SafeTables (w : Swap) (tables : TrinoTables) : Prop where
  kept : tables w.table = some w.prior ∨ tables w.old = some w.prior ∨ tables w.table = some w.new
  others : ∀ name, name ≠ w.table → name ≠ w.stage → name ≠ w.old → tables name = w.base name

/-- The statement was sent, and has raised. -/
def Failed (stmt : TrinoStatement) (events : List TrinoEvent) : Prop := ∃ ev ∈ events, ev.stmt = stmt ∧ ev.raised ≠ none

/-- The statement was sent, and has returned. -/
def Returned (stmt : TrinoStatement) (events : List TrinoEvent) : Prop := ∃ ev ∈ events, ev.stmt = stmt ∧ ev.raised = none

namespace Swap

theorem table_ne_stage (w : Swap) : w.table ≠ w.stage := fun h => by
  have hbound := w.freshStage
  rw [← h, w.target] at hbound
  cases hbound

theorem table_ne_old (w : Swap) : w.table ≠ w.old := fun h => by
  have hbound := w.freshOld
  rw [← h, w.target] at hbound
  cases hbound

/-- What is under the three names. -/
structure Holds (w : Swap) (table stage old : Option (List TableRow)) (tables : TrinoTables) : Prop where
  table : tables w.table = table
  stage : tables w.stage = stage
  old : tables w.old = old
  others : ∀ name, name ≠ w.table → name ≠ w.stage → name ≠ w.old → tables name = w.base name

variable {w : Swap} {tables tables' : TrinoTables} {eq : ArrowValue → ArrowValue → Bool}

/-- The three names are renamed and dropped as such. -/
theorem Holds.move {t st o : Option (List TableRow)} (h : w.Holds t st o tables) {t' st' o' : Option (List TableRow)}
    (ht : tables' w.table = t') (hst : tables' w.stage = st') (ho : tables' w.old = o')
    (hothers : ∀ name, name ≠ w.table → name ≠ w.stage → name ≠ w.old → tables' name = tables name) :
    w.Holds t' st' o' tables' :=
  ⟨ht, hst, ho, fun name ht hst ho => (hothers name ht hst ho).trans (h.others name ht hst ho)⟩

theorem rename_apply {a b : Str} (h : (TrinoStatement.rename a b).apply eq tables = some tables') :
    ∃ rows, tables a = some rows ∧ tables b = none ∧ a ≠ b ∧ tables' b = some rows ∧ tables' a = none ∧
      ∀ name, name ≠ a → name ≠ b → tables' name = tables name := by
  rw [TrinoStatement.apply] at h
  split_ifs at h with hb
  obtain ⟨rows, hrows, rfl⟩ := Option.map_eq_some_iff.1 h
  have hb' : tables b = none := by simpa using hb
  have hab : a ≠ b := by
    rintro rfl
    rw [hrows] at hb'
    cases hb'
  refine ⟨rows, hrows, hb', hab, Function.update_self .., ?_, fun name ha hb => ?_⟩
  · rw [Function.update_of_ne hab, Function.update_self]
  · rw [Function.update_of_ne hb, Function.update_of_ne ha]

theorem rename_refused {a b : Str} (h : (TrinoStatement.rename a b).apply eq tables = none) :
    tables a = none ∨ tables b ≠ none := by
  rw [TrinoStatement.apply] at h
  split_ifs at h with hb
  · exact .inr (Option.isSome_iff_ne_none.1 hb)
  · exact .inl (Option.map_eq_none_iff.1 h)

theorem drop_apply {a : Str} (h : (TrinoStatement.drop a).apply eq tables = some tables') :
    tables' a = none ∧ ∀ name, name ≠ a → tables' name = tables name := by
  rw [TrinoStatement.apply] at h
  obtain ⟨rows, -, rfl⟩ := Option.map_eq_some_iff.1 h
  exact ⟨Function.update_self .., fun name hname => Function.update_of_ne hname _ _⟩

/-- The target goes to the old name. -/
theorem Holds.away {st : Option (List TableRow)} (h : w.Holds (some w.prior) st none tables)
    (happly : (TrinoStatement.rename w.table w.old).apply eq tables = some tables') :
    w.Holds none st (some w.prior) tables' := by
  obtain ⟨rows, hrows, -, -, hold, htable, hothers⟩ := rename_apply happly
  rw [h.table] at hrows
  refine h.move htable ?_ (hold.trans hrows.symm) fun name ht _ ho => hothers name ht ho
  rw [hothers _ w.table_ne_stage.symm w.apart]
  exact h.stage

/-- The stage takes the place of the target. -/
theorem Holds.swapped {o : Option (List TableRow)} (h : w.Holds none (some w.new) o tables)
    (happly : (TrinoStatement.rename w.stage w.table).apply eq tables = some tables') :
    w.Holds (some w.new) none o tables' := by
  obtain ⟨rows, hrows, -, -, htable, hstage, hothers⟩ := rename_apply happly
  rw [h.stage] at hrows
  refine h.move (htable.trans hrows.symm) hstage ?_ fun name ht hst _ => hothers name hst ht
  rw [hothers _ w.apart.symm w.table_ne_old.symm]
  exact h.old

/-- The old rows come back. -/
theorem Holds.recovered {st : Option (List TableRow)} (h : w.Holds none st (some w.prior) tables)
    (happly : (TrinoStatement.rename w.old w.table).apply eq tables = some tables') :
    w.Holds (some w.prior) st none tables' := by
  obtain ⟨rows, hrows, -, -, htable, hold, hothers⟩ := rename_apply happly
  rw [h.old] at hrows
  refine h.move (htable.trans hrows.symm) ?_ hold fun name ht _ ho => hothers name ho ht
  rw [hothers _ w.apart w.table_ne_stage.symm]
  exact h.stage

/-- The old rows are dropped. -/
theorem Holds.dropped {t st o : Option (List TableRow)} (h : w.Holds t st o tables)
    (happly : (TrinoStatement.drop w.old).apply eq tables = some tables') : w.Holds t st none tables' := by
  obtain ⟨hold, hothers⟩ := drop_apply happly
  refine h.move ?_ ?_ hold fun name _ _ ho => hothers name ho
  · rw [hothers _ w.table_ne_old, h.table]
  · rw [hothers _ w.apart, h.stage]

theorem Holds.safe {t st o : Option (List TableRow)} (h : w.Holds t st o tables)
    (hkept : t = some w.prior ∨ o = some w.prior ∨ t = some w.new) : SafeTables w tables := by
  refine ⟨?_, h.others⟩
  rw [h.table, h.old]
  exact hkept

end Swap

/-! ## What an exception leaves -/

/-- The statements so far, and the tables that they leave. -/
structure Left (w : Swap) (s : TrinoSession) : Prop where
  moments : ∀ ev ∈ s.events, SafeTables w ev.after
  current : SafeTables w s.tables
  /-- the target is unbound only if both renames onto it have failed -/
  unbound : NoneTookEffect s.events → s.tables w.table = none →
    Failed (.rename w.stage w.table) s.events ∧ Failed (.rename w.old w.table) s.events
  /-- the prior rows stay until the first rename has returned -/
  prior : NoneTookEffect s.events → ¬ Returned (.rename w.table w.old) s.events → s.tables w.table = some w.prior

/-- The stage is dropped in the `finally`, or there is none. -/
def StageKnown (w : Swap) (s : TrinoSession) : Prop :=
  s.stageRef = some w.stage ∨ (s.stageRef = none ∧ (NoneTookEffect s.events → s.tables w.stage = none))

section
variable {w : Swap} {server : TrinoServer}

theorem NoneTookEffect.of_append {events : List TrinoEvent} {ev : TrinoEvent} (h : NoneTookEffect (events ++ [ev])) :
    NoneTookEffect events := fun ev' hev => h ev' (List.mem_append_left _ hev)

theorem Failed.append {stmt : TrinoStatement} {events : List TrinoEvent} {ev : TrinoEvent} (h : Failed stmt events) :
    Failed stmt (events ++ [ev]) := by
  obtain ⟨ev', hev, hfailed⟩ := h
  exact ⟨ev', List.mem_append_left _ hev, hfailed⟩

theorem Returned.append {stmt : TrinoStatement} {events : List TrinoEvent} {ev : TrinoEvent}
    (h : Returned stmt events) : Returned stmt (events ++ [ev]) := by
  obtain ⟨ev', hev, hreturned⟩ := h
  exact ⟨ev', List.mem_append_left _ hev, hreturned⟩

theorem failed_log {s : TrinoSession} {ev : TrinoEvent} (h : ev.raised ≠ none) : Failed ev.stmt (s.log ev).events :=
  ⟨ev, List.mem_append_right _ List.mem_cons_self, rfl, h⟩

theorem moments_log {s : TrinoSession} {ev : TrinoEvent} (h : ∀ ev ∈ s.events, SafeTables w ev.after)
    (hafter : SafeTables w ev.after) : ∀ ev' ∈ (s.log ev).events, SafeTables w ev'.after := fun ev' hev =>
  (List.mem_append.1 hev).elim (h ev') fun hev => List.mem_singleton.1 hev ▸ hafter

/-- While the stage is filled, the target is what it was. -/
theorem Staging.left {ref : Option Str} {s : TrinoSession} (h : Staging w.base w.stage ref s) : Left w s := by
  have hsafe : ∀ tables : TrinoTables, (∀ name, name ≠ w.stage → tables name = w.base name) → SafeTables w tables :=
    fun tables htables => ⟨.inl ((htables _ w.table_ne_stage).trans w.target), fun name _ hst _ => htables name hst⟩
  have htable : s.tables w.table = some w.prior := (h.tables _ w.table_ne_stage).trans w.target
  refine ⟨fun ev hev => hsafe _ (h.moments ev hev), hsafe _ h.tables, fun _ hnone => ?_, fun _ _ => htable⟩
  rw [htable] at hnone
  cases hnone

/-- The drop of the stage changes none of it. -/
theorem Left.log_drop {s : TrinoSession} (h : Left w s) {ev : TrinoEvent}
    (hafter : ∀ name, name ≠ w.stage → ev.after name = s.tables name) : Left w (s.log ev) := by
  have hsafe : SafeTables w ev.after := by
    refine ⟨?_, fun name ht hst ho => (hafter name hst).trans (h.current.others name ht hst ho)⟩
    rw [hafter _ w.table_ne_stage, hafter _ w.apart.symm]
    exact h.current.kept
  have htable : (s.log ev).tables w.table = s.tables w.table := hafter _ w.table_ne_stage
  refine ⟨moments_log h.moments hsafe, hsafe, fun hquiet hnone => ?_, fun hquiet hnot => ?_⟩
  · rw [htable] at hnone
    obtain ⟨hswap, hrecover⟩ := h.unbound hquiet.of_append hnone
    exact ⟨hswap.append, hrecover.append⟩
  · rw [htable]
    exact h.prior hquiet.of_append fun hreturned => hnot hreturned.append

/-! ## The swap -/

/-- Between the statements of the swap. -/
structure Swapping (w : Swap) (table stage old : Option (List TableRow)) (ref : Option Str) (s : TrinoSession) :
    Prop where
  moments : ∀ ev ∈ s.events, SafeTables w ev.after
  holds : w.Holds table stage old s.tables
  ref : s.stageRef = ref

theorem Staged.holds {ref : Option Str} {content : Option (List TableRow)} {s : TrinoSession}
    (h : Staged w.base w.stage ref content s) : w.Holds (some w.prior) content none s.tables :=
  ⟨(h.tables _ w.table_ne_stage).trans w.target, h.content, (h.tables _ w.apart.symm).trans w.freshOld,
    fun name _ hst _ => h.tables name hst⟩

/-- The first rename. -/
theorem rename_triple : Prog.Triple (Staged w.base w.stage (some w.stage) (some w.new))
    (executeTrino server (.rename w.table w.old))
    (fun _ s => Swapping w none (some w.new) (some w.prior) (some w.stage) s ∧
      Returned (.rename w.table w.old) s.events)
    fun _ s => Left w s ∧ s.stageRef = some w.stage := by
  refine executeTrino_triple (fun s hs happly => ?_) (fun s tables hs happly => ?_)
    fun s tables hs happly e took _ => ?_
  · rcases Swap.rename_refused happly with h | h
    · cases hs.holds.table.symm.trans h
    · exact absurd hs.holds.old h
  · have hholds := hs.holds.away happly
    refine ⟨⟨moments_log hs.toStaging.left.moments (hholds.safe (.inr (.inl rfl))), hholds, hs.ref⟩, ?_⟩
    exact ⟨_, List.mem_append_right _ List.mem_cons_self, rfl, rfl⟩
  · refine ⟨?_, hs.ref⟩
    cases took with
    | true =>
      have hsafe := (hs.holds.away happly).safe (.inr (.inl rfl))
      have htook : ∀ {p : Prop}, NoneTookEffect (s.events ++ [⟨.rename w.table w.old, some e, true, tables⟩]) → p :=
        fun hquiet => by cases hquiet _ (List.mem_append_right _ List.mem_cons_self) nofun
      exact ⟨moments_log hs.toStaging.left.moments hsafe, hsafe, htook, htook⟩
    | false =>
      have hsafe := hs.toStaging.left.current
      refine ⟨moments_log hs.toStaging.left.moments hsafe, hsafe, fun _ hnone => ?_, fun _ _ => hs.holds.table⟩
      cases hs.holds.table.symm.trans hnone

/-- Behind a second rename that has raised: without effect, or not. -/
structure SwapFailed (w : Swap) (s : TrinoSession) : Prop where
  moments : ∀ ev ∈ s.events, SafeTables w ev.after
  ref : s.stageRef = some w.stage
  returned : Returned (.rename w.table w.old) s.events
  failed : Failed (.rename w.stage w.table) s.events
  holds : w.Holds none (some w.new) (some w.prior) s.tables ∨
    (w.Holds (some w.new) none (some w.prior) s.tables ∧ ¬ NoneTookEffect s.events)

theorem swapIn_rename_triple : Prog.Triple
    (fun s => Swapping w none (some w.new) (some w.prior) (some w.stage) s ∧ Returned (.rename w.table w.old) s.events)
    (executeTrino server (.rename w.stage w.table))
    (fun _ s => Swapping w (some w.new) none (some w.prior) (some w.stage) s ∧
      Returned (.rename w.table w.old) s.events)
    fun e s => e.cls.isException = true ∧ SwapFailed w s := by
  refine executeTrino_triple ?_ ?_ ?_
  · rintro s ⟨hs, -⟩ happly
    rcases Swap.rename_refused happly with h | h
    · cases hs.holds.stage.symm.trans h
    · exact absurd hs.holds.table h
  · rintro s tables ⟨hs, hreturned⟩ happly
    have hholds := hs.holds.swapped happly
    exact ⟨⟨moments_log hs.moments (hholds.safe (.inr (.inl rfl))), hholds, hs.ref⟩, hreturned.append⟩
  · rintro s tables ⟨hs, hreturned⟩ happly e took hexception
    have hfailed : Failed (.rename w.stage w.table) (s.events ++
        [⟨.rename w.stage w.table, some e, took, if took then tables else s.tables⟩]) :=
      ⟨_, List.mem_append_right _ List.mem_cons_self, rfl, nofun⟩
    cases took with
    | true =>
      have hholds := hs.holds.swapped happly
      refine ⟨hexception, moments_log hs.moments (hholds.safe (.inr (.inl rfl))), hs.ref, hreturned.append, hfailed,
        .inr ⟨hholds, fun hquiet => ?_⟩⟩
      cases hquiet _ (List.mem_append_right _ List.mem_cons_self) nofun
    | false =>
      exact ⟨hexception, moments_log hs.moments (hs.holds.safe (.inr (.inl rfl))), hs.ref, hreturned.append, hfailed,
        .inl hs.holds⟩

/-- **The recovery**, whether it returns or raises. -/
theorem recovery_triple : Prog.Triple (SwapFailed w) (executeTrino server (.rename w.old w.table))
    (fun _ s => Left w s ∧ s.stageRef = some w.stage)
    fun e s => e.cls.isException = true ∧ Left w s ∧ s.stageRef = some w.stage := by
  refine executeTrino_triple (fun s hs happly e he => ?_) (fun s tables hs happly => ?_)
    fun s tables hs happly e took he => ?_
  · refine ⟨he, ?_, hs.ref⟩
    rcases hs.holds with hholds | ⟨hholds, hnot⟩
    · rcases Swap.rename_refused happly with h | h
      · cases hholds.old.symm.trans h
      · exact absurd hholds.table h
    · have hsafe := hholds.safe (.inr (.inl rfl))
      exact ⟨moments_log hs.moments hsafe, hsafe, fun hquiet => absurd hquiet.of_append hnot,
        fun hquiet => absurd hquiet.of_append hnot⟩
  · refine ⟨?_, hs.ref⟩
    rcases hs.holds with hholds | ⟨hholds, -⟩
    · have hholds := hholds.recovered happly
      have hsafe := hholds.safe (.inl rfl)
      refine ⟨moments_log hs.moments hsafe, hsafe, fun _ hnone => ?_, fun _ hnot => absurd hs.returned.append hnot⟩
      cases hholds.table.symm.trans hnone
    · obtain ⟨-, -, hnone, -⟩ := Swap.rename_apply happly
      cases hholds.table.symm.trans hnone
  · refine ⟨he, ?_, hs.ref⟩
    rcases hs.holds with hholds | ⟨hholds, -⟩
    · cases took with
      | true =>
        have hholds := hholds.recovered happly
        have hsafe := hholds.safe (.inl rfl)
        refine ⟨moments_log hs.moments hsafe, hsafe, fun _ hnone => ?_, fun _ hnot => absurd hs.returned.append hnot⟩
        cases hholds.table.symm.trans hnone
      | false =>
        have hsafe := hholds.safe (.inr (.inl rfl))
        refine ⟨moments_log hs.moments hsafe, hsafe, fun _ _ => ⟨hs.failed.append, ?_⟩,
          fun _ hnot => absurd hs.returned.append hnot⟩
        exact ⟨_, List.mem_append_right _ List.mem_cons_self, rfl, nofun⟩
    · obtain ⟨-, -, hnone, -⟩ := Swap.rename_apply happly
      cases hholds.table.symm.trans hnone

/-- The target has the new rows, and nothing else is left. -/
structure Swapped (w : Swap) (s : TrinoSession) : Prop where
  moments : ∀ ev ∈ s.events, SafeTables w ev.after
  holds : w.Holds (some w.new) none none s.tables
  ref : s.stageRef = none

/-- **The swap.** -/
theorem swapIn_triple : Prog.Triple
    (fun s => Swapping w none (some w.new) (some w.prior) (some w.stage) s ∧ Returned (.rename w.table w.old) s.events)
    (swapIn server w.table w.stage w.old) (fun _ => Swapped w) fun _ s => Left w s ∧ StageKnown w s := by
  refine Prog.Triple.bind (Q := fun _ s => Swapping w (some w.new) none (some w.prior) (some w.stage) s ∧
    Returned (.rename w.table w.old) s.events) ?_ fun _ => ?_
  · refine Prog.Triple.handle swapIn_rename_triple fun e => ?_
    by_cases hexception : e.cls.isException = true
    · rw [if_pos hexception]
      refine Prog.Triple.bind (Q := fun _ s => Left w s ∧ s.stageRef = some w.stage) ?_ fun _ =>
        Prog.Triple.raise fun s hs => ⟨hs.1, .inl hs.2⟩
      refine Prog.Triple.handle (recovery_triple.mono (fun s hs => hs.2) (fun _ _ hs => hs) fun _ _ hs => hs) fun e' => ?_
      by_cases hexception' : e'.cls.isException = true
      · rw [if_pos hexception']
        exact Prog.Triple.pure fun s hs => hs.2
      · exact fun s hs => absurd hs.1 hexception'
    · exact fun s hs => absurd hs.1 hexception
  refine Prog.Triple.bind (Q := fun _ s => Swapping w (some w.new) none (some w.prior) none s ∧
    Returned (.rename w.table w.old) s.events) ?_ fun _ => ?_
  · intro s hs
    refine ⟨fun a s' h => ?_, fun e s' h => (by cases h)⟩
    cases h
    exact ⟨⟨hs.1.moments, hs.1.holds, rfl⟩, hs.2⟩
  refine executeTrino_triple ?_ ?_ ?_
  · rintro s ⟨hs, hreturned⟩ - e -
    have hsafe := hs.holds.safe (.inr (.inl rfl))
    refine ⟨⟨moments_log hs.moments hsafe, hsafe, fun _ hnone => ?_, fun _ hnot => absurd hreturned.append hnot⟩,
      .inr ⟨hs.ref, fun _ => hs.holds.stage⟩⟩
    cases hs.holds.table.symm.trans hnone
  · rintro s tables ⟨hs, -⟩ happly
    have hholds := hs.holds.dropped happly
    exact ⟨moments_log hs.moments (hholds.safe (.inr (.inr rfl))), hholds, hs.ref⟩
  · rintro s tables ⟨hs, hreturned⟩ happly e took -
    have hholds : ∃ o, w.Holds (some w.new) none o (if took then tables else s.tables) := by
      cases took with
      | true => exact ⟨none, hs.holds.dropped happly⟩
      | false => exact ⟨_, hs.holds⟩
    obtain ⟨o, hholds⟩ := hholds
    have hsafe := hholds.safe (.inr (.inr rfl))
    refine ⟨⟨moments_log hs.moments hsafe, hsafe, fun _ hnone => ?_, fun _ hnot => absurd hreturned.append hnot⟩,
      .inr ⟨hs.ref, fun _ => hholds.stage⟩⟩
    cases hholds.table.symm.trans hnone

/-! ## Whole runs -/

/-- What an exception leaves in the end. -/
structure Ended (w : Swap) (s : TrinoSession) : Prop extends Left w s where
  stage : NoneTookEffect s.events → s.tables w.stage ≠ none → Failed (.drop w.stage) s.events

theorem Left.ended {s : TrinoSession} (h : Left w s) (hstage : NoneTookEffect s.events → s.tables w.stage = none) :
    Ended w s := ⟨h, fun hquiet hne => absurd (hstage hquiet) hne⟩

/-- The `finally`. -/
theorem finally_triple : Prog.Triple (fun s => Left w s ∧ StageKnown w s)
    (fun s => match s.stageRef with
      | some stage => dropStage server stage s
      | none => (.ok (), s) : TrinoProg Unit)
    (fun _ s => Ended w s) fun _ s => Ended w s := by
  rintro s ⟨hleft, href | ⟨href, hstage⟩⟩
  · obtain ⟨ev, hdrop, hstmt, hafter, hgone⟩ := dropStage_cases server w.stage s
    have hfinally : (match s.stageRef with
        | some stage => dropStage server stage s
        | none => (.ok (), s)) = (.ok (), s.log ev) := by rw [href]; exact hdrop
    refine ⟨fun a s' h => ?_, fun e s' h => ?_⟩
    · cases hfinally.symm.trans h
      refine ⟨hleft.log_drop hafter, fun _ hne => ?_⟩
      rw [← hstmt]
      exact failed_log (hgone.resolve_left hne)
    · cases hfinally.symm.trans h
  · have hfinally : (match s.stageRef with
        | some stage => dropStage server stage s
        | none => (.ok (), s)) = (.ok (), s) := by rw [href]
    refine ⟨fun a s' h => ?_, fun e s' h => ?_⟩
    · cases hfinally.symm.trans h
      exact hleft.ended hstage
    · cases hfinally.symm.trans h

theorem stage_ne_old (token : Str) : stagePrefix ++ token ≠ oldName token := fun h => by
  have hlength := congrArg List.length h
  simp only [oldName, List.length_append, Nat.add_right_cancel_iff] at hlength
  revert hlength
  decide

theorem fresh_start {tables : TrinoTables} {stage : Str} (h : tables stage = none) :
    Fresh tables stage none (.start tables) := ⟨rfl, rfl, h, rfl⟩

theorem setStageRef_triple {ref ref' : Option Str} {content : Option (List TableRow)}
    {R : Exc → TrinoSession → Prop} : Prog.Triple (Staged w.base w.stage ref content) (setStageRef ref')
      (fun _ => Staged w.base w.stage ref' content) R := by
  intro s hs
  refine ⟨fun a s' h => ?_, fun e s' h => (by cases h)⟩
  cases h
  exact { hs with ref := rfl }

/-- **`load`**, from fresh names on. -/
theorem load_triple' {catalog schema token : Str} {data : ArrowTable} (hstage : w.stage = stagePrefix ++ token)
    (hold : w.old = oldName token) (hnew : w.new = data.toPylist) :
    Prog.Triple (Fresh w.base w.stage none) (loadTrino server catalog schema w.table token data)
      (fun _ => Swapped w) fun _ => Ended w := by
  have hended : ∀ e s, Unstaged w.base w.stage none e s → Ended w s := fun _ s hs => hs.1.left.ended hs.2
  have hlift : ∀ {α : Type} {x : Except Exc α}, Prog.Triple (Fresh w.base w.stage none) (Prog.lift x)
      (fun _ => Fresh w.base w.stage none) fun _ => Ended w := fun {α x} =>
    Prog.Triple.lift (fun _ _ _ hs => hs) fun e _ s hs => hended e s ⟨hs.staged.toStaging, fun _ => hs.staged.content⟩
  unfold loadTrino
  rw [← hold]
  refine Prog.Triple.bind hlift fun _ => Prog.Triple.bind hlift fun _ => ?_
  refine Prog.Triple.bind (Q := fun _ => Fresh w.base w.stage none) ?_ fun _ => ?_
  · intro s hs
    refine ⟨fun a s' h => ?_, fun e s' h => (by cases h)⟩
    cases h
    exact { hs with ref := rfl }
  refine Prog.Triple.always (S := fun _ => Swapped w) (T := fun _ s => Left w s ∧ StageKnown w s) ?_ (fun _ => ?_)
    fun _ => finally_triple
  · refine Prog.Triple.bind (Q := fun name s => name = w.stage ∧ Staged w.base w.stage none (some []) s)
      ((createStage_triple hstage).mono (fun s hs => hs) (fun _ _ hs => hs) fun _ s hs => ⟨hs.1.left, .inr ⟨hs.1.ref, hs.2⟩⟩)
      fun name => ?_
    by_cases hname : name = w.stage
    · subst hname
      refine Prog.Triple.bind (setStageRef_triple.mono (fun s hs => hs.2) (fun _ _ hs => hs) fun _ _ hs => hs) fun _ => ?_
      refine Prog.Triple.bind (Q := fun _ => Staged w.base w.stage (some w.stage) (some w.new)) ?_ fun _ => ?_
      · rw [hnew]
        split_ifs with hrows
        · exact insertBatches_triple.mono (fun s hs => hs) (fun _ _ hs => hs) fun _ s hs => ⟨hs.left, .inl hs.ref⟩
        · have hnone : data.toPylist = [] :=
            List.length_eq_zero_iff.1 ((length_toPylist data).trans (not_not.1 hrows))
          rw [hnone]
          exact Prog.Triple.pure fun s hs => hs
      · exact Prog.Triple.bind (rename_triple.mono (fun s hs => hs) (fun _ _ hs => hs) fun _ s hs => ⟨hs.1, .inl hs.2⟩)
          fun _ => swapIn_triple
    · exact fun s hs => absurd hs.1 hname
  · intro s hs
    have hfinally : (match s.stageRef with
        | some stage => dropStage server stage s
        | none => (.ok (), s)) = (.ok (), s) := by rw [hs.ref]
    refine ⟨fun a s' h => ?_, fun e s' h => ?_⟩
    · cases hfinally.symm.trans h
      exact hs
    · cases hfinally.symm.trans h

end

/-- **The swap never loses data**: at every moment the prior rows are under the target or
    the old name, or the target has the new rows, and no other table has changed; a
    `load` that returns has written the new rows and left nothing behind; and if no
    statement raised that took effect, the target is unbound in the end only if both
    renames onto it have failed, has its prior rows if the first rename did not return, and
    a stage remains only if its drop has failed. -/
theorem load_swap (server : TrinoServer) (catalog schema table token : Str) (data : ArrowTable)
    (tables : TrinoTables) (prior : List TableRow) (hprior : tables table = some prior)
    (hstage : tables (stagePrefix ++ token) = none) (hold : tables (oldName token) = none)
    (result : Except Exc Unit) (s : TrinoSession)
    (hrun : loadTrino server catalog schema table token data (.start tables) = (result, s)) :
    (∀ ev ∈ s.events,
      (ev.after table = some prior ∨ ev.after (oldName token) = some prior ∨ ev.after table = some data.toPylist) ∧
      ∀ name, name ≠ table → name ≠ stagePrefix ++ token → name ≠ oldName token → ev.after name = tables name) ∧
    (∀ name, name ≠ table → name ≠ stagePrefix ++ token → name ≠ oldName token → s.tables name = tables name) ∧
    (result = .ok () → s.tables table = some data.toPylist ∧ s.tables (stagePrefix ++ token) = none ∧
      s.tables (oldName token) = none) ∧
    (NoneTookEffect s.events →
      (s.tables table = none → Failed (.rename (stagePrefix ++ token) table) s.events ∧
        Failed (.rename (oldName token) table) s.events) ∧
      (∀ e, result = .error e → ¬ Returned (.rename table (oldName token)) s.events → s.tables table = some prior) ∧
      (s.tables (stagePrefix ++ token) ≠ none → Failed (.drop (stagePrefix ++ token)) s.events)) := by
  let w : Swap := ⟨tables, table, stagePrefix ++ token, oldName token, prior, data.toPylist, hprior, hstage, hold,
    stage_ne_old token⟩
  obtain ⟨hok, herror⟩ := @load_triple' w server catalog schema token data rfl rfl rfl _ (fresh_start hstage)
  cases result with
  | ok u =>
    have hswapped : Swapped w s := hok _ _ hrun
    have hholds := hswapped.holds
    refine ⟨fun ev hev => ⟨(hswapped.moments ev hev).kept, (hswapped.moments ev hev).others⟩, hholds.others,
      fun _ => ⟨hholds.table, hholds.stage, hholds.old⟩, fun _ => ⟨fun hnone => ?_, nofun, fun hne => ?_⟩⟩
    · cases hholds.table.symm.trans hnone
    · exact absurd hholds.stage hne
  | error e =>
    have hended : Ended w s := herror _ _ hrun
    refine ⟨fun ev hev => ⟨(hended.moments ev hev).kept, (hended.moments ev hev).others⟩, hended.current.others, nofun,
      fun hquiet => ⟨hended.unbound hquiet, fun _ _ => hended.prior hquiet, hended.stage hquiet⟩⟩

/-- A server on which `SELECT` finds this location, and the statements fail as given. -/
def trinoServer (faults : List TrinoEvent → TrinoStatement → Option TrinoFault) : TrinoServer where
  eq v v' := v == v'
  locations _ := [[some (py "s3://w/s/t")]]
  faults := faults
  refusal _ := ⟨.text (.other (py "TrinoUserError")) (py "refused"), rfl⟩
  urlsplit _ := .ok ⟨py "s3", py "w", py "/s/t", [], []⟩
  urlunsplit parts := parts.scheme ++ py "://" ++ parts.netloc ++ parts.path

/-- Both renames onto the target fail. -/
def renamesFail : List TrinoEvent → TrinoStatement → Option TrinoFault
  | _, .rename _ name =>
    if name = py "t" then some ⟨.text (.other (py "TrinoQueryError")) (py "rename"), false, rfl⟩ else none
  | _, _ => none

/-- A `load` of no rows whose second rename fails, as does the recovery. -/
def strandedRun : Except Exc Unit × TrinoSession :=
  loadTrino (trinoServer renamesFail) (py "c") (py "s") (py "t") (py "0") ⟨0, []⟩
    (.start (Function.update (fun _ => none) (py "t") (some [fun _ => none])))

theorem load_swap_stranded : strandedRun.2.tables (py "t") = none ∧
    Failed (.rename (stagePrefix ++ py "0") (py "t")) strandedRun.2.events ∧
    Failed (.rename (oldName (py "0")) (py "t")) strandedRun.2.events := by
  have hunbound : strandedRun.2.tables (py "t") = none := by
    rfl
  have hquiet : NoneTookEffect strandedRun.2.events := by
    unfold NoneTookEffect
    decide
  refine ⟨hunbound, ?_⟩
  exact ((load_swap (trinoServer renamesFail) (py "c") (py "s") (py "t") (py "0") ⟨0, []⟩
    (Function.update (fun _ => none) (py "t") (some [fun _ => none])) [fun _ => none] (Function.update_self ..)
    rfl rfl strandedRun.1 strandedRun.2 rfl).2.2.2 hquiet).1 hunbound

end ContinuoRuntime
