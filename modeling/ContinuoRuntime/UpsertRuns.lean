/-
  Runs of `upsert`: one call after another on one table.

  A call whose data the port refuses leaves the table alone; every other call overrides
  the rows by key.  What a run leaves is said without the run: each key has the row of the
  last accepted data that has the key.

  * `runUpserts`: a run, with the outcome of each call;
  * `upsert_runs`: **the last accepted data with a key has it**, on every engine.
-/
import ContinuoRuntime.Upsert

namespace ContinuoRuntime

/-! ## Runs -/

/-- A call: the adapter with its warehouse, and the data. -/
structure UpsertCall where
  engine : UpsertEngine
  data : ArrowTable

section
variable (reprStr : Str → Str) (strCell : Option ArrowValue → Str) (table : Str) (primaryKey : List Str)

/-- One call after another: their outcomes, and the rows of the table; nothing if a call
    leaves no table. -/
def runUpserts : List TableRow → List UpsertCall → Option (List (Except Exc Unit) × List TableRow)
  | rows, [] => some ([], rows)
  | rows, call :: calls =>
    let left := call.engine.upsert reprStr strCell table primaryKey rows call.data
    match left.rows with
    | some rows' => (runUpserts rows' calls).map fun rest => (left.result :: rest.1, rest.2)
    | none => none

/-- What the port says to each call. -/
def checks (calls : List UpsertCall) : List (Except Exc Unit) :=
  calls.map fun call => ensureUniqueKey reprStr strCell call.data primaryKey

/-- The rows of the calls that the port accepts. -/
def acceptedRows (calls : List UpsertCall) : List (List TableRow) :=
  calls.filterMap fun call =>
    match ensureUniqueKey reprStr strCell call.data primaryKey with
    | .ok _ => some call.data.toPylist
    | .error _ => none

/-- A table, and calls for it: data with the columns of the table and keys that are not null,
    warehouses that have the table, and key values that they tell apart as Arrow does. -/
structure UpsertRun (eq : ArrowValue → ArrowValue → Bool) (columns : List Str) (prior : List TableRow)
    (calls : List UpsertCall) : Prop where
  keyed : ∀ r ∈ prior, Rows.Keyed columns primaryKey r
  unique : Rows.UniqueKeys (Rows.keyOf primaryKey) prior
  equality : Rows.KeyEquality eq primaryKey (prior ++ (calls.map fun call => call.data.toPylist).flatten)
  engines : ∀ call ∈ calls, call.engine.eq = eq ∧ call.engine.Serves table primaryKey call.data
  names : ∀ call ∈ calls, ∀ c, c ∈ call.data.columnNames ↔ c ∈ columns
  distinct : ∀ call ∈ calls, call.data.columnNames.Nodup
  nonnull : ∀ call ∈ calls, ∀ row ∈ call.data.toPylist, ∀ c ∈ primaryKey, ∃ v, row c = some v

end

/-! ## One call -/

section
variable {reprStr : Str → Str} {strCell : Option ArrowValue → Str} {table : Str} {primaryKey columns : List Str}
  {eq : ArrowValue → ArrowValue → Bool} {prior : List TableRow} {call : UpsertCall} {calls : List UpsertCall}

/-- The first call has a table and data that `upsert` is for, if the port accepts it. -/
theorem UpsertRun.upsertable (h : UpsertRun table primaryKey eq columns prior (call :: calls))
    (haccepted : ensureUniqueKey reprStr strCell call.data primaryKey = .ok ()) :
    Upsertable reprStr strCell call.engine.eq columns primaryKey prior call.data where
  names := h.names call List.mem_cons_self
  distinct := h.distinct call List.mem_cons_self
  keyed := h.keyed
  unique := h.unique
  nonnull := h.nonnull call List.mem_cons_self
  equality := by
    rw [(h.engines call List.mem_cons_self).1]
    have hmem : ∀ r ∈ prior ++ call.data.toPylist,
        r ∈ prior ++ ((call :: calls).map fun call => call.data.toPylist).flatten := by
      intro r hr
      rw [List.map_cons, List.flatten_cons, ← List.append_assoc]
      exact List.mem_append_left _ hr
    exact fun r hr s hs => h.equality r (hmem r hr) s (hmem s hs)
  accepted := haccepted

/-- Behind the first call, the others are a run: the table has prior rows, and rows of the call. -/
theorem UpsertRun.tail (h : UpsertRun table primaryKey eq columns prior (call :: calls)) {rows : List TableRow}
    (hrows : ∀ r ∈ rows, r ∈ prior ∨ r ∈ call.data.toPylist)
    (hunique : Rows.UniqueKeys (Rows.keyOf primaryKey) rows) :
    UpsertRun table primaryKey eq columns rows calls where
  keyed r hr := by
    rcases hrows r hr with hr | hr
    · exact h.keyed r hr
    · exact ⟨fun c hc => toPylist_within hr fun hmem => hc ((h.names call List.mem_cons_self c).1 hmem),
        h.nonnull call List.mem_cons_self r hr⟩
  unique := hunique
  equality := by
    have hmem : ∀ r ∈ rows ++ (calls.map fun call => call.data.toPylist).flatten,
        r ∈ prior ++ ((call :: calls).map fun call => call.data.toPylist).flatten := by
      intro r hr
      rw [List.map_cons, List.flatten_cons]
      rcases List.mem_append.1 hr with hr | hr
      · rcases hrows r hr with hr | hr
        · exact List.mem_append_left _ hr
        · exact List.mem_append_right _ (List.mem_append_left _ hr)
      · exact List.mem_append_right _ (List.mem_append_right _ hr)
    exact fun r hr s hs => h.equality r (hmem r hr) s (hmem s hs)
  engines other hother := h.engines other (List.mem_cons_of_mem _ hother)
  names other hother := h.names other (List.mem_cons_of_mem _ hother)
  distinct other hother := h.distinct other (List.mem_cons_of_mem _ hother)
  nonnull other hother := h.nonnull other (List.mem_cons_of_mem _ hother)

/-- **One call**: it ends as the check does, and what it leaves is a table for the others. -/
theorem UpsertRun.step (h : UpsertRun table primaryKey eq columns prior (call :: calls)) :
    ∃ rows, (call.engine.upsert reprStr strCell table primaryKey prior call.data).rows = some rows ∧
      (call.engine.upsert reprStr strCell table primaryKey prior call.data).result =
        ensureUniqueKey reprStr strCell call.data primaryKey ∧
      rows.Perm (Rows.overrides (Rows.keyOf primaryKey) prior (acceptedRows reprStr strCell primaryKey [call])) ∧
      UpsertRun table primaryKey eq columns rows calls := by
  unfold acceptedRows
  cases hcheck : ensureUniqueKey reprStr strCell call.data primaryKey with
  | error e =>
    rw [call.engine.upsert_of_refused hcheck, List.filterMap_cons_none (by rw [hcheck])]
    exact ⟨prior, rfl, rfl, List.Perm.refl _, h.tail (fun r hr => .inl hr) h.unique⟩
  | ok u =>
    have hupsertable := h.upsertable hcheck
    obtain ⟨rows, ⟨hresult, hrows⟩, hperm⟩ :=
      UpsertEngine.reaches_override hupsertable (h.engines call List.mem_cons_self).2
    refine ⟨rows, hrows, hresult, ?_, h.tail (fun r hr => ?_) ?_⟩
    · rw [List.filterMap_cons_some (by rw [hcheck])]
      exact hperm
    · exact (Rows.mem_override.1 (hperm.mem_iff.1 hr)).imp And.left id
    · exact (Rows.uniqueKeys_override h.unique (uniqueKeys_of_accepted hcheck)).perm hperm.symm

/-! ## A run -/

/-- What a run leaves. -/
theorem UpsertRun.run (h : UpsertRun table primaryKey eq columns prior calls) :
    ∃ rows, runUpserts reprStr strCell table primaryKey prior calls =
        some (checks reprStr strCell primaryKey calls, rows) ∧
      rows.Perm (Rows.overrides (Rows.keyOf primaryKey) prior (acceptedRows reprStr strCell primaryKey calls)) ∧
      Rows.UniqueKeys (Rows.keyOf primaryKey) rows := by
  induction calls generalizing prior with
  | nil => exact ⟨prior, rfl, List.Perm.refl _, h.unique⟩
  | cons call calls ih =>
    obtain ⟨rows, hrows, hresult, hperm, hrest⟩ := h.step
    obtain ⟨rows', hrun, hperm', hunique⟩ := ih hrest
    refine ⟨rows', ?_, hperm'.trans ((Rows.overrides_perm_left hperm).trans ?_), hunique⟩
    · unfold runUpserts
      dsimp only
      rw [hrows]
      dsimp only
      rw [hrun, hresult]
      rfl
    · unfold acceptedRows Rows.overrides
      rw [← List.foldl_append, ← List.filterMap_append, List.singleton_append]

end

/-- **The last accepted data with a key has it**: in a run of calls each call ends as the
    port's check of its data does; a row is in the table that the run leaves if it is in
    accepted data behind which its key does not come again, or if it is a prior row whose
    key comes in no accepted data; no key is there twice, and no row. -/
theorem upsert_runs (reprStr : Str → Str) (strCell : Option ArrowValue → Str) (table : Str)
    (columns primaryKey : List Str) (eq : ArrowValue → ArrowValue → Bool) (prior : List TableRow)
    (calls : List UpsertCall) (h : UpsertRun table primaryKey eq columns prior calls) :
    ∃ rows, runUpserts reprStr strCell table primaryKey prior calls =
        some (checks reprStr strCell primaryKey calls, rows) ∧
      Rows.UniqueKeys (Rows.keyOf primaryKey) rows ∧
      ∀ r, r ∈ rows ↔
        (r ∈ prior ∧ ∀ batch ∈ acceptedRows reprStr strCell primaryKey calls,
          Rows.keyOf primaryKey r ∉ batch.map (Rows.keyOf primaryKey)) ∨
        ∃ before batch after, acceptedRows reprStr strCell primaryKey calls = before ++ batch :: after ∧ r ∈ batch ∧
          ∀ later ∈ after, Rows.keyOf primaryKey r ∉ later.map (Rows.keyOf primaryKey) := by
  obtain ⟨rows, hrun, hperm, hunique⟩ := h.run
  exact ⟨rows, hrun, hunique, fun r => hperm.mem_iff.trans Rows.mem_overrides⟩

theorem upsert_runs_twoKeys : ∃ rows, runUpserts (fun s => s) (fun _ => []) (py "t") [py "a"] [firstKey]
    [⟨.postgres keyedServer fun _ => false, twoKeys⟩, ⟨.duckdb keyedServer (fun _ => false) id, twoKeys⟩] =
      some ([.ok (), .ok ()], rows) := by
  obtain ⟨rows, hrun, -⟩ := upsert_runs (fun s => s) (fun _ => []) (py "t") [py "a", py "b"] [py "a"] keyedServer.eq
    [firstKey] [⟨.postgres keyedServer fun _ => false, twoKeys⟩, ⟨.duckdb keyedServer (fun _ => false) id, twoKeys⟩] {
      keyed := twoKeys_upsertable.keyed
      unique := twoKeys_upsertable.unique
      equality := fun _ _ _ _ _ _ _ _ _ _ => decide_eq_true_iff
      engines := by
        intro call hcall
        rcases List.mem_pair.1 hcall with rfl | rfl
        · exact ⟨rfl, fun c => Iff.rfl⟩
        · exact ⟨rfl, trivial⟩
      names := by
        intro call hcall
        rcases List.mem_pair.1 hcall with rfl | rfl <;> exact twoKeys_upsertable.names
      distinct := by
        intro call hcall
        rcases List.mem_pair.1 hcall with rfl | rfl <;> exact twoKeys_upsertable.distinct
      nonnull := by
        intro call hcall
        rcases List.mem_pair.1 hcall with rfl | rfl <;> exact twoKeys_upsertable.nonnull }
  exact ⟨rows, hrun⟩

end ContinuoRuntime
