/-
  One connection of the Postgres adapter, and the methods that build tables on
  it (`adapter.py`).

  * `PgServer.run`: what a statement does to the catalog, inside or outside a
    transaction;
  * `execute`: a statement sent, with whatever else may make it fail;
  * `ensureTable`, `buildEmptyFromColumns`: the programs;
  * `ensureTable_refused`, `buildEmptyFromColumns_refused`: a refused config
    sends nothing;
  * `ensureTable_spec`: what a call leaves committed.
-/
import ContinuoRuntime.Postgres.Catalog
import ContinuoRuntime.Lib.Program

namespace ContinuoRuntime

/-! ## Statements -/

/-- The statements of the adapter, all on one schema. -/
inductive PgStatement where
  | lock | createSchema | unlock
  | start | commit | rollback
  | dropTable (table : Str)
  | createTable (ifNotExists : Bool) (table : Str) (columns : List Column) (primaryKey : List Str)
  | createIndex (ifNotExists : Bool) (table : Str) (index : PgIndex)
  deriving DecidableEq

/-- One connection. -/
structure PgSession where
  committed : Catalog
  /-- the catalog as the open transaction leaves it -/
  pending : Option Catalog
  sent : List PgStatement

/-- The catalog that the next statement sees. -/
def PgSession.catalog (s : PgSession) : Catalog := s.pending.getD s.committed

/-- What makes a statement fail besides the catalog: a lost connection, a missing
    right, a definition that Postgres refuses. -/
structure Fault where
  exc : Exc
  /-- it fails in the client only -/
  tookEffect : Bool

/-- A database, with the faults of a run. -/
structure PgServer where
  engine : Engine
  fault : (sent : List PgStatement) → PgStatement → Option Fault

/-- What a statement makes of the relations. -/
def PgServer.effect (server : PgServer) (s : Catalog) : PgStatement → Except Exc Catalog
  | .dropTable table => do
    let name ← storedIdentifier table
    s.dropTable name
  | .createTable ifNotExists table columns primaryKey => do
    let name ← storedIdentifier table
    if ifNotExists then .ok (s.createTable server.engine name columns primaryKey)
    else s.createNewTable server.engine name columns primaryKey
  | .createIndex ifNotExists table index => do
    let name ← storedIdentifier table
    if ifNotExists then s.createIndex name index else s.createNewIndex name index
  | .lock | .createSchema | .unlock | .start | .commit | .rollback => .ok s

/-- A statement that the server carries out. -/
def PgServer.run (server : PgServer) (stmt : PgStatement) (s : PgSession) : Except Exc PgSession :=
  match stmt with
  | .start => .ok { s with pending := some s.catalog }
  | .commit => .ok { s with committed := s.catalog, pending := none }
  | .rollback => .ok { s with pending := none }
  | stmt => do
    let after ← server.effect s.catalog stmt
    match s.pending with
    | some _ => .ok { s with pending := some after }
    | none => .ok { s with committed := after }

/-- The statement is on its way. -/
def PgSession.send (s : PgSession) (stmt : PgStatement) : PgSession := { s with sent := s.sent ++ [stmt] }

/-- `cur.execute(stmt)`. -/
def execute (server : PgServer) (stmt : PgStatement) : Prog Exc PgSession Unit := fun s =>
  match server.fault s.sent stmt, server.run stmt (s.send stmt) with
  | none, .ok s' => (.ok (), s')
  | none, .error e => (.error e, s.send stmt)
  | some fault, .ok s' => (.error fault.exc, if fault.tookEffect then s' else s.send stmt)
  | some fault, .error _ => (.error fault.exc, s.send stmt)

/-- `psycopg2.Error`. -/
def isPsycopgError : ExcClass → Bool
  | .other name => (py "psycopg2.").isPrefixOf name
  | _ => false

/-! ## Methods -/

/-- `ensure_schema`: a creator that came first is no failure. -/
def ensureSchema (server : PgServer) : Prog Exc PgSession Unit := do
  execute server .lock
  ((execute server .createSchema).handle fun e =>
    if e.cls = .other (py "psycopg2.errors.DuplicateSchema") ∨
        e.cls = .other (py "psycopg2.errors.UniqueViolation") then pure ()
    else Prog.raise e).always (execute server .unlock)

/-- `except Exception: ROLLBACK; raise`, where a failing `ROLLBACK` is only logged. -/
def rollingBack (server : PgServer) (e : Exc) : Prog Exc PgSession Unit :=
  if e.cls.isException then do
    (execute server .rollback).handle fun e' => if isPsycopgError e'.cls then pure () else Prog.raise e'
    Prog.raise e
  else Prog.raise e

/-- The arguments of one `ensure_table`, within the schema. -/
structure EnsureTable where
  table : Str
  columns : List Column
  config : Json Str
  primaryKey : List Str

section
variable (reprStr : Str → Str) (reprJson : Json Str → Except Exc Str) (server : PgServer)

/-- The checks before the first statement. -/
def EnsureTable.checked (call : EnsureTable) : Except Exc (List PgIndex) := do
  let declared := call.columns.map Column.name
  let indexes ← validatedIndexes reprStr reprJson call.config call.table declared
  call.columns.forM fun col => validateColumnType reprStr col.type
  let undeclared := call.primaryKey.filter fun name => name ∉ declared
  if undeclared = [] then .ok indexes
  else valueError (py "primary key on undeclared column(s) " ++ reprList reprStr undeclared ++
    py "; declared columns: " ++ reprList reprStr declared)

/-- `ensure_table`. -/
def ensureTable (call : EnsureTable) : Prog Exc PgSession Unit := do
  let indexes ← Prog.lift (call.checked reprStr reprJson)
  ensureSchema server
  execute server .start
  Prog.handle (do
    execute server (.createTable true call.table call.columns call.primaryKey)
    indexes.forM fun index => execute server (.createIndex true call.table index)
    execute server .commit) (rollingBack server)

/-- `build_empty_from_columns`. -/
def buildEmptyFromColumns (table : Str) (columns : List Column) (config : Json Str) :
    Prog Exc PgSession Unit := do
  Prog.lift (columns.forM fun col => validateColumnType reprStr col.type)
  let indexes ← Prog.lift (validatedIndexes reprStr reprJson config table (columns.map Column.name))
  execute server .start
  Prog.handle (do
    execute server (.dropTable table)
    execute server (.createTable false table columns [])
    indexes.forM fun index => execute server (.createIndex false table index)) (rollingBack server)
  execute server .commit

/-! ## Refused configs -/

variable {reprStr reprJson server}

theorem ensureTable_refused {call : EnsureTable} {e : Exc} (h : call.checked reprStr reprJson = .error e)
    (s : PgSession) : ensureTable reprStr reprJson server call s = (.error e, s) := by
  have hlift : (Prog.lift (call.checked reprStr reprJson) : Prog Exc PgSession _) s = (.error e, s) := by
    rw [Prog.lift, h]
  exact Prog.bind_of_error hlift

/-- A config that is refused is refused by the checks of `ensure_table`. -/
theorem checked_of_refused {call : EnsureTable} {e : Exc}
    (h : validatedIndexes reprStr reprJson call.config call.table (call.columns.map Column.name) = .error e) :
    call.checked reprStr reprJson = .error e := by
  rw [EnsureTable.checked, h]
  rfl

/-- `build_empty_from_columns` refuses before its first statement, a type first. -/
theorem buildEmptyFromColumns_refused {table : Str} {columns : List Column} {config : Json Str} {e : Exc}
    (h : validatedIndexes reprStr reprJson config table (columns.map Column.name) = .error e)
    (s : PgSession) : ∃ e', buildEmptyFromColumns reprStr reprJson server table columns config s = (.error e', s) := by
  rcases htypes : columns.forM fun col => validateColumnType reprStr col.type with e' | ⟨⟩
  · refine ⟨e', Prog.bind_of_error ?_⟩
    rw [Prog.lift, htypes]
  · refine ⟨e, ?_⟩
    have hlift : (Prog.lift (columns.forM fun col => validateColumnType reprStr col.type) :
        Prog Exc PgSession Unit) s = (.ok (), s) := by
      rw [Prog.lift, htypes]
    rw [buildEmptyFromColumns, Prog.bind_of_ok hlift]
    refine Prog.bind_of_error ?_
    rw [Prog.lift, h]

/-! ## What a call leaves -/

/-- A statement, by what the server makes of it: a fault may come on top. -/
theorem execute_triple {stmt : PgStatement} {P : PgSession → Prop} {Q : PgSession → Prop}
    {R : Exc → PgSession → Prop} (hrun : ∀ s, P s → ∀ s', server.run stmt (s.send stmt) = .ok s' →
      Q s' ∧ ∀ e, R e s') (hsend : ∀ s, P s → ∀ e, R e (s.send stmt)) :
    Prog.Triple P (execute server stmt) (fun _ => Q) R := by
  intro s hs
  unfold execute
  rcases hr : server.run stmt (s.send stmt) with e | s'
  · rcases server.fault s.sent stmt with _ | fault
    · refine ⟨fun a t h => (by cases h), fun e' t h => ?_⟩
      cases h
      exact hsend s hs e
    · refine ⟨fun a t h => (by cases h), fun e' t h => ?_⟩
      cases h
      exact hsend s hs _
  · obtain ⟨hq, hfault⟩ := hrun s hs s' hr
    rcases server.fault s.sent stmt with _ | fault
    · refine ⟨fun a t h => ?_, fun e' t h => (by cases h)⟩
      cases h
      exact hq
    · refine ⟨fun a t h => (by cases h), fun e' t h => ?_⟩
      simp only [Prod.mk.injEq] at h
      obtain ⟨-, rfl⟩ := h
      split_ifs
      · exact hfault e'
      · exact hsend s hs e'

/-- Outside a transaction. -/
def PgSession.Idle (s₀ : Catalog) (s : PgSession) : Prop := s.committed = s₀ ∧ s.pending = none

/-- Inside a transaction that has made `c` of `s₀`. -/
def PgSession.Working (s₀ c : Catalog) (s : PgSession) : Prop := s.committed = s₀ ∧ s.pending = some c

/-- A statement without an effect on the relations, outside a transaction. -/
theorem execute_idle {s₀ : Catalog} {stmt : PgStatement} (hrun : ∀ s, server.run stmt s =
    (server.effect s.catalog stmt).bind fun after => match s.pending with
      | some _ => .ok { s with pending := some after }
      | none => .ok { s with committed := after })
    (heffect : ∀ c, server.effect c stmt = .ok c) :
    Prog.Triple (PgSession.Idle s₀) (execute server stmt) (fun _ => PgSession.Idle s₀)
      fun _ => PgSession.Idle s₀ := by
  refine execute_triple (fun s hs s' h => ?_) fun s hs e => hs
  obtain ⟨hcommitted, hpending⟩ := hs
  have hsent : (s.send stmt).pending = none := hpending
  rw [hrun, heffect, hsent] at h
  cases h
  have hcatalog : (s.send stmt).catalog = s₀ := by
    rw [PgSession.catalog, hsent]
    exact hcommitted
  exact ⟨⟨hcatalog, rfl⟩, fun _ => ⟨hcatalog, rfl⟩⟩

theorem ensureSchema_triple (s₀ : Catalog) :
    Prog.Triple (PgSession.Idle s₀) (ensureSchema server) (fun _ => PgSession.Idle s₀)
      fun _ => PgSession.Idle s₀ := by
  refine Prog.Triple.bind (execute_idle (fun _ => rfl) fun _ => rfl) fun _ => ?_
  refine Prog.Triple.always (S := fun _ => PgSession.Idle s₀) (T := fun _ => PgSession.Idle s₀) ?_
    (fun _ => execute_idle (fun _ => rfl) fun _ => rfl) fun _ => execute_idle (fun _ => rfl) fun _ => rfl
  refine Prog.Triple.handle (execute_idle (fun _ => rfl) fun _ => rfl) fun e => ?_
  split_ifs
  · exact Prog.Triple.pure fun _ hs => hs
  · exact Prog.Triple.raise fun _ hs => hs

/-- A table or index statement inside a transaction. -/
theorem execute_working {s₀ c : Catalog} {stmt : PgStatement} {Q : PgSession → Prop}
    (hrun : ∀ s, server.run stmt s =
      (server.effect s.catalog stmt).bind fun after => match s.pending with
        | some _ => .ok { s with pending := some after }
        | none => .ok { s with committed := after })
    (hq : ∀ c' s, server.effect c stmt = .ok c' → PgSession.Working s₀ c' s → Q s) :
    Prog.Triple (PgSession.Working s₀ c) (execute server stmt) (fun _ => Q)
      fun _ s => s.committed = s₀ := by
  refine execute_triple (fun s hs s' h => ?_) fun s hs e => hs.1
  obtain ⟨hcommitted, hpending⟩ := hs
  have hsent : (s.send stmt).pending = some c := hpending
  have hcatalog : (s.send stmt).catalog = c := by rw [PgSession.catalog, hsent]; rfl
  rw [hrun, hcatalog, hsent] at h
  obtain ⟨c', hc', h⟩ := bind_eq_ok.1 h
  cases h
  exact ⟨hq c' _ hc' ⟨hcommitted, rfl⟩, fun _ => hcommitted⟩

/-- The handler leaves what is committed alone, and raises. -/
theorem rollingBack_triple {P : Catalog → Prop} {Q : PgSession → Prop} (e : Exc) :
    Prog.Triple (fun s => P s.committed) (rollingBack server e) (fun _ => Q) fun _ s => P s.committed := by
  unfold rollingBack
  split_ifs
  · have hrollback : Prog.Triple (fun s => P s.committed) (execute server .rollback)
        (fun _ s => P s.committed) fun _ s => P s.committed := by
      refine execute_triple (fun s hs s' h => ?_) fun s hs e => hs
      cases h
      exact ⟨hs, fun _ => hs⟩
    refine Prog.Triple.bind (Prog.Triple.handle hrollback fun e' => ?_) fun _ => Prog.Triple.raise fun _ hs => hs
    split_ifs
    · exact Prog.Triple.pure fun _ hs => hs
    · exact Prog.Triple.raise fun _ hs => hs
  · exact Prog.Triple.raise fun _ hs => hs

/-- The catalog after the statements of a call. -/
def Ensured (reprStr : Str → Str) (reprJson : Json Str → Except Exc Str) (E : Engine) (call : EnsureTable)
    (before after : Catalog) : Prop :=
  ∃ indexes table, validatedIndexes reprStr reprJson call.config call.table
      (call.columns.map Column.name) = .ok indexes ∧ storedIdentifier call.table = .ok table ∧
    (before.createTable E table call.columns call.primaryKey).createIndexes table indexes = .ok after

theorem validatedIndexes_of_checked {call : EnsureTable} {indexes : List PgIndex}
    (h : call.checked reprStr reprJson = .ok indexes) :
    validatedIndexes reprStr reprJson call.config call.table (call.columns.map Column.name) = .ok indexes := by
  obtain ⟨validated, hvalidated, h⟩ := bind_eq_ok.1 h
  obtain ⟨_, -, h⟩ := bind_eq_ok.1 h
  dsimp only at h
  split_ifs at h
  · cases h
    exact hvalidated
  · cases h

/-- **A call** that returns leaves what its statements make of the catalog; one
    that raises leaves that, or the catalog as it was. -/
theorem ensureTable_spec (call : EnsureTable) (s₀ : Catalog) :
    Prog.Triple (PgSession.Idle s₀) (ensureTable reprStr reprJson server call)
      (fun _ s => Ensured reprStr reprJson server.engine call s₀ s.committed)
      fun _ s => s.committed = s₀ ∨ Ensured reprStr reprJson server.engine call s₀ s.committed := by
  refine Prog.Triple.bind (Q := fun indexes s => call.checked reprStr reprJson = .ok indexes ∧ s.Idle s₀)
    (Prog.Triple.lift (fun indexes h s hs => ⟨h, hs⟩) fun e h s hs => .inl hs.1) fun indexes => ?_
  by_cases hchecked : call.checked reprStr reprJson = .ok indexes
  swap
  · exact fun s hs => absurd hs.1 hchecked
  have hvalidated := validatedIndexes_of_checked hchecked
  refine Prog.Triple.bind (Q := fun _ => PgSession.Idle s₀)
    (((ensureSchema_triple s₀)).mono (fun s hs => hs.2) (fun _ s hs => hs) fun _ s hs => .inl hs.1) fun _ => ?_
  refine Prog.Triple.bind (Q := fun _ => PgSession.Working s₀ s₀)
    (execute_triple (fun s hs s' h => ?_) fun s hs e => .inl hs.1) fun _ => ?_
  · cases h
    have hcatalog : (s.send .start).catalog = s₀ := by
      have hpending : (s.send .start).pending = none := hs.2
      rw [PgSession.catalog, hpending]
      exact hs.1
    exact ⟨⟨hs.1, congrArg some hcatalog⟩, fun _ => .inl hs.1⟩
  refine Prog.Triple.handle (S := fun _ s => s.committed = s₀ ∨
    Ensured reprStr reprJson server.engine call s₀ s.committed) ?_ fun e => rollingBack_triple
      (P := fun c => c = s₀ ∨ Ensured reprStr reprJson server.engine call s₀ c) e
  -- after the table and the first indexes
  let Done (before : List PgIndex) (s : PgSession) : Prop := ∃ table c,
    storedIdentifier call.table = .ok table ∧
      (s₀.createTable server.engine table call.columns call.primaryKey).createIndexes table before = .ok c ∧
      s.Working s₀ c
  refine Prog.Triple.bind (Q := fun _ => Done []) ?_ fun _ => Prog.Triple.bind (Q := fun _ => Done indexes) ?_
    fun _ => ?_
  · refine (execute_working (fun _ => rfl) fun c s hc hs => ?_).mono (fun _ hs => hs) (fun _ _ hs => hs)
      fun _ _ hs => .inl hs
    obtain ⟨table, htable, hc⟩ := bind_eq_ok.1 hc
    cases hc
    exact ⟨table, _, htable, rfl, hs⟩
  · have hloop : Prog.Triple (Done []) (indexes.forM fun index => execute server (.createIndex true call.table index))
        (fun _ => Done ([] ++ indexes)) fun _ s => s.committed = s₀ := by
      refine Prog.Triple.forM Done ?_
      rintro before index after - s ⟨table, c, htable, hc, hs⟩
      refine execute_working (fun _ => rfl) (fun c' s' hc' hs' => ?_) s hs
      obtain ⟨table', htable', hc'⟩ := bind_eq_ok.1 hc'
      cases htable.symm.trans htable'
      refine ⟨table, c', htable, ?_, hs'⟩
      rw [Catalog.createIndexes, List.foldlM_append]
      exact bind_eq_ok.2 ⟨c, hc, bind_eq_ok.2 ⟨c', hc', rfl⟩⟩
    exact hloop.mono (fun _ hs => hs) (fun _ _ hs => hs) fun _ _ hs => .inl hs
  · refine execute_triple (fun s hs s' h => ?_) fun s hs e => .inl ?_
    · obtain ⟨table, c, htable, hc, hcommitted, hpending⟩ := hs
      cases h
      have hcatalog : (s.send .commit).catalog = c := by
        have hsent : (s.send .commit).pending = some c := hpending
        rw [PgSession.catalog, hsent]
        rfl
      have hensured : Ensured reprStr reprJson server.engine call s₀ (s.send .commit).catalog :=
        ⟨indexes, table, hvalidated, htable, hcatalog ▸ hc⟩
      exact ⟨hensured, fun _ => .inr hensured⟩
    · obtain ⟨table, c, -, -, hcommitted, -⟩ := hs
      exact hcommitted

end

end ContinuoRuntime
