/-
  `load` and `append` of the Postgres and the DuckDB adapter.

  A connection has the committed rows of the table and, inside a transaction, the rows
  that only it sees.  Any statement may fail without effect; a `COMMIT` may also fail
  after it has taken effect.

  * `pgTransaction`, `lakeTransaction`: the two wrappers, the first with `COMMIT` inside
    its `try`, the second behind it;
  * `pgInsertRows` in pages, `insertArrow` in one statement;
  * `body_triple`, `transaction_triple`: what the statements before `COMMIT` leave, and
    what a wrapper makes of them;
  * `write_atomic`: **all or nothing**, and the first failure is the one raised.
-/
import ContinuoRuntime.Lib.Program
import ContinuoRuntime.Python.Exc

namespace ContinuoRuntime

/-! ## The server -/

/-- What the writing methods send. -/
inductive LoadStatement (ρ : Type) where
  | start
  /-- `TRUNCATE`, or `DELETE` of every row -/
  | clear
  | insert (rows : List ρ)
  /-- the Arrow table as a view of the connection -/
  | register | unregister
  | commit | rollback

/-- Sent while another failure is on its way to the caller. -/
def LoadStatement.isCleanup {ρ : Type} : LoadStatement ρ → Bool
  | unregister | rollback => true
  | _ => false

/-- One connection, as far as the table is concerned. -/
structure TableSession (ρ : Type) where
  committed : List ρ
  /-- the rows as the open transaction leaves them -/
  pending : Option (List ρ)
  /-- how many transactions have taken effect -/
  commits : ℕ
  sent : List (LoadStatement ρ)

/-- How a statement fails: without effect, but for a `COMMIT`. -/
structure LoadFault where
  exc : Exc
  /-- the `COMMIT` has taken effect all the same -/
  tookEffect : Bool
  /-- the `COMMIT` has ended the transaction -/
  ended : Bool

/-- The faults of a run, by what was sent before. -/
abbrev LoadFaults (ρ : Type) := List (LoadStatement ρ) → LoadStatement ρ → Option LoadFault

section
variable {ρ : Type}

namespace TableSession

/-- The rows that the next statement sees. -/
def view (s : TableSession ρ) : List ρ := s.pending.getD s.committed

/-- Outside a transaction, a change is committed at once. -/
def update (s : TableSession ρ) (rows : List ρ) : TableSession ρ :=
  match s.pending with
  | some _ => { s with pending := some rows }
  | none => { s with committed := rows }

/-- What a statement does. -/
def apply (s : TableSession ρ) : LoadStatement ρ → TableSession ρ
  | .start => { s with pending := some s.view }
  | .clear => s.update []
  | .insert rows => s.update (s.view ++ rows)
  | .register | .unregister => s
  | .commit => { s with committed := s.view, pending := none, commits := s.commits + 1 }
  | .rollback => { s with pending := none }

/-- What a statement leaves that fails. -/
def fail (s : TableSession ρ) (fault : LoadFault) : LoadStatement ρ → TableSession ρ
  | .commit =>
    if fault.tookEffect then s.apply .commit
    else { s with pending := if fault.ended then none else s.pending }
  | _ => s

/-- The statement is on its way. -/
def send (s : TableSession ρ) (stmt : LoadStatement ρ) : TableSession ρ := { s with sent := s.sent ++ [stmt] }

end TableSession

/-- A statement of the connection. -/
def perform (faults : LoadFaults ρ) (stmt : LoadStatement ρ) : Prog Exc (TableSession ρ) Unit := fun s =>
  match faults s.sent stmt with
  | none => (.ok (), (s.send stmt).apply stmt)
  | some fault => (.error fault.exc, (s.send stmt).fail fault stmt)

/-! ## The Postgres adapter -/

variable (faults : LoadFaults ρ) (driverError : ExcClass → Bool)

/-- A `ROLLBACK` whose own failure, an error of the driver, is only logged. -/
def rollbackLogged : Prog Exc (TableSession ρ) Unit :=
  (perform faults .rollback).handle fun e => if driverError e.cls then pure () else Prog.raise e

/-- `_transaction`: `except Exception` covers the `COMMIT`. -/
def pgTransaction (body : Prog Exc (TableSession ρ) Unit) : Prog Exc (TableSession ρ) Unit := do
  perform faults .start
  Prog.handle (do
    body
    perform faults .commit) fun e =>
      if e.cls.isException then do
        rollbackLogged faults driverError
        Prog.raise e
      else Prog.raise e

/-- `_INSERT_PAGE_SIZE`. -/
def insertPageSize : ℕ := 1000

/-- At most `n` pages of the rows. -/
def pagesUpTo : ℕ → List ρ → List (List ρ)
  | _, [] => []
  | 0, _ :: _ => []
  | n + 1, row :: rows =>
    (row :: rows).take insertPageSize :: pagesUpTo n ((row :: rows).drop insertPageSize)

/-- The pages of `execute_values`. -/
def pages (rows : List ρ) : List (List ρ) := pagesUpTo rows.length rows

/-- `_insert_rows`. -/
def pgInsertRows (data : List ρ) : Prog Exc (TableSession ρ) Unit :=
  (pages data).forM fun page => perform faults (.insert page)

/-! ## The DuckDB adapter -/

variable (guard : Exc → Exc)

/-- `_run`: the failure leaves through `_guarded`. -/
def runGuarded (stmt : LoadStatement ρ) : Prog Exc (TableSession ρ) Unit :=
  (perform faults stmt).handle fun e => Prog.raise (guard e)

/-- `transaction`: the `COMMIT` stands behind the `try`. -/
def lakeTransaction (body : Prog Exc (TableSession ρ) Unit) : Prog Exc (TableSession ρ) Unit := do
  runGuarded faults guard .start
  body.handle fun e => do
    rollbackLogged faults driverError
    Prog.raise e
  runGuarded faults guard .commit

/-- `insert_arrow`. -/
def insertArrow (data : List ρ) : Prog Exc (TableSession ρ) Unit := do
  runGuarded faults guard .register
  (runGuarded faults guard (.insert data)).always
    ((perform faults .unregister).handle fun e => if driverError e.cls then pure () else Prog.raise e)

/-! ## `load` and `append` -/

/-- The adapters with transactions. -/
inductive LoadEngine where
  | postgres | duckdb
  deriving DecidableEq

/-- The writing methods. -/
inductive WriteOp where
  | load | append
  deriving DecidableEq

/-- What the method is for. -/
def WriteOp.result (op : WriteOp) (prior data : List ρ) : List ρ :=
  match op with
  | load => data
  | append => prior ++ data

/-- The error that the adapter makes of a failure. -/
def LoadEngine.raised (engine : LoadEngine) : Exc → Exc :=
  match engine with
  | postgres => id
  | duckdb => guard

def LoadEngine.transaction (engine : LoadEngine) (body : Prog Exc (TableSession ρ) Unit) :
    Prog Exc (TableSession ρ) Unit :=
  match engine with
  | postgres => pgTransaction faults driverError body
  | duckdb => lakeTransaction faults driverError guard body

def LoadEngine.clear (engine : LoadEngine) : Prog Exc (TableSession ρ) Unit :=
  match engine with
  | postgres => perform faults .clear
  | duckdb => runGuarded faults guard .clear

def LoadEngine.insert (engine : LoadEngine) (data : List ρ) : Prog Exc (TableSession ρ) Unit :=
  match engine with
  | postgres => pgInsertRows faults data
  | duckdb => insertArrow faults driverError guard data

/-- `load`. -/
def LoadEngine.load (engine : LoadEngine) (data : List ρ) : Prog Exc (TableSession ρ) Unit :=
  engine.transaction faults driverError guard do
    engine.clear faults guard
    if data.isEmpty then pure () else engine.insert faults driverError guard data

/-- `append`. -/
def LoadEngine.append (engine : LoadEngine) (data : List ρ) : Prog Exc (TableSession ρ) Unit :=
  if data.isEmpty then pure ()
  else engine.transaction faults driverError guard (engine.insert faults driverError guard data)

def LoadEngine.write (engine : LoadEngine) (op : WriteOp) (data : List ρ) : Prog Exc (TableSession ρ) Unit :=
  match op with
  | .load => engine.load faults driverError guard data
  | .append => engine.append faults driverError guard data

end

/-! ## Single statements -/

section
variable {ρ : Type} {faults : LoadFaults ρ} {driverError : ExcClass → Bool} {guard present : Exc → Exc}

/-- Outside a transaction. -/
structure TableSession.Outside (prior : List ρ) (n : ℕ) (s : TableSession ρ) : Prop where
  committed : s.committed = prior
  pending : s.pending = none
  commits : s.commits = n

/-- Inside a transaction that has made `rows` of the table. -/
structure TableSession.Within (prior rows : List ρ) (n : ℕ) (s : TableSession ρ) : Prop where
  committed : s.committed = prior
  pending : s.pending = some rows
  commits : s.commits = n

/-- After the `COMMIT`. -/
structure TableSession.Written (rows : List ρ) (n : ℕ) (s : TableSession ρ) : Prop where
  committed : s.committed = rows
  pending : s.pending = none
  commits : s.commits = n + 1

/-- What an error on its way to the caller says: nothing is committed but by a
    `COMMIT` that took effect, and the error is the one of the first statement that
    failed, presented by the adapter. -/
structure Raised (faults : LoadFaults ρ) (present : Exc → Exc) (prior : List ρ) (n : ℕ) (e : Exc)
    (s : TableSession ρ) : Prop where
  kept : s.commits = n → s.committed = prior
  original : ∃ before stmt fault cleanup, faults before stmt = some fault ∧ stmt.isCleanup = false ∧
    e = present fault.exc ∧ s.sent = before ++ stmt :: cleanup ∧ ∀ c ∈ cleanup, c.isCleanup = true

/-- A statement: it returns with its effect, or raises its fault. -/
theorem perform_triple {P : TableSession ρ → Prop} {stmt : LoadStatement ρ} {Q : TableSession ρ → Prop}
    {R : Exc → TableSession ρ → Prop} (hok : ∀ s, P s → Q ((s.send stmt).apply stmt))
    (hfault : ∀ s fault, P s → faults s.sent stmt = some fault → R fault.exc ((s.send stmt).fail fault stmt)) :
    Prog.Triple P (perform faults stmt) (fun _ => Q) R := by
  intro s hs
  unfold perform
  rcases hf : faults s.sent stmt with _ | fault
  · refine ⟨fun a s' h => ?_, fun e s' h => (by cases h)⟩
    cases h
    exact hok s hs
  · refine ⟨fun a s' h => (by cases h), fun e s' h => ?_⟩
    cases h
    exact hfault s fault hs hf

/-- The failure of a statement that does the work. -/
theorem raised_of_fault {prior : List ρ} {n : ℕ} {s : TableSession ρ} {stmt : LoadStatement ρ} {fault : LoadFault}
    (hcommitted : s.committed = prior) (hcommits : s.commits = n) (hstmt : stmt.isCleanup = false)
    (hf : faults s.sent stmt = some fault) :
    Raised faults id prior n fault.exc ((s.send stmt).fail fault stmt) := by
  have hsent : ((s.send stmt).fail fault stmt).sent = s.sent ++ [stmt] := by
    cases stmt with
    | commit => rw [TableSession.fail]; split <;> rfl
    | _ => rfl
  refine ⟨fun hn => ?_, s.sent, stmt, fault, [], hf, hstmt, rfl, hsent, fun c hc => by cases hc⟩
  cases stmt with
  | commit =>
    rw [TableSession.fail] at hn ⊢
    by_cases htook : fault.tookEffect = true
    · rw [if_pos htook] at hn
      have hmore : s.commits + 1 = n := hn
      omega
    · rw [if_neg htook]
      exact hcommitted
  | _ => exact hcommitted

theorem start_triple (prior : List ρ) (n : ℕ) : Prog.Triple (TableSession.Outside prior n)
    (perform faults .start) (fun _ => TableSession.Within prior prior n) (Raised faults id prior n) := by
  refine perform_triple (fun s hs => ⟨hs.committed, ?_, hs.commits⟩)
    fun s fault hs hf => raised_of_fault hs.committed hs.commits rfl hf
  have hview : (s.send .start).view = prior := by
    rw [TableSession.view, show (s.send .start).pending = none from hs.pending]
    exact hs.committed
  exact congrArg some hview

/-- What a statement makes of the rows of a transaction. -/
def LoadStatement.rows (stmt : LoadStatement ρ) (before : List ρ) : List ρ :=
  match stmt with
  | .clear => []
  | .insert rows => before ++ rows
  | _ => before

theorem within_triple {stmt : LoadStatement ρ} (hstmt : stmt = .clear ∨ stmt = .register ∨ ∃ rows, stmt = .insert rows)
    (prior rows : List ρ) (n : ℕ) : Prog.Triple (TableSession.Within prior rows n) (perform faults stmt)
      (fun _ => TableSession.Within prior (stmt.rows rows) n) (Raised faults id prior n) := by
  have hview : ∀ {s : TableSession ρ}, s.Within prior rows n → (s.send stmt).view = rows := fun hs => by
    rw [TableSession.view, show (TableSession.send _ stmt).pending = some rows from hs.pending]
    rfl
  have hupdate : ∀ {s : TableSession ρ} (after : List ρ), s.Within prior rows n →
      ((s.send stmt).update after).Within prior after n := fun after hs => by
    rw [TableSession.update, show (TableSession.send _ stmt).pending = some rows from hs.pending]
    exact ⟨hs.committed, rfl, hs.commits⟩
  refine perform_triple (fun s hs => ?_) fun s fault hs hf => raised_of_fault hs.committed hs.commits ?_ hf
  · rcases hstmt with rfl | rfl | ⟨new, rfl⟩
    · exact hupdate [] hs
    · exact ⟨hs.committed, hs.pending, hs.commits⟩
    · rw [TableSession.apply, hview hs]
      exact hupdate (rows ++ new) hs
  · rcases hstmt with rfl | rfl | ⟨new, rfl⟩ <;> rfl

theorem commit_triple (prior rows : List ρ) (n : ℕ) : Prog.Triple (TableSession.Within prior rows n)
    (perform faults .commit) (fun _ => TableSession.Written rows n) (Raised faults id prior n) := by
  refine perform_triple (fun s hs => ⟨?_, rfl, congrArg (· + 1) hs.commits⟩)
    fun s fault hs hf => raised_of_fault hs.committed hs.commits rfl hf
  have hview : (s.send .commit).view = rows := by
    rw [TableSession.view, show (s.send .commit).pending = some rows from hs.pending]
    rfl
  exact hview

/-! ## Cleanup -/

/-- Faults of the cleanup are errors of the driver. -/
def CleanupFaults (faults : LoadFaults ρ) (driverError : ExcClass → Bool) : Prop :=
  ∀ before stmt fault, stmt.isCleanup = true → faults before stmt = some fault → driverError fault.exc.cls = true

/-- A cleanup statement, whose fault is swallowed, does not raise. -/
theorem cleanup_triple (hfaults : CleanupFaults faults driverError) {stmt : LoadStatement ρ}
    (hstmt : stmt.isCleanup = true) {P Q : TableSession ρ → Prop} (hok : ∀ s, P s → Q ((s.send stmt).apply stmt))
    (hfault : ∀ s fault, P s → Q ((s.send stmt).fail fault stmt)) {R : Exc → TableSession ρ → Prop} :
    Prog.Triple P ((perform faults stmt).handle fun e => if driverError e.cls then pure () else Prog.raise e)
      (fun _ => Q) R := by
  refine Prog.Triple.handle (S := fun e s => driverError e.cls = true ∧ Q s)
    (perform_triple hok fun s fault hs hf => ⟨hfaults _ _ _ hstmt hf, hfault s fault hs⟩) fun e => ?_
  by_cases hdriver : driverError e.cls = true
  · rw [if_pos hdriver]
    exact Prog.Triple.pure fun s hs => hs.2
  · exact fun s hs => absurd hs.1 hdriver

/-- A cleanup statement behind the failure leaves the error what it is. -/
theorem Raised.cleanup {prior : List ρ} {n : ℕ} {e : Exc} {s s' : TableSession ρ} {stmt : LoadStatement ρ}
    (h : Raised faults present prior n e s) (hstmt : stmt.isCleanup = true) (hcommitted : s'.committed = s.committed)
    (hcommits : s'.commits = s.commits) (hsent : s'.sent = s.sent ++ [stmt]) :
    Raised faults present prior n e s' := by
  obtain ⟨before, first, fault, cleanup, hf, hfirst, he, hs, hall⟩ := h.original
  refine ⟨fun hn => ?_, before, first, fault, cleanup ++ [stmt], hf, hfirst, he, ?_, fun c hc => ?_⟩
  · rw [hcommitted]
    exact h.kept (hcommits ▸ hn)
  · rw [hsent, hs, List.append_assoc, List.cons_append]
  · rcases List.mem_append.1 hc with hc | hc
    · exact hall c hc
    · exact List.mem_singleton.1 hc ▸ hstmt

theorem rollback_triple (hfaults : CleanupFaults faults driverError) (prior : List ρ) (n : ℕ) (e : Exc)
    {R : Exc → TableSession ρ → Prop} : Prog.Triple (Raised faults present prior n e)
      (rollbackLogged faults driverError) (fun _ => Raised faults present prior n e) R :=
  cleanup_triple hfaults rfl (fun _ hs => hs.cleanup rfl rfl rfl rfl) fun _ _ hs => hs.cleanup rfl rfl rfl rfl

/-! ## Bodies -/

/-- `_guarded` presents the failure. -/
theorem runGuarded_triple {P Q : TableSession ρ → Prop} {prior : List ρ} {n : ℕ} {stmt : LoadStatement ρ}
    (h : Prog.Triple P (perform faults stmt) (fun _ => Q) (Raised faults id prior n)) :
    Prog.Triple P (runGuarded faults guard stmt) (fun _ => Q) (Raised faults guard prior n) := by
  refine Prog.Triple.handle h fun e => Prog.Triple.raise fun s hs => ⟨hs.kept, ?_⟩
  obtain ⟨before, first, fault, cleanup, hf, hfirst, he, hrest⟩ := hs.original
  exact ⟨before, first, fault, cleanup, hf, hfirst, congrArg guard he, hrest⟩

theorem flatten_pagesUpTo : ∀ {n : ℕ} {rows : List ρ}, rows.length ≤ n → (pagesUpTo n rows).flatten = rows
  | n, [], _ => by cases n <;> rfl
  | n + 1, row :: rows, h => by
    have hrest : ((row :: rows).drop insertPageSize).length ≤ n := by
      rw [List.length_drop, insertPageSize]
      rw [List.length_cons] at h ⊢
      omega
    rw [pagesUpTo, List.flatten_cons, flatten_pagesUpTo hrest, List.take_append_drop]

theorem flatten_pages (rows : List ρ) : (pages rows).flatten = rows := flatten_pagesUpTo (le_refl _)

/-- **The pages** insert every row once, in order. -/
theorem pgInsertRows_triple (prior rows data : List ρ) (n : ℕ) : Prog.Triple (TableSession.Within prior rows n)
    (pgInsertRows faults data) (fun _ => TableSession.Within prior (rows ++ data) n) (Raised faults id prior n) := by
  have hloop : Prog.Triple (TableSession.Within prior (rows ++ ([] : List (List ρ)).flatten) n)
      (pgInsertRows faults data) (fun _ => TableSession.Within prior (rows ++ ([] ++ pages data).flatten) n)
      (Raised faults id prior n) := by
    refine Prog.Triple.forM (fun done => TableSession.Within prior (rows ++ done.flatten) n)
      fun before page after _ => ?_
    rw [List.flatten_append, List.flatten_singleton, ← List.append_assoc]
    exact within_triple (.inr (.inr ⟨page, rfl⟩)) prior (rows ++ before.flatten) n
  rwa [List.nil_append, flatten_pages, List.flatten_nil, List.append_nil] at hloop

theorem insertArrow_triple (hfaults : CleanupFaults faults driverError) (prior rows data : List ρ) (n : ℕ) :
    Prog.Triple (TableSession.Within prior rows n) (insertArrow faults driverError guard data)
      (fun _ => TableSession.Within prior (rows ++ data) n) (Raised faults guard prior n) := by
  refine Prog.Triple.bind (runGuarded_triple (within_triple (.inr (.inl rfl)) prior rows n)) fun _ => ?_
  refine Prog.Triple.always (runGuarded_triple (within_triple (.inr (.inr ⟨data, rfl⟩)) prior rows n))
    (fun _ => ?_) fun e => ?_
  · exact cleanup_triple hfaults rfl (fun s hs => ⟨hs.committed, hs.pending, hs.commits⟩)
      fun s fault hs => ⟨hs.committed, hs.pending, hs.commits⟩
  · exact cleanup_triple hfaults rfl (fun s hs => hs.cleanup rfl rfl rfl rfl)
      fun s fault hs => hs.cleanup rfl rfl rfl rfl

theorem insert_triple (hfaults : CleanupFaults faults driverError) (engine : LoadEngine) (prior rows data : List ρ)
    (n : ℕ) : Prog.Triple (TableSession.Within prior rows n) (engine.insert faults driverError guard data)
      (fun _ => TableSession.Within prior (rows ++ data) n) (Raised faults (engine.raised guard) prior n) := by
  cases engine with
  | postgres => exact pgInsertRows_triple prior rows data n
  | duckdb => exact insertArrow_triple hfaults prior rows data n

theorem clear_triple (engine : LoadEngine) (prior rows : List ρ) (n : ℕ) :
    Prog.Triple (TableSession.Within prior rows n) (engine.clear faults guard)
      (fun _ => TableSession.Within prior [] n) (Raised faults (engine.raised guard) prior n) := by
  have hclear := @within_triple ρ faults .clear (.inl rfl) prior rows n
  cases engine with
  | postgres => exact hclear
  | duckdb => exact runGuarded_triple hclear

/-! ## Transactions -/

/-- **A transaction** writes what its body has made, or raises. -/
theorem transaction_triple (hfaults : CleanupFaults faults driverError) (engine : LoadEngine)
    {body : Prog Exc (TableSession ρ) Unit} {prior rows : List ρ} {n : ℕ}
    (hbody : Prog.Triple (TableSession.Within prior prior n) body (fun _ => TableSession.Within prior rows n)
      (Raised faults (engine.raised guard) prior n)) :
    Prog.Triple (TableSession.Outside prior n) (engine.transaction faults driverError guard body)
      (fun _ => TableSession.Written rows n) (Raised faults (engine.raised guard) prior n) := by
  cases engine with
  | postgres =>
    refine Prog.Triple.bind (start_triple prior n) fun _ => ?_
    refine Prog.Triple.handle (Prog.Triple.bind hbody fun _ => commit_triple prior rows n) fun e => ?_
    split_ifs
    · exact Prog.Triple.bind (rollback_triple hfaults prior n e) fun _ => Prog.Triple.raise fun _ hs => hs
    · exact Prog.Triple.raise fun _ hs => hs
  | duckdb =>
    refine Prog.Triple.bind (runGuarded_triple (start_triple prior n)) fun _ => ?_
    refine Prog.Triple.bind (Prog.Triple.handle hbody fun e => ?_) fun _ =>
      runGuarded_triple (commit_triple prior rows n)
    exact Prog.Triple.bind (rollback_triple hfaults prior n e) fun _ => Prog.Triple.raise fun _ hs => hs

theorem load_triple (hfaults : CleanupFaults faults driverError) (engine : LoadEngine) (prior data : List ρ) (n : ℕ) :
    Prog.Triple (TableSession.Outside prior n) (engine.load faults driverError guard data)
      (fun _ => TableSession.Written data n) (Raised faults (engine.raised guard) prior n) := by
  refine transaction_triple hfaults engine (Prog.Triple.bind (clear_triple engine prior prior n) fun _ => ?_)
  cases data with
  | nil => exact Prog.Triple.pure fun s hs => hs
  | cons row data => exact insert_triple hfaults engine prior [] (row :: data) n

theorem append_triple (hfaults : CleanupFaults faults driverError) (engine : LoadEngine) (prior : List ρ) (row : ρ)
    (data : List ρ) (n : ℕ) : Prog.Triple (TableSession.Outside prior n)
      (engine.append faults driverError guard (row :: data))
      (fun _ => TableSession.Written (prior ++ row :: data) n) (Raised faults (engine.raised guard) prior n) :=
  transaction_triple hfaults engine (insert_triple hfaults engine prior prior (row :: data) n)

/-- **All or nothing**: a method that returns has written its result; one that raises
    before a `COMMIT` has taken effect leaves the committed rows as they were; the
    error is that of the statement that failed first, not of the cleanup behind it;
    and an append of no rows sends nothing. -/
theorem write_atomic (engine : LoadEngine) (op : WriteOp) (faults : LoadFaults ρ) (driverError : ExcClass → Bool)
    (guard : Exc → Exc) (hfaults : CleanupFaults faults driverError) (data : List ρ) (s : TableSession ρ)
    (hidle : s.pending = none) :
    (∀ s', engine.write faults driverError guard op data s = (.ok (), s') →
      s'.committed = op.result s.committed data) ∧
    (∀ e s', engine.write faults driverError guard op data s = (.error e, s') →
      (s'.commits = s.commits → s'.committed = s.committed) ∧
      ∃ before stmt fault cleanup, faults before stmt = some fault ∧ stmt.isCleanup = false ∧
        e = engine.raised guard fault.exc ∧ s'.sent = before ++ stmt :: cleanup ∧
        ∀ c ∈ cleanup, c.isCleanup = true) ∧
    (op = .append → data = [] → engine.write faults driverError guard op data s = (.ok (), s)) := by
  have houtside : s.Outside s.committed s.commits := ⟨rfl, hidle, rfl⟩
  cases op with
  | load =>
    obtain ⟨hok, herror⟩ :=
      @load_triple ρ faults driverError guard hfaults engine s.committed data s.commits s houtside
    refine ⟨fun s' h => (hok _ _ h).committed, fun e s' h => ?_, fun h => by cases h⟩
    exact ⟨(herror _ _ h).kept, (herror _ _ h).original⟩
  | append =>
    cases data with
    | nil =>
      have hnothing : engine.write faults driverError guard .append [] s = (.ok (), s) := rfl
      refine ⟨fun s' h => ?_, fun e s' h => ?_, fun _ _ => hnothing⟩
      · cases hnothing.symm.trans h
        exact (List.append_nil _).symm
      · cases hnothing.symm.trans h
    | cons row data =>
      obtain ⟨hok, herror⟩ :=
        @append_triple ρ faults driverError guard hfaults engine s.committed row data s.commits s houtside
      refine ⟨fun s' h => (hok _ _ h).committed, fun e s' h => ?_, fun _ h => by cases h⟩
      exact ⟨(herror _ _ h).kept, (herror _ _ h).original⟩

/-- A server that refuses the `COMMIT`, and the `ROLLBACK` behind it. -/
def refusingFaults : LoadFaults ℕ
  | _, .commit => some ⟨.text (.other (py "OperationalError")) (py "commit"), false, false⟩
  | _, .rollback => some ⟨.text (.other (py "InterfaceError")) (py "rollback"), false, false⟩
  | _, _ => none

theorem write_atomic_refused : ∃ e s', LoadEngine.postgres.write refusingFaults (fun _ => true) id .load [1, 2]
    ⟨[0], none, 0, []⟩ = (.error e, s') ∧ s'.committed = [0] ∧
      e = .text (.other (py "OperationalError")) (py "commit") :=
  ⟨_, _, rfl, ((write_atomic .postgres .load refusingFaults (fun _ => true) id (fun _ _ _ _ _ => rfl) [1, 2]
    ⟨[0], none, 0, []⟩ rfl).2.1 _ _ rfl).1 rfl, rfl⟩

end

end ContinuoRuntime
