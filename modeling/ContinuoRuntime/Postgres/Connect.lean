/-
  `from_env` of the Postgres adapter: up to five attempts to connect.

  The server answers each attempt as it likes, from what came before.

  * `fromEnv`: the method, over a list of what it has done;
  * `fromEnv_attempts`: **what it tries, and why it stops**.
-/
import ContinuoRuntime.Lib.Calls
import ContinuoRuntime.Libpq
import ContinuoRuntime.Python.Exc

namespace ContinuoRuntime
namespace PgConnect

/-- `_CONNECT_ATTEMPTS`. -/
def connectAttempts : ℕ := 5

/-- `_CONNECT_RETRY_SECONDS`. -/
def connectRetrySeconds : ℕ := 2

/-- The arguments of `psycopg2.connect`. -/
structure Params where
  host : Str
  port : Str
  dbname : Str
  user : Str
  password : Str

/-- What the method does. -/
inductive Event where
  /-- `psycopg2.connect`, and what it raised -/
  | connect (params : Params) (raised : Option Exc)
  | sleep (seconds : ℕ)

/-- Everything around the method. -/
structure World where
  /-- `os.environ` -/
  environ : Str → Option Str
  /-- what `psycopg2.connect` raises, after these events -/
  raises : List Event → Params → Option Exc
  /-- `issubclass(c, psycopg2.OperationalError)` -/
  isOperational : ExcClass → Bool

variable (w : World)

/-- `os.environ[name]`. -/
def needed (name : Str) : Except Exc Str :=
  match w.environ name with
  | some value => .ok value
  | none => .error (.text (.other (py "KeyError")) name)

/-- `params`. -/
def params : Except Exc Params := do
  let host ← needed w (py "POSTGRES_HOST")
  let dbname ← needed w (py "POSTGRES_DB")
  let user ← needed w (py "POSTGRES_USER")
  .ok ⟨host, (w.environ (py "POSTGRES_PORT")).getD (py "5432"), dbname, user,
    (w.environ (py "POSTGRES_PASSWORD")).getD []⟩

/-- `psycopg2.connect(**params)`. -/
def connect (p : Params) : Prog Exc (List Event) Unit := Prog.record (fun events => w.raises events p) (.connect p)

/-- `sleep(seconds)`. -/
def sleep (seconds : ℕ) : Prog Exc (List Event) Unit := fun events => (.ok (), events ++ [.sleep seconds])

/-- The handler of an attempt, with so many attempts left. -/
def failed (left : ℕ) (e : Exc) : Prog Exc (List Event) Unit :=
  if w.isOperational e.cls then
    if left = 0 then Prog.raise e
    else do
      let message ← Prog.lift e.str
      if isUnreachable message then sleep connectRetrySeconds else Prog.raise e
  else Prog.raise e

/-- `from_env`, up to the adapter over the connection. -/
def fromEnv : Prog Exc (List Event) Unit := do
  let p ← Prog.lift (params w)
  Prog.retry (connect w p) (failed w) (.text (.other (py "AssertionError")) (py "unreachable")) connectAttempts

/-- A failure that is tried again: a server that nothing has answered. -/
def Transient (e : Exc) : Prop := w.isOperational e.cls = true ∧ ∃ message, e.str = .ok message ∧ isUnreachable message

/-- The attempts that were tried again. -/
def retried (p : Params) (failures : List Exc) : List Event :=
  failures.flatMap fun e => [.connect p (some e), .sleep connectRetrySeconds]

/-- Transient failures only, with a further attempt that has ended like this. -/
structure Attempted (p : Params) (before : List Event) (failures : List Exc) (raised : Option Exc)
    (events : List Event) : Prop where
  transient : ∀ e ∈ failures, Transient w e
  events : events = before ++ retried p failures ++ [.connect p raised]

/-- Before an attempt, with so many left. -/
def Trying (p : Params) (before : List Event) (left : ℕ) (events : List Event) : Prop :=
  0 < left ∧ ∃ failures, failures.length + left = connectAttempts ∧ (∀ e ∈ failures, Transient w e) ∧
    events = before ++ retried p failures

/-- Behind an attempt that has failed, with so many left. -/
def Failed (p : Params) (before : List Event) (left : ℕ) (e : Exc) (events : List Event) : Prop :=
  ∃ failures, failures.length + left + 1 = connectAttempts ∧ Attempted w p before failures (some e) events

/-- The last failure is raised, or what its text raises. -/
def GaveUp (p : Params) (before : List Event) (raised : Exc) (events : List Event) : Prop :=
  ∃ failures e, failures.length < connectAttempts ∧ Attempted w p before failures (some e) events ∧
    (Transient w e → failures.length + 1 = connectAttempts) ∧ (raised = e ∨ e.str = .error raised)

/-- The connection is there. -/
def Connected (p : Params) (before : List Event) (events : List Event) : Prop :=
  ∃ failures, failures.length < connectAttempts ∧ Attempted w p before failures none events

section
variable {w} {p : Params} {before : List Event}

theorem connect_triple (left : ℕ) : Prog.Triple (Trying w p before (left + 1)) (connect w p)
    (fun _ => Connected w p before) (Failed w p before left) := by
  refine Prog.Triple.record ?_ ?_
  · rintro events ⟨-, failures, hlength, htransient, rfl⟩
    exact ⟨failures, by omega, htransient, rfl⟩
  · rintro events e ⟨-, failures, hlength, htransient, rfl⟩ -
    exact ⟨failures, by omega, htransient, rfl⟩

/-- A failure that is not transient, or the last one. -/
theorem Failed.gaveUp {left : ℕ} {e raised : Exc} {events : List Event} (h : Failed w p before left e events)
    (hlast : Transient w e → left = 0) (hraised : raised = e ∨ e.str = .error raised) :
    GaveUp w p before raised events := by
  obtain ⟨failures, hlength, hattempted⟩ := h
  exact ⟨failures, e, by omega, hattempted, fun htransient => by have := hlast htransient; omega, hraised⟩

theorem failed_triple (left : ℕ) (e : Exc) : Prog.Triple (Failed w p before left e) (failed w left e)
    (fun _ => Trying w p before left) (GaveUp w p before) := by
  unfold failed
  split_ifs with hoperational hleft
  · exact Prog.Triple.raise fun events h => h.gaveUp (fun _ => hleft) (.inl rfl)
  · refine Prog.Triple.bind (Q := fun message events => e.str = .ok message ∧ Failed w p before left e events)
      (Prog.Triple.lift (fun message hstr events h => ⟨hstr, h⟩) fun inner hstr events h => ?_) fun message => ?_
    · refine h.gaveUp (fun htransient => ?_) (.inr hstr)
      obtain ⟨-, message, hmessage, -⟩ := htransient
      rw [hstr] at hmessage
      cases hmessage
    · split_ifs with hunreachable
      · rintro events ⟨hstr, failures, hlength, htransient, rfl⟩
        refine ⟨fun a s h => ?_, fun e s h => (by cases h)⟩
        cases h
        refine ⟨Nat.pos_of_ne_zero hleft, failures ++ [e], ?_, fun e' he' => ?_, by simp [retried]⟩
        · rw [List.length_append, List.length_singleton]
          omega
        · rcases List.mem_append.1 he' with he' | he'
          · exact htransient e' he'
          · rw [List.mem_singleton.1 he']
            exact ⟨hoperational, message, hstr, hunreachable⟩
      · refine Prog.Triple.raise fun events h => h.2.gaveUp (fun htransient => ?_) (.inl rfl)
        obtain ⟨-, message', hmessage, h'⟩ := htransient
        rw [h.1] at hmessage
        cases hmessage
        exact absurd h' hunreachable
  · exact Prog.Triple.raise fun events h => h.gaveUp (fun htransient => absurd htransient.1 hoperational) (.inl rfl)

/-- All the attempts. -/
theorem retry_triple (exhausted : Exc) : Prog.Triple (Trying w p before connectAttempts)
    (Prog.retry (connect w p) (failed w) exhausted connectAttempts) (fun _ => Connected w p before)
    (GaveUp w p before) := by
  refine Prog.Triple.retry connect_triple failed_triple ?_ connectAttempts
  rintro events ⟨hleft, -⟩
  exact absurd hleft (Nat.lt_irrefl 0)

end

/-- **What `from_env` tries, and why it stops**: without a needed variable it raises before
    it connects.  Otherwise every attempt but the last failed without a server having
    answered, each was followed by one pause, and there were at most five; the last one
    connected, or its failure is raised, and then it was another failure or the fifth. -/
theorem fromEnv_attempts (w : World) (before : List Event) :
    (∃ e, params w = .error e ∧ fromEnv w before = (.error e, before)) ∨
      ∃ p, params w = .ok p ∧
        (((fromEnv w before).1 = .ok () ∧ Connected w p before (fromEnv w before).2) ∨
          ∃ e, (fromEnv w before).1 = .error e ∧ GaveUp w p before e (fromEnv w before).2) := by
  cases hparams : params w with
  | error e =>
    refine .inl ⟨e, rfl, ?_⟩
    unfold fromEnv
    rw [hparams]
    rfl
  | ok p =>
    have hrun : fromEnv w before = Prog.retry (connect w p) (failed w)
        (.text (.other (py "AssertionError")) (py "unreachable")) connectAttempts before := by
      unfold fromEnv
      rw [hparams]
      rfl
    have hstart : Trying w p before connectAttempts before :=
      ⟨by decide, [], rfl, fun e he => absurd he List.not_mem_nil, (List.append_nil before).symm⟩
    obtain ⟨hok, herror⟩ := retry_triple (.text (.other (py "AssertionError")) (py "unreachable")) before hstart
    rw [← hrun] at hok herror
    refine .inr ⟨p, rfl, ?_⟩
    rcases hout : fromEnv w before with ⟨e | u, events⟩
    · exact .inr ⟨e, rfl, herror e events hout⟩
    · exact .inl ⟨rfl, hok () events hout⟩

end PgConnect
end ContinuoRuntime
