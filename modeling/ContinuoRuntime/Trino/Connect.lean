/-
  `from_env` of the Trino adapter: up to five first requests.

  The coordinator and the clock answer as they like, from what came before; exceptions are
  objects with a cause and a context, which may form a cycle.

  * `isUnreachable_eq_true`: `_is_unreachable` finds an errno anywhere on the chain;
  * `connects_or_closes`: **what `from_env` tries, why it stops, and that it closes**.
-/
import ContinuoRuntime.Lib.Chain
import ContinuoRuntime.Lib.Calls

namespace ContinuoRuntime
namespace TrinoConnect

/-- `_CONNECT_ATTEMPTS`. -/
def connectAttempts : ℕ := 5

/-- What `from_env` calls. -/
inductive Call where
  /-- `adapter._execute("SELECT 1")` -/
  | request
  /-- `sleep(_CONNECT_RETRY_SECONDS)` -/
  | sleep
  /-- `adapter.close()` -/
  | close

/-- A reading of the clock, or a call and what it raised. -/
inductive Event (α T : Type) where
  | clock (reading : T)
  | call (c : Call) (raised : Option α)

/-- Everything around the method: exceptions `α`, readings `T`. -/
structure World (α T : Type) where
  /-- `isinstance(e, OSError) and e.errno in _UNREACHABLE_ERRNOS` -/
  unreachableErrno : α → Bool
  /-- `__cause__` -/
  cause : α → Option α
  /-- `__context__` -/
  context : α → Option α
  /-- `isinstance(e, Exception)` -/
  isException : α → Bool
  /-- `now - started > _FAST_FAILURE_SECONDS` -/
  late : (started now : T) → Bool
  clock : List (Event α T) → T
  raises : List (Event α T) → Call → Option α
  /-- how `_from_env_unconnected` ends -/
  unconnected : Except α Unit
  /-- the `AssertionError` behind the loop -/
  assertion : α

variable {α T : Type} [Fintype α] [DecidableEq α] (w : World α T)

/-- `current.__cause__ or current.__context__`. -/
def next (e : α) : Option α := (w.cause e).or (w.context e)

/-- `_is_unreachable`. -/
def isUnreachable (e : α) : Option Bool :=
  Chain.walk (next w) w.unreachableErrno (Fintype.card α + 1) [] (some e)

/-- `clock()`. -/
def readClock : Prog α (List (Event α T)) T := fun events =>
  (.ok (w.clock events), events ++ [.clock (w.clock events)])

/-- A call. -/
def call (c : Call) : Prog α (List (Event α T)) Unit := Prog.record (fun events => w.raises events c) (.call c)

/-- The loop, with so many attempts left. -/
def attempts : ℕ → Prog α (List (Event α T)) Unit
  | 0 => Prog.raise w.assertion
  | left + 1 => do
    let started ← readClock w
    (call w .request).handle fun e =>
      if left = 0 ∨ w.isException e = false ∨ isUnreachable w e ≠ some true then Prog.raise e
      else do
        let now ← readClock w
        if w.late started now then Prog.raise e
        else do
          call w .sleep
          attempts left

/-- `from_env`. -/
def fromEnv : Prog α (List (Event α T)) Unit := do
  Prog.lift w.unconnected
  (attempts w connectAttempts).handle fun e => do
    call w .close
    Prog.raise e

/-! ## The chain of an exception -/

/-- An exception on the chain has one of the errnos. -/
def Unreachable (e : α) : Prop := ∃ b, Chain.OnChain (next w) e b ∧ w.unreachableErrno b = true

/-- **`_is_unreachable`** ends, on cycles too. -/
theorem isUnreachable_eq_true (e : α) :
    isUnreachable w e ≠ none ∧ (isUnreachable w e = some true ↔ Unreachable w e) := by
  obtain ⟨found, hwalk, hfound⟩ := Chain.walk_eq (next w) w.unreachableErrno e
  unfold isUnreachable
  rw [hwalk]
  exact ⟨Option.some_ne_none found, Option.some_inj.trans hfound⟩

/-! ## Attempts -/

/-- An attempt that is tried again. -/
structure Failure (α T : Type) where
  started : T
  raised : α
  now : T

/-- The coordinator has not answered, and fast. -/
structure Transient (f : Failure α T) : Prop where
  isException : w.isException f.raised = true
  unreachable : Unreachable w f.raised
  fast : w.late f.started f.now = false

/-- The events of such attempts. -/
def retried (failures : List (Failure α T)) : List (Event α T) :=
  failures.flatMap fun f => [.clock f.started, .call .request (some f.raised), .clock f.now, .call .sleep none]

/-- Behind a failed request: what is raised, and what has happened since. -/
inductive Stop (tried : ℕ) (started : T) (e : α) : α → List (Event α T) → Prop
  | raised (h : tried = connectAttempts ∨ w.isException e = false ∨ ¬ Unreachable w e) : Stop tried started e e []
  | late {now : T} (h : w.late started now = true) : Stop tried started e e [.clock now]
  | interrupted {now : T} (raised : α) : Stop tried started e raised [.clock now, .call .sleep (some raised)]

/-- Before an attempt, with so many left. -/
def Trying (left : ℕ) (events : List (Event α T)) : Prop :=
  0 < left ∧ ∃ failures, failures.length + left = connectAttempts ∧ (∀ f ∈ failures, Transient w f) ∧
    events = retried failures

/-- The last request has been answered. -/
def Connected (events : List (Event α T)) : Prop :=
  ∃ failures started, failures.length < connectAttempts ∧ (∀ f ∈ failures, Transient w f) ∧
    events = retried failures ++ [.clock started, .call .request none]

/-- The last request has failed. -/
def GaveUp (raised : α) (events : List (Event α T)) : Prop :=
  ∃ failures started e rest, failures.length < connectAttempts ∧ (∀ f ∈ failures, Transient w f) ∧
    Stop w (failures.length + 1) started e raised rest ∧
    events = retried failures ++ .clock started :: .call .request (some e) :: rest

section
variable {w}

omit [Fintype α] [DecidableEq α] in
theorem readClock_triple {P : List (Event α T) → Prop} {Q : T → List (Event α T) → Prop}
    {R : α → List (Event α T) → Prop} (h : ∀ events reading, P events → Q reading (events ++ [.clock reading])) :
    Prog.Triple P (readClock w) Q R := by
  intro events hevents
  refine ⟨fun reading s hs => ?_, fun e s hs => (by cases hs)⟩
  cases hs
  exact h events _ hevents

/-- The loop, by how many attempts are left. -/
theorem attempts_triple (left : ℕ) :
    Prog.Triple (Trying w left) (attempts w left) (fun _ => Connected w) (GaveUp w) := by
  induction left with
  | zero =>
    rintro events ⟨hpos, -⟩
    exact absurd hpos (Nat.lt_irrefl 0)
  | succ left ih =>
    rintro events ⟨-, failures, hlength, htransient, hevents⟩
    have hlt : failures.length < connectAttempts := by omega
    have hround : Prog.Triple (fun s => s = retried failures) (attempts w (left + 1)) (fun _ => Connected w)
        (GaveUp w) := by
      unfold attempts
      refine Prog.Triple.bind (Q := fun started s => s = retried failures ++ [.clock started])
        (readClock_triple fun s reading hs => by rw [hs]) fun started => ?_
      refine Prog.Triple.handle
        (S := fun e s => s = retried failures ++ [.clock started, .call .request (some e)]) ?_ fun e => ?_
      · refine Prog.Triple.record ?_ ?_
        · rintro s rfl
          exact ⟨failures, started, hlt, htransient, List.append_assoc ..⟩
        · rintro s e rfl -
          exact List.append_assoc ..
      split_ifs with hstop
      · refine Prog.Triple.raise fun s hs => ⟨failures, started, e, [], hlt, htransient, .raised ?_, hs⟩
        rcases hstop with hlast | hforeign | hreached
        · exact .inl (by omega)
        · exact .inr (.inl hforeign)
        · exact .inr (.inr fun h => hreached ((isUnreachable_eq_true w e).2.2 h))
      · rw [not_or, not_or, Bool.not_eq_false, not_not] at hstop
        obtain ⟨hleft, hexception, hreached⟩ := hstop
        refine Prog.Triple.bind
          (Q := fun now s => s = retried failures ++ [.clock started, .call .request (some e), .clock now])
          (readClock_triple fun s reading hs => by rw [hs, List.append_assoc]; rfl) fun now => ?_
        split_ifs with hlate
        · exact Prog.Triple.raise fun s hs =>
            ⟨failures, started, e, [.clock now], hlt, htransient, .late hlate, hs⟩
        · refine Prog.Triple.bind (Prog.Triple.record (Q := Trying w left) ?_ ?_) fun _ => ih
          · rintro s rfl
            refine ⟨Nat.pos_of_ne_zero hleft, failures ++ [⟨started, e, now⟩], ?_, fun f hf => ?_, ?_⟩
            · rw [List.length_append, List.length_singleton]
              omega
            · rcases List.mem_append.1 hf with hf | hf
              · exact htransient f hf
              · rw [List.mem_singleton.1 hf]
                exact ⟨hexception, (isUnreachable_eq_true w e).2.1 hreached, Bool.eq_false_iff.2 hlate⟩
            · simp [retried]
          · rintro s raised rfl -
            exact ⟨failures, started, e, [.clock now, .call .sleep (some raised)], hlt, htransient,
              .interrupted raised, by simp⟩
    exact hround events hevents

end

/-- **What `from_env` tries, why it stops, and that it closes**: every request but the last was
    not answered, failed fast, and was followed by one pause; there are at most five.  The
    last one is answered; or what `Stop` says is raised, once the adapter is closed. -/
theorem connects_or_closes (w : World α T) :
    (∃ e, w.unconnected = .error e ∧ fromEnv w [] = (.error e, [])) ∨
      w.unconnected = .ok () ∧
        (((fromEnv w []).1 = .ok () ∧ Connected w (fromEnv w []).2) ∨
          ∃ e events closing, GaveUp w e events ∧ (fromEnv w []).2 = events ++ [.call .close closing] ∧
            (fromEnv w []).1 = .error (closing.getD e)) := by
  cases hunconnected : w.unconnected with
  | error e =>
    refine .inl ⟨e, rfl, ?_⟩
    unfold fromEnv
    rw [hunconnected]
    rfl
  | ok u =>
    refine .inr ⟨rfl, ?_⟩
    have hrun : fromEnv w [] = ((attempts w connectAttempts).handle fun e => do
        call w .close
        Prog.raise e) [] := by
      unfold fromEnv
      rw [hunconnected]
      rfl
    have hclose : Prog.Triple (Trying w connectAttempts)
        ((attempts w connectAttempts).handle fun e => do
          call w .close
          Prog.raise e) (fun _ => Connected w)
        (fun raised s => ∃ e events closing, GaveUp w e events ∧ s = events ++ [.call .close closing] ∧
          raised = closing.getD e) := by
      refine (attempts_triple connectAttempts).handle fun e => ?_
      refine Prog.Triple.bind (Prog.Triple.record (Q := fun s => ∃ events, GaveUp w e events ∧
        s = events ++ [.call .close none]) (fun s hs => ⟨s, hs, rfl⟩) fun s raised hs _ =>
          ⟨e, s, some raised, hs, rfl, rfl⟩) fun _ => Prog.Triple.raise ?_
      rintro s ⟨events, hgave, rfl⟩
      exact ⟨e, events, none, hgave, rfl, rfl⟩
    obtain ⟨hok, herror⟩ := hclose [] ⟨by decide, [], rfl, fun f hf => absurd hf List.not_mem_nil, rfl⟩
    rw [← hrun] at hok herror
    rcases hout : fromEnv w [] with ⟨e | u, events⟩
    · obtain ⟨inner, before, closing, hgave, hevents, hraised⟩ := herror e events hout
      exact .inr ⟨inner, before, closing, hgave, hevents, congrArg _ hraised⟩
    · exact .inl ⟨rfl, hok () events hout⟩

end TrinoConnect
end ContinuoRuntime
