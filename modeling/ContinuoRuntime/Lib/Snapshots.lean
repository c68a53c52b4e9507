/-
  Committed states under snapshot isolation.

  A store is the list of changes committed so far, over a base state; a snapshot is
  a position in that list.  A transaction reads its snapshot with its own changes,
  and its commit appends them, unless an object that it creates was created in
  between.

  * `now_push`, `snapshot_push`, `since_push`: what a commit does to the present state, and
    what it leaves of the snapshots before it;
  * `now_eq`: the present state is a snapshot with what came since.
-/
import Mathlib.Data.List.Basic

namespace ContinuoRuntime

namespace Snapshots

variable {σ δ κ : Type}

/-- A base state, and the changes committed to it. -/
structure History (σ δ : Type) where
  base : σ
  log : List δ

/-- A transaction: the position of its snapshot, and its changes. -/
structure Transaction (δ : Type) where
  start : ℕ
  changes : List δ

namespace History

variable (apply : σ → δ → σ) (h : History σ δ)

/-- The present state. -/
def now : σ := h.log.foldl apply h.base

/-- The state at a position. -/
def snapshot (n : ℕ) : σ := (h.log.take n).foldl apply h.base

/-- The changes since a position. -/
def since (n : ℕ) : List δ := h.log.drop n

/-- The history with more changes. -/
def push (changes : List δ) : History σ δ := ⟨h.base, h.log ++ changes⟩

variable {apply h}

theorem now_push {changes : List δ} : (h.push changes).now apply = changes.foldl apply (h.now apply) :=
  List.foldl_append

theorem snapshot_push {n : ℕ} {changes : List δ} (hn : n ≤ h.log.length) :
    (h.push changes).snapshot apply n = h.snapshot apply n := by
  rw [History.snapshot, History.snapshot, push, List.take_append_of_le_length hn]

theorem since_push {n : ℕ} {changes : List δ} (hn : n ≤ h.log.length) :
    (h.push changes).since n = h.since n ++ changes :=
  List.drop_append_of_le_length hn

theorem snapshot_length : h.snapshot apply h.log.length = h.now apply := by
  rw [History.snapshot, List.take_length, now]

theorem since_length : h.since h.log.length = [] := List.drop_length

theorem now_eq (n : ℕ) : h.now apply = (h.since n).foldl apply (h.snapshot apply n) := by
  rw [History.snapshot, since, ← List.foldl_append, List.take_append_drop, now]

end History

namespace Transaction

variable (apply : σ → δ → σ) (creates : δ → Option κ)

/-- A transaction on the present state. -/
def begin (h : History σ δ) : Transaction δ := ⟨h.log.length, []⟩

/-- The transaction with one more change. -/
def add (tx : Transaction δ) (change : δ) : Transaction δ := ⟨tx.start, tx.changes ++ [change]⟩

/-- What the transaction sees. -/
def view (tx : Transaction δ) (h : History σ δ) : σ := tx.changes.foldl apply (h.snapshot apply tx.start)

/-- An object that the transaction creates was created since its snapshot. -/
def Clashes (tx : Transaction δ) (h : History σ δ) : Prop :=
  ∃ c ∈ tx.changes, ∃ c' ∈ h.since tx.start, ∃ object, creates c = some object ∧ creates c' = some object

theorem not_clashes_nil {n : ℕ} {h : History σ δ} : ¬ Clashes creates ⟨n, []⟩ h := by
  rintro ⟨c, hc, -⟩
  cases hc

end Transaction

end Snapshots

end ContinuoRuntime
