/-
  `while True` loops: a body that leaves with a result or goes round again.

  * `run` makes at most so many rounds, `Returns` allows any number of them;
  * `Returns.unique`: a loop has at most one result;
  * `returns_of_variant`: an invariant that every round keeps, and a number that
    every round lowers, give a result.
-/
import Mathlib

namespace ContinuoRuntime.Loop

variable {σ ρ : Type}

/-- The loop, for at most so many rounds. -/
def run (body : σ → ρ ⊕ σ) : ℕ → σ → Option ρ
  | 0, _ => none
  | fuel + 1, s => match body s with
    | .inl r => some r
    | .inr s' => run body fuel s'

/-- The loop leaves with `r`. -/
def Returns (body : σ → ρ ⊕ σ) (s : σ) (r : ρ) : Prop := ∃ fuel, run body fuel s = some r

variable {body : σ → ρ ⊕ σ}

theorem run_succ_inl {s : σ} {r : ρ} (h : body s = .inl r) (fuel : ℕ) :
    run body (fuel + 1) s = some r := by
  rw [run, h]

theorem run_succ_inr {s s' : σ} (h : body s = .inr s') (fuel : ℕ) :
    run body (fuel + 1) s = run body fuel s' := by
  rw [run, h]

theorem returns_of_inl {s : σ} {r : ρ} (h : body s = .inl r) : Returns body s r :=
  ⟨1, run_succ_inl h 0⟩

theorem returns_of_inr {s s' : σ} {r : ρ} (h : body s = .inr s') :
    Returns body s' r → Returns body s r := by
  rintro ⟨fuel, hr⟩
  exact ⟨fuel + 1, by rw [run_succ_inr h, hr]⟩

/-- More rounds do not change a result. -/
theorem run_mono : ∀ {fuel fuel' : ℕ} {s : σ} {r : ρ}, run body fuel s = some r → fuel ≤ fuel' →
    run body fuel' s = some r
  | 0, _, _, _, h, _ => by cases h
  | fuel + 1, 0, _, _, _, hle => absurd hle (by omega)
  | fuel + 1, fuel' + 1, s, r, h, hle => by
    cases hb : body s with
    | inl r' => rwa [run_succ_inl hb] at h ⊢
    | inr s' =>
      rw [run_succ_inr hb] at h ⊢
      exact run_mono h (by omega)

/-- **At most one result.** -/
theorem Returns.unique {s : σ} {r r' : ρ} (h : Returns body s r) (h' : Returns body s r') : r = r' := by
  obtain ⟨n, hn⟩ := h
  obtain ⟨n', hn'⟩ := h'
  have h1 := run_mono hn (Nat.le_max_left n n')
  rw [run_mono hn' (Nat.le_max_right n n')] at h1
  exact (Option.some.inj h1).symm

/-- **Total correctness**: what every round keeps and lowers. -/
theorem returns_of_variant (Inv : σ → Prop) (Post : ρ → Prop) (m : σ → ℕ)
    (hround : ∀ s, Inv s → (∃ r, body s = .inl r ∧ Post r) ∨ ∃ s', body s = .inr s' ∧ Inv s' ∧ m s' < m s)
    {s : σ} (hs : Inv s) : ∃ r, Returns body s r ∧ Post r := by
  induction hm : m s using Nat.strong_induction_on generalizing s with
  | _ n ih =>
    rcases hround s hs with ⟨r, hr, hpost⟩ | ⟨s', hs', hinv, hlt⟩
    · exact ⟨r, returns_of_inl hr, hpost⟩
    · obtain ⟨r, hr, hpost⟩ := ih (m s') (hm ▸ hlt) hinv rfl
      exact ⟨r, returns_of_inr hs' hr, hpost⟩

end ContinuoRuntime.Loop
