/-
  Programs with a state and exceptions, and their rules of pre- and
  postconditions.

  What a program did to the state stays when it raises, and a handler starts
  from there.  `Triple P x Q R`: from a state with `P`, `x` returns with `Q` or
  raises with `R`.
-/
import Mathlib.Data.Nat.Notation
import Mathlib.Logic.Basic

namespace ContinuoRuntime

/-- A program over a state `σ` that may raise an `ε`. -/
def Prog (ε σ α : Type) : Type := σ → Except ε α × σ

namespace Prog
variable {ε σ α β : Type}

instance : Monad (Prog ε σ) where
  pure a := fun s => (.ok a, s)
  bind x f := fun s => match x s with
    | (.ok a, s') => f a s'
    | (.error e, s') => (.error e, s')

/-- `raise e`. -/
def raise (e : ε) : Prog ε σ α := fun s => (.error e, s)

/-- A computation that leaves the state alone. -/
def lift (x : Except ε α) : Prog ε σ α := fun s => (x, s)

/-- `try: x except: handler`. -/
def handle (x : Prog ε σ α) (handler : ε → Prog ε σ α) : Prog ε σ α := fun s => match x s with
  | (.ok a, s') => (.ok a, s')
  | (.error e, s') => handler e s'

/-- `try: x finally: last`: what `last` raises comes in place of what `x` raised. -/
def always (x : Prog ε σ α) (last : Prog ε σ Unit) : Prog ε σ α := fun s => match x s with
  | (result, s') => match last s' with
    | (.ok (), s'') => (result, s'')
    | (.error e, s'') => (.error e, s'')

theorem bind_of_ok {x : Prog ε σ α} {f : α → Prog ε σ β} {a : α} {s s' : σ} (h : x s = (.ok a, s')) :
    (x >>= f) s = f a s' := by
  have hbind : (x >>= f) s = match x s with
    | (.ok a, s') => f a s'
    | (.error e, s') => (.error e, s') := rfl
  rw [hbind, h]

theorem bind_of_error {x : Prog ε σ α} {f : α → Prog ε σ β} {e : ε} {s s' : σ} (h : x s = (.error e, s')) :
    (x >>= f) s = (.error e, s') := by
  have hbind : (x >>= f) s = match x s with
    | (.ok a, s') => f a s'
    | (.error e, s') => (.error e, s') := rfl
  rw [hbind, h]

theorem handle_of_ok {x : Prog ε σ α} {handler : ε → Prog ε σ α} {a : α} {s s' : σ} (h : x s = (.ok a, s')) :
    x.handle handler s = (.ok a, s') := by
  unfold Prog.handle
  rw [h]

theorem handle_of_error {x : Prog ε σ α} {handler : ε → Prog ε σ α} {e : ε} {s s' : σ}
    (h : x s = (.error e, s')) : x.handle handler s = handler e s' := by
  unfold Prog.handle
  rw [h]

theorem always_of_ok {x : Prog ε σ α} {last : Prog ε σ Unit} {result : Except ε α} {s s' s'' : σ}
    (h : x s = (result, s')) (hlast : last s' = (.ok (), s'')) : x.always last s = (result, s'') := by
  unfold Prog.always
  rw [h]
  dsimp only
  rw [hlast]

theorem always_of_error {x : Prog ε σ α} {last : Prog ε σ Unit} {result : Except ε α} {e : ε} {s s' s'' : σ}
    (h : x s = (result, s')) (hlast : last s' = (.error e, s'')) : x.always last s = (.error e, s'') := by
  unfold Prog.always
  rw [h]
  dsimp only
  rw [hlast]

/-- The last part leaves the state that it leaves. -/
theorem always_snd {x : Prog ε σ α} {last : Prog ε σ Unit} {s : σ} :
    (x.always last s).2 = (last (x s).2).2 := by
  unfold Prog.always
  rcases x s with ⟨r, s'⟩
  dsimp only
  rcases last s' with ⟨e | ⟨⟩, s''⟩
  · rfl
  · rfl

/-- The outcome is that of the program, unless the last part raises. -/
theorem always_fst_of_ok {x : Prog ε σ α} {last : Prog ε σ Unit} {s : σ} (h : (last (x s).2).1 = .ok ()) :
    (x.always last s).1 = (x s).1 := by
  unfold Prog.always
  rcases hx : x s with ⟨r, s'⟩
  rw [hx] at h
  rcases hlast : last s' with ⟨e | ⟨⟩, s''⟩
  · rw [hlast] at h
    cases h
  · simp only [hlast]

theorem always_fst_of_error {x : Prog ε σ α} {last : Prog ε σ Unit} {e : ε} {s : σ}
    (h : (last (x s).2).1 = .error e) : (x.always last s).1 = .error e := by
  unfold Prog.always
  rcases hx : x s with ⟨r, s'⟩
  rw [hx] at h
  rcases hlast : last s' with ⟨e' | ⟨⟩, s''⟩
  · rw [hlast] at h
    cases h
    simp only [hlast]
  · rw [hlast] at h
    cases h

instance : LawfulMonad (Prog ε σ) := LawfulMonad.mk' _
  (fun x => funext fun s => by
    change (x >>= fun a => pure (id a)) s = x s
    rcases hx : x s with ⟨e | a, s'⟩
    · rw [bind_of_error hx]
    · rw [bind_of_ok hx]
      rfl)
  (fun a f => rfl)
  (fun x f g => funext fun s => by
    rcases hx : x s with ⟨e | a, s'⟩
    · rw [bind_of_error (bind_of_error hx), bind_of_error hx]
    · rw [bind_of_ok hx]
      rcases hf : f a s' with ⟨e | b, s''⟩
      · rw [bind_of_error ((bind_of_ok hx).trans hf), bind_of_error hf]
      · rw [bind_of_ok ((bind_of_ok hx).trans hf), bind_of_ok hf])

/-- Both have returned. -/
theorem bind_eq_ok {x : Prog ε σ α} {f : α → Prog ε σ β} {b : β} {s s'' : σ} :
    (x >>= f) s = (.ok b, s'') ↔ ∃ a s', x s = (.ok a, s') ∧ f a s' = (.ok b, s'') := by
  rcases hx : x s with ⟨e | a, s'⟩
  · rw [bind_of_error hx]
    refine ⟨fun h => (by cases h), ?_⟩
    rintro ⟨a, t, h, -⟩
    cases h
  · rw [bind_of_ok hx]
    refine ⟨fun h => ⟨a, s', rfl, h⟩, ?_⟩
    rintro ⟨a', t, h, hf⟩
    cases h
    exact hf

/-- One of both has raised. -/
theorem bind_eq_error {x : Prog ε σ α} {f : α → Prog ε σ β} {e : ε} {s s'' : σ} :
    (x >>= f) s = (.error e, s'') ↔
      x s = (.error e, s'') ∨ ∃ a s', x s = (.ok a, s') ∧ f a s' = (.error e, s'') := by
  rcases hx : x s with ⟨e' | a, s'⟩
  · rw [bind_of_error hx]
    refine ⟨fun h => .inl (by cases h; rfl), ?_⟩
    rintro (h | ⟨a, t, h, -⟩)
    · cases h
      rfl
    · cases h
  · rw [bind_of_ok hx]
    refine ⟨fun h => .inr ⟨a, s', rfl, h⟩, ?_⟩
    rintro (h | ⟨a', t, h, hf⟩)
    · cases h
    · cases h
      exact hf

/-- From a state with `P`, the program returns with `Q` or raises with `R`. -/
def Triple (P : σ → Prop) (x : Prog ε σ α) (Q : α → σ → Prop) (R : ε → σ → Prop) : Prop :=
  ∀ s, P s → (∀ a s', x s = (.ok a, s') → Q a s') ∧ ∀ e s', x s = (.error e, s') → R e s'

variable {P P' : σ → Prop} {x : Prog ε σ α} {Q Q' : α → σ → Prop} {R R' : ε → σ → Prop}

theorem Triple.mono (h : Triple P x Q R) (hP : ∀ s, P' s → P s) (hQ : ∀ a s, Q a s → Q' a s)
    (hR : ∀ e s, R e s → R' e s) : Triple P' x Q' R' := by
  intro s hs
  obtain ⟨hok, herror⟩ := h s (hP s hs)
  exact ⟨fun a s' hx => hQ a s' (hok a s' hx), fun e s' hx => hR e s' (herror e s' hx)⟩

theorem Triple.and {P₂ : σ → Prop} {Q₂ : α → σ → Prop} {R₂ : ε → σ → Prop} (h : Triple P x Q R)
    (h₂ : Triple P₂ x Q₂ R₂) :
    Triple (fun s => P s ∧ P₂ s) x (fun a s => Q a s ∧ Q₂ a s) fun e s => R e s ∧ R₂ e s := by
  rintro s ⟨hs, hs₂⟩
  exact ⟨fun a s' hx => ⟨(h s hs).1 a s' hx, (h₂ s hs₂).1 a s' hx⟩,
    fun e s' hx => ⟨(h s hs).2 e s' hx, (h₂ s hs₂).2 e s' hx⟩⟩

theorem Triple.pure {a : α} (h : ∀ s, P s → Q a s) : Triple P (Pure.pure a : Prog ε σ α) Q R := by
  intro s hs
  refine ⟨fun b s' hx => ?_, fun e s' hx => ?_⟩
  · cases hx
    exact h s hs
  · cases hx

theorem Triple.raise {e : ε} (h : ∀ s, P s → R e s) : Triple P (Prog.raise e : Prog ε σ α) Q R := by
  intro s hs
  refine ⟨fun b s' hx => ?_, fun e' s' hx => ?_⟩
  · cases hx
  · cases hx
    exact h s hs

theorem Triple.lift {y : Except ε α} (hok : ∀ a, y = .ok a → ∀ s, P s → Q a s)
    (herror : ∀ e, y = .error e → ∀ s, P s → R e s) : Triple P (Prog.lift y) Q R := by
  intro s hs
  refine ⟨fun b s' hx => ?_, fun e s' hx => ?_⟩
  · obtain ⟨hy, rfl⟩ := Prod.mk.inj hx
    exact hok b hy s hs
  · obtain ⟨hy, rfl⟩ := Prod.mk.inj hx
    exact herror e hy s hs

/-- One after the other: what the first raises is raised. -/
theorem Triple.bind {f : α → Prog ε σ β} {Q₂ : β → σ → Prop} (hx : Triple P x Q R)
    (hf : ∀ a, Triple (Q a) (f a) Q₂ R) : Triple P (x >>= f) Q₂ R := by
  intro s hs
  obtain ⟨hok, herror⟩ := hx s hs
  rcases hxs : x s with ⟨e | a, s'⟩
  · rw [bind_of_error hxs]
    refine ⟨fun b s'' h => ?_, fun e' s'' h => ?_⟩
    · cases h
    · cases h
      exact herror e s' hxs
  · rw [bind_of_ok hxs]
    exact hf a s' (hok a s' hxs)

theorem Triple.handle {S : ε → σ → Prop} {handler : ε → Prog ε σ α} (hx : Triple P x Q S)
    (hhandler : ∀ e, Triple (S e) (handler e) Q R) : Triple P (x.handle handler) Q R := by
  intro s hs
  obtain ⟨hok, herror⟩ := hx s hs
  unfold Prog.handle
  rcases hxs : x s with ⟨e | a, s'⟩
  · exact hhandler e s' (herror e s' hxs)
  · refine ⟨fun b s'' h => ?_, fun e' s'' h => ?_⟩
    · cases h
      exact hok a s' hxs
    · cases h

/-- The last part starts where the first left off, either way. -/
theorem Triple.always {S : α → σ → Prop} {T : ε → σ → Prop} {last : Prog ε σ Unit}
    (hx : Triple P x S T) (hreturns : ∀ a, Triple (S a) last (fun _ s => Q a s) R)
    (hraises : ∀ e, Triple (T e) last (fun _ s => R e s) R) : Triple P (x.always last) Q R := by
  intro s hs
  obtain ⟨hok, herror⟩ := hx s hs
  unfold Prog.always
  rcases hxs : x s with ⟨e | a, s'⟩
  · obtain ⟨hlast, hlastError⟩ := hraises e s' (herror e s' hxs)
    rcases hl : last s' with ⟨e' | ⟨⟩, s''⟩
    · refine ⟨fun b t h => ?_, fun e₂ t h => ?_⟩
      · simp only [hl] at h
        cases h
      · simp only [hl] at h
        cases h
        exact hlastError e' s'' hl
    · refine ⟨fun b t h => ?_, fun e₂ t h => ?_⟩
      · simp only [hl] at h
        cases h
      · simp only [hl] at h
        cases h
        exact hlast () s'' hl
  · obtain ⟨hlast, hlastError⟩ := hreturns a s' (hok a s' hxs)
    rcases hl : last s' with ⟨e' | ⟨⟩, s''⟩
    · refine ⟨fun b t h => ?_, fun e₂ t h => ?_⟩
      · simp only [hl] at h
        cases h
      · simp only [hl] at h
        cases h
        exact hlastError e' s'' hl
    · refine ⟨fun b t h => ?_, fun e₂ t h => ?_⟩
      · simp only [hl] at h
        cases h
        exact hlast () s'' hl
      · simp only [hl] at h
        cases h

/-- A handler that raises another exception. -/
theorem Triple.handle_raise {f : ε → ε} {R : σ → Prop} (h : Triple P x Q fun _ => R) :
    Triple P (x.handle fun e => Prog.raise (f e)) Q fun _ => R :=
  h.handle fun _ => Triple.raise fun _ hs => hs

/-- A handler of what is never raised. -/
theorem Triple.handle_of_never {handler : ε → Prog ε σ α} (h : Triple P x Q fun _ _ => False) :
    Triple P (x.handle handler) Q R :=
  h.handle fun _ _ hs => hs.elim

/-- A program that never raises returns. -/
theorem Triple.returns (h : Triple P x Q fun _ _ => False) {s : σ} (hs : P s) :
    ∃ a s', x s = (.ok a, s') ∧ Q a s' := by
  obtain ⟨hok, herror⟩ := h s hs
  rcases hx : x s with ⟨e | a, s'⟩
  · exact (herror e s' hx).elim
  · exact ⟨a, s', rfl, hok a s' hx⟩

/-! ## What a program does to the state, however it ends -/

/-- The state is changed in this way only. -/
def Changes (G : σ → σ → Prop) (x : Prog ε σ α) : Prop := ∀ s, G s (x s).2

section
variable {G : σ → σ → Prop} (hrefl : ∀ s, G s s) (htrans : ∀ s t u, G s t → G t u → G s u)
include hrefl

theorem Changes.lift {y : Except ε α} : Changes G (Prog.lift y : Prog ε σ α) := fun s => hrefl s

theorem Changes.pure {a : α} : Changes G (Pure.pure a : Prog ε σ α) := fun s => hrefl s

theorem Changes.raise {e : ε} : Changes G (Prog.raise e : Prog ε σ α) := fun s => hrefl s

omit hrefl
include htrans

theorem Changes.bind {f : α → Prog ε σ β} (hx : Changes G x) (hf : ∀ a, Changes G (f a)) :
    Changes G (x >>= f) := by
  intro s
  have hs := hx s
  rcases hxs : x s with ⟨e | a, s'⟩
  · rw [bind_of_error hxs]
    rwa [hxs] at hs
  · rw [bind_of_ok hxs]
    rw [hxs] at hs
    exact htrans _ _ _ hs (hf a s')

theorem Changes.handle {handler : ε → Prog ε σ α} (hx : Changes G x) (hhandler : ∀ e, Changes G (handler e)) :
    Changes G (x.handle handler) := by
  intro s
  have hs := hx s
  unfold Prog.handle
  rcases hxs : x s with ⟨e | a, s'⟩
  · rw [hxs] at hs
    exact htrans _ _ _ hs (hhandler e s')
  · rwa [hxs] at hs

end

/-! ## Loops -/

/-- A loop over a list, by an invariant over what it has done. -/
theorem Triple.forM {γ : Type} {f : γ → Prog ε σ Unit} {R : ε → σ → Prop} (I : List γ → σ → Prop) :
    ∀ {done todo : List γ}, (∀ before c after, done ++ todo = before ++ c :: after →
      Triple (I before) (f c) (fun _ => I (before ++ [c])) R) →
      Triple (I done) (todo.forM f) (fun _ => I (done ++ todo)) R := by
  intro done todo
  induction todo generalizing done with
  | nil =>
    intro _
    rw [List.append_nil]
    exact Triple.pure fun s hs => hs
  | cons c todo ih =>
    intro hstep
    refine Triple.bind (hstep done c todo rfl) fun _ => ?_
    rw [List.append_cons done c todo] at hstep ⊢
    exact ih hstep

/-- `for attempt in …: try: return attempt() except: failed(…)`: `failed` is told how many
    attempts are left, and raises or lets the next one come. -/
def retry (attempt : Prog ε σ α) (failed : ℕ → ε → Prog ε σ Unit) (exhausted : ε) : ℕ → Prog ε σ α
  | 0 => Prog.raise exhausted
  | left + 1 => attempt.handle fun e => do
      failed left e
      retry attempt failed exhausted left

/-- **Attempts**, by an invariant over how many are left. -/
theorem Triple.retry {failed : ℕ → ε → Prog ε σ Unit} {exhausted : ε} {I : ℕ → σ → Prop} {E : ℕ → ε → σ → Prop}
    (hattempt : ∀ left, Triple (I (left + 1)) x Q (E left))
    (hfailed : ∀ left e, Triple (E left e) (failed left e) (fun _ => I left) R) (hnone : ∀ s, ¬ I 0 s) (n : ℕ) :
    Triple (I n) (x.retry failed exhausted n) Q R := by
  induction n with
  | zero => exact fun s hs => absurd hs (hnone s)
  | succ left ih => exact (hattempt left).handle fun e => (hfailed left e).bind fun _ => ih

end Prog

end ContinuoRuntime
