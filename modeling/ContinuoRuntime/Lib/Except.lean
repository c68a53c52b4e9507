/-
  Computations that may fail: what a successful run says about its parts.
-/
import Mathlib

namespace ContinuoRuntime

variable {ε α β : Type}

/-- A sequence succeeds exactly if both parts do. -/
theorem bind_eq_ok {x : Except ε α} {f : α → Except ε β} {b : β} :
    x >>= f = .ok b ↔ ∃ a, x = .ok a ∧ f a = .ok b := by
  cases x with
  | error e => simp [bind, Except.bind]
  | ok a => simp [bind, Except.bind]

/-- **A traversal succeeds** exactly if every element does. -/
theorem mapM_eq_ok {f : α → Except ε β} : ∀ {xs : List α} {ys : List β},
    xs.mapM f = .ok ys ↔ List.Forall₂ (fun x y => f x = .ok y) xs ys
  | [], ys => by
    rw [List.mapM_nil, List.forall₂_nil_left_iff]
    exact ⟨fun h => (Except.ok.inj h).symm, fun h => h ▸ rfl⟩
  | x :: xs, ys => by
    rw [List.mapM_cons, bind_eq_ok]
    constructor
    · rintro ⟨y, hy, h⟩
      obtain ⟨zs, hzs, h⟩ := bind_eq_ok.1 h
      cases Except.ok.inj h
      exact .cons hy (mapM_eq_ok.1 hzs)
    · rintro (_ | ⟨hy, hys⟩)
      exact ⟨_, hy, bind_eq_ok.2 ⟨_, mapM_eq_ok.2 hys, rfl⟩⟩

/-- Every result of a traversal is the result of an element. -/
theorem exists_of_mem_mapM {f : α → Except ε β} {xs : List α} {ys : List β} (h : xs.mapM f = .ok ys)
    {y : β} (hy : y ∈ ys) : ∃ x ∈ xs, f x = .ok y := by
  have hall := mapM_eq_ok.1 h
  clear h
  induction hall with
  | nil => cases hy
  | @cons x z xs ys hx _ ih =>
    rcases List.mem_cons.1 hy with rfl | hy
    · exact ⟨x, by simp, hx⟩
    · obtain ⟨w, hw, hf⟩ := ih hy
      exact ⟨w, by simp [hw], hf⟩

/-- Every element of a traversal that succeeds has a result in it. -/
theorem mem_mapM_of_mem {f : α → Except ε β} {xs : List α} {ys : List β} (h : xs.mapM f = .ok ys)
    {x : α} (hx : x ∈ xs) : ∃ y ∈ ys, f x = .ok y := by
  have hall := mapM_eq_ok.1 h
  clear h
  induction hall with
  | nil => cases hx
  | @cons z y zs ys hz _ ih =>
    rcases List.mem_cons.1 hx with rfl | hx
    · exact ⟨y, by simp, hz⟩
    · obtain ⟨w, hw, hf⟩ := ih hx
      exact ⟨w, by simp [hw], hf⟩

/-- A traversal succeeds if every element has a result. -/
theorem exists_mapM_eq_ok {f : α → Except ε β} : ∀ {xs : List α}, (∀ x ∈ xs, ∃ y, f x = .ok y) →
    ∃ ys, xs.mapM f = .ok ys
  | [], _ => ⟨[], rfl⟩
  | x :: xs, h => by
    obtain ⟨y, hy⟩ := h x List.mem_cons_self
    obtain ⟨ys, hys⟩ := exists_mapM_eq_ok fun z hz => h z (List.mem_cons_of_mem _ hz)
    exact ⟨y :: ys, mapM_eq_ok.2 (.cons hy (mapM_eq_ok.1 hys))⟩

/-- **A loop over checks succeeds** exactly if every check does. -/
theorem forM_eq_ok {f : α → Except ε Unit} : ∀ {xs : List α},
    xs.forM f = .ok () ↔ ∀ x ∈ xs, f x = .ok ()
  | [] => ⟨fun _ _ h => (by cases h), fun _ => rfl⟩
  | x :: xs => by
    have hcons : (x :: xs).forM f = f x >>= fun _ => xs.forM f := rfl
    rw [hcons, bind_eq_ok, List.forall_mem_cons]
    constructor
    · rintro ⟨⟨⟩, hx, h⟩
      exact ⟨hx, forM_eq_ok.1 h⟩
    · rintro ⟨hx, h⟩
      exact ⟨(), hx, forM_eq_ok.2 h⟩

/-- What a sequence fails with. -/
theorem bind_eq_error {x : Except ε α} {f : α → Except ε β} {e : ε} :
    x >>= f = .error e ↔ x = .error e ∨ ∃ a, x = .ok a ∧ f a = .error e := by
  cases x with
  | error e' => simp [bind, Except.bind]
  | ok a => simp [bind, Except.bind]

/-- A traversal fails with what some element fails with. -/
theorem exists_of_mapM_eq_error {f : α → Except ε β} {e : ε} : ∀ {xs : List α},
    xs.mapM f = .error e → ∃ x ∈ xs, f x = .error e
  | [], h => by
    rw [List.mapM_nil] at h
    cases h
  | x :: xs, h => by
    rw [List.mapM_cons] at h
    rcases bind_eq_error.1 h with hx | ⟨y, -, h⟩
    · exact ⟨x, List.mem_cons_self, hx⟩
    rcases bind_eq_error.1 h with hxs | ⟨ys, -, h⟩
    · obtain ⟨z, hz, hf⟩ := exists_of_mapM_eq_error hxs
      exact ⟨z, List.mem_cons_of_mem _ hz, hf⟩
    · cases h

/-! ## Unexpected errors -/

section
variable (expected : ε → Prop)

/-- The computation fails, and not with an expected error. -/
def Escapes (x : Except ε α) : Prop := ∃ e, x = .error e ∧ ¬ expected e

/-- The computation succeeds. -/
def Accepts (x : Except ε α) : Prop := ∃ a, x = .ok a

/-- The first step that does not succeed, among steps in order, fails with an
    error that is not expected. -/
def FirstEscape {γ : Type} (f : γ → Except ε α) (escapes : γ → Prop) (xs : List γ) : Prop :=
  ∃ before x after, xs = before ++ x :: after ∧ (∀ y ∈ before, Accepts (f y)) ∧ escapes x

variable {expected}

theorem not_escapes_ok {a : α} : ¬ Escapes expected (.ok a : Except ε α) := fun ⟨_, h, _⟩ => by cases h

theorem escapes_error {e : ε} : Escapes expected (.error e : Except ε α) ↔ ¬ expected e :=
  ⟨fun ⟨_, h, he⟩ => (Except.error.inj h) ▸ he, fun h => ⟨e, rfl, h⟩⟩

theorem escapes_bind {x : Except ε α} {f : α → Except ε β} :
    Escapes expected (x >>= f) ↔ Escapes expected x ∨ ∃ a, x = .ok a ∧ Escapes expected (f a) := by
  cases x with
  | error e => simp [bind, Except.bind, Escapes]
  | ok a => simp [bind, Except.bind, Escapes]

theorem not_escapes_bind {x : Except ε α} {f : α → Except ε β} (hx : ¬ Escapes expected x)
    (hf : ∀ a, x = .ok a → ¬ Escapes expected (f a)) : ¬ Escapes expected (x >>= f) := by
  rw [escapes_bind]
  rintro (h | ⟨a, ha, h⟩)
  · exact hx h
  · exact hf a ha h

/-- What it fails with is expected. -/
theorem expected_of_not_escapes {x : Except ε α} {e : ε} (h : ¬ Escapes expected x) (he : x = .error e) :
    expected e := by
  by_contra hnot
  exact h ⟨e, he, hnot⟩

/-- A sequence whose second part cannot fail. -/
theorem escapes_bind_ok {x : Except ε α} {f : α → β} :
    Escapes expected (x >>= fun a => .ok (f a)) ↔ Escapes expected x := by
  rw [escapes_bind]
  exact ⟨fun h => h.elim id fun ⟨_, _, h⟩ => absurd h not_escapes_ok, .inl⟩

theorem firstEscape_nil {γ : Type} {f : γ → Except ε α} {escapes : γ → Prop} :
    ¬ FirstEscape f escapes [] := by
  rintro ⟨before, x, after, h, -⟩
  cases before <;> cases h

theorem firstEscape_cons {γ : Type} {f : γ → Except ε α} {escapes : γ → Prop} {x : γ} {xs : List γ} :
    FirstEscape f escapes (x :: xs) ↔ escapes x ∨ Accepts (f x) ∧ FirstEscape f escapes xs := by
  constructor
  · rintro ⟨before, y, after, h, hbefore, hy⟩
    cases before with
    | nil =>
      cases h
      exact .inl hy
    | cons z before =>
      cases h
      obtain ⟨hz, hbefore⟩ := List.forall_mem_cons.1 hbefore
      exact .inr ⟨hz, before, y, after, rfl, hbefore, hy⟩
  · rintro (hx | ⟨hx, before, y, after, rfl, hbefore, hy⟩)
    · exact ⟨[], x, xs, rfl, fun y hy => absurd hy List.not_mem_nil, hx⟩
    · exact ⟨x :: before, y, after, rfl, List.forall_mem_cons.2 ⟨hx, hbefore⟩, hy⟩

theorem firstEscape_congr {γ : Type} {f : γ → Except ε α} {p q : γ → Prop} {xs : List γ}
    (h : ∀ x ∈ xs, p x ↔ q x) : FirstEscape f p xs ↔ FirstEscape f q xs := by
  refine exists_congr fun before => exists_congr fun x => exists_congr fun after =>
    and_congr_right fun hxs => and_congr_right fun _ => h x ?_
  rw [hxs]
  exact List.mem_append_right _ List.mem_cons_self

/-- **A traversal** fails with what the first element that does not succeed fails
    with. -/
theorem escapes_mapM {f : α → Except ε β} : ∀ {xs : List α},
    Escapes expected (xs.mapM f) ↔ FirstEscape f (fun x => Escapes expected (f x)) xs
  | [] => by
    rw [List.mapM_nil]
    exact ⟨fun h => absurd h not_escapes_ok, fun h => absurd h firstEscape_nil⟩
  | x :: xs => by
    have hrest : ∀ y, Escapes expected (xs.mapM f >>= fun ys => .ok (y :: ys)) ↔
        FirstEscape f (fun x => Escapes expected (f x)) xs := fun y =>
      escapes_bind_ok.trans escapes_mapM
    rw [List.mapM_cons, escapes_bind, firstEscape_cons]
    refine or_congr_right ⟨?_, ?_⟩
    · rintro ⟨y, hy, h⟩
      exact ⟨⟨y, hy⟩, (hrest y).1 h⟩
    · rintro ⟨⟨y, hy⟩, h⟩
      exact ⟨y, hy, (hrest y).2 h⟩

/-- **A loop over checks** fails with what the first check that does not succeed
    fails with. -/
theorem escapes_forM {f : α → Except ε Unit} : ∀ {xs : List α},
    Escapes expected (xs.forM f) ↔ FirstEscape f (fun x => Escapes expected (f x)) xs
  | [] => ⟨fun h => absurd h not_escapes_ok, fun h => absurd h firstEscape_nil⟩
  | x :: xs => by
    have hcons : (x :: xs).forM f = f x >>= fun _ => xs.forM f := rfl
    rw [hcons, escapes_bind, firstEscape_cons]
    refine or_congr_right ⟨?_, ?_⟩
    · rintro ⟨y, hy, h⟩
      exact ⟨⟨y, hy⟩, escapes_forM.1 h⟩
    · rintro ⟨⟨y, hy⟩, h⟩
      exact ⟨y, hy, escapes_forM.2 h⟩

theorem not_escapes_mapM {f : α → Except ε β} {xs : List α} (h : ∀ x ∈ xs, ¬ Escapes expected (f x)) :
    ¬ Escapes expected (xs.mapM f) := by
  rw [escapes_mapM]
  rintro ⟨before, x, after, rfl, -, hx⟩
  exact h x (by simp) hx

theorem not_escapes_forM {f : α → Except ε Unit} {xs : List α} (h : ∀ x ∈ xs, ¬ Escapes expected (f x)) :
    ¬ Escapes expected (xs.forM f) := by
  rw [escapes_forM]
  rintro ⟨before, x, after, rfl, -, hx⟩
  exact h x (by simp) hx

/-- **A loop with a state** fails with what the first round that does not succeed
    fails with, in the state that the rounds before it lead to. -/
theorem escapes_foldlM {σ γ : Type} {step : σ → γ → Except ε σ} : ∀ {xs : List γ} {s : σ},
    Escapes expected (xs.foldlM step s) ↔
      ∃ before x after s', xs = before ++ x :: after ∧ before.foldlM step s = .ok s' ∧
        Escapes expected (step s' x)
  | [], s => by
    refine ⟨fun h => absurd h not_escapes_ok, ?_⟩
    rintro ⟨before, x, after, s', heq, -⟩
    cases before <;> cases heq
  | x :: xs, s => by
    rw [List.foldlM_cons, escapes_bind]
    constructor
    · rintro (h | ⟨mid, hmid, h⟩)
      · exact ⟨[], x, xs, s, rfl, rfl, h⟩
      · obtain ⟨before, y, after, s', rfl, hs', hy⟩ := escapes_foldlM.1 h
        refine ⟨x :: before, y, after, s', rfl, ?_, hy⟩
        rw [List.foldlM_cons, bind_eq_ok]
        exact ⟨mid, hmid, hs'⟩
    · rintro ⟨before, y, after, s', heq, hs', hy⟩
      cases before with
      | nil =>
        cases heq
        cases hs'
        exact .inl hy
      | cons z before =>
        cases heq
        rw [List.foldlM_cons] at hs'
        obtain ⟨mid, hmid, hs'⟩ := bind_eq_ok.1 hs'
        exact .inr ⟨mid, hmid, escapes_foldlM.2 ⟨before, y, after, s', rfl, hs', hy⟩⟩

end

end ContinuoRuntime
