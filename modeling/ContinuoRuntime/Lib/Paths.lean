/-
  Paths of a relation, and how long they get.

  * `Within.acyclic`: paths of bounded length contain no cycle;
  * `within_of_acyclic`: without a cycle, no path is longer than the number of
    elements it can leave.
-/
import Mathlib

namespace ContinuoRuntime

open Relation

variable {α : Type} (R : α → α → Prop)

/-- A path of `k` steps. -/
inductive Steps : ℕ → α → α → Prop
  | refl {a : α} : Steps 0 a a
  | head {k : ℕ} {a b c : α} : R a b → Steps k b c → Steps (k + 1) a c

/-- No path from `a` has more than `k` steps. -/
def Within (k : ℕ) (a : α) : Prop := ∀ e b, Steps R e a b → e ≤ k

/-- Nothing that `a` leads to leads to itself. -/
def Acyclic (a : α) : Prop := ∀ b, ReflTransGen R a b → ¬ TransGen R b b

variable {R}

theorem reflTransGen_iff_steps {a b : α} : ReflTransGen R a b ↔ ∃ k, Steps R k a b := by
  constructor
  · intro h
    induction h using ReflTransGen.head_induction_on with
    | refl => exact ⟨0, .refl⟩
    | head hab _ ih =>
      obtain ⟨k, hk⟩ := ih
      exact ⟨k + 1, .head hab hk⟩
  · rintro ⟨k, hk⟩
    induction hk with
    | refl => exact .refl
    | head hab _ ih => exact .head hab ih

/-- A bound for an element is one for its successors, a step shorter. -/
theorem within_succ {k : ℕ} {a : α} : Within R (k + 1) a ↔ ∀ b, R a b → Within R k b := by
  constructor
  · intro h b hab e c hbc
    exact Nat.le_of_succ_le_succ (h (e + 1) c (.head hab hbc))
  · intro h e c hac
    cases hac with
    | refl => exact Nat.zero_le _
    | head hab hbc => exact Nat.succ_le_succ (h _ hab _ _ hbc)

theorem within_zero {a : α} : Within R 0 a ↔ ∀ b, ¬ R a b := by
  constructor
  · intro h b hab
    exact absurd (h 1 b (.head hab .refl)) (by omega)
  · intro h e c hac
    cases hac with
    | refl => exact le_rfl
    | head hab _ => exact absurd hab (h _)

/-- Nothing leaves the element. -/
theorem within_of_final {a : α} (h : ∀ b, ¬ R a b) (k : ℕ) : Within R k a := fun e b hab => by
  cases hab with
  | refl => exact Nat.zero_le _
  | head hab _ => exact absurd hab (h _)

theorem Within.mono {k l : ℕ} {a : α} (h : Within R k a) (hkl : k ≤ l) : Within R l a :=
  fun e b hab => (h e b hab).trans hkl

theorem Within.reach {k : ℕ} {a b : α} (h : Within R k a) (hab : ReflTransGen R a b) : Within R k b := by
  induction hab using ReflTransGen.head_induction_on with
  | refl => exact h
  | head hac _ ih =>
    refine ih fun e d hcd => ?_
    exact (Nat.le_succ e).trans (h (e + 1) d (.head hac hcd))

theorem Within.not_transGen : ∀ {k : ℕ} {a : α}, Within R k a → ¬ TransGen R a a
  | 0, a, h, hcycle => by
    obtain ⟨b, hab, -⟩ := TransGen.head'_iff.1 hcycle
    exact within_zero.1 h b hab
  | k + 1, a, h, hcycle => by
    obtain ⟨b, hab, hba⟩ := TransGen.head'_iff.1 hcycle
    -- the cycle, turned so that it starts at the successor
    exact (within_succ.1 h b hab).not_transGen (TransGen.tail' hba hab)

/-- **Bounded paths contain no cycle.** -/
theorem Within.acyclic {k : ℕ} {a : α} (h : Within R k a) : Acyclic R a :=
  fun _ hab => (h.reach hab).not_transGen

theorem Acyclic.step {a b : α} (h : Acyclic R a) (hab : R a b) : Acyclic R b :=
  fun c hbc => h c (.head hab hbc)

theorem Acyclic.not_back {a b : α} (h : Acyclic R a) (hab : R a b) : ¬ ReflTransGen R b a :=
  fun hba => h a .refl (TransGen.head' hab hba)

/-- **Without a cycle**, a path has at most as many steps as there are elements
    that it can leave. -/
theorem within_of_acyclic [DecidableEq α] : ∀ {k : ℕ} {sources : Finset α} {a : α}, sources.card ≤ k →
    (∀ b c, ReflTransGen R a b → R b c → b ∈ sources) → Acyclic R a → Within R k a
  | 0, sources, a, hcard, hsources, _ => by
    refine within_zero.2 fun b hab => ?_
    have ha := Finset.card_pos.2 ⟨a, hsources a b .refl hab⟩
    omega
  | k + 1, sources, a, hcard, hsources, hacyclic => by
    refine within_succ.2 fun b hab => ?_
    have ha : a ∈ sources := hsources a b .refl hab
    -- `a` is not among the sources after it, as nothing leads back to it
    refine @within_of_acyclic _ k (sources.erase a) b ?_ (fun c d hbc hcd => ?_) (hacyclic.step hab)
    · rw [Finset.card_erase_of_mem ha]
      omega
    · refine Finset.mem_erase.2 ⟨?_, hsources c d (.head hab hbc) hcd⟩
      rintro rfl
      exact hacyclic.not_back hab hbc

/-! ## Two relations -/

section
variable {β : Type} {S : β → β → Prop} {sim : α → β → Prop}

/-- Every step of the one relation is matched by a step of the other. -/
def Simulates (R : α → α → Prop) (S : β → β → Prop) (sim : α → β → Prop) : Prop :=
  ∀ a b a', sim a b → R a a' → ∃ b', S b b' ∧ sim a' b'

theorem Simulates.reach (hsim : Simulates R S sim) {a a' : α} {b : β} (hab : sim a b)
    (ha : ReflTransGen R a a') : ∃ b', ReflTransGen S b b' ∧ sim a' b' := by
  induction ha with
  | refl => exact ⟨b, .refl, hab⟩
  | tail _ hstep ih =>
    obtain ⟨c, hbc, hc⟩ := ih
    obtain ⟨d, hcd, hd⟩ := hsim _ _ _ hc hstep
    exact ⟨d, hbc.tail hcd, hd⟩

theorem Simulates.steps (hsim : Simulates R S sim) : ∀ {k : ℕ} {a a' : α} {b : β}, sim a b → Steps R k a a' →
    ∃ b', Steps S k b b' ∧ sim a' b'
  | _, _, _, b, hab, .refl => ⟨b, .refl, hab⟩
  | _, _, _, _, hab, .head hstep hsteps => by
    obtain ⟨c, hbc, hc⟩ := hsim _ _ _ hab hstep
    obtain ⟨b', hb', hab'⟩ := hsim.steps hc hsteps
    exact ⟨b', .head hbc hb', hab'⟩

/-- **Bounds of paths** carry over to what is simulated. -/
theorem Within.of_simulates (hsim : Simulates R S sim) : ∀ {k : ℕ} {a : α} {b : β},
    sim a b → Within S k b → Within R k a
  | 0, a, b, hab, hb => by
    refine within_zero.2 fun a' ha => ?_
    obtain ⟨b', hb', -⟩ := hsim a b a' hab ha
    exact within_zero.1 hb b' hb'
  | k + 1, a, b, hab, hb => by
    refine within_succ.2 fun a' ha => ?_
    obtain ⟨b', hb', hab'⟩ := hsim a b a' hab ha
    exact Within.of_simulates hsim hab' (within_succ.1 hb b' hb')

end

end ContinuoRuntime
