/-
  Walking along a chain that may come back to itself.

  * `walk`: from an element to the next one, until a hit, the end or an element seen
    before;
  * `walk_eq`: **the walk ends** within as many steps as there are elements, and finds a
    hit exactly if there is one on the chain.
-/
import Mathlib

namespace ContinuoRuntime
namespace Chain
variable {α : Type} (next : α → Option α) (hit : α → Bool)

/-- The walk, in at most so many steps; `none` if they are not enough. -/
def walk [DecidableEq α] : ℕ → List α → Option α → Option Bool
  | 0, _, _ => none
  | _ + 1, _, none => some false
  | n + 1, seen, some a =>
    if a ∈ seen then some false else if hit a then some true else walk n (a :: seen) (next a)

/-- The second element is on the chain from the first one. -/
def OnChain : α → α → Prop := Relation.ReflTransGen fun a b => next a = some b

/-- The walk from `start` has seen these elements, without a hit, and is now at `current`. -/
structure Seen (start : α) (seen : List α) (current : Option α) : Prop where
  nodup : seen.Nodup
  noHit : ∀ a ∈ seen, hit a = false
  origin : start ∈ seen ∨ current = some start
  onChain : ∀ a, current = some a → OnChain next start a
  successors : ∀ a ∈ seen, ∀ b, next a = some b → b ∈ seen ∨ current = some b

section
variable {next hit} {start : α} {seen : List α} {current : Option α}

theorem Seen.first : Seen next hit start [] (some start) where
  nodup := List.nodup_nil
  noHit _ ha := absurd ha List.not_mem_nil
  origin := .inr rfl
  onChain _ ha := Option.some.inj ha ▸ .refl
  successors _ ha := absurd ha List.not_mem_nil

/-- What is on the chain has been seen, or is still to come. -/
theorem Seen.covers (h : Seen next hit start seen current) {b : α} (hb : OnChain next start b) :
    b ∈ seen ∨ ∃ a, current = some a ∧ OnChain next a b := by
  induction hb with
  | refl =>
    rcases h.origin with hmem | hcurrent
    · exact .inl hmem
    · exact .inr ⟨start, hcurrent, .refl⟩
  | @tail b c _ hstep ih =>
    rcases ih with hmem | ⟨a, hcurrent, hab⟩
    · rcases h.successors b hmem c hstep with hmem | hcurrent
      · exact .inl hmem
      · exact .inr ⟨c, hcurrent, .refl⟩
    · exact .inr ⟨a, hcurrent, hab.tail hstep⟩

/-- Back at an element seen before, everything has been seen. -/
theorem Seen.all {a : α} (h : Seen next hit start seen (some a)) (ha : a ∈ seen) {b : α}
    (hb : OnChain next start b) : b ∈ seen := by
  have hstay : ∀ {b}, OnChain next a b → b ∈ seen := by
    intro b hb
    induction hb with
    | refl => exact ha
    | @tail b c _ hstep ih =>
      rcases h.successors b ih c hstep with hmem | hcurrent
      · exact hmem
      · exact Option.some.inj hcurrent ▸ ha
  rcases h.covers hb with hmem | ⟨a', hcurrent, hab⟩
  · exact hmem
  · cases hcurrent
    exact hstay hab

/-- One step. -/
theorem Seen.step {a : α} (h : Seen next hit start seen (some a)) (ha : a ∉ seen) (hhit : hit a = false) :
    Seen next hit start (a :: seen) (next a) where
  nodup := List.nodup_cons.2 ⟨ha, h.nodup⟩
  noHit := List.forall_mem_cons.2 ⟨hhit, h.noHit⟩
  origin := by
    rcases h.origin with hmem | hcurrent
    · exact .inl (List.mem_cons_of_mem a hmem)
    · exact .inl (Option.some.inj hcurrent ▸ List.mem_cons_self)
  onChain _ hb := (h.onChain a rfl).tail hb
  successors := by
    refine List.forall_mem_cons.2 ⟨fun b hb => .inr hb, fun c hc b hb => ?_⟩
    rcases h.successors c hc b hb with hmem | hcurrent
    · exact .inl (List.mem_cons_of_mem a hmem)
    · exact .inl (Option.some.inj hcurrent ▸ List.mem_cons_self)

theorem walk_eq_of_seen [Fintype α] [DecidableEq α] (n : ℕ) (h : Seen next hit start seen current)
    (hn : Fintype.card α < n + seen.length) :
    ∃ found, walk next hit n seen current = some found ∧
      (found = true ↔ ∃ b, OnChain next start b ∧ hit b = true) := by
  induction n generalizing seen current with
  | zero =>
    have hcard := h.nodup.length_le_card
    omega
  | succ n ih =>
    have hnone : (∀ b, OnChain next start b → b ∈ seen) →
        (false = true ↔ ∃ b, OnChain next start b ∧ hit b = true) := by
      intro hall
      refine iff_of_false Bool.false_ne_true ?_
      rintro ⟨b, hb, hhit⟩
      rw [h.noHit b (hall b hb)] at hhit
      cases hhit
    cases current with
    | none =>
      refine ⟨false, rfl, hnone fun b hb => ?_⟩
      rcases h.covers hb with hmem | ⟨a, hcurrent, -⟩
      · exact hmem
      · cases hcurrent
    | some a =>
      unfold walk
      split_ifs with ha hhit
      · exact ⟨false, rfl, hnone fun b hb => h.all ha hb⟩
      · exact ⟨true, rfl, iff_of_true rfl ⟨a, h.onChain a rfl, hhit⟩⟩
      · refine ih (h.step ha (Bool.eq_false_iff.2 hhit)) ?_
        rw [List.length_cons]
        omega

end

/-- **The walk ends**, and finds a hit exactly if there is one on the chain. -/
theorem walk_eq [Fintype α] [DecidableEq α] (start : α) :
    ∃ found, walk next hit (Fintype.card α + 1) [] (some start) = some found ∧
      (found = true ↔ ∃ b, OnChain next start b ∧ hit b = true) :=
  walk_eq_of_seen (Fintype.card α + 1) .first (Nat.lt_succ_self _)

end Chain
end ContinuoRuntime
