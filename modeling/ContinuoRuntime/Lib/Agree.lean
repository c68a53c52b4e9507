/-
  Two runs: computations that both fail, or both succeed with related results.

  * `Agree`: the outcomes of two runs correspond;
  * `UpToOrder`: the elements of two lists correspond, in any order;
  * `UpToOrder.mapM`: traversals of corresponding lists agree, in whatever order
    the elements fail.
-/
import ContinuoRuntime.Lib.Except

namespace ContinuoRuntime

variable {ε δ α β γ ζ : Type}

/-! ## Outcomes -/

/-- Both computations fail, or both succeed, with results that `r` relates. -/
def Agree (r : α → β → Prop) : Except ε α → Except δ β → Prop
  | .ok a, .ok b => r a b
  | .error _, .error _ => True
  | _, _ => False

/-- The computation never succeeds. -/
def Fails (x : Except ε α) : Prop := ∀ a, x ≠ .ok a

theorem agree_iff {r : α → β → Prop} {x : Except ε α} {y : Except δ β} : Agree r x y ↔
    (∀ a, x = .ok a → ∃ b, y = .ok b ∧ r a b) ∧ ∀ b, y = .ok b → ∃ a, x = .ok a ∧ r a b := by
  cases x with
  | error e =>
    cases y with
    | error d =>
      refine ⟨fun _ => ⟨fun a h => ?_, fun b h => ?_⟩, fun _ => trivial⟩
      · cases h
      · cases h
    | ok b =>
      refine ⟨fun h => h.elim, fun h => ?_⟩
      obtain ⟨a, ha, -⟩ := h.2 b rfl
      cases ha
  | ok a =>
    cases y with
    | error d =>
      refine ⟨fun h => h.elim, fun h => ?_⟩
      obtain ⟨b, hb, -⟩ := h.1 a rfl
      cases hb
    | ok b =>
      constructor
      · intro hr
        refine ⟨fun a' h => ⟨b, rfl, ?_⟩, fun b' h => ⟨a, rfl, ?_⟩⟩
        · cases h
          exact hr
        · cases h
          exact hr
      · intro h
        obtain ⟨b', hb', hr⟩ := h.1 a rfl
        cases hb'
        exact hr

theorem not_agree_of_isOk {r : α → β → Prop} {x : Except ε α} {y : Except δ β} (hx : x.isOk = true)
    (hy : y.isOk = false) : ¬ Agree r x y := by
  cases x with
  | error e => cases hx
  | ok a =>
    cases y with
    | error d => exact id
    | ok b => cases hy

theorem Fails.agree {r : α → β → Prop} {x : Except ε α} {y : Except δ β} (hx : Fails x) (hy : Fails y) :
    Agree r x y :=
  agree_iff.2 ⟨fun a h => absurd h (hx a), fun b h => absurd h (hy b)⟩

theorem fails_error {e : ε} : Fails (.error e : Except ε α) := fun _ h => by cases h

theorem fails_bind {x : Except ε α} {f : α → Except ε β} (hf : ∀ a, Fails (f a)) : Fails (x >>= f) := by
  intro b h
  obtain ⟨a, -, hb⟩ := bind_eq_ok.1 h
  exact hf a b hb

theorem Agree.mono {r s : α → β → Prop} {x : Except ε α} {y : Except δ β} (h : Agree r x y)
    (hrs : ∀ a b, r a b → s a b) : Agree s x y := by
  cases x with
  | error e =>
    cases y with
    | error d => trivial
    | ok b => exact h
  | ok a =>
    cases y with
    | error d => exact h
    | ok b => exact hrs a b h

/-- **A sequence**: its second parts need to agree on related results only. -/
theorem Agree.bind {r : α → β → Prop} {s : γ → ζ → Prop} {x : Except ε α} {y : Except δ β}
    {f : α → Except ε γ} {g : β → Except δ ζ} (h : Agree r x y) (hfg : ∀ a b, r a b → Agree s (f a) (g b)) :
    Agree s (x >>= f) (y >>= g) := by
  cases x with
  | error e =>
    cases y with
    | error d => trivial
    | ok b => exact h.elim
  | ok a =>
    cases y with
    | error d => exact h.elim
    | ok b => exact hfg a b h

/-- A traversal of lists whose elements correspond one by one. -/
theorem Agree.mapM {r : γ → ζ → Prop} {f : α → Except ε γ} {g : β → Except δ ζ} {xs : List α} {ys : List β}
    (h : List.Forall₂ (fun x y => Agree r (f x) (g y)) xs ys) :
    Agree (List.Forall₂ r) (xs.mapM f) (ys.mapM g) := by
  induction h with
  | nil => exact List.Forall₂.nil
  | @cons x y xs ys hxy _ ih =>
    rw [List.mapM_cons, List.mapM_cons]
    refine hxy.bind fun a b hab => ih.bind fun as bs habs => ?_
    exact List.Forall₂.cons hab habs

/-- What successful traversals of lists that correspond one by one give. -/
theorem forall₂_of_mapM_eq_ok {r : α → β → Prop} {s : γ → ζ → Prop} {f : α → Except ε γ}
    {g : β → Except δ ζ} {xs : List α} {ys : List β} {as : List γ} {bs : List ζ} (h : List.Forall₂ r xs ys)
    (has : xs.mapM f = .ok as) (hbs : ys.mapM g = .ok bs)
    (hfg : ∀ x y a b, r x y → f x = .ok a → g y = .ok b → s a b) : List.Forall₂ s as bs := by
  have has' := mapM_eq_ok.1 has
  have hbs' := mapM_eq_ok.1 hbs
  clear has hbs
  induction h generalizing as bs with
  | nil =>
    cases has'
    cases hbs'
    exact .nil
  | cons hr _ ih =>
    cases has' with
    | cons ha has =>
      cases hbs' with
      | cons hb hbs => exact .cons (hfg _ _ _ _ hr ha hb) (ih has hbs)

theorem Agree.congr_left {r : α → β → Prop} {x x' : Except ε α} {y : Except δ β} {s : α → α → Prop}
    (h : Agree s x x') (h' : Agree r x' y) : Agree (Relation.Comp s r) x y := by
  rw [agree_iff] at h h' ⊢
  constructor
  · intro a ha
    obtain ⟨a', ha', hs⟩ := h.1 a ha
    obtain ⟨b, hb, hr⟩ := h'.1 a' ha'
    exact ⟨b, hb, a', hs, hr⟩
  · intro b hb
    obtain ⟨a', ha', hr⟩ := h'.2 b hb
    obtain ⟨a, ha, hs⟩ := h.2 a' ha'
    exact ⟨a, ha, a', hs, hr⟩

/-! ## Lists up to order -/

/-- The elements of the one list correspond to those of the other, in some order. -/
def UpToOrder (r : α → β → Prop) : List α → List β → Prop := Relation.Comp List.Perm (List.Forall₂ r)

section
variable {r : α → β → Prop} {xs : List α} {ys : List β}

theorem UpToOrder.of_forall₂ (h : List.Forall₂ r xs ys) : UpToOrder r xs ys := ⟨xs, .refl _, h⟩

theorem UpToOrder.mono {s : α → β → Prop} (h : UpToOrder r xs ys) (hrs : ∀ x y, r x y → s x y) :
    UpToOrder s xs ys := by
  obtain ⟨zs, hperm, hall⟩ := h
  exact ⟨zs, hperm, hall.imp fun {x y} => hrs x y⟩

theorem UpToOrder.length_eq (h : UpToOrder r xs ys) : xs.length = ys.length := by
  obtain ⟨zs, hperm, hall⟩ := h
  exact hperm.length_eq.trans hall.length_eq

theorem UpToOrder.nil_iff (h : UpToOrder r xs ys) : xs = [] ↔ ys = [] := by
  rw [← List.length_eq_zero_iff, ← List.length_eq_zero_iff, h.length_eq]

theorem exists_of_forall₂_left (h : List.Forall₂ r xs ys) {x : α} (hx : x ∈ xs) : ∃ y ∈ ys, r x y := by
  induction h with
  | nil => cases hx
  | @cons x' y xs ys hr _ ih =>
    rcases List.mem_cons.1 hx with rfl | hx
    · exact ⟨y, List.mem_cons_self, hr⟩
    · obtain ⟨z, hz, hr⟩ := ih hx
      exact ⟨z, List.mem_cons_of_mem _ hz, hr⟩

theorem exists_of_forall₂_right (h : List.Forall₂ r xs ys) {y : β} (hy : y ∈ ys) : ∃ x ∈ xs, r x y :=
  exists_of_forall₂_left h.flip hy

theorem UpToOrder.exists_right (h : UpToOrder r xs ys) {x : α} (hx : x ∈ xs) : ∃ y ∈ ys, r x y := by
  obtain ⟨zs, hperm, hall⟩ := h
  exact exists_of_forall₂_left hall (hperm.subset hx)

theorem UpToOrder.exists_left (h : UpToOrder r xs ys) {y : β} (hy : y ∈ ys) : ∃ x ∈ xs, r x y := by
  obtain ⟨zs, hperm, hall⟩ := h
  obtain ⟨x, hx, hr⟩ := exists_of_forall₂_right hall hy
  exact ⟨x, hperm.symm.subset hx, hr⟩

theorem UpToOrder.flip (h : UpToOrder r xs ys) : UpToOrder (fun y x => r x y) ys xs := by
  obtain ⟨zs, hperm, hall⟩ := h
  obtain ⟨ws, hall', hperm'⟩ := List.perm_comp_forall₂ hperm hall
  exact ⟨ws, hperm'.symm, hall'.flip⟩

theorem UpToOrder.trans {s : β → γ → Prop} {t : α → γ → Prop} {zs : List γ} (h : UpToOrder r xs ys)
    (h' : UpToOrder s ys zs) (hrst : ∀ x y z, r x y → s y z → t x z) : UpToOrder t xs zs := by
  obtain ⟨vs, hperm, hall⟩ := h
  obtain ⟨ws, hperm', hall'⟩ := h'
  obtain ⟨us, hperm'', hall''⟩ : Relation.Comp List.Perm (List.Forall₂ r) vs ws := by
    rw [← List.forall₂_comp_perm_eq_perm_comp_forall₂]
    exact ⟨ys, hall, hperm'⟩
  refine ⟨us, hperm.trans hperm'', ?_⟩
  clear hperm hperm' hperm'' hall
  induction hall'' generalizing zs with
  | nil =>
    cases hall'
    exact .nil
  | cons hr _ ih =>
    cases hall' with
    | cons hs hrest => exact .cons (hrst _ _ _ hr hs) (ih hrest)

theorem UpToOrder.map {α' β' : Type} {s : α' → β' → Prop} {f : α → α'} {g : β → β'} (h : UpToOrder r xs ys)
    (hfg : ∀ x y, r x y → s (f x) (g y)) : UpToOrder s (xs.map f) (ys.map g) := by
  obtain ⟨zs, hperm, hall⟩ := h
  refine ⟨zs.map f, hperm.map f, ?_⟩
  rw [List.forall₂_map_left_iff, List.forall₂_map_right_iff]
  exact hall.imp fun {x y} => hfg x y

theorem UpToOrder.of_map {α' β' : Type} {s : α' → β' → Prop} {f : α → α'} {g : β → β'}
    (h : UpToOrder s (xs.map f) (ys.map g)) : UpToOrder (fun x y => s (f x) (g y)) xs ys := by
  obtain ⟨zs, hperm, hall⟩ := h
  have hread : List.Forall₂ (fun x z => f x = z) xs (xs.map f) :=
    List.forall₂_map_right_iff.2 (List.forall₂_same.2 fun _ _ => rfl)
  obtain ⟨ws, hperm', hread'⟩ : Relation.Comp List.Perm (List.Forall₂ fun x z => f x = z) xs zs := by
    rw [← List.forall₂_comp_perm_eq_perm_comp_forall₂]
    exact ⟨xs.map f, hread, hperm⟩
  obtain rfl : zs = ws.map f := by
    rw [← List.forall₂_eq_eq_eq, List.forall₂_map_right_iff]
    exact hread'.flip.imp fun {_ _} heq => heq.symm
  rw [List.forall₂_map_left_iff, List.forall₂_map_right_iff] at hall
  exact ⟨ws, hperm', hall⟩

theorem upToOrder_eq {xs ys : List α} : UpToOrder Eq xs ys ↔ xs.Perm ys := by
  refine ⟨fun ⟨zs, hperm, hall⟩ => ?_, fun h => ⟨ys, h, List.forall₂_same.2 fun _ _ => rfl⟩⟩
  rw [List.forall₂_eq_eq_eq] at hall
  exact hall ▸ hperm

end

/-- **Traversals in another order**: they fail alike, and their results correspond. -/
theorem UpToOrder.mapM {r : α → β → Prop} {s : γ → ζ → Prop} {f : α → Except ε γ} {g : β → Except δ ζ}
    {xs : List α} {ys : List β} (h : UpToOrder r xs ys) (hfg : ∀ x y, r x y → Agree s (f x) (g y)) :
    Agree (UpToOrder s) (xs.mapM f) (ys.mapM g) := by
  obtain ⟨zs, hperm, hall⟩ := h
  have hsame : Agree List.Perm (xs.mapM f) (zs.mapM f) := by
    have hforward : ∀ {xs zs : List α}, xs.Perm zs → ∀ as, xs.mapM f = .ok as →
        ∃ bs, zs.mapM f = .ok bs ∧ as.Perm bs := by
      intro xs zs hperm as has
      obtain ⟨bs, hperm', hbs⟩ : Relation.Comp List.Perm (List.Forall₂ fun a x => f x = .ok a) as zs := by
        rw [← List.forall₂_comp_perm_eq_perm_comp_forall₂]
        exact ⟨xs, (mapM_eq_ok.1 has).flip, hperm⟩
      exact ⟨bs, mapM_eq_ok.2 hbs.flip, hperm'⟩
    refine agree_iff.2 ⟨fun as has => hforward hperm as has, fun bs hbs => ?_⟩
    obtain ⟨as, has, hp⟩ := hforward hperm.symm bs hbs
    exact ⟨as, has, hp.symm⟩
  have hpair : Agree (List.Forall₂ s) (zs.mapM f) (ys.mapM g) := .mapM (hall.imp fun {x y} => hfg x y)
  exact hsame.congr_left hpair

end ContinuoRuntime
