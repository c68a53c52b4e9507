/-
  Python's `str.replace` and what it does to the substrings of a text.

  * `replace_segments`: the text falls into segments without `old`, joined by `old`
    before and by `new` after;
  * `infix_of_infix_replace`: what is masked by a character that it does not have is
    gone, and nothing without that character is made;
  * `replace_singleton`: replacing one character is a `flatMap`.
-/
import ContinuoRuntime.Python.Str

namespace ContinuoRuntime

/-- The scan of `str.replace`; `skip` characters belong to a match already replaced. -/
def replaceFrom (old new : Str) : ℕ → Str → Str
  | _, [] => []
  | skip + 1, _ :: s => replaceFrom old new skip s
  | 0, c :: s =>
    if old <+: c :: s then new ++ replaceFrom old new (old.length - 1) s
    else c :: replaceFrom old new 0 s

/-- `s.replace(old, new)`. -/
def replace (s old new : Str) : Str :=
  if old = [] then new ++ s.flatMap (fun c => c :: new) else replaceFrom old new 0 s

theorem replaceFrom_skip (old new : Str) : ∀ (n : ℕ) (s : Str),
    replaceFrom old new n s = replaceFrom old new 0 (s.drop n)
  | 0, _ => rfl
  | _ + 1, [] => by simp [replaceFrom]
  | n + 1, _ :: s => replaceFrom_skip old new n s

/-- The scan at a match. -/
theorem replaceFrom_append {old : Str} (new rest : Str) (h : old ≠ []) :
    replaceFrom old new 0 (old ++ rest) = new ++ replaceFrom old new 0 rest := by
  obtain ⟨c, old, rfl⟩ := List.exists_cons_of_ne_nil h
  have hmatch : c :: old <+: c :: (old ++ rest) := ⟨rest, rfl⟩
  rw [List.cons_append, replaceFrom, if_pos hmatch, replaceFrom_skip]
  simp

theorem replaceFrom_cons {old s : Str} {c : CodePoint} (new : Str) (h : ¬ old <+: c :: s) :
    replaceFrom old new 0 (c :: s) = c :: replaceFrom old new 0 s := by
  rw [replaceFrom, if_neg h]

/-! ## Segments -/

theorem intercalate_cons_head (sep : Str) (c : CodePoint) (g : Str) (gs : List Str) :
    sep.intercalate ((c :: g) :: gs) = c :: sep.intercalate (g :: gs) := by
  cases gs <;> simp [List.intercalate]

theorem intercalate_nil_cons (sep : Str) {gs : List Str} (h : gs ≠ []) :
    sep.intercalate ([] :: gs) = sep ++ sep.intercalate gs := by
  obtain ⟨g, gs, rfl⟩ := List.exists_cons_of_ne_nil h
  simp [List.intercalate]

theorem prefix_intercalate_cons (sep g : Str) (gs : List Str) : g <+: sep.intercalate (g :: gs) := by
  cases gs with
  | nil => exact ⟨[], by simp [List.intercalate]⟩
  | cons g' gs => exact ⟨sep ++ sep.intercalate (g' :: gs), by simp [List.intercalate]⟩

theorem infix_intercalate (sep : Str) : ∀ {segs : List Str} {seg : Str}, seg ∈ segs →
    seg <:+: sep.intercalate segs
  | g :: gs, seg, h => by
    rcases List.mem_cons.1 h with rfl | h
    · exact (prefix_intercalate_cons sep seg gs).isInfix
    · have hrest := infix_intercalate sep h
      obtain ⟨g', gs, rfl⟩ := List.exists_cons_of_ne_nil (List.ne_nil_of_mem h)
      refine hrest.trans ⟨g ++ sep, [], ?_⟩
      simp [List.intercalate]

/-- **Replacing** cuts a text into segments without `old`, and puts `new` between
    them. -/
theorem replace_segments {old : Str} (new : Str) (h : old ≠ []) (s : Str) : ∃ segs : List Str, segs ≠ [] ∧
    s = old.intercalate segs ∧ replace s old new = new.intercalate segs ∧
      ∀ seg ∈ segs, ¬ old <:+: seg := by
  rw [replace, if_neg h]
  -- by induction on the length: a match takes all of `old` away
  induction hn : s.length using Nat.strong_induction_on generalizing s with
  | _ n ih =>
    cases s with
    | nil =>
      refine ⟨[[]], by simp, by simp [List.intercalate], by simp [List.intercalate, replaceFrom], ?_⟩
      intro seg hseg hinfix
      obtain rfl := List.mem_singleton.1 hseg
      exact h (List.infix_nil.1 hinfix)
    | cons c s =>
      by_cases hmatch : old <+: c :: s
      · obtain ⟨rest, hrest⟩ := hmatch
        have hlen : rest.length < n := by
          have hpos := List.length_pos_iff.2 h
          have hboth := congrArg List.length hrest
          rw [List.length_append] at hboth
          omega
        obtain ⟨segs, hne, hs, hr, hclean⟩ := ih rest.length hlen rest rfl
        refine ⟨[] :: segs, List.cons_ne_nil _ _, ?_, ?_, ?_⟩
        · rw [intercalate_nil_cons old hne, ← hs, hrest]
        · rw [← hrest, replaceFrom_append new rest h, hr, intercalate_nil_cons new hne]
        · intro seg hseg hinfix
          rcases List.mem_cons.1 hseg with rfl | hseg
          · exact h (List.infix_nil.1 hinfix)
          · exact hclean seg hseg hinfix
      · obtain ⟨segs, hne, hs, hr, hclean⟩ := ih s.length (by simp [← hn]) s rfl
        obtain ⟨g, gs, rfl⟩ := List.exists_cons_of_ne_nil hne
        refine ⟨(c :: g) :: gs, List.cons_ne_nil _ _, ?_, ?_, ?_⟩
        · rw [intercalate_cons_head, ← hs]
        · rw [replaceFrom_cons new hmatch, hr, intercalate_cons_head]
        · intro seg hseg hinfix
          rcases List.mem_cons.1 hseg with rfl | hseg
          · rcases List.infix_cons_iff.1 hinfix with hpre | hinfix
            · -- a match at the front of the first segment is one at the front of the text
              refine hmatch (hpre.trans ?_)
              have hfront := prefix_intercalate_cons old g gs
              rw [← hs] at hfront
              exact List.cons_prefix_cons.2 ⟨rfl, hfront⟩
            · exact hclean g List.mem_cons_self hinfix
          · exact hclean seg (List.mem_cons_of_mem _ hseg) hinfix

/-! ## Substrings -/

/-- A text without `m` stands on one side of an `m`. -/
theorem infix_append_cons {m : CodePoint} {t a b : Str} (ht : m ∉ t) (h : t <:+: a ++ m :: b) :
    t <:+: a ∨ t <:+: b := by
  have hnil : ∀ {u : Str}, m ∉ u → u <+: m :: b → u = [] := by
    intro u hu hpre
    cases u with
    | nil => rfl
    | cons c u =>
      obtain ⟨rfl, -⟩ := List.cons_prefix_cons.1 hpre
      exact absurd List.mem_cons_self hu
  rcases List.infix_append_iff.1 h with h | h | ⟨t₁, t₂, rfl, h₁, h₂⟩
  · exact .inl h
  · rcases List.infix_cons_iff.1 h with h | h
    · rw [hnil ht h]
      exact .inl (List.nil_infix)
    · exact .inr h
  · rw [hnil (fun hm => ht (List.mem_append_right _ hm)) h₂, List.append_nil]
    exact .inl h₁.isInfix

/-- A text without `m` in a text joined by a row of `m`s stands in one of the
    parts. -/
theorem infix_of_infix_intercalate {m : CodePoint} {n : ℕ} {t : Str} (ht : m ∉ t) : ∀ {segs : List Str},
    segs ≠ [] → t <:+: (List.replicate (n + 1) m).intercalate segs → ∃ seg ∈ segs, t <:+: seg
  | [seg], _, h => ⟨seg, List.mem_cons_self, by simpa [List.intercalate] using h⟩
  | seg :: seg' :: segs, _, h => by
    have hrow : ∀ {k : ℕ} {b : Str}, t <:+: List.replicate k m ++ b → t <:+: b := by
      intro k
      induction k with
      | zero => exact fun h => h
      | succ k ih =>
        intro b h
        rcases infix_append_cons (a := []) ht h with h | h
        · rw [List.infix_nil.1 h]
          exact List.nil_infix
        · exact ih h
    have hjoin : (List.replicate (n + 1) m).intercalate (seg :: seg' :: segs) = seg ++ m ::
        (List.replicate n m ++ (List.replicate (n + 1) m).intercalate (seg' :: segs)) := by
      simp [List.intercalate, List.replicate_succ]
    rw [hjoin] at h
    rcases infix_append_cons ht h with h | h
    · exact ⟨seg, List.mem_cons_self, h⟩
    · obtain ⟨other, hother, hin⟩ := infix_of_infix_intercalate ht (List.cons_ne_nil _ _) (hrow h)
      exact ⟨other, List.mem_cons_of_mem _ hother, hin⟩

/-- **Masking** with a row of `m`s: a substring without `m` was there before, and is
    not what was masked. -/
theorem infix_of_infix_replace {m : CodePoint} {n : ℕ} {s old t : Str} (hold : old ≠ []) (ht : m ∉ t)
    (h : t <:+: replace s old (List.replicate (n + 1) m)) : t <:+: s ∧ t ≠ old := by
  obtain ⟨segs, hne, hs, hr, hclean⟩ := replace_segments (List.replicate (n + 1) m) hold s
  rw [hr] at h
  obtain ⟨seg, hseg, hin⟩ := infix_of_infix_intercalate ht hne h
  refine ⟨?_, fun heq => hclean seg hseg (heq ▸ hin)⟩
  rw [hs]
  exact hin.trans (infix_intercalate old hseg)

/-! ## One character -/

/-- **Replacing one character.** -/
theorem replace_singleton (s new : Str) (c : CodePoint) :
    replace s [c] new = s.flatMap fun d => if d = c then new else [d] := by
  rw [replace, if_neg (List.cons_ne_nil _ _)]
  induction s with
  | nil => rfl
  | cons d s ih =>
    by_cases hd : d = c
    · subst hd
      rw [List.flatMap_cons, if_pos rfl, ← ih]
      exact replaceFrom_append new s (List.cons_ne_nil _ _)
    · have hmatch : ¬ [c] <+: d :: s := fun h => hd (List.cons_prefix_cons.1 h).1.symm
      rw [replaceFrom_cons new hmatch, List.flatMap_cons, if_neg hd, ih]
      rfl

end ContinuoRuntime
