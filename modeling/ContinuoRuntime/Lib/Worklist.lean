/-
  Worklist traversal: visit what is queued, queue what a visit finds and has
  not been seen, until the queue is empty.  A visit may fail, which ends the
  traversal.

  * `loop_closed`: the result contains the start and, with every element, what
    a visit of it finds;
  * `loop_invariant`: nothing else is in it;
  * `loop_isSome`: in a finite universe the fuel suffices;
  * `loop_from_iff`, `loop_from_error`: from one element, the result is what is
    reached, and a failure is one of what is reached.
-/
import Mathlib

namespace ContinuoRuntime.Worklist

variable {α ε : Type} [DecidableEq α]

/-- Add to `seen` and `queue` what has not been seen. -/
def enqueue (seen queue : List α) : List α → List α × List α
  | [] => (seen, queue)
  | c :: cs => if c ∈ seen then enqueue seen queue cs else enqueue (seen ++ [c]) (queue ++ [c]) cs

/-- What `enqueue` adds: the same elements to both, each new one once. -/
theorem enqueue_spec : ∀ (seen queue cs : List α), ∃ fresh,
    enqueue seen queue cs = (seen ++ fresh, queue ++ fresh) ∧
      (∀ x, x ∈ fresh ↔ x ∈ cs ∧ x ∉ seen) ∧ fresh.Nodup
  | seen, queue, [] => ⟨[], by simp [enqueue], by simp, List.nodup_nil⟩
  | seen, queue, c :: cs => by
    unfold enqueue
    split_ifs with hc
    · obtain ⟨fresh, heq, hmem, hnd⟩ := enqueue_spec seen queue cs
      refine ⟨fresh, heq, fun x => ?_, hnd⟩
      rw [hmem, List.mem_cons]
      constructor
      · rintro ⟨hx, hs⟩
        exact ⟨.inr hx, hs⟩
      · rintro ⟨rfl | hx, hs⟩
        · exact absurd hc hs
        · exact ⟨hx, hs⟩
    · obtain ⟨fresh, heq, hmem, hnd⟩ := enqueue_spec (seen ++ [c]) (queue ++ [c]) cs
      have hcf : c ∉ fresh := fun h => ((hmem c).1 h).2 (by simp)
      refine ⟨c :: fresh, by simp [heq], fun x => ?_, List.nodup_cons.2 ⟨hcf, hnd⟩⟩
      simp only [List.mem_cons, hmem, List.mem_append, List.not_mem_nil, or_false, not_or]
      constructor
      · rintro (rfl | ⟨hx, hs, -⟩)
        · exact ⟨.inl rfl, hc⟩
        · exact ⟨.inr hx, hs⟩
      · rintro ⟨rfl | hx, hs⟩
        · exact .inl rfl
        · exact (em (x = c)).imp id fun hne => ⟨hx, hs, hne⟩

variable (visit : α → Except ε (List α))

/-- The traversal, for at most `n` visits. -/
def loop : ℕ → List α → List α → Option (Except ε (List α))
  | _, seen, [] => some (.ok seen)
  | 0, _, _ :: _ => none
  | n + 1, seen, c :: queue =>
    match visit c with
    | .error e => some (.error e)
    | .ok cs =>
      let next := enqueue seen queue cs
      loop n next.1 next.2

/-- Everything seen is queued, or its visit found nothing new. -/
def Settled (seen queue : List α) : Prop :=
  ∀ x ∈ seen, x ∈ queue ∨ ∃ cs, visit x = .ok cs ∧ ∀ c ∈ cs, c ∈ seen

variable {visit}

/-- **One visit** leaves everything settled. -/
theorem settled_enqueue {seen queue cs : List α} {c : α} (hv : visit c = .ok cs)
    (h : Settled visit seen (c :: queue)) :
    Settled visit (enqueue seen queue cs).1 (enqueue seen queue cs).2 := by
  obtain ⟨fresh, heq, hmem, -⟩ := enqueue_spec seen queue cs
  rw [heq]
  intro x hx
  rcases List.mem_append.1 hx with hx | hx
  · rcases h x hx with hq | ⟨ds, hd, hsub⟩
    · rcases List.mem_cons.1 hq with rfl | hq
      · refine .inr ⟨cs, hv, fun d hd => ?_⟩
        by_cases hs : d ∈ seen
        · exact List.mem_append_left _ hs
        · exact List.mem_append_right _ ((hmem d).2 ⟨hd, hs⟩)
      · exact .inl (List.mem_append_left _ hq)
    · exact .inr ⟨ds, hd, fun d hd' => List.mem_append_left _ (hsub d hd')⟩
  · exact .inl (List.mem_append_right _ hx)

/-- **The result is closed**: it contains what has been seen, and what the visit
    of any of its elements finds. -/
theorem loop_closed : ∀ {n : ℕ} {seen queue res : List α}, Settled visit seen queue →
    loop visit n seen queue = some (.ok res) → seen ⊆ res ∧ Settled visit res []
  | n, seen, [], res, hset, h => by
    have hres : seen = res := by cases n <;> simpa [loop] using h
    exact ⟨hres ▸ List.Subset.refl _, hres ▸ hset⟩
  | 0, seen, c :: queue, res, _, h => by simp [loop] at h
  | n + 1, seen, c :: queue, res, hset, h => by
    unfold loop at h
    split at h
    · cases h
    · next cs hv =>
      obtain ⟨hsub, hclosed⟩ := loop_closed (settled_enqueue hv hset) h
      obtain ⟨fresh, heq, -, -⟩ := enqueue_spec seen queue cs
      rw [heq] at hsub
      exact ⟨fun x hx => hsub (List.mem_append_left _ hx), hclosed⟩

/-- **Nothing else is in the result**: what holds of the elements seen and passes
    on to what a visit finds holds of the result. -/
theorem loop_invariant {P : α → Prop} (hP : ∀ x cs, P x → visit x = .ok cs → ∀ c ∈ cs, P c) :
    ∀ {n : ℕ} {seen queue res : List α}, (∀ x ∈ seen, P x) → queue ⊆ seen →
    loop visit n seen queue = some (.ok res) → ∀ x ∈ res, P x
  | n, seen, [], res, hs, _, h => by
    have hres : seen = res := by cases n <;> simpa [loop] using h
    exact hres ▸ hs
  | 0, seen, c :: queue, res, _, _, h => by simp [loop] at h
  | n + 1, seen, c :: queue, res, hs, hq, h => by
    unfold loop at h
    split at h
    · cases h
    · next cs hv =>
      obtain ⟨fresh, heq, hmem, -⟩ := enqueue_spec seen queue cs
      rw [heq] at h
      refine loop_invariant hP (fun x hx => ?_) (fun x hx => ?_) h
      · rcases List.mem_append.1 hx with hx | hx
        · exact hs x hx
        · exact hP c cs (hs c (hq (by simp))) hv x ((hmem x).1 hx).1
      · rcases List.mem_append.1 hx with hx | hx
        · exact List.mem_append_left _ (hq (by simp [hx]))
        · exact List.mem_append_right _ hx

/-- The result has no duplicates. -/
theorem loop_nodup : ∀ {n : ℕ} {seen queue res : List α}, seen.Nodup →
    loop visit n seen queue = some (.ok res) → res.Nodup
  | n, seen, [], res, hs, h => by
    have hres : seen = res := by cases n <;> simpa [loop] using h
    exact hres ▸ hs
  | 0, seen, c :: queue, res, _, h => by simp [loop] at h
  | n + 1, seen, c :: queue, res, hs, h => by
    unfold loop at h
    split at h
    · cases h
    · next cs hv =>
      obtain ⟨fresh, heq, hmem, hnd⟩ := enqueue_spec seen queue cs
      rw [heq] at h
      refine loop_nodup (List.nodup_append.2 ⟨hs, hnd, fun x hx y hy hxy => ?_⟩) h
      exact ((hmem y).1 hy).2 (hxy ▸ hx)

/-- **The fuel suffices**: with `n` visits for what is queued and for what of the
    universe has not been seen, the traversal ends. -/
theorem loop_isSome {U : List α} (hU : ∀ x cs, x ∈ U → visit x = .ok cs → ∀ c ∈ cs, c ∈ U) :
    ∀ {n : ℕ} {seen queue : List α}, seen.Nodup → seen ⊆ U → queue ⊆ seen →
    queue.length + U.length ≤ n + seen.length → (loop visit n seen queue).isSome
  | n, seen, [], _, _, _, _ => by cases n <;> simp [loop]
  | 0, seen, c :: queue, hnd, hs, _, hn => by
    have hle := (hnd.subperm hs).length_le
    rw [List.length_cons] at hn
    omega
  | n + 1, seen, c :: queue, hnd, hs, hq, hn => by
    unfold loop
    split
    · rfl
    · next cs hv =>
      obtain ⟨fresh, heq, hmem, hfnd⟩ := enqueue_spec seen queue cs
      rw [heq]
      have hcU : c ∈ U := hs (hq (by simp))
      refine loop_isSome hU (List.nodup_append.2 ⟨hnd, hfnd, fun x hx y hy hxy => ?_⟩)
        (fun x hx => ?_) (fun x hx => ?_) ?_
      · exact ((hmem y).1 hy).2 (hxy ▸ hx)
      · rcases List.mem_append.1 hx with hx | hx
        · exact hs hx
        · exact hU c cs hcU hv x ((hmem x).1 hx).1
      · rcases List.mem_append.1 hx with hx | hx
        · exact List.mem_append_left _ (hq (by simp [hx]))
        · exact List.mem_append_right _ hx
      · simp only [List.length_append, List.length_cons] at hn ⊢
        omega

/-- **A failure** is one of what has been seen, or of what a visit has found. -/
theorem loop_error {P : α → Prop} (hP : ∀ x cs, P x → visit x = .ok cs → ∀ c ∈ cs, P c) {e : ε} :
    ∀ {n : ℕ} {seen queue : List α}, (∀ x ∈ queue, P x) → loop visit n seen queue = some (.error e) →
    ∃ x, P x ∧ visit x = .error e
  | n, seen, [], _, h => by cases n <;> simp [loop] at h
  | 0, seen, c :: queue, _, h => by simp [loop] at h
  | n + 1, seen, c :: queue, hq, h => by
    obtain ⟨hc, hqueue⟩ := List.forall_mem_cons.1 hq
    unfold loop at h
    split at h
    · next hv =>
      cases h
      exact ⟨c, hc, hv⟩
    · next cs hv =>
      obtain ⟨fresh, heq, hmem, -⟩ := enqueue_spec seen queue cs
      rw [heq] at h
      refine loop_error hP (fun x hx => ?_) h
      rcases List.mem_append.1 hx with hx | hx
      · exact hqueue x hx
      · exact hP c cs hc hv x ((hmem x).1 hx).1

/-! ## From one element -/

/-- What the visit of an element finds. -/
def Finds (visit : α → Except ε (List α)) (x c : α) : Prop := ∃ cs, visit x = .ok cs ∧ c ∈ cs

/-- **The result** is what is reached from the start, and all of it is visited. -/
theorem loop_from_iff {n : ℕ} {s : α} {res : List α} (h : loop visit n [s] [s] = some (.ok res)) {x : α} :
    (x ∈ res ↔ Relation.ReflTransGen (Finds visit) s x) ∧ (x ∈ res → ∃ cs, visit x = .ok cs) := by
  obtain ⟨hsub, hclosed⟩ := loop_closed (fun x hx => .inl hx) h
  have hvisited : ∀ x ∈ res, ∃ cs, visit x = .ok cs ∧ ∀ c ∈ cs, c ∈ res := by
    intro x hx
    rcases hclosed x hx with hq | hv
    · cases hq
    · exact hv
  refine ⟨⟨?_, ?_⟩, fun hx => (hvisited x hx).imp fun _ hcs => hcs.1⟩
  · refine loop_invariant (fun y cs hy hv c hc => hy.tail ⟨cs, hv, hc⟩) (fun y hy => ?_)
      (List.Subset.refl _) h x
    rw [List.mem_singleton.1 hy]
  · intro hreach
    induction hreach with
    | refl => exact hsub List.mem_cons_self
    | tail _ hfind ih =>
      obtain ⟨cs, hv, hc⟩ := hfind
      obtain ⟨cs', hv', hall⟩ := hvisited _ ih
      cases Except.ok.inj (hv.symm.trans hv')
      exact hall _ hc

/-- **A failure** is one of what is reached from the start. -/
theorem loop_from_error {n : ℕ} {s : α} {e : ε} (h : loop visit n [s] [s] = some (.error e)) :
    ∃ x, Relation.ReflTransGen (Finds visit) s x ∧ visit x = .error e := by
  refine loop_error (fun y cs hy hv c hc => hy.tail ⟨cs, hv, hc⟩) (fun y hy => ?_) h
  rw [List.mem_singleton.1 hy]

end ContinuoRuntime.Worklist
