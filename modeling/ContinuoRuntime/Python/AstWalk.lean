/-
  `ast.walk` by positions.

  * `mem_walk_iff`: the walk visits every node of the tree, at its position;
  * `walk_sorted`: it visits a node before every node further down.
-/
import ContinuoRuntime.Python.Ast
import ContinuoRuntime.Lib.Except

namespace ContinuoRuntime.Ast

/-- The node at a position. -/
def at? : Ast → Pos → Option Ast
  | t, [] => some t
  | t, i :: p => match t.children[i]? with
    | none => none
    | some child => child.at? p

theorem at?_append : ∀ {p : Pos} {t : Ast} (q : Pos), t.at? (p ++ q) = (t.at? p).bind fun n => n.at? q
  | [], _, _ => rfl
  | i :: p, t, q => by
    rw [List.cons_append, at?, at?]
    cases t.children[i]? with
    | none => rfl
    | some child => exact at?_append q

/-- One step further down. -/
theorem at?_snoc {t n : Ast} {p : Pos} (hn : t.at? p = some n) (i : ℕ) :
    t.at? (p ++ [i]) = n.children[i]? := by
  rw [at?_append, hn, Option.bind_some, at?]
  cases n.children[i]? <;> rfl

theorem depth_le_depthAll : ∀ {ts : List Ast} {t : Ast}, t ∈ ts → t.depth ≤ depthAll ts
  | t :: ts, u, hu => by
    rw [depthAll]
    rcases List.mem_cons.1 hu with rfl | hu
    · exact le_max_left _ _
    · exact (depth_le_depthAll hu).trans (le_max_right _ _)

/-- A child has fewer levels. -/
theorem depth_lt_of_mem_children : ∀ {t child : Ast}, child ∈ t.children → child.depth < t.depth
  | .imports .., _, h | .importFrom .., _, h | .name .., _, h | .constant .., _, h =>
    absurd h List.not_mem_nil
  | .attribute _ value _, _, h => by
    cases List.mem_singleton.1 h
    exact Nat.lt_succ_self _
  | .joinedStr _ values, _, h => Nat.lt_succ_of_le (depth_le_depthAll h)
  | .binOp _ _ left right, _, h => by
    simp only [children, List.mem_cons, List.not_mem_nil, or_false] at h
    rw [depth]
    rcases h with rfl | rfl <;> omega
  | .call _ func args, _, h => by
    rw [depth]
    rcases List.mem_cons.1 h with rfl | h
    · omega
    · have hargs := depth_le_depthAll h
      omega
  | .expr value, _, h => by
    cases List.mem_singleton.1 h
    exact Nat.lt_succ_self _
  | .scope before body after, _, h => by
    rw [depth]
    simp only [children, List.mem_append] at h
    rcases h with (h | h) | h <;>
      (have hall := depth_le_depthAll h
       omega)
  | .other cs, _, h => Nat.lt_succ_of_le (depth_le_depthAll h)

theorem length_lt_depth : ∀ {p : Pos} {t n : Ast}, t.at? p = some n → p.length < t.depth
  | [], t, n, _ => by
    cases t <;> exact Nat.succ_pos _
  | i :: p, t, n, hn => by
    rw [at?] at hn
    cases hchild : t.children[i]? with
    | none =>
      rw [hchild] at hn
      cases hn
    | some child =>
      rw [hchild] at hn
      have hlt := depth_lt_of_mem_children (List.mem_of_getElem? hchild)
      have hp := length_lt_depth hn
      rw [List.length_cons]
      omega

theorem mem_childrenAt {node : Pos × Ast} {q : Pos} {child : Ast} :
    (q, child) ∈ childrenAt node ↔ ∃ i, q = node.1 ++ [i] ∧ node.2.children[i]? = some child := by
  rw [childrenAt, List.mem_map]
  constructor
  · rintro ⟨⟨c, i⟩, hc, heq⟩
    cases heq
    exact ⟨i, rfl, List.mem_zipIdx_iff_getElem?.1 hc⟩
  · rintro ⟨i, rfl, hc⟩
    exact ⟨(child, i), List.mem_zipIdx_iff_getElem?.2 hc, rfl⟩

/-- The levels hold nodes at their positions, if the first one does. -/
theorem at?_of_mem_levels {tree : Ast} : ∀ {n : ℕ} {level : List (Pos × Ast)},
    (∀ x ∈ level, tree.at? x.1 = some x.2) → ∀ x ∈ levels n level, tree.at? x.1 = some x.2
  | 0, _, _, _, hx => absurd hx List.not_mem_nil
  | n + 1, level, hlevel, x, hx => by
    rcases List.mem_append.1 hx with hx | hx
    · exact hlevel x hx
    · refine at?_of_mem_levels (fun y hy => ?_) x hx
      obtain ⟨node, hnode, hy⟩ := List.mem_flatMap.1 hy
      obtain ⟨i, hq, hchild⟩ := mem_childrenAt.1 hy
      rw [hq, at?_snoc (hlevel node hnode), hchild]

/-- What is below a node of the first level comes in the levels. -/
theorem mem_levels_of_at? : ∀ {p : Pos} {n : ℕ} {level : List (Pos × Ast)} {node : Pos × Ast} {found : Ast},
    node ∈ level → p.length < n → node.2.at? p = some found → (node.1 ++ p, found) ∈ levels n level
  | _, 0, _, _, _, _, hlen, _ => absurd hlen (Nat.not_lt_zero _)
  | [], n + 1, level, node, found, hnode, _, hfound => by
    cases Option.some.inj hfound
    rw [List.append_nil]
    exact List.mem_append_left _ hnode
  | i :: p, n + 1, level, node, found, hnode, hlen, hfound => by
    rw [at?] at hfound
    cases hchild : node.2.children[i]? with
    | none =>
      rw [hchild] at hfound
      cases hfound
    | some child =>
      rw [hchild] at hfound
      have hnext : (node.1 ++ [i], child) ∈ level.flatMap childrenAt :=
        List.mem_flatMap.2 ⟨node, hnode, mem_childrenAt.2 ⟨i, rfl, hchild⟩⟩
      have hbelow := mem_levels_of_at? hnext (Nat.lt_of_succ_lt_succ hlen) hfound
      rw [List.append_assoc] at hbelow
      exact List.mem_append_right _ hbelow

/-- **The walk visits every node** of the tree, at its position. -/
theorem mem_walk_iff {tree node : Ast} {p : Pos} : (p, node) ∈ tree.walk ↔ tree.at? p = some node := by
  constructor
  · intro h
    refine at?_of_mem_levels (fun x hx => ?_) _ h
    cases List.mem_singleton.1 hx
    rfl
  · intro h
    exact mem_levels_of_at? (List.mem_singleton.2 rfl) (length_lt_depth h) h

theorem levels_sorted : ∀ {n : ℕ} {level : List (Pos × Ast)} {m : ℕ},
    (∀ x ∈ level, x.1.length = m) →
      (levels n level).Pairwise (fun x y => x.1.length ≤ y.1.length) ∧ ∀ x ∈ levels n level, m ≤ x.1.length
  | 0, _, _, _ => ⟨List.Pairwise.nil, fun _ hx => absurd hx List.not_mem_nil⟩
  | n + 1, level, m, hlevel => by
    have hnext : ∀ x ∈ level.flatMap childrenAt, x.1.length = m + 1 := by
      intro x hx
      obtain ⟨node, hnode, hx⟩ := List.mem_flatMap.1 hx
      obtain ⟨i, hq, -⟩ := mem_childrenAt.1 hx
      rw [hq, List.length_append, List.length_singleton, hlevel node hnode]
    obtain ⟨hsorted, hlow⟩ := @levels_sorted n _ _ hnext
    refine ⟨List.pairwise_append.2 ⟨?_, hsorted, fun x hx y hy => ?_⟩, fun x hx => ?_⟩
    · refine List.pairwise_of_forall_mem_list fun x hx y hy => ?_
      rw [hlevel x hx, hlevel y hy]
    · have hy := hlow y hy
      rw [hlevel x hx]
      omega
    · rcases List.mem_append.1 hx with hx | hx
      · exact (hlevel x hx).ge
      · have hx := hlow x hx
        omega

/-- **The walk goes down** level by level. -/
theorem walk_sorted (tree : Ast) : tree.walk.Pairwise fun x y => x.1.length ≤ y.1.length := by
  refine (@levels_sorted tree.depth _ 0 fun x hx => ?_).1
  cases List.mem_singleton.1 hx
  rfl

end ContinuoRuntime.Ast
