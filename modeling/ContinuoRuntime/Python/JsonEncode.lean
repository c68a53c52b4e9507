/-
  What `json.dumps` may raise on a JSON value.

  The text itself is `dumps`; the encoder fails on containers nested deeper than
  the stack takes, and on an integer that `int.__repr__` refuses to print.

  * `encode_obj_iff`, `encode_arr_iff`: a container is written exactly if the
    stack takes it and its members are written;
  * `encode_sortKeys`: the order of keys does not matter.
-/
import ContinuoRuntime.Python.JsonText
import ContinuoRuntime.Contract.Types
import ContinuoRuntime.Contract.Values

namespace ContinuoRuntime

namespace Json

variable {S : Type} (nesting : ℕ)

mutual
/-- The encoder on a value under `depth` containers; the stack takes `nesting`
    containers. -/
def encode : ℕ → Json S → Except Exc Unit
  | _, int i =>
    if IntPrints i then .ok ()
    else .error (.text .valueError (py "Exceeds the limit (4300 digits) for integer string conversion"))
  | depth, arr xs => if nesting < depth + 1 then .error recursionError else encodeList (depth + 1) xs
  | depth, obj kvs => if nesting < depth + 1 then .error recursionError else encodeItems (depth + 1) kvs
  | _, _ => .ok ()
  termination_by structural _ v => v
def encodeList : ℕ → List (Json S) → Except Exc Unit
  | _, [] => .ok ()
  | depth, x :: xs => do
    encode depth x
    encodeList depth xs
  termination_by structural _ xs => xs
def encodeItems : ℕ → List (S × Json S) → Except Exc Unit
  | _, [] => .ok ()
  | depth, (_, v) :: kvs => do
    encode depth v
    encodeItems depth kvs
  termination_by structural _ kvs => kvs
end

/-- The encoder succeeds. -/
def Encodes (depth : ℕ) (v : Json S) : Prop := encode nesting depth v = .ok ()

variable {nesting}

theorem seq_eq_ok {x y : Except Exc Unit} : (do x; y) = .ok () ↔ x = .ok () ∧ y = .ok () := by
  rw [bind_eq_ok]
  exact ⟨fun ⟨⟨⟩, hx, hy⟩ => ⟨hx, hy⟩, fun ⟨hx, hy⟩ => ⟨(), hx, hy⟩⟩

theorem encodeList_iff {depth : ℕ} {xs : List (Json S)} :
    encodeList nesting depth xs = .ok () ↔ ∀ x ∈ xs, Encodes nesting depth x := by
  induction xs with
  | nil => exact ⟨fun _ _ hx => absurd hx List.not_mem_nil, fun _ => rfl⟩
  | cons x xs ih =>
    rw [encodeList, seq_eq_ok, List.forall_mem_cons, ih]
    rfl

theorem encodeItems_iff {depth : ℕ} {kvs : List (S × Json S)} :
    encodeItems nesting depth kvs = .ok () ↔ ∀ p ∈ kvs, Encodes nesting depth p.2 := by
  induction kvs with
  | nil => exact ⟨fun _ _ hp => absurd hp List.not_mem_nil, fun _ => rfl⟩
  | cons p kvs ih =>
    obtain ⟨k, v⟩ := p
    rw [encodeItems, seq_eq_ok, List.forall_mem_cons, ih]
    rfl

theorem encode_int_iff {depth : ℕ} {i : ℤ} : Encodes nesting depth (int i : Json S) ↔ IntPrints i := by
  rw [Encodes, encode]
  split_ifs with hi
  · exact ⟨fun _ => hi, fun _ => rfl⟩
  · exact ⟨fun hok => (by cases hok), fun hp => absurd hp hi⟩

/-- **A list is written** exactly if the stack takes it and its elements are. -/
theorem encode_arr_iff {depth : ℕ} {xs : List (Json S)} : Encodes nesting depth (arr xs) ↔
    depth + 1 ≤ nesting ∧ ∀ x ∈ xs, Encodes nesting (depth + 1) x := by
  rw [Encodes, encode]
  split_ifs with hdepth
  · exact ⟨fun hok => (by cases hok), fun hok => absurd hok.1 (by omega)⟩
  · rw [encodeList_iff]
    exact ⟨fun hxs => ⟨by omega, hxs⟩, And.right⟩

/-- **A mapping is written** exactly if the stack takes it and its values are. -/
theorem encode_obj_iff {depth : ℕ} {kvs : List (S × Json S)} : Encodes nesting depth (obj kvs) ↔
    depth + 1 ≤ nesting ∧ ∀ p ∈ kvs, Encodes nesting (depth + 1) p.2 := by
  rw [Encodes, encode]
  split_ifs with hdepth
  · exact ⟨fun hok => (by cases hok), fun hok => absurd hok.1 (by omega)⟩
  · rw [encodeItems_iff]
    exact ⟨fun hkvs => ⟨by omega, hkvs⟩, And.right⟩

mutual
/-- The order of keys does not matter. -/
theorem encode_sortKeys [LinearOrder S] : ∀ {depth : ℕ} (v : Json S),
    Encodes nesting depth v.sortKeys ↔ Encodes nesting depth v
  | _, null | _, bool _ | _, int _ | _, float _ | _, str _ => Iff.rfl
  | depth, arr xs => by
    rw [sortKeys, encode_arr_iff, encode_arr_iff, encode_sortList xs]
  | depth, obj kvs => by
    rw [sortKeys, encode_obj_iff, encode_obj_iff, ← encode_sortMembers kvs]
    refine and_congr_right fun _ => ?_
    exact ⟨fun hall p hp => hall p ((sortedItems_perm _).symm.subset hp),
      fun hall p hp => hall p ((sortedItems_perm _).subset hp)⟩
  termination_by structural _ v => v
theorem encode_sortList [LinearOrder S] : ∀ {depth : ℕ} (xs : List (Json S)),
    (∀ x ∈ sortList xs, Encodes nesting depth x) ↔ ∀ x ∈ xs, Encodes nesting depth x
  | _, [] => Iff.rfl
  | _, x :: xs => by
    rw [sortList, List.forall_mem_cons, List.forall_mem_cons, encode_sortKeys x, encode_sortList xs]
  termination_by structural _ xs => xs
theorem encode_sortMembers [LinearOrder S] : ∀ {depth : ℕ} (kvs : List (S × Json S)),
    (∀ p ∈ sortMembers kvs, Encodes nesting depth p.2) ↔ ∀ p ∈ kvs, Encodes nesting depth p.2
  | _, [] => Iff.rfl
  | _, (k, v) :: kvs => by
    rw [sortMembers, List.forall_mem_cons, List.forall_mem_cons, encode_sortKeys v,
      encode_sortMembers kvs]
  termination_by structural _ kvs => kvs
end

end Json

end ContinuoRuntime
