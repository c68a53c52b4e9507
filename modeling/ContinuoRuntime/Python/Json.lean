/-
  JSON values.

  `Json S` has strings of type `S`: Python's `str`, or the UTF-16 code units
  that `json.dumps` really writes.  A float stands for its text, which is all
  that `dumps` and `loads` know of it.

  * `Json.Equiv`: equality up to the order of keys, at every depth;
  * `Json.sortKeys_eq_iff`: sorting the keys at every depth identifies exactly
    the values that agree up to key order.
-/
import ContinuoRuntime.Python.Str
import ContinuoRuntime.Python.Dict

namespace ContinuoRuntime

/-! ## Values -/

/-- The characters of a number, `null`, `true`, `false`, `NaN` or `Infinity`. -/
def isWordChar (c : CodePoint) : Bool :=
  (48 ≤ c.val && c.val < 58) || (65 ≤ c.val && c.val < 91) || (97 ≤ c.val && c.val < 123) ||
    c == ch '.' || c == ch '+' || c == ch '-'

/-- A decimal digit, in ASCII only. -/
def isDigit (c : CodePoint) : Bool := 48 ≤ c.val && c.val < 58

/-- `[0-9]+`. -/
def isDigits (t : Str) : Bool := t ≠ [] && t.all isDigit

/-- `0|[1-9][0-9]*`. -/
def isNatText (t : Str) : Bool := isDigits t && (t.length == 1 || t.head? ≠ some (ch '0'))

/-- `[eE][-+]?[0-9]+`. -/
def isExponent : Str → Bool
  | e :: c :: t => (e == ch 'e' || e == ch 'E') && if c = ch '+' ∨ c = ch '-' then isDigits t else isDigits (c :: t)
  | _ => false

/-- `\.[0-9]+`, an exponent, or both. -/
def isFraction : Str → Bool
  | [] => false
  | c :: t =>
    if c = ch '.' then t.takeWhile isDigit ≠ [] && (t.dropWhile isDigit = [] || isExponent (t.dropWhile isDigit))
    else isExponent (c :: t)

/-- A text without its minus sign. -/
def unsigned : Str → Str
  | [] => []
  | c :: t => if c = ch '-' then t else c :: t

/-- The texts of a float: a number that is not an integer's, or one of the three
    special values. -/
def isFloatText (t : Str) : Bool :=
  t == py "NaN" || t == py "Infinity" || t == py "-Infinity" ||
    (isNatText ((unsigned t).takeWhile isDigit) && isFraction ((unsigned t).dropWhile isDigit))

/-- A float, by a text; `dumps` writes its `repr`. -/
structure FloatRepr where
  text : Str
  wf : isFloatText text = true
  deriving DecidableEq

/-- A JSON value; an object lists its members in insertion order. -/
inductive Json (S : Type) where
  | null
  | bool (b : Bool)
  | int (i : ℤ)
  | float (f : FloatRepr)
  | str (s : S)
  | arr (xs : List (Json S))
  | obj (kvs : List (S × Json S))

namespace Json

variable {S T : Type}

mutual
/-- Apply `f` to every string, keys included. -/
def map (f : S → T) : Json S → Json T
  | null => null
  | bool b => bool b
  | int i => int i
  | float r => float r
  | str s => str (f s)
  | arr xs => arr (mapList f xs)
  | obj kvs => obj (mapItems f kvs)
  termination_by structural j => j
def mapList (f : S → T) : List (Json S) → List (Json T)
  | [] => []
  | x :: xs => map f x :: mapList f xs
  termination_by structural xs => xs
def mapItems (f : S → T) : List (S × Json S) → List (T × Json T)
  | [] => []
  | (k, v) :: kvs => (f k, map f v) :: mapItems f kvs
  termination_by structural kvs => kvs
end

mutual
theorem map_id : ∀ v : Json S, v.map id = v
  | null | bool _ | int _ | float _ | str _ => rfl
  | arr xs => by rw [map, mapList_id xs]
  | obj kvs => by rw [map, mapItems_id kvs]
  termination_by structural v => v
theorem mapList_id : ∀ xs : List (Json S), mapList id xs = xs
  | [] => rfl
  | x :: xs => by rw [mapList, map_id x, mapList_id xs]
  termination_by structural xs => xs
theorem mapItems_id : ∀ kvs : List (S × Json S), mapItems id kvs = kvs
  | [] => rfl
  | (k, v) :: kvs => by rw [mapItems, map_id v, mapItems_id kvs]; rfl
  termination_by structural kvs => kvs
end

mutual
/-- The members of every object have distinct keys. -/
def WF : Json S → Prop
  | arr xs => WFList xs
  | obj kvs => NodupKeys kvs ∧ WFItems kvs
  | _ => True
  termination_by structural j => j
def WFList : List (Json S) → Prop
  | [] => True
  | x :: xs => x.WF ∧ WFList xs
  termination_by structural xs => xs
def WFItems : List (S × Json S) → Prop
  | [] => True
  | (_, v) :: kvs => v.WF ∧ WFItems kvs
  termination_by structural kvs => kvs
end

mutual
/-- Equality up to the order of keys, at every depth. -/
def Equiv : Json S → Json S → Prop
  | null, w => w = null
  | bool b, w => w = bool b
  | int i, w => w = int i
  | float f, w => w = float f
  | str s, w => w = str s
  | arr xs, w => ∃ ys, w = arr ys ∧ EquivList xs ys
  | obj kvs, w => ∃ kws, w = obj kws ∧ kvs.length = kws.length ∧ EquivItems kvs kws
  termination_by structural j => j
/-- Elementwise equivalence. -/
def EquivList : List (Json S) → List (Json S) → Prop
  | [], ys => ys = []
  | x :: xs, ys => ∃ y ys', ys = y :: ys' ∧ x.Equiv y ∧ EquivList xs ys'
  termination_by structural xs => xs
/-- Every member has a member with the same key and an equivalent value. -/
def EquivItems : List (S × Json S) → List (S × Json S) → Prop
  | [], _ => True
  | (k, v) :: kvs, kws => (∃ w, (k, w) ∈ kws ∧ v.Equiv w) ∧ EquivItems kvs kws
  termination_by structural kvs => kvs
end

/-! ## Sorted keys -/

mutual
/-- Sort the members of every object. -/
def sortKeys [LinearOrder S] : Json S → Json S
  | arr xs => arr (sortList xs)
  | obj kvs => obj (sortedItems (sortMembers kvs))
  | v => v
  termination_by structural j => j
def sortList [LinearOrder S] : List (Json S) → List (Json S)
  | [] => []
  | x :: xs => sortKeys x :: sortList xs
  termination_by structural xs => xs
def sortMembers [LinearOrder S] : List (S × Json S) → List (S × Json S)
  | [] => []
  | (k, v) :: kvs => (k, sortKeys v) :: sortMembers kvs
  termination_by structural kvs => kvs
end

theorem sortMembers_eq_map [LinearOrder S] : ∀ kvs : List (S × Json S),
    sortMembers kvs = kvs.map fun p => (p.1, p.2.sortKeys)
  | [] => rfl
  | (k, v) :: kvs => by rw [sortMembers, sortMembers_eq_map kvs]; rfl

theorem length_sortMembers [LinearOrder S] (kvs : List (S × Json S)) :
    (sortMembers kvs).length = kvs.length := by
  rw [sortMembers_eq_map, List.length_map]

theorem wfItems_iff : ∀ {kvs : List (S × Json S)}, WFItems kvs ↔ ∀ p ∈ kvs, p.2.WF
  | [] => by simp [WFItems]
  | (k, v) :: kvs => by
    have ih : WFItems kvs ↔ ∀ p ∈ kvs, p.2.WF := wfItems_iff
    simp only [WFItems, List.forall_mem_cons, ih]

theorem equivItems_iff : ∀ {kvs kws : List (S × Json S)},
    EquivItems kvs kws ↔ ∀ p ∈ kvs, ∃ w, (p.1, w) ∈ kws ∧ p.2.Equiv w
  | [], kws => by simp [EquivItems]
  | (k, v) :: kvs, kws => by
    have ih : EquivItems kvs kws ↔ ∀ p ∈ kvs, ∃ w, (p.1, w) ∈ kws ∧ p.2.Equiv w := equivItems_iff
    simp only [EquivItems, List.forall_mem_cons, ih]

mutual
/-- **Sorting the keys at every depth** identifies exactly the values that agree
    up to key order. -/
theorem sortKeys_eq_iff [LinearOrder S] : ∀ v w : Json S, v.WF → w.WF →
    (v.sortKeys = w.sortKeys ↔ v.Equiv w)
  | null, w, _, _ | bool _, w, _, _ | int _, w, _, _ | float _, w, _, _ | str _, w, _, _ => by
    cases w <;> simp [sortKeys, Equiv, eq_comm]
  | arr xs, w, hv, hw => by
    cases w with
    | arr ys =>
      have := sortList_eq_iff xs ys hv hw
      simp only [sortKeys, arr.injEq, this, Equiv, exists_eq_left']
    | _ => simp [sortKeys, Equiv]
  | obj kvs, w, hv, hw => by
    cases w with
    | obj kws =>
      have ih := sortMembers_sub_iff kvs kws hv.2 hw.2
      have hn : NodupKeys (sortMembers kvs) := by
        rw [sortMembers_eq_map]; exact hv.1.map _
      simp only [sortKeys, obj.injEq, hn.sorted_eq_iff, hn.perm_iff, ih, Equiv, obj.injEq,
        exists_eq_left', length_sortMembers]
    | _ => simp [sortKeys, Equiv]
  termination_by structural v => v
theorem sortList_eq_iff [LinearOrder S] : ∀ xs ys : List (Json S), WFList xs → WFList ys →
    (sortList xs = sortList ys ↔ EquivList xs ys)
  | [], [], _, _ => by simp [sortList, EquivList]
  | [], _ :: _, _, _ => by simp [sortList, EquivList]
  | _ :: _, [], _, _ => by simp [sortList, EquivList]
  | x :: xs, y :: ys, hx, hy => by
    simp only [sortList, List.cons.injEq, sortKeys_eq_iff x y hx.1 hy.1,
      sortList_eq_iff xs ys hx.2 hy.2, EquivList]
    constructor
    · rintro ⟨h1, h2⟩
      exact ⟨y, ys, ⟨rfl, rfl⟩, h1, h2⟩
    · rintro ⟨_, _, ⟨rfl, rfl⟩, h1, h2⟩
      exact ⟨h1, h2⟩
  termination_by structural xs => xs
theorem sortMembers_sub_iff [LinearOrder S] : ∀ kvs kws : List (S × Json S), WFItems kvs →
    WFItems kws → ((∀ p ∈ sortMembers kvs, p ∈ sortMembers kws) ↔ EquivItems kvs kws)
  | [], kws, _, _ => by simp [sortMembers, EquivItems]
  | (k, v) :: kvs, kws, hv, hw => by
    have ih : ∀ w, w.WF → (v.sortKeys = w.sortKeys ↔ v.Equiv w) :=
      fun w hw => sortKeys_eq_iff v w hv.1 hw
    simp only [sortMembers, List.forall_mem_cons, EquivItems,
      sortMembers_sub_iff kvs kws hv.2 hw]
    refine and_congr_left fun _ => ?_
    simp only [sortMembers_eq_map, List.mem_map, Prod.exists, Prod.mk.injEq]
    constructor
    · rintro ⟨_, w, hm, rfl, hs⟩
      exact ⟨w, hm, (ih w (wfItems_iff.1 hw _ hm)).1 hs.symm⟩
    · rintro ⟨w, hm, he⟩
      exact ⟨k, w, hm, rfl, ((ih w (wfItems_iff.1 hw _ hm)).2 he).symm⟩
  termination_by structural kvs => kvs
end

theorem wfList_iff : ∀ {xs : List (Json S)}, WFList xs ↔ ∀ x ∈ xs, x.WF
  | [] => by simp [WFList]
  | x :: xs => by
    have ih : WFList xs ↔ ∀ x ∈ xs, x.WF := wfList_iff
    simp only [WFList, List.forall_mem_cons, ih]

end Json

/-! ## Sorted and renamed -/

section
variable {T : Type} (f : Str → T)

/-- A value with its keys sorted and every string renamed. -/
def spelled (v : Json Str) : Json T := v.sortKeys.map f

theorem mapItems_eq_map : ∀ kvs : List (Str × Json Str),
    Json.mapItems f kvs = kvs.map fun p => (f p.1, p.2.map f)
  | [] => rfl
  | (k, v) :: kvs => by rw [Json.mapItems, mapItems_eq_map kvs]; rfl

theorem mapList_eq_map : ∀ vs : List (Json Str), Json.mapList f vs = vs.map fun v => v.map f
  | [] => rfl
  | v :: vs => by rw [Json.mapList, mapList_eq_map vs]; rfl

theorem sortList_eq_map : ∀ vs : List (Json Str), Json.sortList vs = vs.map Json.sortKeys
  | [] => rfl
  | v :: vs => by rw [Json.sortList, sortList_eq_map vs]; rfl

theorem spelled_obj (kvs : List (Str × Json Str)) : spelled f (.obj kvs) =
    .obj ((sortedItems (kvs.map fun p => (p.1, spelled f p.2))).map fun p => (f p.1, p.2)) := by
  have hspelled : (sortedItems (kvs.map fun p => (p.1, spelled f p.2))) =
      (sortedItems (kvs.map fun p => (p.1, p.2.sortKeys))).map fun p => (p.1, p.2.map f) := by
    rw [sortedItems_map (fun _ (v : Json Str) => v.map f), List.map_map]
    rfl
  rw [spelled, Json.sortKeys, Json.map, mapItems_eq_map, Json.sortMembers_eq_map, hspelled,
    List.map_map]
  rfl

theorem spelled_arr (vs : List (Json Str)) : spelled f (.arr vs) = .arr (vs.map (spelled f)) := by
  rw [spelled, Json.sortKeys, Json.map, mapList_eq_map, sortList_eq_map, List.map_map]
  rfl

/-- Two mappings that differ in what they make of one list of members. -/
theorem spelled_obj_map_iff (g g' : Str → Json Str → Json Str) (kvs : List (Str × Json Str)) :
    spelled f (.obj (kvs.map fun p => (p.1, g p.1 p.2))) =
        spelled f (.obj (kvs.map fun p => (p.1, g' p.1 p.2))) ↔
      ∀ p ∈ kvs, spelled f (g p.1 p.2) = spelled f (g' p.1 p.2) := by
  have hmap : ∀ g : Str → Json Str → Json Str, (sortedItems ((kvs.map fun p => (p.1, g p.1 p.2)).map
      fun p => (p.1, spelled f p.2))) =
      (sortedItems kvs).map fun p => (p.1, spelled f (g p.1 p.2)) := fun g => by
    rw [List.map_map]
    exact (sortedItems_map (fun k v => spelled f (g k v)) kvs).symm
  rw [spelled_obj, spelled_obj, hmap, hmap, Json.obj.injEq, List.map_map, List.map_map,
    List.map_inj_left]
  refine ⟨fun h p hp => ?_, fun h p hp => ?_⟩
  · exact (Prod.mk.inj (h p ((sortedItems_perm kvs).symm.subset hp))).2
  · exact Prod.ext rfl (h p ((sortedItems_perm kvs).subset hp))

end

/-! ## Mappings -/

/-- A JSON mapping. -/
structure JsonDict where
  members : List (Str × Json Str)
  wf : (Json.obj members).WF

theorem Json.wf_str (s : Str) : (Json.str s).WF := trivial

theorem Json.wf_int (i : ℤ) : (Json.int i : Json Str).WF := trivial

namespace JsonDict

/-- `{}`. -/
def empty : JsonDict := ⟨[], List.nodup_nil, trivial⟩

/-- The members, as a `dict`. -/
def toDict (d : JsonDict) : Dict Str (Json Str) := ⟨d.members, d.wf.1⟩

/-- `d.get(key)`. -/
def get? (d : JsonDict) (key : Str) : Option (Json Str) := d.toDict.get? key

/-- `d[key] = v`. -/
def set (d : JsonDict) (key : Str) (v : Json Str) (hv : v.WF) : JsonDict where
  members := (d.toDict.set key v).items
  wf := ⟨(d.toDict.set key v).nodup, Json.wfItems_iff.2 fun p hp => by
    rcases Dict.mem_setItems.1 hp with rfl | ⟨hp, -⟩
    · exact hv
    · exact Json.wfItems_iff.1 d.wf.2 p hp⟩

theorem get?_set (d : JsonDict) (key : Str) (v : Json Str) (hv : v.WF) (k : Str) :
    (d.set key v hv).get? k = if k = key then some v else d.get? k :=
  Dict.get?_set d.toDict key v k

theorem get?_eq_some_iff {d : JsonDict} {key : Str} {v : Json Str} :
    d.get? key = some v ↔ (key, v) ∈ d.members :=
  Dict.get?_eq_some_iff

end JsonDict

end ContinuoRuntime
