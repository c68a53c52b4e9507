/-
  Python's `dict`: members in insertion order, with distinct keys.

  * `sorted_eq_iff`: sorting two dicts by key gives one list exactly if they
    have the same members, in whatever order;
  * `perm_iff`: same members means same length and one inclusion.
-/
import Mathlib

namespace ContinuoRuntime

variable {K V W : Type}

/-! ## Lists of members -/

/-- The keys of a list of members are distinct. -/
def NodupKeys (kvs : List (K × V)) : Prop := (kvs.map Prod.fst).Nodup

theorem NodupKeys.eq_of_key {kvs : List (K × V)} (h : NodupKeys kvs) {p q : K × V} (hp : p ∈ kvs)
    (hq : q ∈ kvs) (hk : p.1 = q.1) : p = q :=
  List.inj_on_of_nodup_map h hp hq hk

theorem NodupKeys.nodup {kvs : List (K × V)} (h : NodupKeys kvs) : kvs.Nodup :=
  List.Nodup.of_map _ h

theorem NodupKeys.map {kvs : List (K × V)} (h : NodupKeys kvs) (f : V → W) :
    NodupKeys (kvs.map fun p => (p.1, f p.2)) := by
  unfold NodupKeys
  rw [List.map_map]
  exact h

theorem NodupKeys.perm_iff {kvs kws : List (K × V)} (hv : NodupKeys kvs) :
    kvs.Perm kws ↔ kvs.length = kws.length ∧ ∀ p ∈ kvs, p ∈ kws := by
  refine ⟨fun h => ⟨h.length_eq, fun p hp => h.subset hp⟩, fun ⟨hl, hs⟩ => ?_⟩
  exact (hv.nodup.subperm hs).perm_of_length_le hl.ge

theorem NodupKeys.lookup_eq_some_iff [DecidableEq K] {kvs : List (K × V)} (h : NodupKeys kvs)
    {k : K} {v : V} : kvs.lookup k = some v ↔ (k, v) ∈ kvs := by
  induction kvs with
  | nil => simp
  | cons p kvs ih =>
    obtain ⟨k', v'⟩ := p
    have hn : k' ∉ kvs.map Prod.fst ∧ NodupKeys kvs := by
      simpa only [NodupKeys, List.map_cons, List.nodup_cons] using h
    simp only [List.lookup_cons, List.mem_cons, Prod.mk.injEq]
    by_cases hk : k = k'
    · subst hk
      have hnot : (k, v) ∉ kvs := fun hm => hn.1 (List.mem_map_of_mem (f := Prod.fst) hm)
      simp [hnot, eq_comm]
    · rw [show (k == k') = false from beq_false_of_ne hk]
      simp [hk, ih hn.2]

/-! ## Optional members -/

/-- The members that are there, of a list of optional ones. -/
def presentItems (fs : List (K × Option V)) : List (K × V) :=
  fs.filterMap fun p => p.2.map fun v => (p.1, v)

theorem presentItems_map (g : K → V → W) (fs : List (K × Option V)) :
    (presentItems fs).map (fun p => (p.1, g p.1 p.2)) =
      presentItems (fs.map fun p => (p.1, p.2.map (g p.1))) := by
  induction fs with
  | nil => rfl
  | cons p fs ih => obtain ⟨k, _ | v⟩ := p <;> simpa [presentItems] using ih

theorem mem_presentItems {fs : List (K × Option V)} {k : K} {v : V} :
    (k, v) ∈ presentItems fs ↔ (k, some v) ∈ fs := by
  simp only [presentItems, List.mem_filterMap, Prod.exists, Option.map_eq_some_iff, Prod.mk.injEq]
  constructor
  · rintro ⟨k', o, hm, v', rfl, rfl, rfl⟩; exact hm
  · exact fun h => ⟨k, some v, h, v, rfl, rfl, rfl⟩

theorem keys_presentItems (fs : List (K × Option V)) :
    ((presentItems fs).map Prod.fst).Sublist (fs.map Prod.fst) := by
  induction fs with
  | nil => exact .refl _
  | cons p fs ih =>
    obtain ⟨k, _ | v⟩ := p
    · exact ih.cons k
    · exact ih.cons_cons k

theorem NodupKeys.present {fs : List (K × Option V)} (h : NodupKeys fs) :
    NodupKeys (presentItems fs) :=
  (keys_presentItems fs).nodup h

/-- Optional members under the same distinct keys: the members that are there
    tell them apart. -/
theorem NodupKeys.present_perm_iff {fs gs : List (K × Option V)} (hf : NodupKeys fs)
    (hk : fs.map Prod.fst = gs.map Prod.fst) : (presentItems fs).Perm (presentItems gs) ↔ fs = gs := by
  refine ⟨fun h => ?_, fun h => h ▸ .refl _⟩
  have hg : NodupKeys gs := by unfold NodupKeys at hf ⊢; rwa [← hk]
  have hmem : ∀ p, p ∈ fs → p ∈ gs := by
    rintro ⟨k, o⟩ hp
    obtain ⟨⟨k', o'⟩, hq, rfl⟩ : ∃ q ∈ gs, q.1 = k := by
      have := List.mem_map_of_mem (f := Prod.fst) hp
      rw [hk] at this
      exact List.mem_map.1 this
    cases o with
    | some v =>
      exact mem_presentItems.1 (h.subset (mem_presentItems.2 hp))
    | none =>
      cases o' with
      | none => exact hq
      | some v =>
        have hv := mem_presentItems.1 (h.symm.subset (mem_presentItems.2 hq))
        cases hf.eq_of_key hp hv rfl
  have hlen : fs.length = gs.length := by
    rw [← List.length_map (f := Prod.fst), hk, List.length_map]
  refine List.ext_getElem hlen fun i hi hj => hg.eq_of_key (hmem _ (List.getElem_mem hi))
    (List.getElem_mem hj) ?_
  have hki := congrArg (fun l => l[i]?) hk
  simpa [hi, hj] using hki

/-! ## Sorting by key -/

variable [LinearOrder K]

/-- `sorted(d.items())`, whose keys are distinct. -/
def sortedItems (kvs : List (K × V)) : List (K × V) := kvs.insertionSort fun p q => p.1 ≤ q.1

theorem sortedItems_perm (kvs : List (K × V)) : (sortedItems kvs).Perm kvs :=
  List.perm_insertionSort _ kvs

/-- **Sorting by key** identifies exactly the lists with the same members. -/
theorem NodupKeys.sorted_eq_iff {kvs kws : List (K × V)} (hv : NodupKeys kvs) :
    sortedItems kvs = sortedItems kws ↔ kvs.Perm kws := by
  refine ⟨fun h => ?_, fun h => ?_⟩
  · exact (sortedItems_perm kvs).symm.trans (h ▸ sortedItems_perm kws)
  · have htotal : Std.Total fun p q : K × V => p.1 ≤ q.1 := ⟨fun p q => le_total p.1 q.1⟩
    have htrans : IsTrans (K × V) fun p q => p.1 ≤ q.1 := ⟨fun _ _ _ => le_trans⟩
    refine List.Perm.eq_of_pairwise ?_
      (List.pairwise_insertionSort _ kvs) (List.pairwise_insertionSort _ kws)
      ((sortedItems_perm kvs).trans (h.trans (sortedItems_perm kws).symm))
    intro p q hp hq hpq hqp
    exact hv.eq_of_key ((sortedItems_perm kvs).subset hp)
      (h.symm.subset ((sortedItems_perm kws).subset hq)) (le_antisymm hpq hqp)

theorem sortedItems_map (g : K → V → W) (kvs : List (K × V)) :
    (sortedItems kvs).map (fun p => (p.1, g p.1 p.2)) = sortedItems (kvs.map fun p => (p.1, g p.1 p.2)) :=
  List.map_insertionSort _ _ _ _ fun _ _ _ _ => Iff.rfl

/-- Sorting, and then renaming the keys one to one, still tells members apart. -/
theorem NodupKeys.renamed_sorted_eq_iff {L : Type} {f : K → L} {s : Set K} (hf : Set.InjOn f s)
    {kvs kws : List (K × V)} (hv : NodupKeys kvs) (hs : ∀ p ∈ kvs, p.1 ∈ s) (ht : ∀ p ∈ kws, p.1 ∈ s) :
    (sortedItems kvs).map (fun p => (f p.1, p.2)) = (sortedItems kws).map (fun p => (f p.1, p.2)) ↔
      kvs.Perm kws := by
  rw [← hv.sorted_eq_iff]
  refine ⟨fun h => ?_, fun h => by rw [h]⟩
  have hlen := congrArg List.length h
  rw [List.length_map, List.length_map] at hlen
  refine List.ext_getElem hlen fun i hi hj => ?_
  have hki := congrArg (fun l => l[i]?) h
  simp only [List.getElem?_map, List.getElem?_eq_getElem hi, List.getElem?_eq_getElem hj,
    Option.map_some, Option.some.injEq, Prod.mk.injEq] at hki
  have h1 := hs _ ((sortedItems_perm kvs).subset (List.getElem_mem hi))
  have h2 := ht _ ((sortedItems_perm kws).subset (List.getElem_mem hj))
  exact Prod.ext (hf h1 h2 hki.1) hki.2

/-! ## Dicts -/

omit [LinearOrder K]

/-- Python's `dict`. -/
structure Dict (K V : Type) where
  items : List (K × V)
  nodup : NodupKeys items

namespace Dict

/-- `d.get(k)`. -/
def get? [DecidableEq K] (d : Dict K V) (k : K) : Option V := d.items.lookup k

/-- `{}`. -/
def empty : Dict K V := ⟨[], List.nodup_nil⟩

/-- `{k: f(v) for k, v in d.items()}`. -/
def mapValues (f : V → W) (d : Dict K V) : Dict K W :=
  ⟨d.items.map fun p => (p.1, f p.2), d.nodup.map f⟩

/-- The items of `d[k] = v`: in place of the old value, or at the end. -/
def setItems [DecidableEq K] (kvs : List (K × V)) (k : K) (v : V) : List (K × V) :=
  if k ∈ kvs.map Prod.fst then kvs.map fun p => if p.1 = k then (k, v) else p else kvs ++ [(k, v)]

theorem mem_setItems [DecidableEq K] {kvs : List (K × V)} {k : K} {v : V} {p : K × V} :
    p ∈ setItems kvs k v ↔ p = (k, v) ∨ p ∈ kvs ∧ p.1 ≠ k := by
  unfold setItems
  split_ifs with hk
  · obtain ⟨q, hq, rfl⟩ := List.mem_map.1 hk
    rw [List.mem_map]
    constructor
    · rintro ⟨r, hr, rfl⟩
      split_ifs with hrk
      · exact .inl rfl
      · exact .inr ⟨hr, hrk⟩
    · rintro (rfl | ⟨hp, hne⟩)
      · exact ⟨q, hq, if_pos rfl⟩
      · exact ⟨p, hp, if_neg hne⟩
  · rw [List.mem_append, List.mem_singleton]
    constructor
    · rintro (hp | rfl)
      · exact .inr ⟨hp, fun h => hk (h ▸ List.mem_map_of_mem (f := Prod.fst) hp)⟩
      · exact .inl rfl
    · rintro (rfl | ⟨hp, -⟩)
      · exact .inr rfl
      · exact .inl hp

theorem nodupKeys_setItems [DecidableEq K] {kvs : List (K × V)} (h : NodupKeys kvs) (k : K) (v : V) :
    NodupKeys (setItems kvs k v) := by
  unfold setItems NodupKeys
  split_ifs with hk
  · have hkeys : (kvs.map fun p => if p.1 = k then (k, v) else p).map Prod.fst = kvs.map Prod.fst := by
      rw [List.map_map]
      refine List.map_congr_left fun p _ => ?_
      rw [Function.comp_apply]
      split_ifs with hp
      · exact hp.symm
      · rfl
    rw [hkeys]
    exact h
  · rw [List.map_append, List.nodup_append]
    refine ⟨h, List.nodup_singleton _, fun a ha b hb hab => hk ?_⟩
    obtain rfl : b = k := List.mem_singleton.1 hb
    exact hab ▸ ha

/-- `d[k] = v`. -/
def set [DecidableEq K] (d : Dict K V) (k : K) (v : V) : Dict K V :=
  ⟨setItems d.items k v, nodupKeys_setItems d.nodup k v⟩

theorem get?_eq_some_iff [DecidableEq K] {d : Dict K V} {k : K} {v : V} :
    d.get? k = some v ↔ (k, v) ∈ d.items :=
  d.nodup.lookup_eq_some_iff

theorem get?_set [DecidableEq K] (d : Dict K V) (k : K) (v : V) (k' : K) :
    (d.set k v).get? k' = if k' = k then some v else d.get? k' := by
  refine Option.ext fun w => ?_
  rw [get?_eq_some_iff, set, mem_setItems, Prod.mk.injEq]
  split_ifs with hk
  · subst hk
    simp [eq_comm]
  · rw [get?_eq_some_iff]
    simp [hk]

theorem get?_mapValues [DecidableEq K] (f : V → W) (d : Dict K V) (k : K) :
    (d.mapValues f).get? k = (d.get? k).map f := by
  obtain ⟨kvs, hn⟩ := d
  simp only [get?, mapValues]
  clear hn
  induction kvs with
  | nil => rfl
  | cons p kvs ih =>
    obtain ⟨k', v⟩ := p
    simp only [List.map_cons, List.lookup_cons, ih]
    split <;> rfl

/-- The items that pass a test. -/
def filter (f : K × V → Bool) (d : Dict K V) : Dict K V :=
  ⟨d.items.filter f, d.nodup.sublist ((List.filter_sublist).map _)⟩

theorem get?_filter [DecidableEq K] {f : K × V → Bool} {d : Dict K V} {k : K} {v : V} :
    (d.filter f).get? k = some v ↔ d.get? k = some v ∧ f (k, v) = true := by
  rw [get?_eq_some_iff, get?_eq_some_iff, filter, List.mem_filter]

/-- **Dicts with the same members** are those that answer every lookup alike. -/
theorem perm_iff_get? [DecidableEq K] {d e : Dict K V} :
    d.items.Perm e.items ↔ ∀ k, d.get? k = e.get? k := by
  have hmem : (∀ k, d.get? k = e.get? k) ↔ ∀ p, p ∈ d.items ↔ p ∈ e.items := by
    refine ⟨fun h ⟨k, v⟩ => ?_, fun h k => Option.ext fun v => ?_⟩
    · rw [← get?_eq_some_iff, ← get?_eq_some_iff, h]
    · rw [get?_eq_some_iff, get?_eq_some_iff, h]
  rw [hmem]
  exact List.perm_ext_iff_of_nodup d.nodup.nodup e.nodup.nodup

end Dict

end ContinuoRuntime
