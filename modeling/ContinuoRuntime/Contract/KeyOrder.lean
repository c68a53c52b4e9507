/-
  Values of two documents that are the same up to the order of mapping keys.

  The documents are graphs (shared containers, cycles), so sameness is a
  relation that looks alike at every level: `Alike`, the largest such one.

  * `alike_level`: what two alike values look like, one level down;
  * `toJson_equiv`: their walks give JSON values that agree up to key order;
  * `validateConfig_agree`: **a config** is accepted in both documents or in
    neither, with the same mapping up to key order.
-/
import ContinuoRuntime.Contract.ConfigGraph
import ContinuoRuntime.Lib.Agree

namespace ContinuoRuntime

open Relation

/-! ## Members in any order -/

section
variable {K V W : Type} {r : V → W → Prop}

/-- **Sorting by distinct keys** puts corresponding members at the same place. -/
theorem UpToOrder.sorted [LinearOrder K] {kvs : List (K × V)} {kws : List (K × W)}
    (h : UpToOrder (fun p q => p.1 = q.1 ∧ r p.2 q.2) kvs kws) (hn : NodupKeys kvs) :
    List.Forall₂ (fun p q => p.1 = q.1 ∧ r p.2 q.2) (sortedItems kvs) (sortedItems kws) := by
  obtain ⟨zs, hperm, hall⟩ := h
  rw [hn.sorted_eq_iff.2 hperm]
  clear hperm hn
  -- both lists are read off one list of key and pair of values
  obtain ⟨pairs, hz, hw, hr⟩ : ∃ pairs : List (K × V × W), zs = pairs.map (fun p => (p.1, p.2.1)) ∧
      kws = pairs.map (fun p => (p.1, p.2.2)) ∧ ∀ p ∈ pairs, r p.2.1 p.2.2 := by
    induction hall with
    | nil => exact ⟨[], rfl, rfl, fun p hp => by cases hp⟩
    | @cons p q zs kws hpq _ ih =>
      obtain ⟨pairs, rfl, rfl, hr⟩ := ih
      obtain ⟨key, v⟩ := p
      obtain ⟨key', w⟩ := q
      obtain ⟨rfl, hvw⟩ := hpq
      exact ⟨(key, v, w) :: pairs, rfl, rfl, List.forall_mem_cons.2 ⟨hvw, hr⟩⟩
  subst hz hw
  rw [← sortedItems_map (fun _ (p : V × W) => p.1) pairs, ← sortedItems_map (fun _ (p : V × W) => p.2) pairs,
    List.forall₂_map_left_iff, List.forall₂_map_right_iff, List.forall₂_same]
  exact fun p hp => ⟨rfl, hr p ((sortedItems_perm pairs).subset hp)⟩

end

/-! ## Same values -/

/-- Two containers with the same content, by `R`; the members of a mapping in any
    order. -/
inductive AlikeCell {n m : ℕ} (R : Val n → Val m → Prop) : Cell n → Cell m → Prop
  | dict {d : Dict (Val n) (Val n)} {e : Dict (Val m) (Val m)}
      (h : UpToOrder (fun p q => R p.1 q.1 ∧ R p.2 q.2) d.items e.items) : AlikeCell R (.dict d) (.dict e)
  | list {xs : List (Val n)} {ys : List (Val m)} (h : List.Forall₂ R xs ys) : AlikeCell R (.list xs) (.list ys)

/-- Two values that are alike at their first level, and have the same content by `R`. -/
inductive AlikeLevel (h k : Heap) (R : Val h.size → Val k.size → Prop) : Val h.size → Val k.size → Prop
  | none : AlikeLevel h k R .none .none
  | bool (b : Bool) : AlikeLevel h k R (.bool b) (.bool b)
  | int (i : ℤ) : AlikeLevel h k R (.int i) (.int i)
  | float (f : FloatRepr) : AlikeLevel h k R (.float f) (.float f)
  | str (s : Str) : AlikeLevel h k R (.str s) (.str s)
  | other (type order text : Str) : AlikeLevel h k R (.other type order text) (.other type order text)
  | ref {a : Fin h.size} {b : Fin k.size} (hcell : AlikeCell R (h.cell a) (k.cell b)) :
      AlikeLevel h k R (.ref a) (.ref b)

section
variable (h k : Heap)

/-- A relation of values that are alike at every level. -/
def LevelByLevel (R : Val h.size → Val k.size → Prop) : Prop := ∀ v w, R v w → AlikeLevel h k R v w

/-- Two values of two documents are the same, up to the order of mapping keys. -/
def Alike (v : Val h.size) (w : Val k.size) : Prop := ∃ R, LevelByLevel h k R ∧ R v w

/-- Two mappings with the same members. -/
def AlikeMapping (d : Dict (Val h.size) (Val h.size)) (e : Dict (Val k.size) (Val k.size)) : Prop :=
  UpToOrder (fun p q => Alike h k p.1 q.1 ∧ Alike h k p.2 q.2) d.items e.items

variable {h k}

theorem AlikeLevel.mono {R S : Val h.size → Val k.size → Prop} (hRS : ∀ v w, R v w → S v w)
    {v : Val h.size} {w : Val k.size} (hvw : AlikeLevel h k R v w) : AlikeLevel h k S v w := by
  cases hvw with
  | none => exact .none
  | bool b => exact .bool b
  | int i => exact .int i
  | float f => exact .float f
  | str s => exact .str s
  | other t o x => exact .other t o x
  | @ref a b hcell =>
    refine .ref ?_
    generalize h.cell a = c at hcell ⊢
    generalize k.cell b = c' at hcell ⊢
    cases hcell with
    | dict hitems => exact .dict (hitems.mono fun p q hpq => ⟨hRS _ _ hpq.1, hRS _ _ hpq.2⟩)
    | list hall => exact .list (hall.imp fun {v w} => hRS v w)

/-- **One level down**, same values are made of same values. -/
theorem alike_level {v : Val h.size} {w : Val k.size} (hvw : Alike h k v w) :
    AlikeLevel h k (Alike h k) v w := by
  obtain ⟨R, hR, hvw⟩ := hvw
  exact (hR v w hvw).mono fun v w hvw => ⟨R, hR, hvw⟩

theorem alike_of_level {v : Val h.size} {w : Val k.size} (hvw : AlikeLevel h k (Alike h k) v w) :
    Alike h k v w := by
  refine ⟨fun v w => Alike h k v w ∨ AlikeLevel h k (Alike h k) v w, fun v w hvw => ?_, .inr hvw⟩
  have hlevel : AlikeLevel h k (Alike h k) v w := hvw.elim alike_level id
  exact hlevel.mono fun v w => .inl

theorem alike_str {s : Str} {w : Val k.size} : Alike h k (.str s) w ↔ w = .str s := by
  constructor
  · intro hw
    cases alike_level hw with
    | str => rfl
  · rintro rfl
    exact alike_of_level (.str s)

theorem AlikeLevel.flip {R : Val h.size → Val k.size → Prop} {v : Val h.size} {w : Val k.size}
    (hvw : AlikeLevel h k R v w) : AlikeLevel k h (fun w v => R v w) w v := by
  cases hvw with
  | none => exact .none
  | bool b => exact .bool b
  | int i => exact .int i
  | float f => exact .float f
  | str s => exact .str s
  | other t o x => exact .other t o x
  | @ref a b hcell =>
    refine .ref ?_
    generalize h.cell a = c at hcell ⊢
    generalize k.cell b = c' at hcell ⊢
    cases hcell with
    | dict hitems => exact .dict hitems.flip
    | list hall => exact .list hall.flip

theorem Alike.symm {v : Val h.size} {w : Val k.size} (hvw : Alike h k v w) : Alike k h w v := by
  obtain ⟨R, hR, hvw⟩ := hvw
  exact ⟨fun w v => R v w, fun w v hvw => (hR v w hvw).flip, hvw⟩

/-! ## Configs -/

theorem AlikeMapping.symm {d : Dict (Val h.size) (Val h.size)} {e : Dict (Val k.size) (Val k.size)}
    (hde : AlikeMapping h k d e) : AlikeMapping k h e d :=
  (UpToOrder.flip hde).mono fun _ _ hpq => ⟨hpq.1.symm, hpq.2.symm⟩

/-- A value in a container has one that is the same in the other. -/
theorem simulates_alike : Simulates h.Holds k.Holds (Alike h k) := by
  intro v w v' hvw hv
  cases alike_level hvw with
  | @ref a b hcell =>
    unfold Heap.Holds Heap.parts at hv ⊢
    dsimp only at hv ⊢
    generalize h.cell a = c at hcell hv
    generalize k.cell b = c' at hcell ⊢
    cases hcell with
    | dict hitems =>
      obtain ⟨p, hp, rfl⟩ := List.mem_map.1 hv
      obtain ⟨q, hq, -, hpq⟩ := hitems.exists_right hp
      exact ⟨q.2, List.mem_map_of_mem hq, hpq⟩
    | list hall => exact exists_of_forall₂_left hall hv
  | _ => exact absurd hv List.not_mem_nil

theorem Alike.within {v : Val h.size} {w : Val k.size} (hvw : Alike h k v w) {n : ℕ} :
    Within h.Holds n v ↔ Within k.Holds n w :=
  ⟨Within.of_simulates simulates_alike hvw.symm, Within.of_simulates simulates_alike hvw⟩

theorem Alike.jsonShaped_left {v : Val h.size} {w : Val k.size} (hvw : Alike h k v w)
    (hw : JsonShaped k w) : JsonShaped h v := by
  refine ⟨fun a ha d hd p hp => ?_, fun t o x hx => ?_⟩
  · obtain ⟨w', hw', hsame⟩ := simulates_alike.reach hvw ha
    cases alike_level hsame with
    | @ref _ b hcell =>
      rw [hd] at hcell
      generalize hb : k.cell b = c at hcell
      cases hcell with
      | dict hitems =>
        obtain ⟨q, hq, hpq, -⟩ := hitems.exists_right hp
        obtain ⟨s, hs⟩ := hw.keys b hw' _ hb q hq
        rw [hs] at hpq
        exact ⟨s, alike_str.1 hpq.symm⟩
  · obtain ⟨w', hw', hsame⟩ := simulates_alike.reach hvw hx
    cases alike_level hsame with
    | other => exact hw.leaves t o x hw'

theorem Alike.jsonShaped {v : Val h.size} {w : Val k.size} (hvw : Alike h k v w) :
    JsonShaped h v ↔ JsonShaped k w :=
  ⟨hvw.symm.jsonShaped_left, hvw.jsonShaped_left⟩

theorem Alike.encodable_left {v : Val h.size} {w : Val k.size} (hvw : Alike h k v w) {nesting depth : ℕ}
    (hw : Encodable k nesting depth w) : Encodable h nesting depth v := by
  refine ⟨fun i hi => ?_, fun e a ha => ?_⟩
  · obtain ⟨w', hw', hsame⟩ := simulates_alike.reach hvw hi
    cases alike_level hsame with
    | int => exact hw.ints i hw'
  · obtain ⟨w', hw', hsame⟩ := simulates_alike.steps hvw ha
    cases alike_level hsame with
    | @ref _ b => exact hw.nested e b hw'

/-- The order of keys does not matter to the encoder. -/
theorem Alike.encodable {v : Val h.size} {w : Val k.size} (hvw : Alike h k v w) {nesting depth : ℕ} :
    Encodable h nesting depth v ↔ Encodable k nesting depth w :=
  ⟨hvw.symm.encodable_left, hvw.encodable_left⟩

theorem Alike.asDict {v : Val h.size} {w : Val k.size} (hvw : Alike h k v w) :
    Option.Rel (AlikeMapping h k) (h.asDict v) (k.asDict w) := by
  cases alike_level hvw with
  | @ref a b hcell =>
    unfold Heap.asDict
    dsimp only
    generalize h.cell a = c at hcell
    generalize k.cell b = c' at hcell
    cases hcell with
    | dict hitems => exact .some hitems
    | list => exact .none
  | _ => exact .none

theorem Alike.asList {v : Val h.size} {w : Val k.size} (hvw : Alike h k v w) :
    Option.Rel (List.Forall₂ (Alike h k)) (h.asList v) (k.asList w) := by
  cases alike_level hvw with
  | @ref a b hcell =>
    unfold Heap.asList
    dsimp only
    generalize h.cell a = c at hcell
    generalize k.cell b = c' at hcell
    cases hcell with
    | dict => exact .none
    | list hall => exact .some hall
  | _ => exact .none

theorem equivList_iff : ∀ {vs ws : List (Json Str)}, Json.EquivList vs ws ↔ List.Forall₂ Json.Equiv vs ws
  | [], ws => by rw [Json.EquivList, List.forall₂_nil_left_iff]
  | v :: vs, ws => by
    rw [Json.EquivList, List.forall₂_cons_left_iff]
    constructor
    · rintro ⟨w, ws', rfl, hvw, hvs⟩
      exact ⟨w, ws', hvw, equivList_iff.1 hvs, rfl⟩
    · rintro ⟨w, ws', hvw, hvs, rfl⟩
      exact ⟨w, ws', rfl, hvw, equivList_iff.2 hvs⟩

theorem toJson_equiv_scalar {L : Lang} {label label' : Str} {fuel fuel' : ℕ} {active : List (Fin h.size)}
    {active' : List (Fin k.size)} {v key : Val h.size} {w key' : Val k.size} {j j' : Json Str}
    (hv : ∀ a, v ≠ .ref a) (hvw : Alike h k v w) (hj : toJson L h label fuel active v key = .ok j)
    (hj' : toJson L k label' fuel' active' w key' = .ok j') : j.Equiv j' := by
  cases alike_level hvw with
  | none | bool | int | float | str =>
    cases fuel <;> cases fuel' <;> (cases hj; cases hj'; rfl)
  | other =>
    cases fuel <;> (obtain ⟨_, -, hj⟩ := bind_eq_ok.1 hj; exact absurd hj contractErrorFor_ne_ok)
  | ref => exact absurd rfl (hv _)

/-- **The walks of same values** give JSON values that agree up to key order. -/
theorem toJson_equiv {L : Lang} {label label' : Str} : ∀ {fuel fuel' : ℕ} {active : List (Fin h.size)}
    {active' : List (Fin k.size)} {v key : Val h.size} {w key' : Val k.size} {j j' : Json Str},
    Alike h k v w → toJson L h label fuel active v key = .ok j →
      toJson L k label' fuel' active' w key' = .ok j' → j.Equiv j' := by
  intro fuel
  induction fuel with
  | zero =>
    intro fuel' active active' v key w key' j j' hvw hj hj'
    refine toJson_equiv_scalar (fun a ha => ?_) hvw hj hj'
    subst ha
    exact absurd hj contractErrorFor_ne_ok
  | succ fuel ih =>
    intro fuel' active active' v key w key' j j' hvw hj hj'
    cases alike_level hvw with
    | @ref a b hcell =>
      cases fuel' with
      | zero => exact absurd hj' contractErrorFor_ne_ok
      | succ fuel' =>
        rw [toJson] at hj hj'
        split_ifs at hj hj'
        · exact absurd hj contractErrorFor_ne_ok
        · exact absurd hj contractErrorFor_ne_ok
        · exact absurd hj' contractErrorFor_ne_ok
        generalize h.cell a = c at hcell hj
        generalize k.cell b = c' at hcell hj'
        cases hcell with
        | @dict d e hitems =>
          obtain ⟨kvs, hkvs, hj⟩ := bind_eq_ok.1 hj
          obtain ⟨kws, hkws, hj'⟩ := bind_eq_ok.1 hj'
          cases hj
          cases hj'
          refine ⟨kws, rfl, ?_, Json.equivItems_iff.2 fun q hq => ?_⟩
          · have hlen := (mapM_eq_ok.1 hkvs).length_eq
            have hlen' := (mapM_eq_ok.1 hkws).length_eq
            rw [← hlen, ← hlen', hitems.length_eq]
          · -- a member, the raw one it is made of, and the same one in the other document
            obtain ⟨p, hp, hpq⟩ := exists_of_mem_mapM hkvs hq
            obtain ⟨hkey, hvalue⟩ := configMember_ok L h hpq
            obtain ⟨p', hp', hsameKey, hsame⟩ := hitems.exists_right hp
            obtain ⟨q', hq', hpq'⟩ := mem_mapM_of_mem hkws hp'
            obtain ⟨hkey', hvalue'⟩ := configMember_ok L k hpq'
            have hkeys : q'.1 = q.1 := by
              rw [hkey, alike_str, hkey'] at hsameKey
              exact Val.str.inj hsameKey
            refine ⟨q'.2, hkeys ▸ hq', ?_⟩
            exact ih hsame (nestedCall_eq_ok hvalue) (nestedCall_eq_ok hvalue')
        | @list xs ys hall =>
          obtain ⟨vs, hvs, hj⟩ := bind_eq_ok.1 hj
          obtain ⟨ws, hws, hj'⟩ := bind_eq_ok.1 hj'
          cases hj
          cases hj'
          refine ⟨ws, rfl, equivList_iff.2 (forall₂_of_mapM_eq_ok hall hvs hws ?_)⟩
          exact fun x y v w hsame hv hw => ih hsame (nestedCall_eq_ok hv) (nestedCall_eq_ok hw)
    | _ => exact toJson_equiv_scalar (fun a ha => by cases ha) hvw hj hj'

theorem Alike.isSome_asDict {v : Val h.size} {w : Val k.size} (hvw : Alike h k v w) :
    (∃ d, h.asDict v = some d) ↔ ∃ e, k.asDict w = some e := by
  have hrel := hvw.asDict
  cases hd : h.asDict v with
  | none =>
    cases he : k.asDict w with
    | none => exact ⟨fun ⟨d, hd⟩ => (by cases hd), fun ⟨e, he⟩ => (by cases he)⟩
    | some e =>
      rw [hd, he] at hrel
      cases hrel
  | some d =>
    cases he : k.asDict w with
    | none =>
      rw [hd, he] at hrel
      cases hrel
    | some e => exact ⟨fun _ => ⟨e, rfl⟩, fun _ => ⟨d, rfl⟩⟩

theorem Alike.none_iff {v : Val h.size} {w : Val k.size} (hvw : Alike h k v w) :
    v = .none ↔ w = .none := by
  cases alike_level hvw with
  | none => exact ⟨fun _ => rfl, fun _ => rfl⟩
  | _ => exact ⟨fun hv => (by cases hv), fun hw => (by cases hw)⟩

theorem Alike.accepts_validateConfig {L : Lang} {label label' : Str} {v : Val h.size} {w : Val k.size}
    (hvw : Alike h k v w) :
    Accepts (validateConfig L h v label) ↔ Accepts (validateConfig L k w label') := by
  rw [ContinuoRuntime.accepts_validateConfig, ContinuoRuntime.accepts_validateConfig, hvw.none_iff,
    hvw.isSome_asDict, hvw.jsonShaped, hvw.within]

theorem validateConfig_equiv {L : Lang} {label label' : Str} {v : Val h.size} {w : Val k.size}
    (hvw : Alike h k v w) {c c' : JsonDict} (hc : validateConfig L h v label = .ok c)
    (hc' : validateConfig L k w label' = .ok c') : (Json.obj c.members).Equiv (.obj c'.members) := by
  cases alike_level hvw with
  | none =>
    cases hc
    cases hc'
    exact ⟨[], rfl, rfl, trivial⟩
  | @ref a b hcell =>
    generalize ha : h.cell a = cell at hcell
    generalize hb : k.cell b = cell' at hcell
    cases hcell with
    | dict =>
      have hj := @validateConfig_dict L h label a _ ha .none
      have hj' := @validateConfig_dict L k label' b _ hb .none
      rw [hc] at hj
      rw [hc'] at hj'
      exact toJson_equiv hvw hj.symm hj'.symm
    | list =>
      simp only [validateConfig, ha] at hc
      cases hc
  | _ => cases hc

/-- **Two raw configs** that are the same are accepted both or neither. -/
theorem validateConfig_agree (L : Lang) (label label' : Str) {v : Val h.size} {w : Val k.size}
    (hvw : Alike h k v w) :
    Agree (fun c c' : JsonDict => (Json.obj c.members).Equiv (.obj c'.members)) (validateConfig L h v label)
      (validateConfig L k w label') := by
  refine agree_iff.2 ⟨fun c hc => ?_, fun c' hc' => ?_⟩
  · obtain ⟨c', hc'⟩ := hvw.accepts_validateConfig.1 ⟨c, hc⟩
    exact ⟨c', hc', validateConfig_equiv hvw hc hc'⟩
  · obtain ⟨c, hc⟩ := hvw.accepts_validateConfig.2 ⟨c', hc'⟩
    exact ⟨c, hc, validateConfig_equiv hvw hc hc'⟩

end

end ContinuoRuntime
