/-
  `config` as a graph: what `_validate_config` accepts, and what `canonical_json`
  makes of it.

  The walk goes down from the root; its depth and the depth of the two walks of
  `canonical_json` (`deepcopy`, the JSON encoder) are bounded by the stack.

  * `accepts_validateConfig`: a config is accepted exactly if its keys are
    strings, its leaves are scalars and no path from the root is longer than the
    stack takes (so that there is no cycle);
  * `encode_toJson`: an accepted config is written exactly if its integers print
    and its containers are not nested too deep for the encoder;
  * `configLaw_iff`: **acceptance, refusal of cycles and serialisation** are as
    declared exactly for the configs that fit.
-/
import ContinuoRuntime.Contract.Escapes
import ContinuoRuntime.Contract.Entry
import ContinuoRuntime.Lib.Paths
import ContinuoRuntime.Python.JsonEncode

namespace ContinuoRuntime

open Relation

/-! ## The graph -/

section
variable (h : Heap)

/-- The values in a container. -/
def Heap.parts : Val h.size → List (Val h.size)
  | .ref a => match h.cell a with
    | .dict d => d.items.map Prod.snd
    | .list xs => xs
  | _ => []

/-- A container and a value in it. -/
def Heap.Holds (v w : Val h.size) : Prop := w ∈ h.parts v

/-- The keys of a container are strings. -/
def Heap.StrKeys (a : Fin h.size) : Prop :=
  ∀ d, h.cell a = .dict d → ∀ p ∈ d.items, ∃ k, p.1 = .str k

/-- Every mapping that the value leads to has string keys, and every leaf is a
    JSON scalar. -/
structure JsonShaped (v : Val h.size) : Prop where
  keys : ∀ a, ReflTransGen h.Holds v (.ref a) → h.StrKeys a
  leaves : ∀ t o x, ¬ ReflTransGen h.Holds v (.other t o x)

/-- What the value leads to contains a cycle. -/
def Cyclic (v : Val h.size) : Prop := ∃ w, ReflTransGen h.Holds v w ∧ TransGen h.Holds w w

/-- A config: nothing, or a mapping without cycles, with string keys and scalar
    leaves. -/
def IsConfig (v : Val h.size) : Prop :=
  v = .none ∨ (∃ d, h.asDict v = some d) ∧ ¬ Cyclic h v ∧ JsonShaped h v

variable {h}

theorem not_cyclic_iff {v : Val h.size} : ¬ Cyclic h v ↔ Acyclic h.Holds v := by
  constructor
  · exact fun hn w hvw hww => hn ⟨w, hvw, hww⟩
  · rintro hac ⟨w, hvw, hww⟩
    exact hac w hvw hww

theorem parts_eq_nil {v : Val h.size} (hv : ∀ a, v ≠ .ref a) : h.parts v = [] := by
  cases v with
  | ref a => exact absurd rfl (hv a)
  | _ => rfl

/-- A scalar holds nothing. -/
theorem not_holds {v : Val h.size} (hv : ∀ a, v ≠ .ref a) (w : Val h.size) : ¬ h.Holds v w := by
  unfold Heap.Holds
  rw [parts_eq_nil hv]
  exact List.not_mem_nil

/-- A scalar leads to itself only. -/
theorem reach_scalar {v w : Val h.size} (hv : ∀ a, v ≠ .ref a) (hw : ReflTransGen h.Holds v w) :
    w = v := by
  rcases ReflTransGen.cases_head hw with heq | ⟨u, hu, -⟩
  · exact heq.symm
  · exact absurd hu (not_holds hv u)

theorem parts_dict {a : Fin h.size} {d : Dict (Val h.size) (Val h.size)} (hd : h.cell a = .dict d) :
    h.parts (.ref a) = d.items.map Prod.snd := by
  simp only [Heap.parts, hd]

theorem parts_list {a : Fin h.size} {xs : List (Val h.size)} (hxs : h.cell a = .list xs) :
    h.parts (.ref a) = xs := by
  simp only [Heap.parts, hxs]

theorem strKeys_dict {a : Fin h.size} {d : Dict (Val h.size) (Val h.size)} (hd : h.cell a = .dict d) :
    h.StrKeys a ↔ ∀ p ∈ d.items, ∃ k, p.1 = .str k := by
  constructor
  · exact fun hk => hk d hd
  · intro hk e he
    cases hd.symm.trans he
    exact hk

theorem strKeys_list {a : Fin h.size} {xs : List (Val h.size)} (hxs : h.cell a = .list xs) :
    h.StrKeys a := fun d hd => by
  rw [hxs] at hd
  cases hd

theorem jsonShaped_ref {a : Fin h.size} :
    JsonShaped h (.ref a) ↔ h.StrKeys a ∧ ∀ w ∈ h.parts (.ref a), JsonShaped h w := by
  constructor
  · rintro ⟨hkeys, hleaves⟩
    refine ⟨hkeys a .refl, fun w hw => ⟨fun b hb => hkeys b (.head hw hb), fun t o x hx => ?_⟩⟩
    exact hleaves t o x (.head hw hx)
  · rintro ⟨hkeys, hparts⟩
    refine ⟨fun b hb => ?_, fun t o x hx => ?_⟩
    · rcases ReflTransGen.cases_head hb with heq | ⟨w, hw, hwb⟩
      · cases heq
        exact hkeys
      · exact (hparts w hw).keys b hwb
    · rcases ReflTransGen.cases_head hx with heq | ⟨w, hw, hwx⟩
      · cases heq
      · exact (hparts w hw).leaves t o x hwx

theorem jsonShaped_scalar {v : Val h.size} (hv : ∀ a, v ≠ .ref a) (hleaf : ∀ t o x, v ≠ .other t o x) :
    JsonShaped h v where
  keys a ha := absurd (reach_scalar hv ha).symm (hv a)
  leaves t o x hx := hleaf t o x (reach_scalar hv hx).symm

end

/-! ## The walk of `_validate_config` -/

section
variable {L : Lang} {h : Heap} {label : Str}

/-- A call that the stack takes. -/
theorem nestedCall_eq_ok_iff {α : Type} {depth : ℕ} {result : Except Exc α} {a : α} :
    nestedCall L depth result = .ok a ↔ depth ≤ L.depth ∧ result = .ok a := by
  unfold nestedCall
  split_ifs with hdepth
  · exact ⟨fun hok => (by cases hok), fun hok => absurd hok.1 (by omega)⟩
  · exact ⟨fun hok => ⟨by omega, hok⟩, And.right⟩

/-- **The walk of a container** succeeds exactly if it is not being walked, its
    keys are strings, and the walks of its parts succeed (`key` is the one a part
    stands under). -/
theorem toJson_ref {fuel : ℕ} {active : List (Fin h.size)} {a : Fin h.size} {key : Val h.size} :
    (∀ j, toJson L h label (fuel + 1) active (.ref a) key = .ok j →
      a ∉ active ∧ h.StrKeys a ∧ ∀ w ∈ h.parts (.ref a), active.length + 1 ≤ L.depth ∧
        ∃ k, Accepts (toJson L h label fuel (a :: active) w k)) ∧
    (a ∉ active → h.StrKeys a → (∀ w ∈ h.parts (.ref a), active.length + 1 ≤ L.depth ∧
        ∀ k, Accepts (toJson L h label fuel (a :: active) w k)) →
      Accepts (toJson L h label (fuel + 1) active (.ref a) key)) := by
  rw [toJson]
  by_cases ha : a ∈ active
  · rw [if_pos ha]
    exact ⟨fun j hj => absurd hj contractErrorFor_ne_ok, fun hn => absurd ha hn⟩
  rw [if_neg ha]
  cases hcell : h.cell a with
  | dict d =>
    rw [parts_dict hcell, strKeys_dict hcell]
    constructor
    · intro j hj
      obtain ⟨kvs, hkvs, -⟩ := bind_eq_ok.1 hj
      have hitem : ∀ p ∈ d.items, ∃ q : Str × Json Str, p.1 = .str q.1 ∧ active.length + 1 ≤ L.depth ∧
          toJson L h label fuel (a :: active) p.2 p.1 = .ok q.2 := by
        intro p hp
        obtain ⟨q, -, hq⟩ := mem_mapM_of_mem hkvs hp
        obtain ⟨hk, hv⟩ := configMember_ok L h hq
        exact ⟨q, hk, nestedCall_eq_ok_iff.1 hv⟩
      refine ⟨ha, fun p hp => ?_, fun w hw => ?_⟩
      · obtain ⟨q, hk, -⟩ := hitem p hp
        exact ⟨q.1, hk⟩
      · obtain ⟨p, hp, rfl⟩ := List.mem_map.1 hw
        obtain ⟨q, -, hdepth, hq⟩ := hitem p hp
        exact ⟨hdepth, p.1, q.2, hq⟩
    · intro _ hkeys hparts
      obtain ⟨kvs, hkvs⟩ := exists_mapM_eq_ok (f := configMember L h label fun x k =>
          nestedCall L (active.length + 1) (toJson L h label fuel (a :: active) x k)) fun p hp => by
        obtain ⟨k, hk⟩ := hkeys p hp
        obtain ⟨hdepth, hwalk⟩ := hparts p.2 (List.mem_map_of_mem hp)
        obtain ⟨j, hj⟩ := hwalk (.str k)
        obtain ⟨_, v⟩ := p
        subst hk
        exact ⟨(k, j), bind_eq_ok.2 ⟨j, nestedCall_eq_ok_iff.2 ⟨hdepth, hj⟩, rfl⟩⟩
      exact ⟨.obj kvs, bind_eq_ok.2 ⟨kvs, hkvs, rfl⟩⟩
  | list xs =>
    rw [parts_list hcell]
    constructor
    · intro j hj
      obtain ⟨vs, hvs, -⟩ := bind_eq_ok.1 hj
      refine ⟨ha, strKeys_list hcell, fun w hw => ?_⟩
      obtain ⟨v, -, hv⟩ := mem_mapM_of_mem hvs hw
      obtain ⟨hdepth, hv⟩ := nestedCall_eq_ok_iff.1 hv
      exact ⟨hdepth, key, v, hv⟩
    · intro _ _ hparts
      obtain ⟨vs, hvs⟩ := exists_mapM_eq_ok (f := fun x =>
          nestedCall L (active.length + 1) (toJson L h label fuel (a :: active) x key)) fun w hw => by
        obtain ⟨hdepth, hwalk⟩ := hparts w hw
        obtain ⟨j, hj⟩ := hwalk key
        exact ⟨j, nestedCall_eq_ok_iff.2 ⟨hdepth, hj⟩⟩
      exact ⟨.arr vs, bind_eq_ok.2 ⟨vs, hvs, rfl⟩⟩

/-- An accepted value has the shape of JSON, and no path from it is longer than
    what is left of the stack. -/
theorem shape_of_toJson : ∀ {fuel : ℕ} {active : List (Fin h.size)} {v key : Val h.size},
    Accepts (toJson L h label fuel active v key) →
      JsonShaped h v ∧ Within h.Holds (L.depth - active.length) v
  | fuel, active, .none, key, _ | fuel, active, .bool _, key, _ | fuel, active, .int _, key, _
  | fuel, active, .float _, key, _ | fuel, active, .str _, key, _ => by
    refine ⟨jsonShaped_scalar ?_ ?_, within_of_final (not_holds ?_) _⟩ <;> (intros; simp)
  | fuel, active, .other t o x, key, hok => by
    obtain ⟨j, hj⟩ := hok
    cases fuel <;>
      (obtain ⟨_, -, hj⟩ := bind_eq_ok.1 hj; exact absurd hj contractErrorFor_ne_ok)
  | 0, active, .ref a, key, ⟨j, hj⟩ => absurd hj contractErrorFor_ne_ok
  | fuel + 1, active, .ref a, key, ⟨j, hj⟩ => by
    obtain ⟨-, hkeys, hparts⟩ := toJson_ref.1 j hj
    refine ⟨jsonShaped_ref.2 ⟨hkeys, fun w hw => ?_⟩, ?_⟩
    · obtain ⟨-, k, hk⟩ := hparts w hw
      exact (shape_of_toJson hk).1
    · by_cases hroom : active.length + 1 ≤ L.depth
      · have hleft : L.depth - active.length = L.depth - (a :: active).length + 1 := by
          rw [List.length_cons]
          omega
        rw [hleft]
        refine within_succ.2 fun w hw => ?_
        obtain ⟨-, k, hk⟩ := hparts w hw
        exact (shape_of_toJson hk).2
      · exact within_of_final (fun w hw => hroom (hparts w hw).1) _

/-- **The walk succeeds** on what has the shape of JSON and fits the stack, if it
    does not lead back to a container being walked. -/
theorem toJson_of_shape : ∀ {fuel : ℕ} {active : List (Fin h.size)} {v : Val h.size}
    (key : Val h.size), active.Nodup → h.size < active.length + fuel → JsonShaped h v →
    Within h.Holds (L.depth - active.length) v → (∀ a ∈ active, ¬ ReflTransGen h.Holds v (.ref a)) →
    Accepts (toJson L h label fuel active v key)
  | fuel, _, .none, key, _, _, _, _, _ | fuel, _, .bool _, key, _, _, _, _, _
  | fuel, _, .int _, key, _, _, _, _, _ | fuel, _, .float _, key, _, _, _, _, _
  | fuel, _, .str _, key, _, _, _, _, _ => by
    cases fuel <;> exact ⟨_, rfl⟩
  | _, _, .other t o x, key, _, _, hshape, _, _ => absurd .refl (hshape.leaves t o x)
  | 0, active, .ref a, key, hnodup, hfuel, _, _, _ => by
    have hlen := hnodup.length_le_card
    rw [Fintype.card_fin] at hlen
    omega
  | fuel + 1, active, .ref a, key, hnodup, hfuel, hshape, hwithin, hfresh => by
    have ha : a ∉ active := fun hmem => hfresh a hmem .refl
    obtain ⟨hkeys, hparts⟩ := jsonShaped_ref.1 hshape
    refine toJson_ref.2 ha hkeys fun w hw => ?_
    have hroom : active.length + 1 ≤ L.depth := by
      have hstep := hwithin 1 w (.head hw .refl)
      omega
    refine ⟨hroom, fun k => ?_⟩
    refine toJson_of_shape k (List.nodup_cons.2 ⟨ha, hnodup⟩) ?_ (hparts w hw) ?_ ?_
    · rw [List.length_cons]
      omega
    · have hleft : L.depth - active.length = L.depth - (a :: active).length + 1 := by
        rw [List.length_cons]
        omega
      rw [hleft] at hwithin
      exact within_succ.1 hwithin w hw
    · -- a way back to `a` would be a cycle, and paths from `a` are bounded
      rintro b (_ | ⟨_, hb⟩) hback
      · exact hwithin.acyclic.not_back hw hback
      · exact hfresh b hb (.head hw hback)

/-- **The walk ends**: more fuel than one step per container changes nothing. -/
theorem toJson_fuel : ∀ {fuel : ℕ} (extra : ℕ) {active : List (Fin h.size)} {v key : Val h.size},
    active.Nodup → h.size < active.length + fuel →
    toJson L h label (fuel + extra) active v key = toJson L h label fuel active v key
  | fuel, extra, active, .none, key, _, _ | fuel, extra, active, .bool _, key, _, _
  | fuel, extra, active, .int _, key, _, _ | fuel, extra, active, .float _, key, _, _
  | fuel, extra, active, .str _, key, _, _ | fuel, extra, active, .other _ _ _, key, _, _ => by
    cases hf : fuel + extra <;> cases fuel <;> rfl
  | 0, extra, active, .ref a, key, hnodup, hfuel => by
    have hlen := hnodup.length_le_card
    rw [Fintype.card_fin] at hlen
    omega
  | fuel + 1, extra, active, .ref a, key, hnodup, hfuel => by
    rw [Nat.add_right_comm, toJson, toJson]
    by_cases ha : a ∈ active
    · rw [if_pos ha, if_pos ha]
    have hrec : toJson L h label (fuel + extra) (a :: active) = toJson L h label fuel (a :: active) := by
      funext x k
      refine toJson_fuel extra (List.nodup_cons.2 ⟨ha, hnodup⟩) ?_
      rw [List.length_cons]
      omega
    rw [if_neg ha, if_neg ha, hrec]

/-- `_validate_config` of a mapping is the walk from it. -/
theorem validateConfig_dict {a : Fin h.size} {d : Dict (Val h.size) (Val h.size)}
    (hd : h.cell a = .dict d) (key : Val h.size) :
    (validateConfig L h (.ref a) label).map (fun c => Json.obj c.members) =
      toJson L h label (h.size + 1) [] (.ref a) key := by
  rw [toJson, if_neg List.not_mem_nil]
  simp only [validateConfig, hd, List.length_nil, Nat.zero_add]
  split
  next exc hexc => exact (congrArg (· >>= fun kvs => .ok (Json.obj kvs)) hexc).symm
  next kvs hkvs => exact (congrArg (· >>= fun kvs => .ok (Json.obj kvs)) hkvs).symm

theorem accepts_map {α β : Type} {x : Except Exc α} {f : α → β} : Accepts (x.map f) ↔ Accepts x := by
  cases x with
  | error e => exact ⟨fun ⟨_, hb⟩ => (by cases hb), fun ⟨_, ha⟩ => (by cases ha)⟩
  | ok a => exact ⟨fun _ => ⟨a, rfl⟩, fun _ => ⟨f a, rfl⟩⟩

/-- **What `_validate_config` accepts**. -/
theorem accepts_validateConfig {raw : Val h.size} :
    Accepts (validateConfig L h raw label) ↔
      raw = .none ∨ (∃ d, h.asDict raw = some d) ∧ JsonShaped h raw ∧ Within h.Holds L.depth raw := by
  have hrefuse : ∀ {msg : Str}, ¬ Accepts (contractError msg : Except Exc JsonDict) := by
    rintro msg ⟨_, hc⟩
    cases hc
  cases raw with
  | none => exact ⟨fun _ => .inl rfl, fun _ => ⟨.empty, rfl⟩⟩
  | ref a =>
    cases hcell : h.cell a with
    | list xs =>
      have hlist : validateConfig L h (.ref a) label =
          contractError (label ++ py ": 'config' must be a mapping") := by
        simp only [validateConfig, hcell]
      rw [hlist]
      refine ⟨fun hok => absurd hok hrefuse, ?_⟩
      rintro (hnone | ⟨⟨d, hd⟩, -⟩)
      · cases hnone
      · simp only [Heap.asDict, hcell] at hd
        cases hd
    | dict d =>
      rw [← accepts_map (f := fun c : JsonDict => Json.obj c.members), validateConfig_dict hcell .none]
      constructor
      · intro hok
        have hshape := shape_of_toJson hok
        refine .inr ⟨⟨d, by simp only [Heap.asDict, hcell]⟩, hshape.1, ?_⟩
        simpa using hshape.2
      · rintro (hnone | ⟨-, hshape, hwithin⟩)
        · cases hnone
        · refine toJson_of_shape _ List.nodup_nil ?_ hshape ?_ ?_
          · simp
          · simpa using hwithin
          · exact fun b hb => absurd hb List.not_mem_nil
  | _ =>
    refine ⟨fun hok => absurd hok hrefuse, ?_⟩
    rintro (hnone | ⟨⟨d, hd⟩, -⟩)
    · cases hnone
    · cases hd

end

/-! ## The encoder on an accepted config -/

section
variable (h : Heap)

/-- Under `depth` containers the value can be written: every integer prints, and
    no container is nested deeper than the stack takes. -/
structure Encodable (nesting depth : ℕ) (v : Val h.size) : Prop where
  ints : ∀ i, ReflTransGen h.Holds v (.int i) → IntPrints i
  nested : ∀ e a, Steps h.Holds e v (.ref a) → depth + e + 1 ≤ nesting

variable {h} {L : Lang} {label : Str} {nesting : ℕ}

theorem encodable_ref {depth : ℕ} {a : Fin h.size} : Encodable h nesting depth (.ref a) ↔
    depth + 1 ≤ nesting ∧ ∀ w ∈ h.parts (.ref a), Encodable h nesting (depth + 1) w := by
  constructor
  · rintro ⟨hints, hnested⟩
    refine ⟨hnested 0 a .refl, fun w hw => ⟨fun i hi => hints i (.head hw hi), fun e b hb => ?_⟩⟩
    have hstep := hnested (e + 1) b (.head hw hb)
    omega
  · rintro ⟨hdepth, hparts⟩
    refine ⟨fun i hi => ?_, fun e b hb => ?_⟩
    · rcases ReflTransGen.cases_head hi with heq | ⟨w, hw, hwi⟩
      · cases heq
      · exact (hparts w hw).ints i hwi
    · cases hb with
      | refl => exact hdepth
      | head hw hwb =>
        have hstep := (hparts _ hw).nested _ _ hwb
        omega

theorem encodable_int {depth : ℕ} {i : ℤ} : Encodable h nesting depth (.int i) ↔ IntPrints i := by
  refine ⟨fun henc => henc.ints i .refl, fun hi => ⟨fun k hk => ?_, fun e b hb => ?_⟩⟩
  · cases reach_scalar (fun _ => by simp) hk
    exact hi
  · cases reach_scalar (fun _ => by simp) (reflTransGen_iff_steps.2 ⟨e, hb⟩)

theorem encodable_scalar {depth : ℕ} {v : Val h.size} (hv : ∀ a, v ≠ .ref a) (hi : ∀ i, v ≠ .int i) :
    Encodable h nesting depth v where
  ints i hw := absurd (reach_scalar hv hw).symm (hi i)
  nested e a ha := absurd (reach_scalar hv (reflTransGen_iff_steps.2 ⟨e, ha⟩)).symm (hv a)

/-- **An accepted value is written** exactly if it can be written as a graph. -/
theorem encode_toJson : ∀ {fuel depth : ℕ} {active : List (Fin h.size)} {v key : Val h.size}
    {j : Json Str}, toJson L h label fuel active v key = .ok j →
      (j.Encodes nesting depth ↔ Encodable h nesting depth v)
  | fuel, depth, active, .none, key, j, hj | fuel, depth, active, .bool _, key, j, hj
  | fuel, depth, active, .float _, key, j, hj | fuel, depth, active, .str _, key, j, hj => by
    cases fuel <;>
      (cases hj
       exact ⟨fun _ => encodable_scalar (fun _ => by simp) fun _ => by simp, fun _ => rfl⟩)
  | fuel, depth, active, .int i, key, j, hj => by
    cases fuel <;>
      (cases hj
       exact Json.encode_int_iff.trans encodable_int.symm)
  | fuel, depth, active, .other t o x, key, j, hj => by
    cases fuel <;>
      (obtain ⟨_, -, hj⟩ := bind_eq_ok.1 hj; exact absurd hj contractErrorFor_ne_ok)
  | 0, depth, active, .ref a, key, j, hj => absurd hj contractErrorFor_ne_ok
  | fuel + 1, depth, active, .ref a, key, j, hj => by
    rw [toJson] at hj
    split at hj
    · exact absurd hj contractErrorFor_ne_ok
    rw [encodable_ref]
    split at hj
    next d hd =>
      obtain ⟨kvs, hkvs, hj⟩ := bind_eq_ok.1 hj
      cases hj
      rw [Json.encode_obj_iff, parts_dict hd]
      refine and_congr_right fun _ => ⟨fun hall w hw => ?_, fun hall q hq => ?_⟩
      · obtain ⟨p, hp, rfl⟩ := List.mem_map.1 hw
        obtain ⟨q, hq, hpq⟩ := mem_mapM_of_mem hkvs hp
        have hwalk := nestedCall_eq_ok (configMember_ok L h hpq).2
        exact (encode_toJson hwalk).1 (hall q hq)
      · obtain ⟨p, hp, hpq⟩ := exists_of_mem_mapM hkvs hq
        have hwalk := nestedCall_eq_ok (configMember_ok L h hpq).2
        exact (encode_toJson hwalk).2 (hall p.2 (List.mem_map_of_mem hp))
    next xs hxs =>
      obtain ⟨vs, hvs, hj⟩ := bind_eq_ok.1 hj
      cases hj
      rw [Json.encode_arr_iff, parts_list hxs]
      refine and_congr_right fun _ => ⟨fun hall w hw => ?_, fun hall v hv => ?_⟩
      · obtain ⟨v, hv, hwv⟩ := mem_mapM_of_mem hvs hw
        exact (encode_toJson (nestedCall_eq_ok hwv)).1 (hall v hv)
      · obtain ⟨w, hw, hwv⟩ := exists_of_mem_mapM hvs hv
        exact (encode_toJson (nestedCall_eq_ok hwv)).2 (hall w hw)

/-- An accepted config is written exactly if it can be written as a graph. -/
theorem encode_validateConfig {raw : Val h.size} {config : JsonDict} {depth : ℕ}
    (hdepth : depth + 1 ≤ nesting) (hok : validateConfig L h raw label = .ok config) :
    (Json.obj config.members).Encodes nesting depth ↔ Encodable h nesting depth raw := by
  have haccepts := accepts_validateConfig.1 ⟨config, hok⟩
  rcases haccepts with rfl | ⟨⟨d, hd⟩, -⟩
  · cases hok
    rw [Json.encode_obj_iff]
    refine ⟨fun _ => encodable_scalar (fun _ => by simp) fun _ => by simp, fun _ => ⟨hdepth, ?_⟩⟩
    exact fun p hp => absurd hp List.not_mem_nil
  · cases raw with
    | ref a =>
      cases hcell : h.cell a with
      | list xs =>
        simp only [Heap.asDict, hcell] at hd
        cases hd
      | dict e =>
        have hwalk := @validateConfig_dict L h label _ _ hcell .none
        rw [hok] at hwalk
        exact encode_toJson hwalk.symm
    | _ => cases hd

end

/-! ## `deepcopy` -/

section
variable (h : Heap)

/-- `deepcopy` of a value: the containers copied by then, and the highest frame
    used.  A container is copied once, and takes two frames: `deepcopy` and the
    copier of its class.  (A key takes the frames of its value.) -/
def copyValue : ℕ → ℕ → List (Fin h.size) × ℕ → Val h.size → List (Fin h.size) × ℕ
  | fuel + 1, frame, (memo, top), .ref a =>
    if a ∈ memo then (memo, max top frame)
    else (h.parts (.ref a)).foldl (copyValue fuel (frame + 2)) (a :: memo, max top (frame + 1))
  | _, frame, (memo, top), _ => (memo, max top frame)

/-- The frames that `deepcopy` of an entry takes for its config; the entry itself
    takes the first two. -/
def copyFrames (config : Val h.size) : ℕ := (copyValue h (h.size + 1) 3 ([], 0) config).2

variable {h}

/-- A copy only adds to what is copied. -/
structure Grows (memo memo' : List (Fin h.size)) : Prop where
  nodup : memo'.Nodup
  length : memo.length ≤ memo'.length

theorem grows_foldl {f : List (Fin h.size) × ℕ → Val h.size → List (Fin h.size) × ℕ} :
    ∀ {vs : List (Val h.size)} {s : List (Fin h.size) × ℕ},
    (∀ s v, s.1.Nodup → Grows s.1 (f s v).1) → s.1.Nodup → Grows s.1 (vs.foldl f s).1
  | [], s, _, hs => ⟨hs, le_rfl⟩
  | v :: vs, s, hf, hs => by
    have hv := hf s v hs
    have hvs : Grows (f s v).1 (vs.foldl f (f s v)).1 := grows_foldl hf hv.nodup
    exact ⟨hvs.nodup, hv.length.trans hvs.length⟩

theorem grows_copyValue : ∀ {fuel frame : ℕ} {s : List (Fin h.size) × ℕ} {v : Val h.size},
    s.1.Nodup → Grows s.1 (copyValue h fuel frame s v).1
  | fuel, _, (_, _), .none, hs | fuel, _, (_, _), .bool _, hs | fuel, _, (_, _), .int _, hs
  | fuel, _, (_, _), .float _, hs | fuel, _, (_, _), .str _, hs | fuel, _, (_, _), .other _ _ _, hs => by
    cases fuel <;> exact ⟨hs, le_rfl⟩
  | 0, _, (_, _), .ref a, hs => ⟨hs, le_rfl⟩
  | fuel + 1, frame, (memo, top), .ref a, hs => by
    rw [copyValue]
    split_ifs with ha
    · exact ⟨hs, le_rfl⟩
    have hcons : (a :: memo, max top (frame + 1)).1.Nodup := List.nodup_cons.2 ⟨ha, hs⟩
    have hparts := @grows_foldl _ (copyValue h fuel (frame + 2)) (h.parts (.ref a)) _
      (fun s v hs => grows_copyValue hs) hcons
    exact ⟨hparts.nodup, (Nat.le_succ _).trans hparts.length⟩

theorem foldl_congr_of_grows {f g : List (Fin h.size) × ℕ → Val h.size → List (Fin h.size) × ℕ} {k : ℕ}
    (hf : ∀ s v, s.1.Nodup → Grows s.1 (f s v).1)
    (hfg : ∀ s v, s.1.Nodup → k ≤ s.1.length → f s v = g s v) :
    ∀ {vs : List (Val h.size)} {s : List (Fin h.size) × ℕ}, s.1.Nodup → k ≤ s.1.length →
      vs.foldl f s = vs.foldl g s
  | [], _, _, _ => rfl
  | v :: vs, s, hs, hk => by
    have hv := hf s v hs
    rw [List.foldl_cons, List.foldl_cons, ← hfg s v hs hk]
    exact foldl_congr_of_grows hf hfg hv.nodup (hk.trans hv.length)

/-- **The copy ends**: more fuel than one step per container changes nothing. -/
theorem copyValue_fuel : ∀ {fuel frame : ℕ} (extra : ℕ) {s : List (Fin h.size) × ℕ} {v : Val h.size},
    s.1.Nodup → h.size < s.1.length + fuel →
    copyValue h (fuel + extra) frame s v = copyValue h fuel frame s v
  | fuel, _, extra, (_, _), .none, _, _ | fuel, _, extra, (_, _), .bool _, _, _
  | fuel, _, extra, (_, _), .int _, _, _ | fuel, _, extra, (_, _), .float _, _, _
  | fuel, _, extra, (_, _), .str _, _, _ | fuel, _, extra, (_, _), .other _ _ _, _, _ => by
    cases hf : fuel + extra <;> cases fuel <;> rfl
  | 0, _, extra, (memo, _), .ref a, hs, hfuel => by
    have hlen := hs.length_le_card
    rw [Fintype.card_fin] at hlen
    omega
  | fuel + 1, frame, extra, (memo, top), .ref a, hs, hfuel => by
    rw [Nat.add_right_comm, copyValue, copyValue]
    by_cases ha : a ∈ memo
    · rw [if_pos ha, if_pos ha]
    rw [if_neg ha, if_neg ha]
    refine foldl_congr_of_grows (k := memo.length + 1) (fun s v hs => grows_copyValue hs)
      (fun s v hs hk => copyValue_fuel extra hs ?_) (List.nodup_cons.2 ⟨ha, hs⟩) ?_
    · dsimp only at hfuel
      omega
    · exact le_rfl

/-- A fold that goes no higher than each of its steps. -/
theorem foldl_snd_le {bound : ℕ} {f : List (Fin h.size) × ℕ → Val h.size → List (Fin h.size) × ℕ} :
    ∀ {vs : List (Val h.size)} {s : List (Fin h.size) × ℕ},
      (∀ v ∈ vs, ∀ s, (f s v).2 ≤ max s.2 bound) → (vs.foldl f s).2 ≤ max s.2 bound
  | [], _, _ => le_max_left _ _
  | v :: vs, s, hf => by
    obtain ⟨hv, hvs⟩ := List.forall_mem_cons.1 hf
    have hrest : (vs.foldl f (f s v)).2 ≤ max (f s v).2 bound := foldl_snd_le hvs
    have hstep := hv s
    rw [List.foldl_cons]
    omega

/-- **The frames of a copy** are bounded by the nesting of the value, whatever is copied by then. -/
theorem copyValue_le : ∀ {fuel frame k : ℕ} {s : List (Fin h.size) × ℕ} {v : Val h.size},
    Within h.Holds k v → (copyValue h fuel frame s v).2 ≤ max s.2 (frame + 2 * k + 1)
  | fuel, frame, k, (_, _), .none, _ | fuel, frame, k, (_, _), .bool _, _ | fuel, frame, k, (_, _), .int _, _
  | fuel, frame, k, (_, _), .float _, _ | fuel, frame, k, (_, _), .str _, _
  | fuel, frame, k, (_, _), .other _ _ _, _ => by
    cases fuel <;> · simp only [copyValue]; omega
  | 0, frame, k, (_, _), .ref a, _ => by simp only [copyValue]; omega
  | fuel + 1, frame, 0, (memo, top), .ref a, hw => by
    have hparts : h.parts (.ref a) = [] := List.eq_nil_iff_forall_not_mem.2 (within_zero.1 hw)
    rw [copyValue, hparts]
    split_ifs
    · dsimp only
      omega
    · exact le_rfl
  | fuel + 1, frame, k + 1, (memo, top), .ref a, hw => by
    rw [copyValue]
    split_ifs
    · dsimp only
      omega
    · have hfold := @foldl_snd_le h (frame + 2 + 2 * k + 1) (copyValue h fuel (frame + 2)) (h.parts (.ref a))
        (a :: memo, max top (frame + 1)) fun v hv s => copyValue_le (within_succ.1 hw v hv)
      dsimp only at hfold ⊢
      omega

theorem copyFrames_le {k : ℕ} {config : Val h.size} (hw : Within h.Holds k config) :
    copyFrames h config ≤ 2 * k + 4 := by
  have hcopy := @copyValue_le h (h.size + 1) 3 k ([], 0) config hw
  unfold copyFrames
  omega

end

/-! ## `canonical_json` of a node's entry -/

theorem encodes_str {nesting depth : ℕ} {s : Str} : (Json.str s).Encodes nesting depth := rfl

/-- Reads are written exactly if they are with their whitespace normalized. -/
theorem encodes_normalizeReads {nesting depth : ℕ} {v : Json Str} :
    (normalizeReads v).Encodes nesting depth ↔ v.Encodes nesting depth := by
  have hread : ∀ w : Json Str, (normalizeRead w).Encodes nesting (depth + 1) ↔
      w.Encodes nesting (depth + 1) := fun w => by
    cases w with
    | str s => exact iff_of_true encodes_str encodes_str
    | _ => exact Iff.rfl
  cases v with
  | obj reads =>
    rw [normalizeReads, Json.encode_obj_iff, Json.encode_obj_iff, List.forall_mem_map]
    simp only [hread]
  | _ => exact Iff.rfl

theorem encodes_arr_of {α : Type} {nesting depth : ℕ} {f : α → Json Str} (hdepth : depth + 1 ≤ nesting)
    (hf : ∀ a, (f a).Encodes nesting (depth + 1)) (xs : List α) :
    (Json.arr (xs.map f)).Encodes nesting depth := by
  refine Json.encode_arr_iff.2 ⟨hdepth, fun v hv => ?_⟩
  obtain ⟨a, -, rfl⟩ := List.mem_map.1 hv
  exact hf a

theorem encodes_columnJson {nesting depth : ℕ} (hdepth : depth + 1 ≤ nesting) (col : Column) :
    (columnJson col).Encodes nesting depth := by
  refine Json.encode_obj_iff.2 ⟨hdepth, ?_⟩
  simp only [List.forall_mem_cons, List.not_mem_nil, false_imp_iff, implies_true, and_true]
  exact ⟨encodes_str, encodes_str, rfl⟩

/-- Every member of an entry but `config` is written. -/
theorem encodes_entryFields {nesting : ℕ} (hn : 3 ≤ nesting) (node : Node) :
    (∀ p ∈ entryFields node, ∀ v ∈ p.2, v.Encodes nesting 1) ↔
      (Json.obj node.config.members).Encodes nesting 1 := by
  have hreads : (Json.obj (node.reads.items.map fun p => (p.1, Json.str p.2))).Encodes nesting 1 := by
    refine Json.encode_obj_iff.2 ⟨by omega, fun q hq => ?_⟩
    obtain ⟨p, -, rfl⟩ := List.mem_map.1 hq
    exact encodes_str
  have hcolumns : (Json.arr (node.outputColumns.map columnJson)).Encodes nesting 1 :=
    encodes_arr_of (by omega) (encodes_columnJson (by omega)) _
  have hkey : (Json.arr (node.primaryKey.map Json.str)).Encodes nesting 1 :=
    encodes_arr_of (by omega) (fun _ => encodes_str) _
  simp only [entryFields, List.forall_mem_cons, Option.mem_def, Option.some.injEq, forall_eq',
    List.not_mem_nil, false_imp_iff, implies_true, and_true, hreads, hcolumns, encodes_str, true_and]
  refine ⟨And.left, fun hconfig => ⟨hconfig, ?_, ?_, ?_⟩⟩
  · intro v hv; split_ifs at hv; cases hv; exact encodes_str
  · intro v hv; split_ifs at hv; cases hv; exact encodes_str
  · intro v hv
    split_ifs at hv
    cases hv
    exact hkey

theorem encodes_canonicalFields {nesting : ℕ} (hn : 3 ≤ nesting) (node : Node) :
    (∀ p ∈ canonicalFields node, ∀ v ∈ p.2, v.Encodes nesting 1) ↔
      (Json.obj node.config.members).Encodes nesting 1 := by
  rw [← encodes_entryFields hn, canonicalFields, List.forall_mem_map]
  refine forall₂_congr fun p _ => ?_
  rw [Option.forall_mem_map]
  refine forall₂_congr fun v _ => ?_
  split_ifs
  · exact encodes_normalizeReads
  · exact Iff.rfl

/-- An entry is written exactly if its config is. -/
theorem encodes_nodeEntry {nesting : ℕ} (hn : 3 ≤ nesting) (node : Node) :
    (Json.obj (canonicalItems (nodeEntry node).members)).Encodes nesting 0 ↔
      (Json.obj node.config.members).Encodes nesting 1 := by
  rw [← encodes_canonicalFields hn, canonicalItems_nodeEntry, Json.encode_obj_iff]
  constructor
  · rintro ⟨-, hall⟩ p hp v hv
    exact hall (p.1, v) (mem_presentItems.2 (by rwa [← Option.mem_def.1 hv]))
  · intro hall
    exact ⟨by omega, fun q hq => hall (q.1, some q.2) (mem_presentItems.1 hq) q.2 rfl⟩

/-- **A node's entry** is serialised exactly if the config can be copied and written. -/
theorem serialises_nodeEntry {S : Stack} {L : Lang} {h : Heap} {label : Str} {raw : Val h.size}
    {node : Node} (hok : validateConfig L h raw label = .ok node.config) :
    Serialises S (copyFrames h raw) (nodeEntry node) ↔
      copyFrames h raw ≤ S.frames ∧ Encodable h S.nesting 1 raw := by
  have hn := S.nesting_entry
  have hwritten : (Json.obj (canonicalItems (nodeEntry node).members)).Encodes S.nesting 0 ↔
      Encodable h S.nesting 1 raw := by
    rw [encodes_nodeEntry hn]
    exact encode_validateConfig (by omega) hok
  rw [← hwritten]
  exact ⟨fun hser => ⟨hser.copies, hser.encodes⟩, fun hfit => ⟨hfit.1, hfit.2⟩⟩

theorem canonicalJson_nodeEntry {S : Stack} {L : Lang} {h : Heap} {label : Str} {raw : Val h.size}
    {node : Node} (hok : validateConfig L h raw label = .ok node.config) :
    canonicalJson S (copyFrames h raw) (nodeEntry node) = .ok (canonicalText (nodeEntry node)) ↔
      copyFrames h raw ≤ S.frames ∧ Encodable h S.nesting 1 raw := by
  rw [canonicalJson_eq_ok, and_iff_left rfl, serialises_nodeEntry hok]

/-! ## What is declared of a config, and when it holds -/

section
variable (L : Lang) (S : Stack) (h : Heap) (raw : Val h.size) (label : Str)

/-- What is declared: the configs without cycles, with string keys and scalar
    leaves are accepted, and no others; a cycle is refused with `ContractError`;
    `canonical_json` serialises the entry of every node with an accepted config. -/
structure ConfigLaw : Prop where
  accepts : Accepts (validateConfig L h raw label) ↔ IsConfig h raw
  cyclic : Cyclic h raw → ∃ exc, validateConfig L h raw label = .error exc ∧ exc.cls = .contractError
  serialised : ∀ node : Node, validateConfig L h raw label = .ok node.config →
    canonicalJson S (copyFrames h raw) (nodeEntry node) = .ok (canonicalText (nodeEntry node))

/-- The config fits the stack and the integers that print; a cyclic one reaches no
    value that the walk raises for. -/
structure ConfigFits : Prop where
  walked : IsConfig h raw → Within h.Holds L.depth raw
  copied : IsConfig h raw → copyFrames h raw ≤ S.frames
  written : IsConfig h raw → Encodable h S.nesting 1 raw
  caught : Cyclic h raw → ¬ ConfigRaises L h raw label

variable {L S h raw label}

theorem accepts_iff_isConfig : Accepts (validateConfig L h raw label) ↔
    IsConfig h raw ∧ Within h.Holds L.depth raw := by
  rw [accepts_validateConfig, IsConfig]
  constructor
  · rintro (rfl | ⟨hd, hshape, hwithin⟩)
    · exact ⟨.inl rfl, within_of_final (not_holds fun _ => by simp) _⟩
    · exact ⟨.inr ⟨hd, not_cyclic_iff.2 hwithin.acyclic, hshape⟩, hwithin⟩
  · rintro ⟨rfl | ⟨hd, -, hshape⟩, hwithin⟩
    · exact .inl rfl
    · exact .inr ⟨hd, hshape, hwithin⟩

/-- A cycle is never accepted. -/
theorem Cyclic.not_accepts (hc : Cyclic h raw) : ¬ Accepts (validateConfig L h raw label) := by
  intro hok
  obtain ⟨-, hwithin⟩ := accepts_iff_isConfig.1 hok
  exact not_cyclic_iff.2 hwithin.acyclic hc

/-- A config of no more containers than the stack takes calls fits it. -/
theorem within_of_size (hconfig : IsConfig h raw) (hsize : h.size ≤ L.depth) :
    Within h.Holds L.depth raw := by
  rcases hconfig with rfl | ⟨-, hc, -⟩
  · exact within_of_final (not_holds fun _ => by simp) _
  classical
  have hsources : (Finset.univ.image (@Val.ref h.size)).card ≤ L.depth := by
    refine (Finset.card_image_le).trans ?_
    rwa [Finset.card_univ, Fintype.card_fin]
  refine within_of_acyclic hsources (fun v w _ hvw => ?_) (not_cyclic_iff.1 hc)
  cases v with
  | ref a => exact Finset.mem_image_of_mem _ (Finset.mem_univ a)
  | _ => exact absurd hvw (not_holds (fun _ => by simp) w)

/-- **Config validation on graphs**: the walk ends, and what is declared of it
    holds exactly for the configs that fit. -/
theorem configLaw_iff (L : Lang) (S : Stack) (h : Heap) (raw : Val h.size) (label : Str) :
    (∀ extra a v key, toJson L h label (h.size + extra) [a] v key = toJson L h label h.size [a] v key) ∧
      (ConfigLaw L S h raw label ↔ ConfigFits L S h raw label) := by
  refine ⟨fun extra a v key => toJson_fuel extra (List.nodup_singleton a) ?_, ?_, ?_⟩
  · rw [List.length_singleton]
    omega
  · rintro ⟨haccepts, hcyclic, hserialised⟩
    have hserial : IsConfig h raw → copyFrames h raw ≤ S.frames ∧ Encodable h S.nesting 1 raw := by
      intro hconfig
      obtain ⟨config, hok⟩ := haccepts.2 hconfig
      exact (@canonicalJson_nodeEntry S L h label raw { apiNode [] with config := config } hok).1
        (hserialised { apiNode [] with config := config } hok)
    refine ⟨fun hconfig => ?_, fun hconfig => (hserial hconfig).1, fun hconfig => (hserial hconfig).2, ?_⟩
    · exact (accepts_iff_isConfig.1 (haccepts.2 hconfig)).2
    · intro hc hraises
      obtain ⟨exc, hexc, hcls⟩ := hcyclic hc
      rw [← raises_validateConfig, hexc] at hraises
      exact raises_error.1 hraises hcls
  · rintro ⟨hwalked, hcopied, hwritten, hcaught⟩
    refine ⟨?_, fun hc => ?_, fun node hok => ?_⟩
    · rw [accepts_iff_isConfig]
      exact ⟨And.left, fun hconfig => ⟨hconfig, hwalked hconfig⟩⟩
    · cases hrun : validateConfig L h raw label with
      | ok config => exact absurd ⟨config, hrun⟩ hc.not_accepts
      | error exc =>
        refine ⟨exc, rfl, by_contra fun hcls => hcaught hc ?_⟩
        rw [← raises_validateConfig, hrun]
        exact raises_error.2 hcls
    · obtain ⟨hconfig, -⟩ := accepts_iff_isConfig.1 ⟨_, hok⟩
      exact (canonicalJson_nodeEntry hok).2 ⟨hcopied hconfig, hwritten hconfig⟩

end

/-! ## A hexadecimal integer of too many digits -/

/-- `{n: i}`. -/
def intConfig (i : ℤ) : Heap where
  size := 1
  cell _ := .dict ⟨[(.str (py "n"), .int i)], by simp [NodupKeys]⟩

/-- `0x1` and 3600 zeros, which YAML reads without counting decimal digits. -/
def hexInt : ℕ := 16 ^ 3600

theorem not_intPrints_hexInt : ¬ IntPrints hexInt := by
  rw [intPrints_iff, Int.natAbs_natCast, not_lt]
  unfold hexInt maxIntDigits
  decide +kernel

/-- A stack that takes an entry with a small config. -/
def smallStack : Stack := ⟨100, 100, by omega, by omega⟩

theorem validateConfig_intConfig (i : ℤ) (label : Str) :
    validateConfig plainLang (intConfig i) (.ref (0 : Fin 1)) label =
      .ok ⟨[(py "n", .int i)], List.nodup_singleton _, trivial, trivial⟩ := rfl

theorem serialised_intConfig {i : ℤ} {label : Str}
    (hlaw : ConfigLaw plainLang smallStack (intConfig i) (.ref (0 : Fin 1)) label) : IntPrints i := by
  have hok := validateConfig_intConfig i label
  have hrun := hlaw.serialised { apiNode [] with config := ⟨_, _⟩ } hok
  have hwritten := ((canonicalJson_nodeEntry hok).1 hrun).2
  exact hwritten.ints i (.single (List.mem_singleton.2 rfl))

/-- **An accepted config that `canonical_json` raises on**. -/
theorem hexInt_not_serialised :
    ¬ ConfigLaw plainLang smallStack (intConfig hexInt) (.ref (0 : Fin 1)) (py "sales.orders") :=
  fun hlaw => not_intPrints_hexInt (serialised_intConfig hlaw)

end ContinuoRuntime
