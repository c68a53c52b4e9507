/-
  The checks of `parse_node` on two raw nodes that are the same up to key order,
  in two documents and with two file names.

  Each field is accepted in both or in neither, with the same value; messages may
  differ.  `parseNode_agree` puts them together.
-/
import ContinuoRuntime.Contract.KeyOrder

namespace ContinuoRuntime

variable {h k : Heap}

/-! ## Looking into same values -/

theorem Alike.asStr {v : Val h.size} {w : Val k.size} (hvw : Alike h k v w) : v.asStr = w.asStr := by
  cases alike_level hvw <;> rfl

theorem Alike.ofText {α : Type} {all : List α} {text : α → Str} {v : Val h.size} {w : Val k.size}
    (hvw : Alike h k v w) : ofText all text v = ofText all text w := by
  cases alike_level hvw <;> rfl

theorem AlikeMapping.getKey {d : Dict (Val h.size) (Val h.size)} {e : Dict (Val k.size) (Val k.size)}
    (hde : AlikeMapping h k d e) (key : Str) :
    Option.Rel (Alike h k) (getKey d key) (getKey e key) := by
  cases hd : ContinuoRuntime.getKey d key with
  | none =>
    cases he : ContinuoRuntime.getKey e key with
    | none => exact .none
    | some w =>
      obtain ⟨⟨name, v⟩, hp, hname, -⟩ := hde.exists_left (Dict.get?_eq_some_iff.1 he)
      obtain rfl := alike_str.1 hname.symm
      rw [ContinuoRuntime.getKey, Dict.get?_eq_some_iff.2 hp] at hd
      cases hd
  | some v =>
    obtain ⟨⟨name, w⟩, hq, hname, hvw⟩ := hde.exists_right (Dict.get?_eq_some_iff.1 hd)
    obtain rfl := alike_str.1 hname
    rw [ContinuoRuntime.getKey, Dict.get?_eq_some_iff.2 hq]
    exact .some hvw

theorem alike_getD {o : Option (Val h.size)} {o' : Option (Val k.size)} {v : Val h.size} {w : Val k.size}
    (ho : Option.Rel (Alike h k) o o') (hvw : Alike h k v w) :
    Alike h k (o.getD v) (o'.getD w) := by
  cases ho with
  | none => exact hvw
  | some hsame => exact hsame

theorem AlikeMapping.getNone {d : Dict (Val h.size) (Val h.size)} {e : Dict (Val k.size) (Val k.size)}
    (hde : AlikeMapping h k d e) (key : Str) : Alike h k (getNone d key) (getNone e key) :=
  alike_getD (hde.getKey key) (alike_of_level .none)

/-- A field with a default text. -/
theorem AlikeMapping.getStr {d : Dict (Val h.size) (Val h.size)} {e : Dict (Val k.size) (Val k.size)}
    (hde : AlikeMapping h k d e) (key default : Str) :
    Alike h k ((ContinuoRuntime.getKey d key).getD (.str default))
      ((ContinuoRuntime.getKey e key).getD (.str default)) :=
  alike_getD (hde.getKey key) (alike_of_level (.str default))

theorem unknownKeys_eq_nil {n : ℕ} {d : Dict (Val n) (Val n)} {allowed : List Str} :
    unknownKeys d allowed = [] ↔ ∀ p ∈ d.items, ∃ s ∈ allowed, p.1 = .str s := by
  rw [unknownKeys, List.filter_eq_nil_iff, List.forall_mem_map]
  refine forall₂_congr fun p _ => ?_
  obtain ⟨name, v⟩ := p
  cases name with
  | str s => simp
  | _ => simp

theorem AlikeMapping.unknownKeys_left {d : Dict (Val h.size) (Val h.size)} {e : Dict (Val k.size) (Val k.size)}
    (hde : AlikeMapping h k d e) {allowed : List Str} (he : unknownKeys e allowed = []) :
    unknownKeys d allowed = [] := by
  rw [unknownKeys_eq_nil] at he ⊢
  intro p hp
  obtain ⟨q, hq, hname, -⟩ := hde.exists_right hp
  obtain ⟨s, hs, hqs⟩ := he q hq
  rw [hqs] at hname
  exact ⟨s, hs, alike_str.1 hname.symm⟩

theorem AlikeMapping.unknownKeys {d : Dict (Val h.size) (Val h.size)} {e : Dict (Val k.size) (Val k.size)}
    (hde : AlikeMapping h k d e) {allowed : List Str} :
    unknownKeys d allowed = [] ↔ unknownKeys e allowed = [] :=
  ⟨hde.symm.unknownKeys_left, hde.unknownKeys_left⟩

/-! ## Refusals -/

section
variable {α β : Type} {r : α → β → Prop}

theorem fails_contractError {text : Str} : Fails (contractError text : Except Exc α) := fails_error

theorem fails_contractErrorFor {L : Lang} {before after : Str} {v : Val h.size} :
    Fails (contractErrorFor L h before v after : Except Exc α) := fun _ => contractErrorFor_ne_ok

theorem agree_contractError {text text' : Str} :
    Agree r (contractError text : Except Exc α) (contractError text' : Except Exc β) :=
  fails_contractError.agree fails_contractError

theorem agree_contractErrorFor {L : Lang} {before before' after after' : Str} {v : Val h.size}
    {w : Val k.size} : Agree r (contractErrorFor L h before v after : Except Exc α)
      (contractErrorFor L k before' w after' : Except Exc β) :=
  fails_contractErrorFor.agree fails_contractErrorFor

end

/-! ## Fields of texts -/

section
variable {L : Lang} {label label' : Str} {v : Val h.size} {w : Val k.size}
  {d : Dict (Val h.size) (Val h.size)} {e : Dict (Val k.size) (Val k.size)}

theorem rulesFor_agree (hvw : Alike h k v w) :
    Agree Eq (rulesFor L h v label) (rulesFor L k w label') := by
  unfold rulesFor
  rw [hvw.ofText]
  cases ofText Kind.all Kind.text w with
  | none => exact agree_contractErrorFor
  | some kind => exact rfl

theorem requiredText_agree (hde : AlikeMapping h k d e) (field : Str) :
    Agree Eq (requiredText h d label field) (requiredText k e label' field) := by
  unfold requiredText
  rw [(hde.getNone field).asStr]
  cases (getNone e field).asStr with
  | none => exact agree_contractError
  | some value =>
    dsimp only
    split_ifs
    · exact agree_contractError
    · exact rfl

theorem enumField_agree {α : Type} {all : List α} {text : α → Str} {field names : Str}
    (hvw : Alike h k v w) :
    Agree Eq (enumField L h all text label field names v) (enumField L k all text label' field names w) := by
  unfold enumField
  rw [hvw.ofText]
  cases ofText all text w with
  | none => exact agree_contractErrorFor
  | some a => exact rfl

theorem timeoutField_agree (hde : AlikeMapping h k d e) :
    Agree Eq (timeoutField L h d label) (timeoutField L k e label') := by
  unfold timeoutField
  have hrel := hde.getKey (py "timeout_minutes")
  generalize getKey d (py "timeout_minutes") = o at hrel
  generalize getKey e (py "timeout_minutes") = o' at hrel
  cases hrel with
  | none => exact rfl
  | some hsame =>
    cases alike_level hsame with
    | int i =>
      dsimp only
      split_ifs
      · exact rfl
      · exact agree_contractErrorFor
    | _ => exact agree_contractErrorFor

theorem getKey_eq_none_iff (hde : AlikeMapping h k d e) (key : Str) :
    getKey d key = none ↔ getKey e key = none := by
  have hrel := hde.getKey key
  generalize getKey d key = o at hrel
  generalize getKey e key = o' at hrel
  cases hrel with
  | none => exact ⟨fun _ => rfl, fun _ => rfl⟩
  | some => exact ⟨fun ho => (by cases ho), fun ho => (by cases ho)⟩

theorem scriptField_agree (hde : AlikeMapping h k d e) (kind : Kind) :
    Agree Eq (scriptField h d kind label) (scriptField k e kind label') := by
  unfold scriptField
  simp only [ne_eq, getKey_eq_none_iff hde]
  split_ifs
  · exact requiredText_agree hde _
  · exact rfl
  · exact agree_contractError

theorem validateSecretRef_agree (hvw : Alike h k v w) :
    Agree Eq (validateSecretRef L h v label) (validateSecretRef L k w label') := by
  unfold validateSecretRef
  rw [hvw.asStr]
  cases w.asStr with
  | none => exact agree_contractErrorFor
  | some s =>
    dsimp only
    split_ifs
    · exact agree_contractErrorFor
    · exact rfl

theorem secretField_agree (hde : AlikeMapping h k d e) (kind : Kind) :
    Agree Eq (secretField L h d kind label) (secretField L k e kind label') := by
  unfold secretField
  have hrel := hde.getKey (py "secret_ref")
  generalize getKey d (py "secret_ref") = o at hrel
  generalize getKey e (py "secret_ref") = o' at hrel
  cases hrel with
  | none => exact rfl
  | some hsame =>
    dsimp only
    split_ifs
    · exact validateSecretRef_agree hsame
    · exact agree_contractError

theorem modeField_agree (hde : AlikeMapping h k d e) (kind : Kind) :
    Agree Eq (modeField L h d kind label) (modeField L k e kind label') := by
  unfold modeField
  refine (enumField_agree (hde.getStr _ _)).bind ?_
  rintro mode _ rfl
  split_ifs
  · exact rfl
  · exact agree_contractError

theorem descriptionField_agree (hde : AlikeMapping h k d e) :
    Agree Eq (descriptionField h d label) (descriptionField k e label') := by
  unfold descriptionField
  have hsame := hde.getStr (py "description") []
  generalize (getKey d (py "description")).getD (.str []) = v at hsame ⊢
  generalize (getKey e (py "description")).getD (.str []) = w at hsame ⊢
  cases alike_level hsame with
  | str s => exact rfl
  | _ => exact agree_contractError

theorem contentHashField_agree (hde : AlikeMapping h k d e) :
    Agree Eq (contentHashField h d label) (contentHashField k e label') := by
  unfold contentHashField
  have hsame := hde.getNone (py "content_hash")
  generalize getNone d (py "content_hash") = v at hsame ⊢
  generalize getNone e (py "content_hash") = w at hsame ⊢
  cases alike_level hsame with
  | none => exact rfl
  | str s => exact rfl
  | _ => exact agree_contractError

/-! ## `reads` -/

theorem checkRead_agree {P : SqlParser} {checkReads : Bool} {name sql : Val h.size} {name' sql' : Val k.size}
    (hname : Alike h k name name') (hsql : Alike h k sql sql') :
    Agree Eq (checkRead L P h label checkReads name sql) (checkRead L P k label' checkReads name' sql') := by
  unfold checkRead
  rw [hname.asStr, hsql.asStr]
  cases name'.asStr with
  | none => exact agree_contractErrorFor
  | some n =>
    cases sql'.asStr with
    | none =>
      dsimp only
      split_ifs
      · exact agree_contractErrorFor
      · exact agree_contractError
    | some s =>
      dsimp only
      split_ifs
      · exact agree_contractErrorFor
      · exact agree_contractError
      · exact rfl
      · cases ensureSingleRead P s with
        | ok u => exact rfl
        | error exc =>
          dsimp only
          split_ifs
          · exact (fails_bind fun _ => fails_contractError).agree (fails_bind fun _ => fails_contractError)
          · exact fails_error.agree fails_error

/-- What `SqlReads.validate` accepts. -/
theorem sqlReads_eq_ok {P : SqlParser} {checkReads : Bool} {reads : Val h.size} {out : Dict Str Str} :
    sqlReads L P h label checkReads reads = .ok out ↔ ∃ d, h.asDict reads = some d ∧ d.items ≠ [] ∧
      d.items.mapM (fun p => checkRead L P h label checkReads p.1 p.2) = .ok out.items := by
  unfold sqlReads
  cases h.asDict reads with
  | none => exact ⟨fun hout => (by cases hout), fun ⟨d, hd, _⟩ => (by cases hd)⟩
  | some d =>
    dsimp only
    split_ifs with hnil
    · refine ⟨fun hout => (by cases hout), ?_⟩
      rintro ⟨_, hd, hitems, -⟩
      cases hd
      exact absurd hnil hitems
    · split
      next exc hexc =>
        refine ⟨fun hout => (by cases hout), ?_⟩
        rintro ⟨_, hd, -, hout⟩
        cases hd
        rw [hexc] at hout
        cases hout
      next kvs hkvs =>
        constructor
        · intro hout
          cases hout
          exact ⟨d, rfl, hnil, hkvs⟩
        · rintro ⟨_, hd, -, hout⟩
          cases hd
          rw [hkvs] at hout
          obtain ⟨items, hnodup⟩ := out
          cases hout
          rfl

/-- Two dicts with the same members. -/
def SameMembers (d e : Dict Str Str) : Prop := d.items.Perm e.items

theorem sqlReads_agree {P : SqlParser} {checkReads : Bool} (hvw : Alike h k v w) :
    Agree SameMembers (sqlReads L P h label checkReads v) (sqlReads L P k label' checkReads w) := by
  have hone : ∀ {h k : Heap} {v : Val h.size} {w : Val k.size} {label label' : Str}, Alike h k v w →
      ∀ out, sqlReads L P h label checkReads v = .ok out →
        ∃ out', sqlReads L P k label' checkReads w = .ok out' ∧ SameMembers out out' := by
    intro h k v w label label' hvw out hout
    obtain ⟨d, hd, hitems, hmap⟩ := sqlReads_eq_ok.1 hout
    have hrel := hvw.asDict
    rw [hd] at hrel
    generalize he : k.asDict w = o at hrel
    cases hrel with
    | @some _ e hde =>
      have hreads := UpToOrder.mapM (s := Eq) hde fun p q hpq =>
        @checkRead_agree h k L label label' P checkReads _ _ _ _ hpq.1 hpq.2
      rw [hmap] at hreads
      obtain ⟨kvs, hkvs, hperm⟩ := (agree_iff.1 hreads).1 _ rfl
      rw [upToOrder_eq] at hperm
      have hnodup : NodupKeys kvs := (hperm.map Prod.fst).nodup_iff.1 out.nodup
      refine ⟨⟨kvs, hnodup⟩, sqlReads_eq_ok.2 ⟨e, he, ?_, hkvs⟩, hperm⟩
      rwa [ne_eq, ← hde.nil_iff]
  refine agree_iff.2 ⟨hone hvw, fun out hout => ?_⟩
  obtain ⟨out', hout', hperm⟩ := hone hvw.symm out hout
  exact ⟨out', hout', hperm.symm⟩

theorem upToOrder_singleton {α β : Type} {r : α → β → Prop} {x : α} {ys : List β}
    (hxs : UpToOrder r [x] ys) : ∃ y, ys = [y] ∧ r x y := by
  obtain ⟨zs, hperm, hall⟩ := hxs
  obtain rfl := List.perm_singleton.1 hperm.symm
  obtain ⟨y, _, hr, hnil, rfl⟩ := List.forall₂_cons_left_iff.1 hall
  cases hnil
  exact ⟨y, rfl, hr⟩

/-- A `uri` that is not a text is refused, whatever its `repr` does. -/
theorem fails_badUri {uri : Val h.size} : Fails (match L.repr h uri with
    | .ok text => contractError (label ++ py ": invalid csv uri: csv uri must be a string, got " ++
        h.typeName uri ++ py ": " ++ text)
    | .error exc =>
      if exc.cls.isValueError ∨ exc.cls = .typeError then do
        let text ← exc.format
        contractError (label ++ py ": invalid csv uri: " ++ text)
      else .error exc : Except Exc (Dict Str Str)) := by
  cases L.repr h uri with
  | ok text => exact fails_contractError
  | error exc =>
    dsimp only
    split_ifs
    · exact fails_bind fun _ => fails_contractError
    · exact fails_error

theorem csvRead_agree (hvw : Alike h k v w) :
    Agree SameMembers (csvRead L h label v) (csvRead L k label' w) := by
  unfold csvRead
  have hrel := hvw.asDict
  generalize h.asDict v = o at hrel
  generalize k.asDict w = o' at hrel
  cases hrel with
  | none => exact agree_contractError
  | @some d e hde =>
    obtain ⟨items, hnodup⟩ := d
    obtain ⟨items', hnodup'⟩ := e
    replace hde : UpToOrder (fun p q => Alike h k p.1 q.1 ∧ Alike h k p.2 q.2) items items' := hde
    dsimp only
    have hlen := hde.length_eq
    match items, items', hde, hlen with
    | [], [], _, _ => exact agree_contractError
    | [(name, uri)], [(name', uri')], hde, _ =>
      obtain ⟨_, heq, hname, huri⟩ := upToOrder_singleton hde
      cases heq
      cases alike_level hname with
      | str s =>
        dsimp only
        split_ifs
        · exact agree_contractError
        cases alike_level huri with
        | str s =>
          dsimp only
          cases parseCsvUri L.reprStr s with
          | ok _ => exact .refl _
          | error msg => exact agree_contractError
        | _ => exact fails_badUri.agree fails_badUri
      | _ => exact agree_contractError
    | (name, _) :: _ :: _, (name', _) :: _ :: _, _, _ =>
      cases name <;> cases name' <;> exact agree_contractError

theorem noReads_agree (hvw : Alike h k v w) :
    Agree SameMembers (noReads h label v) (noReads k label' w) := by
  have hrel := hvw.asDict
  unfold noReads
  cases alike_level hvw with
  | none => exact .refl _
  | @ref a b hcell =>
    dsimp only
    generalize h.asDict (.ref a) = o at hrel
    generalize k.asDict (.ref b) = o' at hrel
    cases hrel with
    | none => exact agree_contractError
    | @some d e hde =>
      dsimp only
      simp only [UpToOrder.nil_iff hde]
      split_ifs
      · exact .refl _
      · exact agree_contractError
  | _ => exact agree_contractError

theorem reads_agree {P : SqlParser} {checkReads : Bool} (rule : ReadsRule) (hvw : Alike h k v w) :
    Agree SameMembers (rule.validate L P h label checkReads v) (rule.validate L P k label' checkReads w) := by
  cases rule with
  | sqlReads => exact sqlReads_agree hvw
  | csvRead => exact csvRead_agree hvw
  | noReads => exact noReads_agree hvw

/-! ## `output_columns` -/

theorem parseColumn_agree (columns : List Column) (hvw : Alike h k v w) :
    Agree Eq (parseColumn L h label columns v) (parseColumn L k label' columns w) := by
  unfold parseColumn
  have hrel := hvw.asDict
  generalize h.asDict v = o at hrel
  generalize k.asDict w = o' at hrel
  cases hrel with
  | none => exact agree_contractErrorFor
  | @some d e hde =>
    dsimp only
    simp only [ne_eq, AlikeMapping.unknownKeys hde]
    split_ifs
    · rw [(hde.getNone (py "name")).asStr, (hde.getNone (py "type")).asStr]
      cases (getNone e (py "name")).asStr with
      | none => exact agree_contractError
      | some name =>
        dsimp only
        by_cases hblank : isBlank name
        · rw [if_pos hblank, if_pos hblank]
          exact agree_contractError
        rw [if_neg hblank, if_neg hblank]
        cases (getNone e (py "type")).asStr with
        | none => exact agree_contractErrorFor
        | some type =>
          dsimp only
          cases parseSqlType L.reprStr type with
          | error exc =>
            dsimp only
            split_ifs
            · exact (fails_bind fun _ => fails_contractError).agree (fails_bind fun _ => fails_contractError)
            · exact fails_error.agree fails_error
          | ok t =>
            dsimp only
            have hnull := alike_getD (hde.getKey (py "nullable")) (alike_of_level (.bool true))
            generalize (getKey d (py "nullable")).getD (.bool true) = x at hnull ⊢
            generalize (getKey e (py "nullable")).getD (.bool true) = y at hnull ⊢
            cases alike_level hnull with
            | bool nullable =>
              dsimp only
              split_ifs
              · exact agree_contractError
              · exact rfl
            | _ => exact agree_contractErrorFor
    · exact (fails_bind fun _ => fails_contractError).agree (fails_bind fun _ => fails_contractError)

theorem parseColumns_agree : ∀ {entries : List (Val h.size)} {entries' : List (Val k.size)}
    (columns : List Column), List.Forall₂ (Alike h k) entries entries' →
      Agree Eq (parseColumns L h label columns entries) (parseColumns L k label' columns entries')
  | _, _, columns, .nil => rfl
  | _, _, columns, .cons hentry hrest => by
    refine (parseColumn_agree columns hentry).bind ?_
    rintro column _ rfl
    exact parseColumns_agree (columns ++ [column]) hrest

theorem columnsField_agree (hde : AlikeMapping h k d e) :
    Agree Eq (columnsField L h d label) (columnsField L k e label') := by
  unfold columnsField
  have hrel := (hde.getNone (py "output_columns")).asList
  generalize h.asList (getNone d (py "output_columns")) = o at hrel
  generalize k.asList (getNone e (py "output_columns")) = o' at hrel
  cases hrel with
  | none => exact agree_contractError
  | some hall =>
    dsimp only
    simp only [← List.length_eq_zero_iff, hall.length_eq]
    split_ifs
    · exact agree_contractError
    · exact parseColumns_agree [] hall

/-! ## `primary_key` -/

theorem primaryKeyEntries_agree (columns : List Column) : ∀ {entries : List (Val h.size)}
    {entries' : List (Val k.size)} (seen : List Str), List.Forall₂ (Alike h k) entries entries' →
      Agree Eq (primaryKeyEntries L h columns label seen entries)
        (primaryKeyEntries L k columns label' seen entries') := by
  intro entries entries' seen hall
  induction hall generalizing seen with
  | nil => rfl
  | @cons entry entry' entries entries' hentry hrest ih =>
    unfold primaryKeyEntries
    rw [hentry.asStr]
    cases entry'.asStr with
    | none => exact agree_contractErrorFor
    | some name =>
      dsimp only
      split_ifs
      · exact agree_contractErrorFor
      · exact agree_contractError
      cases columns.find? fun column => column.name = name with
      | none => exact agree_contractError
      | some column =>
        dsimp only
        split_ifs
        · exact agree_contractError
        cases parseSqlType L.reprStr column.type with
        | error exc => exact fails_error.agree fails_error
        | ok type =>
          refine Agree.bind (r := Eq) rfl ?_
          rintro type _ rfl
          split_ifs
          · exact agree_contractError
          · refine (ih (L.lower name :: seen)).bind ?_
            rintro names _ rfl
            exact rfl

theorem validatePrimaryKey_agree (mode : ModeType) (columns : List Column) (hde : AlikeMapping h k d e) :
    Agree (fun key key' => key.1 = key'.1) (validatePrimaryKey L h d mode columns label)
      (validatePrimaryKey L k e mode columns label') := by
  unfold validatePrimaryKey
  by_cases hm : mode = .upsert
  · rw [dif_pos hm, dif_pos hm]
    have hrel := hde.getKey (py "primary_key")
    generalize getKey d (py "primary_key") = o at hrel
    generalize getKey e (py "primary_key") = o' at hrel
    cases hrel with
    | none => exact agree_contractError
    | some hsame =>
      dsimp only
      have hrel := hsame.asList
      generalize h.asList _ = o at hrel
      generalize k.asList _ = o' at hrel
      cases hrel with
      | none => exact agree_contractError
      | some hall =>
        dsimp only
        simp only [← List.length_eq_zero_iff, hall.length_eq]
        split_ifs
        · exact agree_contractError
        · refine (primaryKeyEntries_agree columns [] hall).bind ?_
          rintro key _ rfl
          exact rfl
  · rw [dif_neg hm, dif_neg hm]
    simp only [ne_eq, getKey_eq_none_iff hde]
    split_ifs
    · exact rfl
    · exact agree_contractError

end

/-! ## Nodes -/

/-- Two nodes with the same fields: reads as dicts, `config` up to key order. -/
structure SameNode (n m : Node) : Prop where
  schema : n.schema = m.schema
  table : n.table = m.table
  owner : n.owner = m.owner
  schedule : n.schedule = m.schedule
  criticality : n.criticality = m.criticality
  kind : n.kind = m.kind
  script : n.script = m.script
  reads : SameMembers n.reads m.reads
  outputColumns : n.outputColumns = m.outputColumns
  description : n.description = m.description
  extraColumns : n.extraColumns = m.extraColumns
  config : (Json.obj n.config.members).Equiv (Json.obj m.config.members)
  secretRef : n.secretRef = m.secretRef
  modeType : n.modeType = m.modeType
  primaryKey : n.primaryKey = m.primaryKey
  timeoutMinutes : n.timeoutMinutes = m.timeoutMinutes
  contentHash : n.contentHash = m.contentHash

/-- **`parse_node`** on raw nodes that are the same up to key order: both are
    accepted or neither, whatever file they stand in. -/
theorem parseNode_agree (L : Lang) (P : SqlParser) (checkReads : Bool) {v : Val h.size} {w : Val k.size}
    (source source' : Str) (hvw : Alike h k v w) :
    Agree SameNode (parseNode L P h checkReads v source) (parseNode L P k checkReads w source') := by
  unfold parseNode
  have hrel := hvw.asDict
  generalize h.asDict v = o at hrel
  generalize k.asDict w = o' at hrel
  cases hrel with
  | none => exact agree_contractError
  | @some d e hde =>
    dsimp only
    by_cases hunknown : unknownKeys d allowedKeys = []
    · have hunknown' := hde.unknownKeys.1 hunknown
      rw [if_neg (not_not.2 hunknown), if_neg (not_not.2 hunknown')]
      refine (rulesFor_agree (hde.getStr _ _)).bind ?_
      rintro kind _ rfl
      refine (requiredText_agree hde _).bind ?_
      rintro schema _ rfl
      refine (requiredText_agree hde _).bind ?_
      rintro table _ rfl
      refine (requiredText_agree hde _).bind ?_
      rintro owner _ rfl
      refine (requiredText_agree hde _).bind ?_
      rintro schedule _ rfl
      refine (scriptField_agree hde kind).bind ?_
      rintro script _ rfl
      refine (enumField_agree (hde.getNone _)).bind ?_
      rintro criticality _ rfl
      refine (enumField_agree (hde.getStr _ _)).bind ?_
      rintro extraColumns _ rfl
      refine (reads_agree kind.rules.reads (hde.getNone _)).bind ?_
      intro reads reads' hreads
      refine (secretField_agree hde kind).bind ?_
      rintro secretRef _ rfl
      refine (timeoutField_agree hde).bind ?_
      rintro timeoutMinutes _ rfl
      refine (modeField_agree hde kind).bind ?_
      rintro modeType _ rfl
      refine (columnsField_agree hde).bind ?_
      rintro columns _ rfl
      refine (validatePrimaryKey_agree modeType columns hde).bind ?_
      rintro ⟨primaryKey, hkey⟩ ⟨_, hkey'⟩ rfl
      refine (descriptionField_agree hde).bind ?_
      rintro description _ rfl
      refine (validateConfig_agree L _ _ (hde.getNone _)).bind ?_
      intro config config' hconfig
      refine (contentHashField_agree hde).bind ?_
      rintro contentHash _ rfl
      exact {
        schema := rfl, table := rfl, owner := rfl, schedule := rfl, criticality := rfl, kind := rfl
        script := rfl, reads := hreads, outputColumns := rfl, description := rfl, extraColumns := rfl
        config := hconfig, secretRef := rfl, modeType := rfl, primaryKey := rfl, timeoutMinutes := rfl
        contentHash := rfl }
    · have hunknown' := fun hnil => hunknown (hde.unknownKeys.2 hnil)
      rw [if_pos hunknown, if_pos hunknown']
      exact (fails_bind fun _ => fails_contractError).agree (fails_bind fun _ => fails_contractError)

end ContinuoRuntime
