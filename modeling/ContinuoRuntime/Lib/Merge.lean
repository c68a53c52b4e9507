/-
  Tables of rows, and what `MERGE` and `INSERT … ON CONFLICT` make of them.

  A row gives each column a value or null; a null equals nothing.  The abstract view
  has a key of each row: `override` keeps the rows whose key is not in the data, and
  adds the data.

  * `merge_perm`: a `MERGE` overrides;
  * `conflictInsert_perm`: so does an `INSERT … ON CONFLICT`, row by row;
  * `override_append`, `override_self`, `override_perm`: pages, repetition and order
    of the data make no difference.
-/
import Mathlib

namespace ContinuoRuntime
namespace Rows

/-! ## Override -/

section
variable {ρ κ : Type} (key : ρ → κ)

/-- No two rows have one key. -/
def UniqueKeys (rows : List ρ) : Prop := (rows.map key).Nodup

variable {key} {prior data : List ρ}

theorem UniqueKeys.nodup (h : UniqueKeys key prior) : prior.Nodup := List.Nodup.of_map key h

/-- Two rows of one key are the same row. -/
theorem UniqueKeys.eq (h : UniqueKeys key prior) {r s : ρ} (hr : r ∈ prior) (hs : s ∈ prior)
    (hkey : key r = key s) : r = s := List.inj_on_of_nodup_map h hr hs hkey

theorem UniqueKeys.perm (h : UniqueKeys key prior) (hperm : prior.Perm data) : UniqueKeys key data :=
  (hperm.map key).nodup_iff.1 h

/-- Rows of unique keys are determined by their members. -/
theorem perm_of_mem_iff {rows rows' : List ρ} (h : UniqueKeys key rows) (h' : UniqueKeys key rows')
    (hmem : ∀ r, r ∈ rows ↔ r ∈ rows') : rows.Perm rows' :=
  (List.perm_ext_iff_of_nodup h.nodup h'.nodup).2 hmem

end

section
variable {ρ κ : Type} [DecidableEq κ] (key : ρ → κ)

/-- The prior rows whose key is not in the data, and the data. -/
def override (prior data : List ρ) : List ρ := prior.filter (fun r => key r ∉ data.map key) ++ data

/-- The data rows whose key is not in the prior rows. -/
def added (prior data : List ρ) : List ρ := data.filter fun r => key r ∉ prior.map key

/-- Several batches of data, one after another. -/
def overrides (prior : List ρ) (batches : List (List ρ)) : List ρ := batches.foldl (override key) prior

variable {key} {prior data : List ρ}

theorem mem_override {r : ρ} :
    r ∈ override key prior data ↔ (r ∈ prior ∧ key r ∉ data.map key) ∨ r ∈ data := by
  unfold override
  rw [List.mem_append, List.mem_filter, decide_eq_true_eq]

/-- **The keys stay unique.** -/
theorem uniqueKeys_override (hprior : UniqueKeys key prior) (hdata : UniqueKeys key data) :
    UniqueKeys key (override key prior data) := by
  unfold UniqueKeys override
  rw [List.map_append, List.nodup_append']
  refine ⟨(List.filter_sublist.map key).nodup hprior, hdata, ?_⟩
  intro k hk hdata
  obtain ⟨r, hr, rfl⟩ := List.mem_map.1 hk
  exact (of_decide_eq_true (List.mem_filter.1 hr).2) hdata

/-- **Data in two parts** override as the whole. -/
theorem override_append {data' : List ρ} (h : UniqueKeys key (data ++ data')) :
    override key prior (data ++ data') = override key (override key prior data) data' := by
  have hdisjoint : ∀ r ∈ data, key r ∉ data'.map key := by
    unfold UniqueKeys at h
    rw [List.map_append, List.nodup_append'] at h
    exact fun r hr hr' => h.2.2 (List.mem_map_of_mem hr) hr'
  unfold override
  rw [List.filter_append, List.filter_filter, ← List.append_assoc,
    List.filter_eq_self.2 fun r hr => decide_eq_true (hdisjoint r hr)]
  refine congrArg (· ++ data ++ data') (List.filter_congr fun r _ => ?_)
  rw [List.map_append, ← Bool.decide_and, decide_eq_decide, List.mem_append, not_or, and_comm]

variable (key) in
theorem override_nil (prior : List ρ) : override key prior [] = prior := by simp [override]

/-- **The same data again** changes nothing. -/
theorem override_self : override key (override key prior data) data = override key prior data := by
  have hself : data.filter (fun r => key r ∉ data.map key) = [] :=
    List.filter_eq_nil_iff.2 fun r hr => by simpa using ⟨r, hr, rfl⟩
  unfold override
  rw [List.filter_append, List.filter_filter, hself, List.append_nil]
  simp only [Bool.and_self]

/-- **The order of the data** makes no difference. -/
theorem override_perm {data' : List ρ} (h : data.Perm data') :
    (override key prior data).Perm (override key prior data') := by
  have hkeys : ∀ r, (decide (key r ∉ data.map key)) = decide (key r ∉ data'.map key) := fun r => by
    rw [decide_eq_decide, (h.map key).mem_iff]
  unfold override
  rw [List.filter_congr fun r _ => hkeys r]
  exact h.append_left _

theorem override_perm_left {prior' : List ρ} (h : prior.Perm prior') :
    (override key prior data).Perm (override key prior' data) := (h.filter _).append_right _

/-- Data with new keys only is added. -/
theorem override_of_new (h : ∀ r ∈ prior, key r ∉ data.map key) : override key prior data = prior ++ data :=
  congrArg (· ++ data) (List.filter_eq_self.2 fun r hr => decide_eq_true (h r hr))

theorem overrides_append {batches : List (List ρ)} {batch : List ρ} :
    overrides key prior (batches ++ [batch]) = override key (overrides key prior batches) batch := by
  unfold overrides
  rw [List.foldl_append]
  rfl

theorem overrides_perm_left {batches : List (List ρ)} {prior' : List ρ} (h : prior.Perm prior') :
    (overrides key prior batches).Perm (overrides key prior' batches) := by
  induction batches generalizing prior prior' with
  | nil => exact h
  | cons batch batches ih => exact ih (override_perm_left h)

/-- **The last batch with a key has it**: a row is there if it is in a batch behind which
    its key does not come again, or it is a prior row whose key comes in none. -/
theorem mem_overrides {batches : List (List ρ)} {r : ρ} : r ∈ overrides key prior batches ↔
    (r ∈ prior ∧ ∀ batch ∈ batches, key r ∉ batch.map key) ∨
      ∃ before batch after, batches = before ++ batch :: after ∧ r ∈ batch ∧
        ∀ later ∈ after, key r ∉ later.map key := by
  induction batches using List.reverseRecOn with
  | nil => simp [overrides]
  | append_singleton batches last ih =>
    rw [overrides_append, mem_override, ih]
    constructor
    · rintro (⟨⟨hr, hnone⟩ | ⟨before, batch, after, rfl, hr, hlater⟩, hlast⟩ | hr)
      · refine .inl ⟨hr, fun batch hbatch => ?_⟩
        rcases List.mem_append.1 hbatch with hbatch | hbatch
        · exact hnone batch hbatch
        · exact List.mem_singleton.1 hbatch ▸ hlast
      · refine .inr ⟨before, batch, after ++ [last], by simp, hr, fun later hafter => ?_⟩
        rcases List.mem_append.1 hafter with hafter | hafter
        · exact hlater later hafter
        · exact List.mem_singleton.1 hafter ▸ hlast
      · exact .inr ⟨batches, last, [], rfl, hr, fun _ h => by cases h⟩
    · rintro (⟨hr, hnone⟩ | ⟨before, batch, after, hsplit, hr, hlater⟩)
      · exact .inl ⟨.inl ⟨hr, fun batch hbatch => hnone batch (List.mem_append_left _ hbatch)⟩,
          hnone last (List.mem_append_right _ (List.mem_singleton_self _))⟩
      · rcases List.eq_nil_or_concat after with rfl | ⟨after, later, rfl⟩
        · obtain ⟨-, hlast⟩ := List.append_inj' hsplit rfl
          rw [List.singleton_inj] at hlast
          exact .inr (hlast ▸ hr)
        · rw [List.concat_eq_append, ← List.cons_append, ← List.append_assoc] at hsplit
          obtain ⟨rfl, hlast⟩ := List.append_inj' hsplit rfl
          rw [List.singleton_inj] at hlast
          subst hlast
          refine .inl ⟨.inr ⟨before, batch, after, rfl, hr, fun l hl => hlater l ?_⟩, hlater last ?_⟩
          · simp [hl]
          · simp

/-- Replacing the row with the key of the new one. -/
theorem replaced_perm {rows : List ρ} {t r : ρ} (h : UniqueKeys key rows) (ht : t ∈ rows)
    (hkey : key t = key r) :
    (rows.map fun s => if key s = key r then r else s).Perm (override key rows [r]) := by
  refine @perm_of_mem_iff ρ κ key _ _ ?_ (uniqueKeys_override h (List.nodup_singleton _)) fun s => ?_
  · have hkeys : (rows.map fun s => if key s = key r then r else s).map key =
        rows.map key := by
      rw [List.map_map]
      refine List.map_congr_left fun s _ => ?_
      simp only [Function.comp_apply]
      split_ifs with hs
      · exact hs.symm
      · rfl
    unfold UniqueKeys
    rwa [hkeys]
  · rw [mem_override, List.mem_singleton, List.map_singleton, List.mem_singleton, List.mem_map]
    constructor
    · rintro ⟨s', hs', rfl⟩
      split_ifs with hs
      · exact .inr rfl
      · exact .inl ⟨hs', hs⟩
    · rintro (⟨hs, hne⟩ | rfl)
      · exact ⟨s, hs, if_neg hne⟩
      · exact ⟨t, ht, if_pos hkey⟩

/-- **New keys only**: where a key is a whole row, the rows whose key is there already
    change nothing. -/
theorem override_perm_addNew (hprior : UniqueKeys key prior) (hdata : UniqueKeys key data)
    (hwhole : ∀ r ∈ prior, ∀ s ∈ data, key r = key s → r = s) :
    (override key prior data).Perm (prior ++ added key prior data) := by
  unfold added
  refine perm_of_mem_iff (uniqueKeys_override hprior hdata) ?_ fun r => ?_
  · unfold UniqueKeys
    rw [List.map_append, List.nodup_append']
    refine ⟨hprior, (List.filter_sublist.map key).nodup hdata, fun k hk hk' => ?_⟩
    obtain ⟨s, hs, rfl⟩ := List.mem_map.1 hk'
    exact (of_decide_eq_true (List.mem_filter.1 hs).2) hk
  · rw [mem_override, List.mem_append, List.mem_filter, decide_eq_true_eq]
    constructor
    · rintro (⟨hr, -⟩ | hr)
      · exact .inl hr
      · by_cases hkey : key r ∈ prior.map key
        · obtain ⟨r', hr', hkey⟩ := List.mem_map.1 hkey
          exact .inl (hwhole r' hr' r hr hkey ▸ hr')
        · exact .inr ⟨hr, hkey⟩
    · rintro (hr | ⟨hr, -⟩)
      · by_cases hkey : key r ∈ data.map key
        · obtain ⟨s, hs, hkey⟩ := List.mem_map.1 hkey
          exact .inr (hwhole r hr s hs hkey.symm ▸ hs)
        · exact .inl ⟨hr, hkey⟩
      · exact .inr hr

end

/-! ## Rows -/

/-- A row, by column; a null, or a column that the table does not have, is `none`. -/
abbrev Row (γ ν : Type) := γ → Option ν

section
variable {γ ν : Type} [DecidableEq γ] (eq : ν → ν → Bool)

/-- `=`: a null equals nothing. -/
def sqlEq : Option ν → Option ν → Bool
  | some a, some b => eq a b
  | _, _ => false

/-- `t.k = s.k AND …`. -/
def joins (on : List γ) (t s : Row γ ν) : Bool := on.all fun c => sqlEq eq (t c) (s c)

/-- `SET c = s.c, …`. -/
def assign (columns : List γ) (t s : Row γ ν) : Row γ ν := fun c => if c ∈ columns then s c else t c

/-- `INSERT (c, …) VALUES (s.c, …)`: the other columns are null. -/
def pick (columns : List γ) (s : Row γ ν) : Row γ ν := fun c => if c ∈ columns then s c else none

/-- The clauses of a `MERGE`; without updates it has no `WHEN MATCHED`. -/
structure MergeClauses (γ : Type) where
  on : List γ
  updates : List γ
  inserts : List γ

variable (m : MergeClauses γ) (target source : List (Row γ ν))

/-- The source rows that a target row matches. -/
def matched (t : Row γ ν) : List (Row γ ν) := source.filter fun s => joins eq m.on t s

/-- A target row behind the `MERGE`: the last match is kept. -/
def mergedRow (t : Row γ ν) : Row γ ν :=
  match (matched eq m source t).getLast? with
  | some s => assign m.updates t s
  | none => t

/-- What a `MERGE` makes of the target. -/
def merged : List (Row γ ν) :=
  target.map (mergedRow eq m source) ++
    (source.filter fun s => !target.any fun t => joins eq m.on t s).map (pick m.inserts)

/-- A `MERGE` that fails if a target row matches two source rows. -/
def strictMerge : Option (List (Row γ ν)) :=
  if target.any fun t => 1 < (matched eq m source t).length then none else some (merged eq m target source)

/-- `ON CONFLICT (key) DO UPDATE`, or `DO NOTHING` without updates. -/
structure ConflictClause (γ : Type) where
  target : List γ
  updates : List γ

/-- One row of an `INSERT … ON CONFLICT`, into rows that are marked if this statement has
    written them: a key must not be null, and no row is written twice. -/
def conflictStep (clause : ConflictClause γ) (rows : List (Row γ ν × Bool)) (r : Row γ ν) :
    Option (List (Row γ ν × Bool)) :=
  if clause.target.any fun c => (r c).isNone then none
  else if ¬ rows.any fun p => joins eq clause.target p.1 r then some (rows ++ [(r, true)])
  else if clause.updates = [] then some rows
  else if rows.any fun p => joins eq clause.target p.1 r && p.2 then none
  else some (rows.map fun p => if joins eq clause.target p.1 r then (assign clause.updates p.1 r, true) else p)

/-- `INSERT … ON CONFLICT`. -/
def conflictInsert (clause : ConflictClause γ) (rows data : List (Row γ ν)) : Option (List (Row γ ν)) :=
  (data.foldlM (conflictStep eq clause) (rows.map fun r => (r, false))).map fun marked => marked.map Prod.fst

/-! ## Keys -/

/-- The key of a row. -/
def keyOf (key : List γ) (r : Row γ ν) : List (Option ν) := key.map r

/-- A row of a table with these columns, whose key is not null. -/
structure Keyed (columns key : List γ) (r : Row γ ν) : Prop where
  within : ∀ c, c ∉ columns → r c = none
  key : ∀ c ∈ key, ∃ v, r c = some v

/-- On the keys of these rows, the warehouse's equality is that of the values. -/
def KeyEquality (key : List γ) (rows : List (Row γ ν)) : Prop :=
  ∀ r ∈ rows, ∀ s ∈ rows, ∀ c ∈ key, ∀ v w, r c = some v → s c = some w → (eq v w = true ↔ v = w)

end

section
variable {γ ν : Type} {eq : ν → ν → Bool} {columns key : List γ} {t s : Row γ ν}
  {rows : List (Row γ ν)}

theorem keyOf_eq_iff : keyOf key t = keyOf key s ↔ ∀ c ∈ key, t c = s c := List.map_inj_left

/-- A join is equality of keys. -/
theorem joins_iff (heq : KeyEquality eq key rows) (ht : t ∈ rows) (hs : s ∈ rows) (htkey : Keyed columns key t)
    (hskey : Keyed columns key s) : joins eq key t s = true ↔ keyOf key t = keyOf key s := by
  unfold joins
  rw [List.all_eq_true, keyOf_eq_iff]
  refine forall₂_congr fun c hc => ?_
  obtain ⟨v, hv⟩ := htkey.key c hc
  obtain ⟨w, hw⟩ := hskey.key c hc
  rw [hv, hw, Option.some_inj]
  exact heq t ht s hs c hc v w hv hw

/-- A table and the data for it: rows of these columns, with keys that are unique on
    either side and that the warehouse tells apart as the values. -/
structure Comparable {γ ν : Type} (eq : ν → ν → Bool) (columns key : List γ) (prior data : List (Row γ ν)) : Prop where
  keyed : ∀ r ∈ prior ++ data, Keyed columns key r
  equality : KeyEquality eq key (prior ++ data)
  prior : UniqueKeys (keyOf key) prior
  data : UniqueKeys (keyOf key) data

theorem Comparable.of_sublist {prior data data' : List (Row γ ν)} (h : Comparable eq columns key prior data)
    (hsub : data'.Sublist data) : Comparable eq columns key prior data' where
  keyed r hr := h.keyed r ((List.Sublist.append_left hsub prior).subset hr)
  equality r hr s hs := h.equality r ((List.Sublist.append_left hsub prior).subset hr) s
    ((List.Sublist.append_left hsub prior).subset hs)
  prior := h.prior
  data := (hsub.map _).nodup h.data

theorem Comparable.joins_iff {prior data : List (Row γ ν)} (h : Comparable eq columns key prior data)
    (ht : t ∈ prior ++ data) (hs : s ∈ prior ++ data) :
    joins eq key t s = true ↔ keyOf key t = keyOf key s :=
  Rows.joins_iff h.equality ht hs (h.keyed t ht) (h.keyed s hs)

end

section
variable {γ ν : Type} [DecidableEq γ] {columns key : List γ} {t s : Row γ ν}

/-- Overwriting the other columns of a row with the same key gives the new row. -/
theorem assign_of_keyOf_eq (ht : Keyed columns key t) (hs : Keyed columns key s) (hkey : keyOf key t = keyOf key s)
    {updates : List γ} (hupdates : ∀ c, c ∈ updates ↔ c ∈ columns ∧ c ∉ key) : assign updates t s = s := by
  funext c
  unfold assign
  split_ifs with hc
  · rfl
  · by_cases hk : c ∈ key
    · exact keyOf_eq_iff.1 hkey c hk
    · have hout : c ∉ columns := fun hin => hc ((hupdates c).2 ⟨hin, hk⟩)
      rw [ht.within c hout, hs.within c hout]

theorem pick_of_within (hs : ∀ c, c ∉ columns → s c = none) {inserts : List γ}
    (hinserts : ∀ c, c ∈ inserts ↔ c ∈ columns) : pick inserts s = s := by
  funext c
  unfold pick
  split_ifs with hc
  · rfl
  · exact (hs c fun hin => hc ((hinserts c).2 hin)).symm

end

/-! ## `MERGE` -/

section
variable {γ ν : Type} {eq : ν → ν → Bool} {columns key : List γ} {prior data : List (Row γ ν)} {m : MergeClauses γ}

/-- The clauses of an upsert: every column that is not in the key is updated. -/
structure MergeClauses.Upserts (m : MergeClauses γ) (columns key : List γ) : Prop where
  on : m.on = key
  updates : ∀ c, c ∈ m.updates ↔ c ∈ columns ∧ c ∉ key
  inserts : ∀ c, c ∈ m.inserts ↔ c ∈ columns

theorem Comparable.mem_matched (h : Comparable eq columns key prior data) (hm : m.Upserts columns key)
    {t s : Row γ ν} (ht : t ∈ prior) : s ∈ matched eq m data t ↔ s ∈ data ∧ keyOf key t = keyOf key s := by
  unfold matched
  rw [List.mem_filter, hm.on]
  exact and_congr_right fun hs => h.joins_iff (List.mem_append_left _ ht) (List.mem_append_right _ hs)

theorem Comparable.length_matched (h : Comparable eq columns key prior data) (hm : m.Upserts columns key)
    {t : Row γ ν} (ht : t ∈ prior) : (matched eq m data t).length ≤ 1 := by
  have hnodup : (matched eq m data t).Nodup := h.data.nodup.sublist List.filter_sublist
  have hsame : ∀ s ∈ matched eq m data t, ∀ s' ∈ matched eq m data t, s = s' := by
    intro s hs s' hs'
    obtain ⟨hs, hkey⟩ := (h.mem_matched hm ht).1 hs
    obtain ⟨hs', hkey'⟩ := (h.mem_matched hm ht).1 hs'
    exact h.data.eq hs hs' (hkey.symm.trans hkey')
  generalize matched eq m data t = rows at hnodup hsame ⊢
  rcases rows with _ | ⟨s, _ | ⟨s', rest⟩⟩
  · exact Nat.zero_le 1
  · exact le_refl 1
  · refine absurd (hsame s (by simp) s' (by simp)) fun heq => ?_
    exact (List.nodup_cons.1 hnodup).1 (heq ▸ List.mem_cons_self)

variable [DecidableEq γ]

/-- A target row becomes the data row with its key, or stays. -/
theorem Comparable.mergedRow_cases (h : Comparable eq columns key prior data) (hm : m.Upserts columns key)
    {t : Row γ ν} (ht : t ∈ prior) :
    (∃ s ∈ data, keyOf key t = keyOf key s ∧ mergedRow eq m data t = s) ∨
      (keyOf key t ∉ data.map (keyOf key) ∧ mergedRow eq m data t = t) := by
  unfold mergedRow
  cases hlast : (matched eq m data t).getLast? with
  | some s =>
    obtain ⟨hs, hkey⟩ := (h.mem_matched hm ht).1 (List.mem_of_getLast? hlast)
    have hassign := assign_of_keyOf_eq (h.keyed t (List.mem_append_left _ ht)) (h.keyed s (List.mem_append_right _ hs))
      hkey hm.updates
    exact .inl ⟨s, hs, hkey, hassign⟩
  | none =>
    rw [List.getLast?_eq_none_iff] at hlast
    refine .inr ⟨fun hmem => ?_, rfl⟩
    obtain ⟨s, hs, hkey⟩ := List.mem_map.1 hmem
    have hmatched := (h.mem_matched hm ht).2 ⟨hs, hkey.symm⟩
    rw [hlast] at hmatched
    cases hmatched

end

section
variable {γ ν : Type} [DecidableEq γ] [DecidableEq ν] {eq : ν → ν → Bool} {columns key : List γ}
  {prior data : List (Row γ ν)} {m : MergeClauses γ}

theorem Comparable.inserted_eq (h : Comparable eq columns key prior data) (hm : m.Upserts columns key) :
    (data.filter fun s => !prior.any fun t => joins eq m.on t s).map (pick m.inserts) =
      data.filter fun s => keyOf key s ∉ prior.map (keyOf key) := by
  have hfilter : (data.filter fun s => !prior.any fun t => joins eq m.on t s) =
      data.filter fun s => keyOf key s ∉ prior.map (keyOf key) := by
    refine List.filter_congr fun s hs => ?_
    rw [hm.on, Bool.not_eq_eq_eq_not, ← decide_not, ← Bool.decide_coe (prior.any _), decide_eq_decide, not_not,
      List.any_eq_true, List.mem_map]
    refine exists_congr fun t => and_congr_right fun ht => ?_
    exact h.joins_iff (List.mem_append_left _ ht) (List.mem_append_right _ hs)
  rw [hfilter]
  refine (List.map_congr_left fun s hs => ?_).trans (List.map_id _)
  have hdata := (List.mem_filter.1 hs).1
  exact pick_of_within (h.keyed s (List.mem_append_right _ hdata)).within hm.inserts

/-- **A `MERGE` overrides.** -/
theorem merge_perm (h : Comparable eq columns key prior data) (hm : m.Upserts columns key) :
    strictMerge eq m prior data = some (merged eq m prior data) ∧
      (merged eq m prior data).Perm (override (keyOf key) prior data) := by
  have hcases : ∀ t ∈ prior, (∃ s ∈ data, keyOf key t = keyOf key s ∧ mergedRow eq m data t = s) ∨
      (keyOf key t ∉ data.map (keyOf key) ∧ mergedRow eq m data t = t) := fun t ht => h.mergedRow_cases hm ht
  have hkeys : (prior.map (mergedRow eq m data)).map (keyOf key) = prior.map (keyOf key) := by
    rw [List.map_map]
    refine List.map_congr_left fun t ht => ?_
    rcases hcases t ht with ⟨s, -, hkey, hrow⟩ | ⟨-, hrow⟩
    · rw [Function.comp_apply, hrow, hkey]
    · rw [Function.comp_apply, hrow]
  have hmerged : merged eq m prior data = prior.map (mergedRow eq m data) ++
      data.filter fun s => keyOf key s ∉ prior.map (keyOf key) := by
    unfold merged
    rw [h.inserted_eq hm]
  constructor
  · refine if_neg fun hany => ?_
    obtain ⟨t, ht, hmany⟩ := List.any_eq_true.1 hany
    exact absurd (of_decide_eq_true hmany) (not_lt.2 (h.length_matched hm ht))
  rw [hmerged]
  refine @perm_of_mem_iff (Row γ ν) _ (keyOf key) _ _ ?_ (uniqueKeys_override h.prior h.data) fun r => ?_
  · unfold UniqueKeys
    rw [List.map_append, hkeys, List.nodup_append']
    refine ⟨h.prior, (List.filter_sublist.map _).nodup h.data, fun k hk hk' => ?_⟩
    obtain ⟨s, hs, rfl⟩ := List.mem_map.1 hk'
    exact (of_decide_eq_true (List.mem_filter.1 hs).2) hk
  · rw [mem_override, List.mem_append, List.mem_filter, decide_eq_true_eq]
    constructor
    · rintro (hr | ⟨hr, -⟩)
      · obtain ⟨t, ht, rfl⟩ := List.mem_map.1 hr
        rcases hcases t ht with ⟨s, hs, -, hrow⟩ | ⟨hnew, hrow⟩
        · exact .inr (hrow ▸ hs)
        · exact .inl (hrow.symm ▸ ⟨ht, hnew⟩)
      · exact .inr hr
    · rintro (⟨hr, hnew⟩ | hr)
      · rcases hcases r hr with ⟨s, hs, hkey, -⟩ | ⟨-, hrow⟩
        · exact absurd (List.mem_map.2 ⟨s, hs, hkey.symm⟩) hnew
        · exact .inl (List.mem_map.2 ⟨r, hr, hrow⟩)
      · by_cases hold : keyOf key r ∈ prior.map (keyOf key)
        · obtain ⟨t, ht, hkey⟩ := List.mem_map.1 hold
          rcases hcases t ht with ⟨s, hs, hkey', hrow⟩ | ⟨hnew, -⟩
          · exact .inl (List.mem_map.2 ⟨t, ht, hrow.trans (h.data.eq hs hr (hkey'.symm.trans hkey))⟩)
          · exact absurd (List.mem_map.2 ⟨r, hr, hkey.symm⟩) hnew
        · exact .inr ⟨hr, hold⟩

/-! ## `INSERT … ON CONFLICT` -/

/-- The clause of an upsert. -/
structure ConflictClause.Upserts (clause : ConflictClause γ) (columns key : List γ) : Prop where
  target : clause.target = key
  updates : ∀ c, c ∈ clause.updates ↔ c ∈ columns ∧ c ∉ key

/-- Behind the rows `done`: the table is overridden by them, and only they are marked. -/
structure Conflicted (key : List γ) (prior done : List (Row γ ν)) (marked : List (Row γ ν × Bool)) : Prop where
  rows : (marked.map Prod.fst).Perm (override (keyOf key) prior done)
  marked : ∀ p ∈ marked, p.2 = true → keyOf key p.1 ∈ done.map (keyOf key)

/-- One row more. -/
theorem conflictStep_spec {clause : ConflictClause γ} (hclause : clause.Upserts columns key)
    {done : List (Row γ ν)} {r : Row γ ν} (h : Comparable eq columns key prior (done ++ [r]))
    {marked : List (Row γ ν × Bool)} (hmarked : Conflicted key prior done marked) :
    ∃ marked', conflictStep eq clause marked r = some marked' ∧ Conflicted key prior (done ++ [r]) marked' := by
  have hr : r ∈ prior ++ (done ++ [r]) := by simp
  have hmem : ∀ p ∈ marked, p.1 ∈ prior ++ (done ++ [r]) := by
    intro p hp
    have hmem := hmarked.rows.mem_iff.1 (List.mem_map_of_mem hp)
    rw [mem_override] at hmem
    rw [List.mem_append, List.mem_append]
    exact hmem.elim (fun h => .inl h.1) fun h => .inr (.inl h)
  have hjoins : ∀ p ∈ marked, joins eq clause.target p.1 r = true ↔ keyOf key p.1 = keyOf key r := fun p hp => by
    rw [hclause.target]
    exact h.joins_iff (hmem p hp) hr
  have hnew : keyOf key r ∉ done.map (keyOf key) := by
    have hnodup := h.data
    unfold UniqueKeys at hnodup
    rw [List.map_append, List.nodup_append'] at hnodup
    exact fun hold => hnodup.2.2 hold (by simp)
  have hdone : UniqueKeys (keyOf key) (marked.map Prod.fst) := by
    refine UniqueKeys.perm (uniqueKeys_override h.prior ?_) hmarked.rows.symm
    exact (List.sublist_append_left done [r]).map _ |>.nodup h.data
  have happend : ∀ {rows : List (Row γ ν)}, rows.Perm (override (keyOf key) (marked.map Prod.fst) [r]) →
      rows.Perm (override (keyOf key) prior (done ++ [r])) := fun hrows => by
    rw [override_append h.data]
    exact hrows.trans (override_perm_left hmarked.rows)
  have hsingle : UniqueKeys (keyOf key) [r] := List.nodup_singleton _
  have hnonnull : ¬ clause.target.any fun c => (r c).isNone := by
    rw [hclause.target, List.any_eq_true]
    rintro ⟨c, hc, hnone⟩
    obtain ⟨v, hv⟩ := (h.keyed r hr).key c hc
    rw [hv] at hnone
    cases hnone
  have hkept : ∀ {p : Row γ ν × Bool}, p ∈ marked → p.2 = true → keyOf key p.1 ∈ (done ++ [r]).map (keyOf key) :=
    fun hp htrue => by
      rw [List.map_append]
      exact List.mem_append_left _ (hmarked.marked _ hp htrue)
  unfold conflictStep
  rw [if_neg hnonnull]
  by_cases hany : marked.any fun p => joins eq clause.target p.1 r
  · rw [if_neg (not_not.2 hany)]
    obtain ⟨p, hp, hpr⟩ := List.any_eq_true.1 hany
    have hkey := (hjoins p hp).1 hpr
    by_cases hupdates : clause.updates = []
    · rw [if_pos hupdates]
      refine ⟨marked, rfl, happend ?_, fun p hp htrue => hkept hp htrue⟩
      -- the key is the whole row, which is there already
      have hassign := assign_of_keyOf_eq (h.keyed p.1 (hmem p hp)) (h.keyed r hr) hkey hclause.updates
      rw [hupdates] at hassign
      have hin : r ∈ marked.map Prod.fst := List.mem_map.2 ⟨p, hp, hassign⟩
      refine perm_of_mem_iff hdone (uniqueKeys_override hdone hsingle) fun s => ?_
      rw [mem_override, List.mem_singleton, List.map_singleton, List.mem_singleton]
      constructor
      · intro hs
        by_cases hkey : keyOf key s = keyOf key r
        · exact .inr (hdone.eq hs hin hkey)
        · exact .inl ⟨hs, hkey⟩
      · rintro (⟨hs, -⟩ | rfl)
        · exact hs
        · exact hin
    · rw [if_neg hupdates, if_neg]
      · have hwritten : ∀ q ∈ marked, (if joins eq clause.target q.1 r then (assign clause.updates q.1 r, true) else q) =
            if keyOf key q.1 = keyOf key r then (r, true) else q := by
          intro q hq
          by_cases hkey : keyOf key q.1 = keyOf key r
          · rw [if_pos ((hjoins q hq).2 hkey), if_pos hkey,
              assign_of_keyOf_eq (h.keyed q.1 (hmem q hq)) (h.keyed r hr) hkey hclause.updates]
          · rw [if_neg fun hjoin => hkey ((hjoins q hq).1 hjoin), if_neg hkey]
        rw [List.map_congr_left hwritten]
        have hfst : (marked.map fun q => if keyOf key q.1 = keyOf key r then (r, true) else q).map Prod.fst =
            (marked.map Prod.fst).map fun s => if keyOf key s = keyOf key r then r else s := by
          rw [List.map_map, List.map_map]
          refine List.map_congr_left fun q _ => ?_
          simp only [Function.comp_apply]
          split_ifs <;> rfl
        refine ⟨_, rfl, happend ?_, fun q hq htrue => ?_⟩
        · rw [hfst]
          exact replaced_perm hdone (List.mem_map.2 ⟨p, hp, rfl⟩) hkey
        · obtain ⟨q', hq', rfl⟩ := List.mem_map.1 hq
          split_ifs at htrue ⊢
          · rw [List.map_append]
            exact List.mem_append_right _ List.mem_cons_self
          · exact hkept hq' htrue
      · intro htwice
        obtain ⟨q, hq, hboth⟩ := List.any_eq_true.1 htwice
        rw [Bool.and_eq_true] at hboth
        exact hnew ((hjoins q hq).1 hboth.1 ▸ hmarked.marked q hq hboth.2)
  · rw [if_pos hany]
    have hfree : ∀ s ∈ marked.map Prod.fst, keyOf key s ∉ [r].map (keyOf key) := by
      intro s hs
      obtain ⟨p, hp, rfl⟩ := List.mem_map.1 hs
      rw [List.map_singleton, List.mem_singleton]
      exact fun hkey => hany (List.any_eq_true.2 ⟨p, hp, (hjoins p hp).2 hkey⟩)
    refine ⟨_, rfl, happend ?_, fun p hp htrue => ?_⟩
    · rw [override_of_new hfree, List.map_append]
      exact List.Perm.refl _
    · rcases List.mem_append.1 hp with hp | hp
      · exact hkept hp htrue
      · rw [List.mem_singleton.1 hp, List.map_append]
        exact List.mem_append_right _ List.mem_cons_self

/-- **An `INSERT … ON CONFLICT` overrides.** -/
theorem conflictInsert_perm {clause : ConflictClause γ} (hclause : clause.Upserts columns key)
    (h : Comparable eq columns key prior data) :
    ∃ rows, conflictInsert eq clause prior data = some rows ∧ rows.Perm (override (keyOf key) prior data) := by
  have hloop : ∀ (todo done : List (Row γ ν)) (marked : List (Row γ ν × Bool)), data = done ++ todo →
      Conflicted key prior done marked →
      ∃ marked', todo.foldlM (conflictStep eq clause) marked = some marked' ∧ Conflicted key prior data marked' := by
    intro todo
    induction todo with
    | nil =>
      intro done marked hdata hmarked
      rw [List.append_nil] at hdata
      exact ⟨marked, rfl, hdata ▸ hmarked⟩
    | cons r todo ih =>
      intro done marked hdata hmarked
      rw [List.append_cons] at hdata
      obtain ⟨marked', hstep, hmarked'⟩ :=
        conflictStep_spec hclause (h.of_sublist (hdata ▸ List.sublist_append_left _ _)) hmarked
      rw [List.foldlM_cons, hstep]
      exact ih _ marked' hdata hmarked'
  have hstart : Conflicted key prior [] (prior.map fun r => (r, false)) := by
    refine ⟨?_, fun p hp htrue => ?_⟩
    · rw [override_nil, List.map_map]
      exact List.Perm.of_eq (List.map_id _)
    · obtain ⟨r, -, rfl⟩ := List.mem_map.1 hp
      cases htrue
  obtain ⟨marked, hfold, hmarked⟩ := hloop data [] _ rfl hstart
  refine ⟨marked.map Prod.fst, ?_, hmarked.rows⟩
  unfold conflictInsert
  rw [hfold]
  rfl

omit [DecidableEq γ] in
/-- Behind a part of the data, the table can be compared with the rest. -/
theorem Comparable.override {done todo rows : List (Row γ ν)} (h : Comparable eq columns key prior (done ++ todo))
    (hrows : rows.Perm (Rows.override (keyOf key) prior done)) : Comparable eq columns key rows todo := by
  have hmem : ∀ r ∈ rows ++ todo, r ∈ prior ++ (done ++ todo) := by
    intro r hr
    rw [List.mem_append, hrows.mem_iff, mem_override] at hr
    rw [List.mem_append, List.mem_append]
    rcases hr with (⟨hr, -⟩ | hr) | hr
    · exact .inl hr
    · exact .inr (.inl hr)
    · exact .inr (.inr hr)
  refine ⟨fun r hr => h.keyed r (hmem r hr), fun r hr s hs => h.equality r (hmem r hr) s (hmem s hs), ?_,
    ((List.sublist_append_right done todo).map _).nodup h.data⟩
  exact (uniqueKeys_override h.prior (((List.sublist_append_left done todo).map _).nodup h.data)).perm hrows.symm

end

end Rows
end ContinuoRuntime
