/-
  The shape of a live table against the declared columns (`shape.py`).

  `shape_diff` pairs the declared columns one after the other: with the live column
  of the same name if nobody has taken it, and with the first one of the same name
  up to case otherwise.  The pairs are the run; the difference is read off them.

  * `shapeDiff_eq`: the difference, from the pairs and the columns left over;
  * `Harmless`: no choice between live columns matters;
  * `shapeDiff_correct_iff`: the columns that are paired correctly in every order.
-/
import ContinuoRuntime.Contract.Model

namespace ContinuoRuntime

/-! ## The comparison -/

/-- A column of a live table. -/
structure LiveColumn where
  name : Str
  nullable : Bool
  deriving DecidableEq

/-- A column whose nullability differs. -/
structure NullabilityDiff where
  name : Str
  declared : Bool
  live : Bool
  deriving DecidableEq

/-- What separates a live table from the declared columns. -/
structure ShapeDiff where
  missing : List Str
  unexpected : List Str
  nullability : List NullabilityDiff
  deriving DecidableEq

/-- `not diff`. -/
def ShapeDiff.IsEmpty (d : ShapeDiff) : Prop := d.missing = [] ∧ d.unexpected = [] ∧ d.nullability = []

/-- The state of the loop of `shape_diff`. -/
structure ShapeState where
  remaining : List LiveColumn
  missing : List Str
  nullability : List NullabilityDiff

variable (casefold : Str → Str)

/-- The live column a declared column is paired with. -/
def findLive (remaining : List LiveColumn) (declared : Column) : Option LiveColumn :=
  match remaining.find? fun column => column.name = declared.name with
  | some live => some live
  | none => remaining.find? fun column => casefold column.name = casefold declared.name

/-- One round of the loop. -/
def shapeStep (s : ShapeState) (declared : Column) : ShapeState :=
  match findLive casefold s.remaining declared with
  | none => { s with missing := s.missing ++ [declared.name] }
  | some live =>
    { s with
      remaining := s.remaining.erase live
      nullability := if live.nullable ≠ declared.nullable then
          s.nullability ++ [⟨declared.name, declared.nullable, live.nullable⟩]
        else s.nullability }

/-- `shape_diff`. -/
def shapeDiff (contractColumns : List Column) (liveColumns : List LiveColumn) : ShapeDiff :=
  let s := contractColumns.foldl (shapeStep casefold) ⟨liveColumns, [], []⟩
  ⟨s.missing, s.remaining.map LiveColumn.name, s.nullability⟩

/-! ## Pairs -/

/-- The pool without a column that was taken. -/
def takeLive (remaining : List LiveColumn) : Option LiveColumn → List LiveColumn
  | none => remaining
  | some live => remaining.erase live

/-- The pairs of the loop. -/
def pairing : List Column → List LiveColumn → List (Column × Option LiveColumn)
  | [], _ => []
  | declared :: rest, remaining =>
    (declared, findLive casefold remaining declared) ::
      pairing rest (takeLive remaining (findLive casefold remaining declared))

/-- The columns that the loop leaves. -/
def leftOver : List Column → List LiveColumn → List LiveColumn
  | [], remaining => remaining
  | declared :: rest, remaining => leftOver rest (takeLive remaining (findLive casefold remaining declared))

/-- The name of a declared column without a live one. -/
def missingOf (p : Column × Option LiveColumn) : Option Str := if p.2 = none then some p.1.name else none

/-- The difference of a pair. -/
def nullabilityOf (p : Column × Option LiveColumn) : Option NullabilityDiff :=
  match p.2 with
  | none => none
  | some live => if live.nullable ≠ p.1.nullable then some ⟨p.1.name, p.1.nullable, live.nullable⟩ else none

variable {casefold}

/-- One round, in terms of the pair. -/
theorem shapeStep_eq (s : ShapeState) (declared : Column) :
    shapeStep casefold s declared =
      ⟨takeLive s.remaining (findLive casefold s.remaining declared),
        s.missing ++ (missingOf (declared, findLive casefold s.remaining declared)).toList,
        s.nullability ++ (nullabilityOf (declared, findLive casefold s.remaining declared)).toList⟩ := by
  rw [shapeStep, missingOf, nullabilityOf]
  cases findLive casefold s.remaining declared with
  | none => simp [takeLive]
  | some live =>
    by_cases hn : live.nullable ≠ declared.nullable
    · simp [takeLive, hn]
    · simp [takeLive, hn]

/-- The loop, in terms of the pairs. -/
theorem foldl_shapeStep : ∀ (contract : List Column) (s : ShapeState),
    contract.foldl (shapeStep casefold) s =
      ⟨leftOver casefold contract s.remaining,
        s.missing ++ (pairing casefold contract s.remaining).filterMap missingOf,
        s.nullability ++ (pairing casefold contract s.remaining).filterMap nullabilityOf⟩
  | [], s => by simp [pairing, leftOver]
  | declared :: rest, s => by
    rw [List.foldl_cons, foldl_shapeStep rest, shapeStep_eq]
    have hcons : ∀ {β : Type} (f : Column × Option LiveColumn → Option β) p ps,
        List.filterMap f (p :: ps) = (f p).toList ++ List.filterMap f ps := by
      intro β f p ps
      cases h : f p with
      | none => rw [List.filterMap_cons_none h]; rfl
      | some b => rw [List.filterMap_cons_some h]; rfl
    simp only [pairing, leftOver, hcons, List.append_assoc]

/-- **The difference**, from the pairs. -/
theorem shapeDiff_eq (contract : List Column) (live : List LiveColumn) :
    shapeDiff casefold contract live =
      ⟨(pairing casefold contract live).filterMap missingOf, (leftOver casefold contract live).map LiveColumn.name,
        (pairing casefold contract live).filterMap nullabilityOf⟩ := by
  rw [shapeDiff, foldl_shapeStep]
  rfl

/-! ### What a pair is -/

theorem findLive_eq_some {remaining : List LiveColumn} {declared : Column} {live : LiveColumn}
    (h : findLive casefold remaining declared = some live) :
    live ∈ remaining ∧ casefold live.name = casefold declared.name := by
  unfold findLive at h
  split at h
  next l hl =>
    cases h
    have hname := List.find?_some hl
    exact ⟨List.mem_of_find?_eq_some hl, congrArg casefold (of_decide_eq_true hname)⟩
  next =>
    have hfold := List.find?_some h
    exact ⟨List.mem_of_find?_eq_some h, of_decide_eq_true hfold⟩

/-- A live column of the same name is found. -/
theorem findLive_exact {remaining : List LiveColumn} (hn : (remaining.map LiveColumn.name).Nodup)
    {declared : Column} {live : LiveColumn} (hl : live ∈ remaining) (hname : live.name = declared.name) :
    findLive casefold remaining declared = some live := by
  unfold findLive
  cases hfind : remaining.find? fun column => column.name = declared.name with
  | none =>
    have hnot := List.find?_eq_none.1 hfind live hl
    exact absurd (decide_eq_true hname) hnot
  | some l =>
    have hl' := List.mem_of_find?_eq_some hfind
    have hfound := List.find?_some hfind
    rw [List.inj_on_of_nodup_map hn hl' hl ((of_decide_eq_true hfound).trans hname.symm)]

/-- A live column of the same name up to case is found, if none has the same name. -/
theorem findLive_folded {remaining : List LiveColumn} {declared : Column}
    (hnone : ∀ l ∈ remaining, l.name ≠ declared.name) :
    findLive casefold remaining declared =
      remaining.find? fun column => casefold column.name = casefold declared.name := by
  unfold findLive
  rw [List.find?_eq_none.2 fun l hl => by simpa using hnone l hl]

theorem findLive_eq_none {remaining : List LiveColumn} {declared : Column}
    (h : findLive casefold remaining declared = none) :
    ∀ l ∈ remaining, casefold l.name ≠ casefold declared.name := by
  unfold findLive at h
  split at h
  · cases h
  · intro l hl heq
    exact absurd (decide_eq_true heq) (List.find?_eq_none.1 h l hl)

theorem pairing_fst : ∀ (contract : List Column) (live : List LiveColumn),
    (pairing casefold contract live).map Prod.fst = contract
  | [], _ => rfl
  | declared :: rest, live => by rw [pairing, List.map_cons, pairing_fst rest]

/-- **Every live column** is taken once or left. -/
theorem perm_pairing : ∀ (contract : List Column) (live : List LiveColumn),
    live.Perm ((pairing casefold contract live).filterMap Prod.snd ++ leftOver casefold contract live)
  | [], live => by simp [pairing, leftOver]
  | declared :: rest, live => by
    rw [pairing, leftOver]
    have hrest := perm_pairing rest (takeLive live (findLive casefold live declared))
    cases hfind : findLive casefold live declared with
    | none =>
      rw [hfind] at hrest
      rwa [List.filterMap_cons_none rfl]
    | some l =>
      rw [hfind] at hrest
      have hcons : ((declared, some l) :: pairing casefold rest (takeLive live (some l))).filterMap Prod.snd =
          l :: (pairing casefold rest (takeLive live (some l))).filterMap Prod.snd := rfl
      rw [hcons, List.cons_append]
      exact (List.perm_cons_erase (findLive_eq_some hfind).1).trans (hrest.cons l)

/-- A pair is of two names that are equal up to case. -/
theorem mem_pairing_some {contract : List Column} {live : List LiveColumn} {declared : Column} {l : LiveColumn}
    (h : (declared, some l) ∈ pairing casefold contract live) :
    l ∈ live ∧ casefold l.name = casefold declared.name := by
  induction contract generalizing live with
  | nil => cases h
  | cons first rest ih =>
    rw [pairing] at h
    rcases List.mem_cons.1 h with heq | h
    · obtain ⟨rfl, hfind⟩ := Prod.mk.inj heq
      exact findLive_eq_some hfind.symm
    · obtain ⟨hl, hfold⟩ := ih h
      refine ⟨?_, hfold⟩
      cases hfind : findLive casefold live first with
      | none => rwa [hfind] at hl
      | some l' =>
        rw [hfind] at hl
        exact List.mem_of_mem_erase hl

/-! ## When no choice matters -/

/-- How many declared columns have a name up to case. -/
def declaredCount (casefold : Str → Str) (contract : List Column) (key : Str) : ℕ :=
  contract.countP fun c => casefold c.name = key

/-- How many live columns have a name up to case. -/
def liveCount (casefold : Str → Str) (live : List LiveColumn) (key : Str) : ℕ :=
  live.countP fun c => casefold c.name = key

/-- **No choice matters**: a declared column without a live namesake has no live
    column of its name up to case, or among the columns of that name there are no
    namesakes at all, as many declared as live ones, and the live ones have one
    nullability. -/
def Harmless (casefold : Str → Str) (contract : List Column) (live : List LiveColumn) : Prop :=
  ∀ d ∈ contract, (∀ l ∈ live, l.name ≠ d.name) →
    (∀ l ∈ live, casefold l.name ≠ casefold d.name) ∨
      ((∀ e ∈ contract, casefold e.name = casefold d.name → ∀ l ∈ live, l.name ≠ e.name) ∧
        declaredCount casefold contract (casefold d.name) = liveCount casefold live (casefold d.name) ∧
        ∀ l ∈ live, ∀ l' ∈ live, casefold l.name = casefold d.name → casefold l'.name = casefold d.name →
          l.nullable = l'.nullable)

instance (casefold : Str → Str) (contract : List Column) (live : List LiveColumn) :
    Decidable (Harmless casefold contract live) :=
  inferInstanceAs (Decidable (∀ d ∈ contract, _ → _ ∨ _))

/-- The right partner of a declared column. -/
def Partner (casefold : Str → Str) (live : List LiveColumn) (d : Column) (x : Option LiveColumn) : Prop :=
  (∃ l ∈ live, l.name = d.name ∧ x = some l) ∨
    (∀ l ∈ live, l.name ≠ d.name) ∧
      ((x = none ∧ ∀ l ∈ live, casefold l.name ≠ casefold d.name) ∨
        ∃ l ∈ live, casefold l.name = casefold d.name ∧ x = some l)

theorem findLive_partner {live : List LiveColumn} (hn : (live.map LiveColumn.name).Nodup) (d : Column) :
    Partner casefold live d (findLive casefold live d) := by
  by_cases hexact : ∃ l ∈ live, l.name = d.name
  · obtain ⟨l, hl, hname⟩ := hexact
    exact .inl ⟨l, hl, hname, findLive_exact hn hl hname⟩
  · have hnone : ∀ l ∈ live, l.name ≠ d.name := fun l hl hname => hexact ⟨l, hl, hname⟩
    refine .inr ⟨hnone, ?_⟩
    cases hfind : findLive casefold live d with
    | none => exact .inl ⟨rfl, findLive_eq_none hfind⟩
    | some l =>
      obtain ⟨hl, hfold⟩ := findLive_eq_some hfind
      exact .inr ⟨l, hl, hfold, rfl⟩

theorem takeLive_subset {live : List LiveColumn} {x : Option LiveColumn} {l : LiveColumn}
    (h : l ∈ takeLive live x) : l ∈ live := by
  cases x with
  | none => exact h
  | some l' => exact List.mem_of_mem_erase h

theorem takeLive_nodup {live : List LiveColumn} (hn : (live.map LiveColumn.name).Nodup)
    (x : Option LiveColumn) : ((takeLive live x).map LiveColumn.name).Nodup := by
  cases x with
  | none => exact hn
  | some l => exact hn.sublist (List.erase_sublist.map _)

theorem declaredCount_cons (d : Column) (rest : List Column) (key : Str) :
    declaredCount casefold (d :: rest) key =
      declaredCount casefold rest key + if casefold d.name = key then 1 else 0 := by
  rw [declaredCount, List.countP_cons, declaredCount]
  simp only [decide_eq_true_eq]

theorem liveCount_erase {live : List LiveColumn} {l : LiveColumn} (hl : l ∈ live) (key : Str) :
    liveCount casefold live key =
      liveCount casefold (live.erase l) key + if casefold l.name = key then 1 else 0 := by
  rw [liveCount, (List.perm_cons_erase hl).countP_eq, List.countP_cons, liveCount]
  simp only [decide_eq_true_eq]

theorem declaredCount_pos {contract : List Column} {d : Column} (hd : d ∈ contract) :
    0 < declaredCount casefold contract (casefold d.name) :=
  List.countP_pos_iff.2 ⟨d, hd, decide_eq_true rfl⟩

theorem liveCount_pos {live : List LiveColumn} {key : Str} :
    0 < liveCount casefold live key ↔ ∃ l ∈ live, casefold l.name = key := by
  rw [liveCount, List.countP_pos_iff]
  simp only [decide_eq_true_eq]

/-- The counts of a class without namesakes fall together. -/
theorem count_left {d : Column} {rest : List Column} {live : List LiveColumn}
    (hl : (live.map LiveColumn.name).Nodup) {key : Str}
    (hno : ∀ e ∈ d :: rest, casefold e.name = key → ∀ l ∈ live, l.name ≠ e.name)
    (hcount : declaredCount casefold (d :: rest) key = liveCount casefold live key) :
    declaredCount casefold rest key = liveCount casefold (takeLive live (findLive casefold live d)) key := by
  rw [declaredCount_cons] at hcount
  rcases @findLive_partner casefold _ hl d with ⟨l, hmem, hname, hx⟩ | ⟨-, ⟨hx, hnofold⟩ | ⟨l, hmem, hfold, hx⟩⟩
  · have hkey : casefold d.name ≠ key := fun heq => hno d List.mem_cons_self heq l hmem hname
    rw [if_neg hkey, liveCount_erase hmem, hname, if_neg hkey] at hcount
    rw [hx]
    exact hcount
  · rw [hx]
    by_cases hkey : casefold d.name = key
    · have hzero : ¬ 0 < liveCount casefold live key := by
        rw [liveCount_pos]
        rintro ⟨l, hmem, hfold⟩
        exact hnofold l hmem (hfold.trans hkey.symm)
      rw [if_pos hkey] at hcount
      omega
    · rw [if_neg hkey] at hcount
      exact hcount
  · rw [hx]
    rw [liveCount_erase hmem, hfold] at hcount
    exact Nat.add_right_cancel hcount

section
variable {d : Column} {rest : List Column} {live : List LiveColumn}
  (h : Harmless casefold (d :: rest) live) (hd : ((d :: rest).map Column.name).Nodup)
  (hl : (live.map LiveColumn.name).Nodup)
include h hd hl

/-- A namesake of a later column is not taken. -/
theorem Harmless.namesake_left {e : Column} (he : e ∈ rest) {l : LiveColumn} (hmem : l ∈ live)
    (hname : l.name = e.name) : l ∈ takeLive live (findLive casefold live d) := by
  have hne : d.name ≠ e.name := by
    rw [List.map_cons, List.nodup_cons] at hd
    exact fun heq => hd.1 (heq ▸ List.mem_map_of_mem he)
  rcases @findLive_partner casefold _ hl d with ⟨l', -, hname', hx⟩ | ⟨hnone, ⟨hx, -⟩ | ⟨l', hl', hfold, hx⟩⟩
  · rw [hx]
    refine (List.mem_erase_of_ne fun heq => ?_).2 hmem
    exact hne (hname'.symm.trans (heq ▸ hname))
  · rw [hx]
    exact hmem
  · rw [hx]
    refine (List.mem_erase_of_ne fun heq => ?_).2 hmem
    subst heq
    rcases h d List.mem_cons_self hnone with hnofold | ⟨hno, -⟩
    · exact hnofold _ hl' hfold
    · exact hno e (List.mem_cons_of_mem _ he) ((congrArg casefold hname).symm.trans hfold) _ hmem hname

/-- **The condition is kept** by a round of the loop. -/
theorem Harmless.step : Harmless casefold rest (takeLive live (findLive casefold live d)) := by
  intro e he hnone
  have hnone' : ∀ l ∈ live, l.name ≠ e.name := fun l hmem hname =>
    hnone l (h.namesake_left hd hl he hmem hname) hname
  rcases h e (List.mem_cons_of_mem _ he) hnone' with hnofold | ⟨hno, hcount, huniform⟩
  · exact .inl fun l hmem => hnofold l (takeLive_subset hmem)
  · refine .inr ⟨fun e' he' hfold l hmem => ?_, count_left hl hno hcount, fun l hmem l' hmem' => ?_⟩
    · exact hno e' (List.mem_cons_of_mem _ he') hfold l (takeLive_subset hmem)
    · exact huniform l (takeLive_subset hmem) l' (takeLive_subset hmem')

/-- The right partner among the columns left is the right partner. -/
theorem Harmless.partner_of_left {e : Column} (he : e ∈ rest) {x : Option LiveColumn}
    (hx : Partner casefold (takeLive live (findLive casefold live d)) e x) : Partner casefold live e x := by
  rcases hx with ⟨l, hmem, hname, hx⟩ | ⟨hnone, hx⟩
  · exact .inl ⟨l, takeLive_subset hmem, hname, hx⟩
  · have hnone' : ∀ l ∈ live, l.name ≠ e.name := fun l hmem hname =>
      hnone l (h.namesake_left hd hl he hmem hname) hname
    refine .inr ⟨hnone', ?_⟩
    rcases hx with ⟨hx, hnofold⟩ | ⟨l, hmem, hfold, hx⟩
    · refine .inl ⟨hx, fun l hmem hfold => ?_⟩
      -- otherwise there are as many live columns left as declared ones
      rcases h e (List.mem_cons_of_mem _ he) hnone' with hnofold' | ⟨hno, hcount, -⟩
      · exact hnofold' l hmem hfold
      · have hpos := @declaredCount_pos casefold _ _ he
        rw [count_left hl hno hcount, liveCount_pos] at hpos
        obtain ⟨l', hmem', hfold'⟩ := hpos
        exact hnofold l' hmem' hfold'
    · exact .inr ⟨l, takeLive_subset hmem, hfold, hx⟩

end

/-- **Every pair is right**, if no choice matters. -/
theorem Harmless.pairing_partner : ∀ {contract : List Column} {live : List LiveColumn},
    Harmless casefold contract live → (contract.map Column.name).Nodup → (live.map LiveColumn.name).Nodup →
    ∀ p ∈ pairing casefold contract live, Partner casefold live p.1 p.2
  | [], _, _, _, _ => fun p hp => by cases hp
  | d :: rest, live, h, hd, hl => by
    intro p hp
    rw [pairing] at hp
    rcases List.mem_cons.1 hp with rfl | hp
    · exact findLive_partner hl d
    · have hmem : p.1 ∈ rest := by
        have hfst := List.mem_map_of_mem (f := Prod.fst) hp
        rwa [pairing_fst] at hfst
      rw [List.map_cons, List.nodup_cons] at hd
      have hrest := pairing_partner (h.step (List.nodup_cons.2 hd) hl) hd.2 (takeLive_nodup hl _) p hp
      exact h.partner_of_left (List.nodup_cons.2 hd) hl hmem hrest

/-! ### Taken and left -/

/-- A live column is taken once. -/
theorem pairing_injective : ∀ {contract : List Column} {live : List LiveColumn},
    (live.map LiveColumn.name).Nodup → ∀ {d e : Column} {l : LiveColumn},
    (d, some l) ∈ pairing casefold contract live → (e, some l) ∈ pairing casefold contract live → d = e
  | [], _, _, _, _, _, hd, _ => by cases hd
  | first :: rest, live, hl, d, e, l, hd, he => by
    have hgone : ∀ {c : Column}, findLive casefold live first = some l →
        (c, some l) ∉ pairing casefold rest (takeLive live (findLive casefold live first)) := by
      intro c hfind hmem
      have hleft := (mem_pairing_some hmem).1
      rw [hfind] at hleft
      exact ((hl.of_map _).mem_erase_iff.1 hleft).1 rfl
    rw [pairing] at hd he
    rcases List.mem_cons.1 hd with hdx | hd
    · obtain ⟨rfl, hfind⟩ := Prod.mk.inj hdx
      rcases List.mem_cons.1 he with hex | he
      · exact (Prod.mk.inj hex).1.symm
      · exact absurd he (hgone hfind.symm)
    · rcases List.mem_cons.1 he with hex | he
      · exact absurd hd (hgone (Prod.mk.inj hex).2.symm)
      · exact pairing_injective (takeLive_nodup hl _) hd he

/-- A declared column is paired once. -/
theorem pairing_unique {contract : List Column} {live : List LiveColumn}
    (hd : (contract.map Column.name).Nodup) {d : Column} {x y : Option LiveColumn}
    (hx : (d, x) ∈ pairing casefold contract live) (hy : (d, y) ∈ pairing casefold contract live) : x = y := by
  have hfst : ((pairing casefold contract live).map Prod.fst).Nodup := by
    rw [pairing_fst]
    exact hd.of_map _
  exact (Prod.mk.inj (List.inj_on_of_nodup_map hfst hx hy rfl)).2

theorem exists_pair {contract : List Column} (live : List LiveColumn) {d : Column} (hd : d ∈ contract) :
    ∃ x, (d, x) ∈ pairing casefold contract live := by
  rw [← @pairing_fst casefold contract live] at hd
  obtain ⟨⟨d', x⟩, hp, rfl⟩ := List.mem_map.1 hd
  exact ⟨x, hp⟩

theorem mem_of_pair {contract : List Column} {live : List LiveColumn} {d : Column} {x : Option LiveColumn}
    (h : (d, x) ∈ pairing casefold contract live) : d ∈ contract := by
  have hfst := List.mem_map_of_mem (f := Prod.fst) h
  rwa [pairing_fst] at hfst

/-- **A live column is left** exactly if no declared column is paired with it. -/
theorem mem_leftOver {contract : List Column} {live : List LiveColumn} (hl : (live.map LiveColumn.name).Nodup)
    {l : LiveColumn} : l ∈ leftOver casefold contract live ↔
      l ∈ live ∧ ∀ d, (d, some l) ∉ pairing casefold contract live := by
  have hperm := @perm_pairing casefold contract live
  have hnodup := hperm.nodup_iff.1 (hl.of_map _)
  have htaken : l ∈ (pairing casefold contract live).filterMap Prod.snd ↔
      ∃ d, (d, some l) ∈ pairing casefold contract live := by
    rw [List.mem_filterMap]
    constructor
    · rintro ⟨⟨d, x⟩, hp, hx⟩
      dsimp only at hx
      exact ⟨d, hx ▸ hp⟩
    · rintro ⟨d, hp⟩
      exact ⟨_, hp, rfl⟩
  rw [hperm.mem_iff, List.mem_append, htaken]
  constructor
  · intro hleft
    refine ⟨.inr hleft, fun d hp => ?_⟩
    exact List.disjoint_of_nodup_append hnodup (htaken.2 ⟨d, hp⟩) hleft
  · rintro ⟨⟨d, hp⟩ | hleft, hnot⟩
    · exact absurd hp (hnot d)
    · exact hleft

/-- How many declared columns with a name up to case are missing. -/
def missingCount (casefold : Str → Str) (contract : List Column) (live : List LiveColumn) (key : Str) : ℕ :=
  (pairing casefold contract live).countP fun p => casefold p.1.name = key ∧ p.2 = none

/-- **Declared and live columns** of a name up to case: what is not paired is
    missing or left. -/
theorem count_pairing (key : Str) : ∀ (contract : List Column) (live : List LiveColumn),
    declaredCount casefold contract key + liveCount casefold (leftOver casefold contract live) key =
      missingCount casefold contract live key + liveCount casefold live key
  | [], live => by simp [declaredCount, missingCount, pairing, leftOver]
  | d :: rest, live => by
    have hrest := count_pairing key rest (takeLive live (findLive casefold live d))
    rw [missingCount] at hrest ⊢
    rw [pairing, leftOver, List.countP_cons, declaredCount_cons]
    simp only [decide_eq_true_eq]
    cases hfind : findLive casefold live d with
    | none =>
      rw [hfind] at hrest
      simp only [and_true]
      dsimp only [takeLive] at hrest ⊢
      omega
    | some l =>
      obtain ⟨hmem, hfold⟩ := findLive_eq_some hfind
      have herase := @liveCount_erase casefold _ _ hmem key
      rw [hfold] at herase
      rw [hfind] at hrest
      simp only [reduceCtorEq, and_false, if_false]
      dsimp only [takeLive] at hrest ⊢
      omega

/-- No live column is left of a class without namesakes and with equal counts. -/
theorem leftOver_class {key : Str} : ∀ {contract : List Column} {live : List LiveColumn},
    (live.map LiveColumn.name).Nodup →
    (∀ e ∈ contract, casefold e.name = key → ∀ l ∈ live, l.name ≠ e.name) →
    declaredCount casefold contract key = liveCount casefold live key →
    ∀ l ∈ leftOver casefold contract live, casefold l.name ≠ key
  | [], live, _, _, hcount => fun l hmem hfold => by
    have hpos := liveCount_pos.2 ⟨l, hmem, hfold⟩
    rw [leftOver, ← hcount] at hpos
    exact absurd hpos (by simp [declaredCount])
  | d :: rest, live, hl, hno, hcount => by
    rw [leftOver]
    refine leftOver_class (takeLive_nodup hl _) (fun e he hfold l hmem => ?_) (count_left hl hno hcount)
    exact hno e (List.mem_cons_of_mem _ he) hfold l (takeLive_subset hmem)

/-! ## Correct pairs -/

/-- The live column that a declared column is to be compared with: its namesake, or
    one of its name up to case if it has none. -/
def Suits (casefold : Str → Str) (live : List LiveColumn) (d : Column) (l : LiveColumn) : Prop :=
  l.name = d.name ∨ (∀ l' ∈ live, l'.name ≠ d.name) ∧ casefold l.name = casefold d.name

theorem Partner.suits {live : List LiveColumn} {d : Column} {l : LiveColumn}
    (h : Partner casefold live d (some l)) : Suits casefold live d l := by
  rcases h with ⟨l', -, hname, hx⟩ | ⟨hnone, ⟨hx, -⟩ | ⟨l', -, hfold, hx⟩⟩
  · cases hx
    exact .inl hname
  · cases hx
  · cases hx
    exact .inr ⟨hnone, hfold⟩

/-- Two differences report the same columns. -/
structure SameReport (a b : ShapeDiff) : Prop where
  missing : ∀ n, n ∈ a.missing ↔ n ∈ b.missing
  unexpected : ∀ n, n ∈ a.unexpected ↔ n ∈ b.unexpected
  nullability : ∀ x, x ∈ a.nullability ↔ x ∈ b.nullability

theorem SameReport.isEmpty {a b : ShapeDiff} (h : SameReport a b) : a.IsEmpty ↔ b.IsEmpty := by
  have hlist : ∀ {α : Type} {xs ys : List α}, (∀ x, x ∈ xs ↔ x ∈ ys) → (xs = [] ↔ ys = []) := by
    intro α xs ys hxy
    rw [List.eq_nil_iff_forall_not_mem, List.eq_nil_iff_forall_not_mem]
    exact forall_congr' fun x => not_congr (hxy x)
  exact and_congr (hlist h.missing) (and_congr (hlist h.unexpected) (hlist h.nullability))

/-- **The columns match**: a bijection that takes each declared column to its live
    namesake, or to a column of its name up to case, with its nullability. -/
def Matches (casefold : Str → Str) (contract : List Column) (live : List LiveColumn) : Prop :=
  ∃ f : {d // d ∈ contract} ≃ {l // l ∈ live}, ∀ d,
    ((∃ l ∈ live, l.name = d.val.name) → (f d).val.name = d.val.name) ∧
      casefold (f d).val.name = casefold d.val.name ∧ (f d).val.nullable = d.val.nullable

/-- **The columns are paired correctly**, whatever their order. -/
structure PairsCorrectly (casefold : Str → Str) (contract : List Column) (live : List LiveColumn) : Prop where
  /-- a declared column is compared with its live namesake -/
  exact : ∀ contract' live', contract.Perm contract' → live.Perm live' → ∀ d ∈ contract', ∀ l ∈ live',
    l.name = d.name → (d, some l) ∈ pairing casefold contract' live'
  /-- the order does not matter -/
  stable : ∀ contract' live', contract.Perm contract' → live.Perm live' →
    SameReport (shapeDiff casefold contract live) (shapeDiff casefold contract' live') ∧
      ((shapeDiff casefold contract live).IsEmpty ↔ (shapeDiff casefold contract' live').IsEmpty)
  /-- nothing differs exactly if the columns match -/
  isEmpty : (shapeDiff casefold contract live).IsEmpty ↔ Matches casefold contract live

section
variable {contract : List Column} {live : List LiveColumn}

theorem mem_missing {n : Str} : n ∈ (shapeDiff casefold contract live).missing ↔
    ∃ d, (d, none) ∈ pairing casefold contract live ∧ d.name = n := by
  rw [shapeDiff_eq, List.mem_filterMap]
  constructor
  · rintro ⟨⟨d, x⟩, hp, hx⟩
    unfold missingOf at hx
    dsimp only at hx
    split_ifs at hx with hnone
    exact ⟨d, hnone ▸ hp, Option.some.inj hx⟩
  · rintro ⟨d, hp, rfl⟩
    exact ⟨_, hp, if_pos rfl⟩

theorem mem_unexpected {n : Str} : n ∈ (shapeDiff casefold contract live).unexpected ↔
    ∃ l ∈ leftOver casefold contract live, l.name = n := by
  rw [shapeDiff_eq, List.mem_map]

theorem mem_nullability {x : NullabilityDiff} : x ∈ (shapeDiff casefold contract live).nullability ↔
    ∃ d l, (d, some l) ∈ pairing casefold contract live ∧ l.nullable ≠ d.nullable ∧
      x = ⟨d.name, d.nullable, l.nullable⟩ := by
  rw [shapeDiff_eq, List.mem_filterMap]
  constructor
  · rintro ⟨⟨d, _ | l⟩, hp, hx⟩
    · cases hx
    · unfold nullabilityOf at hx
      dsimp only at hx
      split_ifs at hx with hne
      exact ⟨d, l, hp, hne, (Option.some.inj hx).symm⟩
  · rintro ⟨d, l, hp, hne, rfl⟩
    exact ⟨_, hp, if_pos hne⟩

end

/-! ### Harmless columns are paired correctly -/

section
variable {contract : List Column} {live : List LiveColumn} (h : Harmless casefold contract live)
  (hd : (contract.map Column.name).Nodup) (hl : (live.map LiveColumn.name).Nodup)
include h hd hl

theorem Harmless.mem_missing {n : Str} : n ∈ (shapeDiff casefold contract live).missing ↔
    ∃ d ∈ contract, (∀ l ∈ live, casefold l.name ≠ casefold d.name) ∧ d.name = n := by
  rw [ContinuoRuntime.mem_missing]
  constructor
  · rintro ⟨d, hp, rfl⟩
    refine ⟨d, mem_of_pair hp, ?_, rfl⟩
    rcases h.pairing_partner hd hl _ hp with ⟨l, -, -, hx⟩ | ⟨-, ⟨-, hnofold⟩ | ⟨l, -, -, hx⟩⟩
    · cases hx
    · exact hnofold
    · cases hx
  · rintro ⟨d, hmem, hnofold, rfl⟩
    obtain ⟨x, hp⟩ := @exists_pair casefold _ live _ hmem
    cases x with
    | none => exact ⟨d, hp, rfl⟩
    | some l => exact absurd (mem_pairing_some hp).2 (hnofold l (mem_pairing_some hp).1)

theorem Harmless.mem_leftOver {l : LiveColumn} : l ∈ leftOver casefold contract live ↔
    l ∈ live ∧ ∀ d ∈ contract, ¬ Suits casefold live d l := by
  rw [ContinuoRuntime.mem_leftOver hl]
  refine and_congr_right fun hmem => ⟨fun hnot d hdm hsuits => ?_, fun hnot d hp => ?_⟩
  · obtain ⟨x, hp⟩ := @exists_pair casefold _ live _ hdm
    rcases hsuits with hname | ⟨hnone, hfold⟩
    · rcases h.pairing_partner hd hl _ hp with ⟨l', hl', hname', hx⟩ | ⟨hnone, -⟩
      · rw [List.inj_on_of_nodup_map hl hl' hmem (hname'.trans hname.symm)] at hx
        dsimp only at hx
        exact hnot d (hx ▸ hp)
      · exact hnone l hmem hname
    · rcases h d hdm hnone with hnofold | ⟨hno, hcount, -⟩
      · exact hnofold l hmem hfold
      · exact leftOver_class hl hno hcount l ((ContinuoRuntime.mem_leftOver hl).2 ⟨hmem, hnot⟩) hfold
  · exact hnot d (mem_of_pair hp) (h.pairing_partner hd hl _ hp).suits

theorem Harmless.mem_nullability {x : NullabilityDiff} : x ∈ (shapeDiff casefold contract live).nullability ↔
    ∃ d ∈ contract, ∃ l ∈ live, Suits casefold live d l ∧ l.nullable ≠ d.nullable ∧
      x = ⟨d.name, d.nullable, l.nullable⟩ := by
  rw [ContinuoRuntime.mem_nullability]
  constructor
  · rintro ⟨d, l, hp, hne, rfl⟩
    exact ⟨d, mem_of_pair hp, l, (mem_pairing_some hp).1, (h.pairing_partner hd hl _ hp).suits, hne, rfl⟩
  · rintro ⟨d, hdm, l, hlm, hsuits, hne, rfl⟩
    obtain ⟨x, hp⟩ := @exists_pair casefold _ live _ hdm
    rcases h.pairing_partner hd hl _ hp with ⟨l', hl', hname', hx⟩ | ⟨hnone, ⟨hx, hnofold⟩ | ⟨l', hl', hfold', hx⟩⟩
    · dsimp only at hx hname'
      have hsame : l' = l := by
        rcases hsuits with hname | ⟨hnone, -⟩
        · exact List.inj_on_of_nodup_map hl hl' hlm (hname'.trans hname.symm)
        · exact absurd hname' (hnone l' hl')
      exact ⟨d, l, hsame ▸ hx ▸ hp, hne, rfl⟩
    all_goals
      have hfold : casefold l.name = casefold d.name := by
        rcases hsuits with hname | ⟨-, hfold⟩
        · exact congrArg casefold hname
        · exact hfold
    · exact absurd hfold (hnofold l hlm)
    · -- the live columns of the name have one nullability
      rcases h d hdm hnone with hnofold | ⟨-, -, huniform⟩
      · exact absurd hfold (hnofold l hlm)
      · have hsame := huniform l hlm l' hl' hfold hfold'
        dsimp only at hx
        exact ⟨d, l', hx ▸ hp, hsame ▸ hne, by rw [hsame]⟩

end

theorem Harmless.perm {contract contract' : List Column} {live live' : List LiveColumn}
    (h : Harmless casefold contract live) (hd : contract.Perm contract') (hl : live.Perm live') :
    Harmless casefold contract' live' := by
  intro d hdm hnone
  rcases h d (hd.mem_iff.2 hdm) fun l hmem => hnone l (hl.mem_iff.1 hmem) with hnofold | ⟨hno, hcount, huniform⟩
  · exact .inl fun l hmem => hnofold l (hl.mem_iff.2 hmem)
  · refine .inr ⟨fun e he hfold l hmem => hno e (hd.mem_iff.2 he) hfold l (hl.mem_iff.2 hmem), ?_,
      fun l hmem l' hmem' => huniform l (hl.mem_iff.2 hmem) l' (hl.mem_iff.2 hmem')⟩
    rw [declaredCount, ← hd.countP_eq, liveCount, ← hl.countP_eq]
    exact hcount

theorem Suits.perm {live live' : List LiveColumn} (hl : live.Perm live') {d : Column} {l : LiveColumn} :
    Suits casefold live d l ↔ Suits casefold live' d l := by
  refine or_congr_right (and_congr_left fun _ => ?_)
  exact forall_congr' fun l' => by rw [hl.mem_iff]

/-- The order does not matter, if no choice does. -/
theorem Harmless.sameReport {contract contract' : List Column} {live live' : List LiveColumn}
    (h : Harmless casefold contract live) (hd : (contract.map Column.name).Nodup)
    (hl : (live.map LiveColumn.name).Nodup) (hcp : contract.Perm contract') (hlp : live.Perm live') :
    SameReport (shapeDiff casefold contract live) (shapeDiff casefold contract' live') := by
  have h' := h.perm hcp hlp
  have hd' := (hcp.map Column.name).nodup_iff.1 hd
  have hl' := (hlp.map LiveColumn.name).nodup_iff.1 hl
  refine ⟨fun n => ?_, fun n => ?_, fun x => ?_⟩
  · rw [h.mem_missing hd hl, h'.mem_missing hd' hl']
    simp only [hcp.mem_iff, hlp.mem_iff]
  · rw [mem_unexpected, mem_unexpected]
    refine exists_congr fun l => and_congr_left fun _ => ?_
    rw [h.mem_leftOver hd hl, h'.mem_leftOver hd' hl', hlp.mem_iff]
    simp only [hcp.mem_iff, Suits.perm hlp]
  · rw [h.mem_nullability hd hl, h'.mem_nullability hd' hl']
    simp only [hcp.mem_iff, hlp.mem_iff, Suits.perm hlp]

section
variable {contract : List Column} {live : List LiveColumn} (h : Harmless casefold contract live)
  (hd : (contract.map Column.name).Nodup) (hl : (live.map LiveColumn.name).Nodup)
include h hd hl

/-- The pairs of an empty difference are a matching. -/
theorem Harmless.matches_of_isEmpty (hempty : (shapeDiff casefold contract live).IsEmpty) :
    Matches casefold contract live := by
  obtain ⟨hmissing, hunexpected, hnullability⟩ := hempty
  have hpaired : ∀ d : {d // d ∈ contract}, ∃ l : {l // l ∈ live},
      (d.val, some l.val) ∈ pairing casefold contract live := by
    rintro ⟨d, hdm⟩
    obtain ⟨_ | l, hp⟩ := @exists_pair casefold _ live _ hdm
    · have hin := ContinuoRuntime.mem_missing.2 ⟨d, hp, rfl⟩
      rw [hmissing] at hin
      cases hin
    · exact ⟨⟨l, (mem_pairing_some hp).1⟩, hp⟩
  choose f hf using hpaired
  have hinjective : Function.Injective f := by
    intro d e heq
    have he := hf e
    rw [← heq] at he
    exact Subtype.ext (pairing_injective hl (hf d) he)
  have hsurjective : Function.Surjective f := by
    rintro ⟨l, hlm⟩
    by_contra hnot
    have hleft : l ∈ leftOver casefold contract live := by
      refine (ContinuoRuntime.mem_leftOver hl).2 ⟨hlm, fun d hp => hnot ⟨⟨d, mem_of_pair hp⟩, ?_⟩⟩
      have hsame := pairing_unique hd (hf ⟨d, mem_of_pair hp⟩) hp
      exact Subtype.ext (Option.some.inj hsame)
    have hin := mem_unexpected.2 ⟨l, hleft, rfl⟩
    rw [hunexpected] at hin
    cases hin
  refine ⟨Equiv.ofBijective f ⟨hinjective, hsurjective⟩, fun d => ⟨?_, (mem_pairing_some (hf d)).2, ?_⟩⟩
  · rintro ⟨l, hlm, hname⟩
    rcases (h.pairing_partner hd hl _ (hf d)).suits with hexact | ⟨hnone, -⟩
    · exact hexact
    · exact absurd hname (hnone l hlm)
  · by_contra hne
    have hin := ContinuoRuntime.mem_nullability.2 ⟨d.val, (f d).val, hf d, hne, rfl⟩
    rw [hnullability] at hin
    cases hin

/-- A matching leaves no difference. -/
theorem Harmless.isEmpty_of_matches (hmatch : Matches casefold contract live) :
    (shapeDiff casefold contract live).IsEmpty := by
  obtain ⟨f, hf⟩ := hmatch
  refine ⟨?_, ?_, ?_⟩
  · rw [List.eq_nil_iff_forall_not_mem]
    intro n hn
    obtain ⟨d, hdm, hnofold, -⟩ := (h.mem_missing hd hl).1 hn
    exact hnofold _ (f ⟨d, hdm⟩).2 (hf ⟨d, hdm⟩).2.1
  · rw [List.eq_nil_iff_forall_not_mem]
    intro n hn
    obtain ⟨l, hleft, -⟩ := mem_unexpected.1 hn
    obtain ⟨hlm, hnot⟩ := (h.mem_leftOver hd hl).1 hleft
    have hd' := hf (f.symm ⟨l, hlm⟩)
    rw [Equiv.apply_symm_apply] at hd'
    obtain ⟨hexact, hfold, -⟩ := hd'
    refine hnot _ (f.symm ⟨l, hlm⟩).2 ?_
    by_cases hname : ∃ l' ∈ live, l'.name = (f.symm ⟨l, hlm⟩).val.name
    · exact .inl (hexact hname)
    · exact .inr ⟨fun l' hl' heq => hname ⟨l', hl', heq⟩, hfold⟩
  · rw [List.eq_nil_iff_forall_not_mem]
    intro x hx
    obtain ⟨d, hdm, l, hlm, hsuits, hne, -⟩ := (h.mem_nullability hd hl).1 hx
    obtain ⟨hexact, hfold, hnull⟩ := hf ⟨d, hdm⟩
    dsimp only at hexact hfold hnull
    rcases hsuits with hname | ⟨hnone, hfold'⟩
    · have hsame := List.inj_on_of_nodup_map hl (f ⟨d, hdm⟩).2 hlm ((hexact ⟨l, hlm, hname⟩).trans hname.symm)
      exact hne (hsame ▸ hnull)
    · rcases h d hdm hnone with hnofold | ⟨-, -, huniform⟩
      · exact hnofold l hlm hfold'
      · exact hne ((huniform l hlm _ (f ⟨d, hdm⟩).2 hfold' hfold).trans hnull)

/-- **Harmless columns** are paired correctly. -/
theorem Harmless.pairsCorrectly : PairsCorrectly casefold contract live where
  exact contract' live' hcp hlp d hdm l hlm hname := by
    have h' := h.perm hcp hlp
    have hd' := (hcp.map Column.name).nodup_iff.1 hd
    have hl' := (hlp.map LiveColumn.name).nodup_iff.1 hl
    obtain ⟨x, hp⟩ := @exists_pair casefold _ live' _ hdm
    rcases h'.pairing_partner hd' hl' _ hp with ⟨l', hlm', hname', hx⟩ | ⟨hnone, -⟩
    · dsimp only at hx hname'
      rw [List.inj_on_of_nodup_map hl' hlm' hlm (hname'.trans hname.symm)] at hx
      exact hx ▸ hp
    · exact absurd hname (hnone l hlm)
  stable _ _ hcp hlp := ⟨h.sameReport hd hl hcp hlp, (h.sameReport hd hl hcp hlp).isEmpty⟩
  isEmpty := ⟨h.matches_of_isEmpty hd hl, h.isEmpty_of_matches hd hl⟩

end

/-! ### Other columns are not -/

/-- **Put first**, a declared column without a namesake is paired with any live
    column of its name up to case that is put first too. -/
theorem pairing_first {contract : List Column} {live : List LiveColumn} {d : Column} {l : LiveColumn}
    (hdm : d ∈ contract) (hlm : l ∈ live) (hnone : ∀ l' ∈ live, l'.name ≠ d.name)
    (hfold : casefold l.name = casefold d.name) :
    contract.Perm (d :: contract.erase d) ∧ live.Perm (l :: live.erase l) ∧
      (d, some l) ∈ pairing casefold (d :: contract.erase d) (l :: live.erase l) := by
  have hperm := List.perm_cons_erase hlm
  refine ⟨List.perm_cons_erase hdm, hperm, ?_⟩
  have hfind : findLive casefold (l :: live.erase l) d = some l := by
    rw [findLive_folded fun l' hl' => hnone l' (hperm.mem_iff.2 hl')]
    exact List.find?_cons_of_pos (decide_eq_true hfold)
  rw [pairing, hfind]
  exact List.mem_cons_self

section
variable {contract : List Column} {live : List LiveColumn} (h : PairsCorrectly casefold contract live)
  (hd : (contract.map Column.name).Nodup) (hl : (live.map LiveColumn.name).Nodup)
  {d : Column} {l : LiveColumn} (hdm : d ∈ contract) (hnone : ∀ l' ∈ live, l'.name ≠ d.name)
  (hlm : l ∈ live) (hfold : casefold l.name = casefold d.name)
include h hl hdm hnone

/-- There is no namesake to take. -/
theorem PairsCorrectly.no_namesake {e : Column} (he : e ∈ contract)
    (hclass : casefold e.name = casefold d.name) {l' : LiveColumn} (hlm' : l' ∈ live) : l'.name ≠ e.name := by
  intro hname
  obtain ⟨hcp, hlp, hp⟩ := pairing_first hdm hlm' hnone ((congrArg casefold hname).trans hclass)
  have he' := h.exact _ _ hcp hlp e (hcp.mem_iff.1 he) l' (hlp.mem_iff.1 hlm') hname
  have hsame := pairing_injective ((hlp.map LiveColumn.name).nodup_iff.1 hl) hp he'
  exact hnone l' hlm' (hsame ▸ hname)

include hd hlm hfold

/-- No declared column is missing. -/
theorem PairsCorrectly.count_le :
    declaredCount casefold contract (casefold d.name) ≤ liveCount casefold live (casefold d.name) := by
  by_contra hlt
  have hcount := @count_pairing casefold (casefold d.name) contract live
  have hpos : 0 < missingCount casefold contract live (casefold d.name) := by omega
  obtain ⟨⟨e, x⟩, hp, hex⟩ := List.countP_pos_iff.1 hpos
  obtain ⟨hclass, hx⟩ := of_decide_eq_true hex
  dsimp only at hclass hx
  subst hx
  have hem := mem_of_pair hp
  have hnone' : ∀ l' ∈ live, l'.name ≠ e.name := fun l' hlm' =>
    h.no_namesake hl hdm hnone hem hclass hlm'
  obtain ⟨hcp, hlp, hp'⟩ := pairing_first hem hlm hnone' (hfold.trans hclass.symm)
  have hd' := (hcp.map Column.name).nodup_iff.1 hd
  obtain ⟨e', hpe, hname⟩ := mem_missing.1 (((h.stable _ _ hcp hlp).1.missing e.name).1 (mem_missing.2 ⟨e, hp, rfl⟩))
  obtain rfl := List.inj_on_of_nodup_map hd' (mem_of_pair hpe) (mem_of_pair hp') hname
  cases pairing_unique hd' hpe hp'

omit hd hlm hfold in
/-- No live column is left. -/
theorem PairsCorrectly.count_ge :
    liveCount casefold live (casefold d.name) ≤ declaredCount casefold contract (casefold d.name) := by
  by_contra hlt
  have hcount := @count_pairing casefold (casefold d.name) contract live
  have hpos : 0 < liveCount casefold (leftOver casefold contract live) (casefold d.name) := by omega
  obtain ⟨l', hleft, hfold'⟩ := liveCount_pos.1 hpos
  have hlm' := ((mem_leftOver hl).1 hleft).1
  obtain ⟨hcp, hlp, hp⟩ := pairing_first hdm hlm' hnone hfold'
  have hl' := (hlp.map LiveColumn.name).nodup_iff.1 hl
  obtain ⟨m, hm, hname⟩ := mem_unexpected.1 (((h.stable _ _ hcp hlp).1.unexpected l'.name).1
    (mem_unexpected.2 ⟨l', hleft, rfl⟩))
  obtain ⟨hmm, hnot⟩ := (mem_leftOver hl').1 hm
  obtain rfl := List.inj_on_of_nodup_map hl' hmm (hlp.mem_iff.1 hlm') hname
  exact hnot d hp

omit hl in
/-- Two live columns of the name up to case have one nullability. -/
theorem PairsCorrectly.uniform {l' : LiveColumn} (hlm' : l' ∈ live)
    (hfold' : casefold l'.name = casefold d.name) (hne : l.nullable ≠ d.nullable) :
    l'.nullable ≠ d.nullable := by
  intro heq
  obtain ⟨hcp, hlp, hp⟩ := pairing_first hdm hlm hnone hfold
  obtain ⟨hcp', hlp', hp'⟩ := pairing_first hdm hlm' hnone hfold'
  have hd' := (hcp'.map Column.name).nodup_iff.1 hd
  have hin := ((h.stable _ _ hcp hlp).1.nullability _).2 (mem_nullability.2 ⟨d, l, hp, hne, rfl⟩)
  obtain ⟨e, m, hpe, hdiff, hx⟩ := mem_nullability.1 (((h.stable _ _ hcp' hlp').1.nullability _).1 hin)
  obtain ⟨hname, hnull, hlive⟩ := NullabilityDiff.mk.inj hx
  obtain rfl := List.inj_on_of_nodup_map hd' (mem_of_pair hpe) (mem_of_pair hp') hname.symm
  obtain rfl := Option.some.inj (pairing_unique hd' hpe hp')
  exact hdiff heq

end

/-- **Columns that are paired correctly** are harmless. -/
theorem PairsCorrectly.harmless {contract : List Column} {live : List LiveColumn}
    (h : PairsCorrectly casefold contract live) (hd : (contract.map Column.name).Nodup)
    (hl : (live.map LiveColumn.name).Nodup) : Harmless casefold contract live := by
  intro d hdm hnone
  by_cases hnofold : ∀ l ∈ live, casefold l.name ≠ casefold d.name
  · exact .inl hnofold
  · push Not at hnofold
    obtain ⟨l₀, hlm₀, hfold₀⟩ := hnofold
    refine .inr ⟨fun e he hclass l hlm => h.no_namesake hl hdm hnone he hclass hlm,
      le_antisymm (h.count_le hd hl hdm hnone hlm₀ hfold₀) (h.count_ge hl hdm hnone), ?_⟩
    intro l hlm l' hlm' hfold hfold'
    have hforth := h.uniform hd hdm hnone hlm hfold hlm' hfold'
    have hback := h.uniform hd hdm hnone hlm' hfold' hlm hfold
    cases hln : l.nullable <;> cases hln' : l'.nullable <;> cases hdn : d.nullable <;> simp_all

/-- **The columns that `shape_diff` pairs correctly**, whatever their order, are
    exactly those between which no choice matters. -/
theorem shapeDiff_correct_iff (casefold : Str → Str) {contract : List Column} {live : List LiveColumn}
    (hd : (contract.map Column.name).Nodup) (hl : (live.map LiveColumn.name).Nodup) :
    PairsCorrectly casefold contract live ↔ Harmless casefold contract live :=
  ⟨fun h => h.harmless hd hl, fun h => h.pairsCorrectly hd hl⟩

/-- Two columns that differ in case, live and declared. -/
theorem shapeDiff_correct_rates :
    PairsCorrectly asciiLower [⟨py "Rate", py "BIGINT", false⟩, ⟨py "rate", py "BIGINT", true⟩]
      [⟨py "rate", true⟩, ⟨py "Rate", false⟩] :=
  (shapeDiff_correct_iff asciiLower (by decide) (by decide)).2 (by decide)

/-- **A namesake is taken**: the declared `A` is compared with the live `a`, and the
    declared `a`, which has a live namesake, is missing. -/
theorem namesake_taken :
    ¬ PairsCorrectly asciiLower [⟨py "A", py "BIGINT", true⟩, ⟨py "a", py "BIGINT", true⟩] [⟨py "a", true⟩] ∧
      shapeDiff asciiLower [⟨py "A", py "BIGINT", true⟩, ⟨py "a", py "BIGINT", true⟩] [⟨py "a", true⟩] =
        ⟨[py "a"], [], []⟩ := by
  refine ⟨fun h => ?_, rfl⟩
  have hpair := h.exact _ _ (.refl _) (.refl _) ⟨py "a", py "BIGINT", true⟩ (by simp) ⟨py "a", true⟩ (by simp) rfl
  exact absurd hpair (by decide)

end ContinuoRuntime
