/-
  `ensure_schema` of the Trino adapter under concurrent callers.

  Trino stores schema names in lower case and has no lock: `CREATE SCHEMA IF NOT
  EXISTS` looks for the schema, and writes it in a second step that fails if another
  client was faster.  The adapter then looks itself, for the name as it was given.

  * `ensureSchema_invariant`: where a caller can be in any run;
  * `safeEnsureSchema_iff`: the names for which the end state decides.
-/
import ContinuoRuntime.Python.Exc
import ContinuoRuntime.Lib.Clients

namespace ContinuoRuntime

/-! ## The adapter -/

/-- The statements of `ensure_schema`. -/
inductive SchemaStatement where
  | createSchemaIfNotExists (schema : Str)
  | showSchemas

/-- What a statement gives: its rows, or an exception. -/
abbrev TrinoResult := Except Exc (List (List Str))

/-- A caller of the adapter, up to what its call gives. -/
abbrev TrinoClient (α : Type) := Client SchemaStatement TrinoResult (Except Exc α)

/-- `isinstance(exc, trino.exceptions.TrinoQueryError)`. -/
def Exc.isTrinoQueryError (e : Exc) : Bool := e.cls == .other (py "TrinoQueryError")

/-- `_schema_exists`. -/
def schemaExists (schema : Str) : TrinoClient Bool :=
  .ask .showSchemas fun
    | .ok rows => .done (.ok (rows.any fun row => row.head? == some schema))
    | .error e => .done (.error e)

/-- `ensure_schema`. -/
def ensureSchemaTrino (schema : Str) : TrinoClient Unit :=
  .ask (.createSchemaIfNotExists schema) fun
    | .ok _ => .done (.ok ())
    | .error e =>
      if e.isTrinoQueryError then
        (schemaExists schema).bind fun
          | .ok true => .done (.ok ())
          | .ok false => .done (.error e)
          | .error e' => .done (.error e')
      else .done (.error e)

/-! ## The server -/

variable (lower : Str → Str)

/-- The schemas of the catalog, by the names it stores. -/
structure TrinoCatalog where
  schemas : List Str
  lowered : ∀ n ∈ schemas, ∃ name, n = lower name

variable {lower}

/-- The schema of a name. -/
def TrinoCatalog.Has (c : TrinoCatalog lower) (name : Str) : Prop := lower name ∈ c.schemas

/-- A catalog without schemas. -/
def TrinoCatalog.empty : TrinoCatalog lower := ⟨[], fun _ h => by cases h⟩

/-- The catalog with the schema of a name. -/
def TrinoCatalog.create (c : TrinoCatalog lower) (name : Str) : TrinoCatalog lower where
  schemas := lower name :: c.schemas
  lowered := List.forall_mem_cons.2 ⟨⟨name, rfl⟩, c.lowered⟩

/-- Whether the `CREATE SCHEMA` of a connection has found no schema and is about to
    write it. -/
inductive CreatePhase where
  | idle | writing
  deriving DecidableEq

/-- **One step of the server** on a statement. -/
inductive TrinoServe : SchemaStatement → TrinoCatalog lower → CreatePhase →
    TrinoCatalog lower → CreatePhase → Option TrinoResult → Prop
  | found {c name} (h : c.Has name) :
      TrinoServe (.createSchemaIfNotExists name) c .idle c .idle (some (.ok []))
  | notFound {c name} (h : ¬ c.Has name) :
      TrinoServe (.createSchemaIfNotExists name) c .idle c .writing none
  | written {c name} (h : ¬ c.Has name) :
      TrinoServe (.createSchemaIfNotExists name) c .writing (c.create name) .idle (some (.ok []))
  /-- another client was faster; the text of the error is not fixed -/
  | lost {c name} (h : c.Has name) (msg : Str) :
      TrinoServe (.createSchemaIfNotExists name) c .writing c .idle
        (some (.error (.text (.other (py "TrinoQueryError")) msg)))
  | listed {c} : TrinoServe .showSchemas c .idle c .idle (some (.ok (c.schemas.map fun n => [n])))

/-- Other clients of the warehouse create and drop schemas as they like. -/
def OtherSchemas (_ _ : TrinoCatalog lower) : Prop := True

/-- The callers of `ensure_schema` for one name. -/
abbrev Callers (lower : Str → Str) (ι : Type) :=
  Pool ι (TrinoCatalog lower) CreatePhase SchemaStatement TrinoResult (Except Exc Unit)

/-- Any number of callers, on any catalog. -/
def callers {ι : Type} (name : Str) (c : TrinoCatalog lower) : Callers lower ι :=
  ⟨c, fun _ => .idle, fun _ => ensureSchemaTrino name⟩

/-- **Safe under concurrent callers**: a caller that looks while the schema exists
    returns, and a caller raises only while it does not. -/
def SafeEnsureSchema (lower : Str → Str) (name : Str) : Prop :=
  ∀ (ι : Type) [DecidableEq ι] (c₀ : TrinoCatalog lower) (c c' : Callers lower ι) (i : ι),
    Pool.Run TrinoServe OtherSchemas (callers name c₀) c → Pool.Serves TrinoServe i c c' →
      (∀ k, c.client i = .ask .showSchemas k → c.shared.Has name → c'.client i = .done (.ok ())) ∧
        ∀ e, c'.client i = .done (.error e) → ¬ c.shared.Has name

/-! ## Where a caller can be -/

/-- The caller after a failed `CREATE SCHEMA`: about to look for the schema. -/
def looking (name : Str) (e : Exc) : TrinoClient Unit :=
  (schemaExists name).bind fun
    | .ok true => .done (.ok ())
    | .ok false => .done (.error e)
    | .error e' => .done (.error e')

/-- The states of a caller. -/
inductive CallerState (name : Str) : CreatePhase → TrinoClient Unit → Prop
  | creating (phase : CreatePhase) : CallerState name phase (ensureSchemaTrino name)
  | checking (e : Exc) : CallerState name .idle (looking name e)
  | returned (r : Except Exc Unit) : CallerState name .idle (.done r)

/-- What the last look gives. -/
def lookResult (name : Str) (e : Exc) (schemas : List Str) : Except Exc Unit :=
  if name ∈ schemas then .ok () else .error e

theorem looking_listed (name : Str) (e : Exc) (schemas : List Str) :
    ∃ k, looking name e = .ask .showSchemas k ∧
      k (.ok (schemas.map fun n => [n])) = .done (lookResult name e schemas) := by
  refine ⟨_, rfl, ?_⟩
  have hany : ((schemas.map fun n => [n]).any fun row => row.head? == some name) = decide (name ∈ schemas) := by
    rw [List.any_map, Bool.eq_iff_iff, List.any_eq_true, decide_eq_true_eq]
    simp
  rw [Client.bind, hany, lookResult]
  by_cases hmem : name ∈ schemas
  · rw [if_pos hmem, decide_eq_true hmem]
  · rw [if_neg hmem, decide_eq_false hmem]

/-- **One step of a caller**: it creates, or it looks and is done. -/
theorem CallerState.serve {name : Str} {c c' : TrinoCatalog lower} {phase phase' : CreatePhase}
    {r : SchemaStatement} {k : TrinoResult → TrinoClient Unit} {res : Option TrinoResult}
    (h : CallerState name phase (.ask r k)) (hserve : TrinoServe r c phase c' phase' res) :
    (r = .createSchemaIfNotExists name ∧ (∀ e, Client.resume r k res ≠ .done (.error e)) ∧
      CallerState name phase' (Client.resume r k res)) ∨
    r = .showSchemas ∧ phase' = .idle ∧ ∃ e, Client.resume r k res = .done (lookResult name e c.schemas) := by
  generalize hp : Client.ask r k = p at h
  cases h with
  | returned result => cases hp
  | creating =>
    cases hp
    left
    cases hserve with
    | found => exact ⟨rfl, fun e he => (by cases he), .returned (.ok ())⟩
    | notFound => exact ⟨rfl, fun e he => (by cases he), .creating .writing⟩
    | written => exact ⟨rfl, fun e he => (by cases he), .returned (.ok ())⟩
    | lost _ msg => exact ⟨rfl, fun e he => (by cases he), .checking _⟩
  | checking e =>
    obtain ⟨k', hk, hlisted⟩ := looking_listed name e c.schemas
    rw [hk] at hp
    cases hp
    cases hserve with
    | listed => exact .inr ⟨rfl, rfl, e, hlisted⟩

/-- **Where a caller can be** in any run. -/
theorem ensureSchema_invariant {ι : Type} [DecidableEq ι] {name : Str} {c₀ : TrinoCatalog lower}
    {c : Callers lower ι} (hrun : Pool.Run TrinoServe OtherSchemas (callers name c₀) c) (i : ι) :
    CallerState name (c.session i) (c.client i) := by
  refine Pool.invariant (fun _ _ => True) (fun _ phase p => CallerState name phase p)
    (fun h hserve => ⟨trivial, ?_⟩) (fun _ => trivial) (fun _ h => h) (fun _ => .creating .idle) hrun i
  rcases h.serve hserve with ⟨-, -, hstate⟩ | ⟨-, rfl, e, hdone⟩
  · exact hstate
  · rw [hdone]
    exact .returned _

/-! ## Safety -/

/-- A name in lower case is looked for as it is stored. -/
theorem safeEnsureSchema_of_lower {name : Str} (hlower : lower name = name) : SafeEnsureSchema lower name := by
  intro ι _ c₀ c c' i hrun hserves
  obtain ⟨hask, hserve⟩ := hserves
  have hstate := ensureSchema_invariant hrun i
  rw [hask] at hstate ⊢
  dsimp only
  rw [Function.update_self]
  have hhas : c.shared.Has name ↔ name ∈ c.shared.schemas := by rw [TrinoCatalog.Has, hlower]
  rcases hstate.serve hserve with ⟨rfl, hnever, -⟩ | ⟨rfl, -, e, hdone⟩
  · exact ⟨fun k hk => (by cases hk), fun e he => absurd he (hnever e)⟩
  · rw [hdone, hhas, lookResult]
    constructor
    · intro _ _ hmem
      rw [if_pos hmem]
    · intro e' he hmem
      rw [if_pos hmem] at he
      cases he

/-- **Two callers**: both find no schema, and the slower one does not see the schema
    of the faster one. -/
theorem race {name : Str} (hne : lower name ≠ name) :
    ∃ c c' : Callers lower Bool, Pool.Run TrinoServe OtherSchemas (callers name .empty) c ∧
      Pool.Serves TrinoServe true c c' ∧ c.shared.Has name ∧ ∃ e, c'.client true = .done (.error e) := by
  let e : Exc := .text (.other (py "TrinoQueryError")) (py "Schema already exists")
  obtain ⟨k, hk, hlisted⟩ := looking_listed name e [lower name]
  have hmem : name ∉ [lower name] := fun h => hne (List.mem_singleton.1 h).symm
  rw [lookResult, if_neg hmem] at hlisted
  let before : TrinoCatalog lower := .empty
  let after : TrinoCatalog lower := before.create name
  have hnone : ¬ before.Has name := List.not_mem_nil
  have hhas : after.Has name := List.mem_cons_self
  let c₀ : Callers lower Bool := callers name before
  let c₁ : Callers lower Bool :=
    ⟨before, Function.update c₀.session true .writing, Function.update c₀.client true (ensureSchemaTrino name)⟩
  let c₂ : Callers lower Bool :=
    ⟨before, Function.update c₁.session false .writing, Function.update c₁.client false (ensureSchemaTrino name)⟩
  let c₃ : Callers lower Bool :=
    ⟨after, Function.update c₂.session false .idle, Function.update c₂.client false (.done (.ok ()))⟩
  let c₄ : Callers lower Bool :=
    ⟨after, Function.update c₃.session true .idle, Function.update c₃.client true (looking name e)⟩
  have hcreate : ensureSchemaTrino name = .ask (.createSchemaIfNotExists name) _ := rfl
  have h₁ : Pool.Serves TrinoServe true c₀ c₁ := Pool.Serves.to hcreate (TrinoServe.notFound hnone) rfl
  have h₂ : Pool.Serves TrinoServe false c₁ c₂ := Pool.Serves.to hcreate (TrinoServe.notFound hnone) rfl
  have h₃ : Pool.Serves TrinoServe false c₂ c₃ := Pool.Serves.to hcreate (TrinoServe.written hnone) rfl
  have h₄ : Pool.Serves TrinoServe true c₃ c₄ :=
    Pool.Serves.to hcreate (TrinoServe.lost hhas (py "Schema already exists")) rfl
  have h₅ : Pool.Serves TrinoServe true c₄
      ⟨after, Function.update c₄.session true .idle, Function.update c₄.client true (.done (.error e))⟩ :=
    Pool.Serves.to hk TrinoServe.listed (show Client.resume _ k (some _) = _ from hlisted)
  refine ⟨c₄, _, ?_, h₅, hhas, e, ?_⟩
  · exact (((Relation.ReflTransGen.single (.client h₁)).tail (.client h₂)).tail (.client h₃)).tail (.client h₄)
  · rfl

/-- **The names for which the end state decides**: those that Trino stores as they
    are. -/
theorem safeEnsureSchema_iff (lower : Str → Str) (name : Str) :
    SafeEnsureSchema lower name ↔ lower name = name := by
  refine ⟨fun hsafe => ?_, safeEnsureSchema_of_lower⟩
  by_contra hne
  obtain ⟨c, c', hrun, hserves, hhas, e, he⟩ := race hne
  exact (hsafe Bool _ c c' true hrun hserves).2 e he hhas

/-- **A name in upper case**: the slower of two callers raises, and the schema is
    there. -/
theorem ensureSchema_raises :
    ∃ c c' : Callers asciiLower Bool, Pool.Run TrinoServe OtherSchemas (callers (py "Sales") .empty) c ∧
      Pool.Serves TrinoServe true c c' ∧ c.shared.Has (py "Sales") ∧ ∃ e, c'.client true = .done (.error e) :=
  race (by decide)

end ContinuoRuntime
