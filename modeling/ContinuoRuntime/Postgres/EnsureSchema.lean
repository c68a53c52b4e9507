/-
  `ensure_schema` of the Postgres adapter under concurrent callers.

  A caller takes an advisory lock whose number is a hash of the schema's name, creates
  the schema if it is not there, and gives the lock back.  `CREATE SCHEMA IF NOT EXISTS`
  looks for the schema and writes it in two steps; a session may end at any time, and
  the server then takes its locks from it.

  A caller whose session lives on keeps its lock if the server refuses the unlock, or
  if it is interrupted when a statement has done its work.

  * `Caller.serve`: where a caller can be, and what one step may do;
  * `ensureSchema_locked`: **one caller at a time creates**, and who keeps a lock;
  * `ensureSchema_ends`: no caller waits for ever, but for a lock that one has kept.
-/
import ContinuoRuntime.Python.Exc
import ContinuoRuntime.Lib.Clients

namespace ContinuoRuntime

/-! ## The adapter -/

/-- The requests of `ensure_schema`, in autocommit. -/
inductive LockStatement where
  /-- `SELECT pg_advisory_lock(hashtext(schema))` -/
  | advisoryLock (schema : Str)
  | createSchemaIfNotExists (schema : Str)
  | advisoryUnlock (schema : Str)
  /-- `commit()` and `rollback()` of a connection without a transaction -/
  | commit | rollback

/-- A caller of the adapter, up to what its call gives. -/
abbrev PgClient := Client LockStatement (Except Exc Unit) (Except Exc Unit)

/-- `isinstance(exc, (DuplicateSchema, UniqueViolation))`. -/
def Exc.isDuplicateSchema (e : Exc) : Bool :=
  e.cls == .other (py "psycopg2.errors.DuplicateSchema") || e.cls == .other (py "psycopg2.errors.UniqueViolation")

/-- The `except` clauses of `ensure_schema`. -/
def schemaHandler (e : Exc) : PgClient :=
  if e.isDuplicateSchema then .call .rollback
  else if e.cls.isException then (Client.call .rollback).andThen fun _ => .done (.error e)
  else .done (.error e)

/-- `ensure_schema`. -/
def ensureSchemaPg (schema : Str) : PgClient :=
  (Client.call (.advisoryLock schema)).andThen fun _ =>
    (Client.call .commit).andThen fun _ =>
      Client.always
        (((Client.call (.createSchemaIfNotExists schema)).andThen fun _ => .call .commit).handle schemaHandler)
        ((Client.call (.advisoryUnlock schema)).andThen fun _ => .call .commit)

/-! ## The server -/

/-- What all sessions share: the schemas, and the session that has a lock. -/
structure PgShared (ι : Type) where
  schemas : List Str
  owner : ℤ → Option ι

/-- Whether the `CREATE SCHEMA` of a session has found no schema and is about to write it. -/
inductive WritePhase where
  | idle | writing
  deriving DecidableEq

/-- A session. -/
structure LockSession (ι : Type) where
  pid : ι
  alive : Bool
  phase : WritePhase
  /-- a lock that was taken twice is there twice -/
  locks : List ℤ

variable {ι : Type}

/-- The session that has a lock is another one. -/
def PgShared.setOwner (s : PgShared ι) (key : ℤ) (owner : Option ι) : PgShared ι :=
  { s with owner := Function.update s.owner key owner }

/-- The locks of a session are free. -/
def PgShared.free [DecidableEq ι] (s : PgShared ι) (pid : ι) : PgShared ι :=
  { s with owner := fun key => if s.owner key = some pid then none else s.owner key }

/-- The schema is written. -/
def PgShared.create (s : PgShared ι) (schema : Str) : PgShared ι := { s with schemas := schema :: s.schemas }

/-- The session has ended. -/
def LockSession.ended (t : LockSession ι) : LockSession ι := { t with alive := false, phase := .idle, locks := [] }

/-- A server may refuse this for other reasons than those below.  `stranding`: the
    unlock too, so that a living session keeps its lock. -/
def LockStatement.Refusable (stranding : Prop) : LockStatement → Prop
  | .advisoryLock _ | .createSchemaIfNotExists _ => True
  | .advisoryUnlock _ => stranding
  | .commit | .rollback => False

/-- **What the server does** about a request.  A request for a lock that another session
    has makes no step. -/
inductive PgWork (hashtext : Str → ℤ) : LockStatement → PgShared ι → LockSession ι → PgShared ι → LockSession ι →
    Option (Except Exc Unit) → Prop
  | locked {s : PgShared ι} {t : LockSession ι} {n : Str} (halive : t.alive = true)
      (h : s.owner (hashtext n) = none ∨ s.owner (hashtext n) = some t.pid) :
      PgWork hashtext (.advisoryLock n) s t (s.setOwner (hashtext n) (some t.pid))
        { t with locks := hashtext n :: t.locks } (some (.ok ()))
  | unlocked {s : PgShared ι} {t : LockSession ι} {n : Str} (halive : t.alive = true) (h : hashtext n ∈ t.locks) :
      PgWork hashtext (.advisoryUnlock n) s t
        (if hashtext n ∈ t.locks.erase (hashtext n) then s else s.setOwner (hashtext n) none)
        { t with locks := t.locks.erase (hashtext n) } (some (.ok ()))
  /-- the answer is `false`, with a warning -/
  | notHeld {s : PgShared ι} {t : LockSession ι} {n : Str} (halive : t.alive = true) (h : hashtext n ∉ t.locks) :
      PgWork hashtext (.advisoryUnlock n) s t s t (some (.ok ()))
  | found {s : PgShared ι} {t : LockSession ι} {n : Str} (halive : t.alive = true) (hphase : t.phase = .idle)
      (h : n ∈ s.schemas) : PgWork hashtext (.createSchemaIfNotExists n) s t s t (some (.ok ()))
  | notFound {s : PgShared ι} {t : LockSession ι} {n : Str} (halive : t.alive = true) (hphase : t.phase = .idle)
      (h : n ∉ s.schemas) : PgWork hashtext (.createSchemaIfNotExists n) s t s { t with phase := .writing } none
  | written {s : PgShared ι} {t : LockSession ι} {n : Str} (halive : t.alive = true) (hphase : t.phase = .writing)
      (h : n ∉ s.schemas) :
      PgWork hashtext (.createSchemaIfNotExists n) s t (s.create n) { t with phase := .idle } (some (.ok ()))
  /-- another session was faster -/
  | lost {s : PgShared ι} {t : LockSession ι} {n : Str} {e : Exc} (halive : t.alive = true)
      (hphase : t.phase = .writing) (h : n ∈ s.schemas) (he : e.isDuplicateSchema = true) :
      PgWork hashtext (.createSchemaIfNotExists n) s t s { t with phase := .idle } (some (.error e))
  | settled {s : PgShared ι} {t : LockSession ι} {r : LockStatement} (halive : t.alive = true)
      (h : r = .commit ∨ r = .rollback) : PgWork hashtext r s t s t (some (.ok ()))
  /-- the driver knows that the session has ended -/
  | dead {s : PgShared ι} {t : LockSession ι} {r : LockStatement} {e : Exc} (halive : t.alive = false)
      (he : e.isDuplicateSchema = false) : PgWork hashtext r s t s t (some (.error e))

/-- **One step on a request**: what the server does, or what goes wrong.  `stranding`:
    the sessions on which it may go wrong where the lock is kept. -/
inductive PgServe [DecidableEq ι] (hashtext : Str → ℤ) (stranding : ι → Prop) : LockStatement → PgShared ι →
    LockSession ι → PgShared ι → LockSession ι → Option (Except Exc Unit) → Prop
  | work {r : LockStatement} {s s' : PgShared ι} {t t' : LockSession ι} {res : Option (Except Exc Unit)}
      (h : PgWork hashtext r s t s' t' res) : PgServe hashtext stranding r s t s' t' res
  /-- a missing right, a timeout -/
  | refused {s : PgShared ι} {t : LockSession ι} {r : LockStatement} {e : Exc} (halive : t.alive = true)
      (h : r.Refusable (stranding t.pid)) (he : e.isDuplicateSchema = false) :
      PgServe hashtext stranding r s t s { t with phase := .idle } (some (.error e))
  /-- the server has done its work, and the client is interrupted -/
  | interrupted {s s' : PgShared ι} {t t' : LockSession ι} {r : LockStatement} {e : Exc}
      (h : PgWork hashtext r s t s' t' (some (.ok ()))) (hstranding : stranding t.pid)
      (he : e.isDuplicateSchema = false) : PgServe hashtext stranding r s t s' t' (some (.error e))
  /-- the session ends; the client learns it from the answer -/
  | ended {s : PgShared ι} {t : LockSession ι} {r : LockStatement} (halive : t.alive = true) :
      PgServe hashtext stranding r s t (s.free t.pid) t.ended none
  /-- the session ends when the schema is written and before the answer -/
  | writtenEnded {s : PgShared ι} {t : LockSession ι} {n : Str} (halive : t.alive = true)
      (hphase : t.phase = .writing) (h : n ∉ s.schemas) :
      PgServe hashtext stranding (.createSchemaIfNotExists n) s t ((s.create n).free t.pid) t.ended none

/-- The callers, each for its schema. -/
abbrev LockPool (ι : Type) := Pool ι (PgShared ι) (LockSession ι) LockStatement (Except Exc Unit) (Except Exc Unit)

/-- Any number of callers on a database: nobody has a lock. -/
def lockers (names : ι → Str) (schemas : List Str) : LockPool ι :=
  ⟨⟨schemas, fun _ => none⟩, fun i => ⟨i, true, .idle, []⟩, fun i => ensureSchemaPg (names i)⟩

/-! ## Where a caller can be -/

/-- The end of `ensure_schema`, behind the `try`. -/
def unlocking (schema : Str) (result : Except Exc Unit) : PgClient :=
  ((Client.call (.advisoryUnlock schema)).andThen fun _ => .call .commit).andThen fun _ => .done result

/-- The `try` of `ensure_schema`, from a part of it on. -/
def trying (schema : Str) (p : PgClient) : PgClient := p.bind (unlocking schema)

/-- The `CREATE SCHEMA`, and what comes behind it. -/
def creating (schema : Str) : PgClient :=
  trying schema (((Client.call (.createSchemaIfNotExists schema)).andThen fun _ => .call .commit).handle schemaHandler)

/-- What is known of a result: the schema is there, if nobody drops it, or the exception is
    none of those that another creator causes. -/
def SchemaResult (kept : Prop) (schema : Str) (s : PgShared ι) : Except Exc Unit → Prop
  | .ok _ => kept → schema ∈ s.schemas
  | .error e => e.isDuplicateSchema = false

/-- A session that has this lock, unless it has ended. -/
def LockSession.Holds (t : LockSession ι) (key : ℤ) : Prop := t.alive = true → t.locks = [key]

/-- **The states of a caller** for a schema: what it has still to do, with the locks of its
    session.  `kept`: nobody drops schemas; `quiet`: nobody else creates this one;
    `stranding`: the caller may end with its lock. -/
inductive Caller (hashtext : Str → ℤ) (kept quiet stranding : Prop) (n : Str) (s : PgShared ι) (t : LockSession ι) :
    PgClient → Prop
  | starting (hlocks : t.locks = []) (hphase : t.phase = .idle) :
      Caller hashtext kept quiet stranding n s t (ensureSchemaPg n)
  | locked (hlocks : t.Holds (hashtext n)) (hphase : t.phase = .idle) :
      Caller hashtext kept quiet stranding n s t ((Client.call .commit).andThen fun _ => creating n)
  | creating (hlocks : t.Holds (hashtext n)) (hwriting : t.phase = .writing → quiet → n ∉ s.schemas) :
      Caller hashtext kept quiet stranding n s t (creating n)
  | created (hlocks : t.Holds (hashtext n)) (hphase : t.phase = .idle) (h : SchemaResult kept n s (.ok ())) :
      Caller hashtext kept quiet stranding n s t (trying n ((Client.call .commit).handle schemaHandler))
  | outrun (hlocks : t.Holds (hashtext n)) (hphase : t.phase = .idle) (h : SchemaResult kept n s (.ok ())) :
      Caller hashtext kept quiet stranding n s t (trying n (.call .rollback))
  | failing {e : Exc} (hlocks : t.Holds (hashtext n)) (hphase : t.phase = .idle)
      (h : SchemaResult kept n s (.error e)) :
      Caller hashtext kept quiet stranding n s t (trying n ((Client.call .rollback).andThen fun _ => .done (.error e)))
  | unlocking {result : Except Exc Unit} (hlocks : t.Holds (hashtext n)) (hphase : t.phase = .idle)
      (h : SchemaResult kept n s result) : Caller hashtext kept quiet stranding n s t (unlocking n result)
  | leaving {result : Except Exc Unit} (hlocks : t.locks = []) (hphase : t.phase = .idle)
      (h : SchemaResult kept n s result) :
      Caller hashtext kept quiet stranding n s t ((Client.call .commit).andThen fun _ => .done result)
  | returned {result : Except Exc Unit} (hlocks : t.locks = []) (hphase : t.phase = .idle)
      (h : SchemaResult kept n s result) : Caller hashtext kept quiet stranding n s t (.done result)
  | stranded {e : Exc} (hstranding : stranding) (hlocks : t.Holds (hashtext n)) (hphase : t.phase = .idle)
      (h : SchemaResult kept n s (.error e)) : Caller hashtext kept quiet stranding n s t (.done (.error e))

/-- A session and the locks that the server says it has. -/
structure Session (i : ι) (s : PgShared ι) (t : LockSession ι) : Prop where
  pid : t.pid = i
  owner : ∀ key, s.owner key = some i ↔ key ∈ t.locks
  dead : t.alive = false → t.locks = [] ∧ t.phase = .idle

/-- **What a step of a caller may do** to the shared state. -/
structure LockStep (hashtext : Str → ℤ) (i : ι) (s s' : PgShared ι) : Prop where
  owner : ∀ key j, j ≠ i → (s'.owner key = some j ↔ s.owner key = some j)
  kept : s.schemas ⊆ s'.schemas
  created : ∀ n ∈ s'.schemas, n ∉ s.schemas → s.owner (hashtext n) = some i

section
variable {hashtext : Str → ℤ} {kept quiet stranding : Prop} {n : Str} {i : ι} {s s' : PgShared ι} {t t' : LockSession ι}

theorem SchemaResult.mono {result : Except Exc Unit} (h : SchemaResult kept n s result)
    (hkept : kept → s.schemas ⊆ s'.schemas) : SchemaResult kept n s' result := by
  cases result with
  | ok u => exact fun hk => hkept hk (h hk)
  | error e => exact h

/-- A caller bears what is done to the schemas, if nobody drops one, and nobody else
    creates the one that it is about to write. -/
theorem Caller.mono {p : PgClient} (h : Caller hashtext kept quiet stranding n s t p)
    (hkept : kept → s.schemas ⊆ s'.schemas)
    (hquiet : quiet → t.phase = .writing → n ∈ s'.schemas → n ∈ s.schemas) :
    Caller hashtext kept quiet stranding n s' t p := by
  cases h with
  | starting hlocks hphase => exact .starting hlocks hphase
  | locked hlocks hphase => exact .locked hlocks hphase
  | creating hlocks hwriting => exact .creating hlocks fun hphase hq hn => hwriting hphase hq (hquiet hq hphase hn)
  | created hlocks hphase h => exact .created hlocks hphase (h.mono hkept)
  | outrun hlocks hphase h => exact .outrun hlocks hphase (h.mono hkept)
  | failing hlocks hphase h => exact .failing hlocks hphase h
  | unlocking hlocks hphase h => exact .unlocking hlocks hphase (h.mono hkept)
  | leaving hlocks hphase h => exact .leaving hlocks hphase (h.mono hkept)
  | returned hlocks hphase h => exact .returned hlocks hphase (h.mono hkept)
  | stranded hstranding hlocks hphase h => exact .stranded hstranding hlocks hphase h

/-- A caller whose session ends. -/
theorem Caller.ended {p : PgClient} (h : Caller hashtext kept quiet stranding n s t p) :
    Caller hashtext kept quiet stranding n s t.ended p := by
  have hholds : t.ended.Holds (hashtext n) := fun halive => by cases halive
  cases h with
  | starting => exact .starting rfl rfl
  | locked => exact .locked hholds rfl
  | creating => exact .creating hholds fun hphase => by cases hphase
  | created _ _ h => exact .created hholds rfl h
  | outrun _ _ h => exact .outrun hholds rfl h
  | failing _ _ h => exact .failing hholds rfl h
  | unlocking _ _ h => exact .unlocking hholds rfl h
  | leaving _ _ h => exact .leaving rfl rfl h
  | returned _ _ h => exact .returned rfl rfl h
  | stranded hstranding _ _ h => exact .stranded hstranding hholds rfl h

/-- The handlers: a rollback, or the `finally` at once. -/
theorem Caller.handler {e : Exc} (hlocks : t.Holds (hashtext n)) (hphase : t.phase = .idle)
    (h : e.isDuplicateSchema = true → SchemaResult kept n s (.ok ())) :
    Caller hashtext kept quiet stranding n s t (trying n (schemaHandler e)) := by
  unfold schemaHandler
  split_ifs with hdup hexception
  · exact .outrun hlocks hphase (h hdup)
  · exact .failing hlocks hphase (Bool.eq_false_iff.2 hdup)
  · exact .unlocking hlocks hphase (Bool.eq_false_iff.2 hdup)

/-! ## One step -/

theorem PgShared.setOwner_owner {key key' : ℤ} {owner : Option ι} :
    (s.setOwner key owner).owner key' = if key' = key then owner else s.owner key' := Function.update_apply ..

/-- A lock that no other session has goes to this one, or is free. -/
theorem LockStep.setOwner {key : ℤ} {owner : Option ι} (hbefore : s.owner key = none ∨ s.owner key = some i)
    (hafter : owner = none ∨ owner = some i) : LockStep hashtext i s (s.setOwner key owner) where
  owner key' j hj := by
    rw [PgShared.setOwner_owner]
    split_ifs with hkey
    · subst hkey
      refine iff_of_false ?_ ?_
      · rcases hafter with rfl | rfl
        · exact nofun
        · exact fun h => hj (Option.some.inj h).symm
      · rcases hbefore with h | h
        · rw [h]
          exact nofun
        · rw [h]
          exact fun h => hj (Option.some.inj h).symm
    · exact Iff.rfl
  kept := List.Subset.refl _
  created _ hn hnew := absurd hn hnew

theorem LockStep.refl : LockStep hashtext i s s where
  owner _ _ _ := Iff.rfl
  kept := List.Subset.refl _
  created _ hn hnew := absurd hn hnew

theorem LockStep.free [DecidableEq ι] (h : LockStep hashtext i s s') : LockStep hashtext i s (s'.free i) where
  owner key j hj := by
    rw [← h.owner key j hj]
    unfold PgShared.free
    dsimp only
    split_ifs with howner
    · rw [howner]
      exact iff_of_false nofun fun h => hj (Option.some.inj h).symm
    · exact Iff.rfl
  kept := h.kept
  created := h.created

theorem LockStep.create (howner : s.owner (hashtext n) = some i) : LockStep hashtext i s (s.create n) where
  owner _ _ _ := Iff.rfl
  kept := List.subset_cons_self _ _
  created m hm hnew := by
    rcases List.mem_cons.1 hm with rfl | hm
    · exact howner
    · exact absurd hm hnew

/-- The session of another caller. -/
theorem Session.other {j : ι} (h : Session j s t) (hstep : LockStep hashtext i s s') (hj : j ≠ i) : Session j s' t where
  pid := h.pid
  owner key := (hstep.owner key j hj).trans (h.owner key)
  dead := h.dead

theorem Session.ended [DecidableEq ι] (h : Session i s t) (s' : PgShared ι) : Session i (s'.free t.pid) t.ended where
  pid := h.pid
  owner key := by
    unfold PgShared.free LockSession.ended
    dsimp only
    rw [h.pid]
    split_ifs with howner
    · exact iff_of_false nofun List.not_mem_nil
    · exact iff_of_false howner List.not_mem_nil
  dead _ := ⟨rfl, rfl⟩

/-- A session takes a lock. -/
theorem Session.take {key : ℤ} (h : Session i s t) (halive : t.alive = true) :
    Session i (s.setOwner key (some t.pid)) { t with locks := key :: t.locks } where
  pid := h.pid
  owner key' := by
    rw [PgShared.setOwner_owner, List.mem_cons, h.pid, ← h.owner key']
    split_ifs with hkey
    · exact iff_of_true rfl (.inl hkey)
    · exact ⟨.inr, fun h => h.resolve_left hkey⟩
  dead hdead := by
    dsimp only at hdead
    rw [halive] at hdead
    cases hdead

/-- A session that has a lock once gives it back. -/
theorem Session.release {key : ℤ} (h : Session i s t) (halive : t.alive = true) (hlocks : t.locks = [key]) :
    Session i (s.setOwner key none) { t with locks := [] } where
  pid := h.pid
  owner key' := by
    rw [PgShared.setOwner_owner]
    split_ifs with hkey
    · exact iff_of_false nofun List.not_mem_nil
    · rw [h.owner key', hlocks, List.mem_singleton]
      exact iff_of_false hkey List.not_mem_nil
  dead hdead := by
    dsimp only at hdead
    rw [halive] at hdead
    cases hdead

/-- The phase of a live session does not concern its locks. -/
theorem Session.phase (h : Session i s t) (halive : t.alive = true) (phase : WritePhase) :
    Session i s { t with phase := phase } where
  pid := h.pid
  owner := h.owner
  dead hdead := by
    dsimp only at hdead
    rw [halive] at hdead
    cases hdead

theorem Caller.owner (hsession : Session i s t) (halive : t.alive = true) (hlocks : t.Holds (hashtext n)) :
    s.owner (hashtext n) = some i := by
  rw [hsession.owner, hlocks halive]
  exact List.mem_cons_self

/-- **An exception** that no other creator causes: from a server that refuses a request, or
    from the driver of a session that has ended. -/
theorem Caller.raised {r : LockStatement} {k : Except Exc Unit → PgClient} {e : Exc}
    (h : Caller hashtext kept quiet stranding n s t (.ask r k)) (he : e.isDuplicateSchema = false)
    (hwhy : t.locks = [] ∧ t.phase = .idle ∨ r.Refusable stranding) :
    Caller hashtext kept quiet stranding n s { t with phase := .idle } (k (.error e)) := by
  generalize hp : Client.ask r k = p at h
  cases h with
  | starting hlocks => cases hp; exact .returned hlocks rfl he
  | locked hlocks =>
    cases hp
    rcases hwhy with ⟨hnone, -⟩ | hr
    · exact .returned hnone rfl he
    · exact hr.elim
  | creating hlocks => cases hp; exact .handler hlocks rfl fun hdup => by rw [he] at hdup; cases hdup
  | created hlocks => cases hp; exact .handler hlocks rfl fun hdup => by rw [he] at hdup; cases hdup
  | outrun hlocks => cases hp; exact .unlocking hlocks rfl he
  | failing hlocks => cases hp; exact .unlocking hlocks rfl he
  | unlocking hlocks =>
    cases hp
    rcases hwhy with ⟨hnone, -⟩ | hr
    · exact .returned hnone rfl he
    · exact .stranded hr hlocks rfl he
  | leaving hlocks => cases hp; exact .returned hlocks rfl he
  | returned | stranded => cases hp

/-- **What the server does** for a caller. -/
theorem Caller.work {r : LockStatement} {k : Except Exc Unit → PgClient} {res : Option (Except Exc Unit)}
    (hsession : Session i s t) (h : Caller hashtext kept quiet stranding n s t (.ask r k))
    (hwork : PgWork hashtext r s t s' t' res) :
    LockStep hashtext i s s' ∧ Session i s' t' ∧
      Caller hashtext kept quiet stranding n s' t' (Client.resume r k res) := by
  generalize hp : Client.ask r k = p at h
  cases hwork with
  | dead halive he =>
    obtain ⟨hnone, hphase⟩ := hsession.dead halive
    subst hp
    have hraised := h.raised he (.inl ⟨hnone, hphase⟩)
    rw [← hphase] at hraised
    exact ⟨.refl, hsession, hraised⟩
  | locked halive hfree =>
    cases h with
    | starting hlocks hphase =>
      cases hp
      refine ⟨.setOwner (hsession.pid ▸ hfree) (.inr (hsession.pid ▸ rfl)), hsession.take halive, ?_⟩
      exact .locked (fun _ => by rw [hlocks]) hphase
    | _ => cases hp
  | unlocked halive hmem =>
    cases h with
    | unlocking hlocks hphase h =>
      cases hp
      have hone := hlocks halive
      have hnone : t.locks.erase (hashtext n) = [] := by rw [hone, List.erase_cons_head]
      rw [hnone, if_neg List.not_mem_nil]
      exact ⟨.setOwner (.inr (Caller.owner hsession halive hlocks)) (.inl rfl), hsession.release halive hone,
        .leaving rfl hphase (h.mono fun _ => List.Subset.refl _)⟩
    | _ => cases hp
  | notHeld halive hmem =>
    cases h with
    | unlocking hlocks =>
      cases hp
      rw [hlocks halive] at hmem
      exact absurd List.mem_cons_self hmem
    | _ => cases hp
  | found halive hphase hn =>
    cases h with
    | creating hlocks =>
      cases hp
      exact ⟨.refl, hsession, .created hlocks hphase fun _ => hn⟩
    | _ => cases hp
  | notFound halive hphase hn =>
    cases h with
    | creating hlocks =>
      cases hp
      exact ⟨.refl, hsession.phase halive .writing, .creating hlocks fun _ _ => hn⟩
    | _ => cases hp
  | written halive hphase hn =>
    cases h with
    | creating hlocks =>
      cases hp
      refine ⟨.create (Caller.owner hsession halive hlocks), ?_, .created hlocks rfl fun _ => List.mem_cons_self⟩
      have hidle := hsession.phase halive .idle
      exact ⟨hidle.pid, hidle.owner, hidle.dead⟩
    | _ => cases hp
  | lost halive hphase hn he =>
    cases h with
    | creating hlocks =>
      cases hp
      exact ⟨.refl, hsession.phase halive .idle, .handler hlocks rfl fun _ _ => hn⟩
    | _ => cases hp
  | settled halive hr =>
    refine ⟨.refl, hsession, ?_⟩
    cases h with
    | locked hlocks hphase =>
      cases hp
      exact .creating hlocks fun hwriting => by rw [hphase] at hwriting; cases hwriting
    | created hlocks hphase h => cases hp; exact .unlocking hlocks hphase h
    | outrun hlocks hphase h => cases hp; exact .unlocking hlocks hphase h
    | failing hlocks hphase h => cases hp; exact .unlocking hlocks hphase h
    | leaving hlocks hphase h => cases hp; exact .returned hlocks hphase h
    | starting => cases hp; rcases hr with hr | hr <;> cases hr
    | creating => cases hp; rcases hr with hr | hr <;> cases hr
    | unlocking => cases hp; rcases hr with hr | hr <;> cases hr
    | returned | stranded => cases hp

/-- **An interrupt** when the server has done its work: before the `try` and behind the
    unlock it ends the call, within the `try` the lock is given back. -/
theorem Caller.interrupted {r : LockStatement} {k : Except Exc Unit → PgClient} {e : Exc}
    (h : Caller hashtext kept quiet stranding n s t (.ask r k)) (hwork : PgWork hashtext r s t s' t' (some (.ok ())))
    (hstranding : stranding) (he : e.isDuplicateSchema = false) :
    Caller hashtext kept quiet stranding n s' t' (k (.error e)) := by
  have hhandler : ∀ {t : LockSession ι} {s : PgShared ι}, t.Holds (hashtext n) → t.phase = .idle →
      Caller hashtext kept quiet stranding n s t (trying n (schemaHandler e)) :=
    fun hlocks hphase => .handler hlocks hphase fun hdup => by rw [he] at hdup; cases hdup
  generalize hp : Client.ask r k = p at h
  cases hwork with
  | locked halive hfree =>
    cases h with
    | starting hlocks hphase => cases hp; exact .stranded hstranding (fun _ => by rw [hlocks]) hphase he
    | _ => cases hp
  | unlocked halive hmem =>
    cases h with
    | unlocking hlocks hphase =>
      cases hp
      exact .returned (by rw [hlocks halive, List.erase_cons_head]) hphase he
    | _ => cases hp
  | notHeld halive hmem =>
    cases h with
    | unlocking hlocks =>
      cases hp
      rw [hlocks halive] at hmem
      exact absurd List.mem_cons_self hmem
    | _ => cases hp
  | found halive hphase =>
    cases h with
    | creating hlocks => cases hp; exact hhandler hlocks hphase
    | _ => cases hp
  | written =>
    cases h with
    | creating hlocks => cases hp; exact hhandler hlocks rfl
    | _ => cases hp
  | settled halive hr =>
    cases h with
    | locked hlocks hphase => cases hp; exact .stranded hstranding hlocks hphase he
    | created hlocks hphase => cases hp; exact hhandler hlocks hphase
    | outrun hlocks hphase => cases hp; exact .unlocking hlocks hphase he
    | failing hlocks hphase => cases hp; exact .unlocking hlocks hphase he
    | leaving hlocks hphase => cases hp; exact .returned hlocks hphase he
    | starting => cases hp; rcases hr with hr | hr <;> cases hr
    | creating => cases hp; rcases hr with hr | hr <;> cases hr
    | unlocking => cases hp; rcases hr with hr | hr <;> cases hr
    | returned | stranded => cases hp

/-- **One step of a caller**: it stays where a caller can be, and does what it may. -/
theorem Caller.serve [DecidableEq ι] {strandings : ι → Prop} {r : LockStatement} {k : Except Exc Unit → PgClient}
    {res : Option (Except Exc Unit)} (hsession : Session i s t)
    (h : Caller hashtext kept quiet (strandings i) n s t (.ask r k))
    (hserve : PgServe hashtext strandings r s t s' t' res) :
    LockStep hashtext i s s' ∧ Session i s' t' ∧
      Caller hashtext kept quiet (strandings i) n s' t' (Client.resume r k res) := by
  cases hserve with
  | work hwork => exact h.work hsession hwork
  | refused halive hr he => exact ⟨.refl, hsession.phase halive .idle, h.raised he (.inr (hsession.pid ▸ hr))⟩
  | interrupted hwork hstranding he =>
    obtain ⟨hstep, hsession', -⟩ := h.work hsession hwork
    exact ⟨hstep, hsession', h.interrupted hwork (hsession.pid ▸ hstranding) he⟩
  | ended halive =>
    refine ⟨hsession.pid ▸ LockStep.refl.free, hsession.ended s, h.ended.mono (fun _ => List.Subset.refl _) ?_⟩
    exact fun _ hphase => by cases hphase
  | @writtenEnded _ _ m halive hphase hn =>
    have howner : s.owner (hashtext m) = some i := by
      generalize hp : Client.ask (.createSchemaIfNotExists m) k = p at h
      cases h with
      | creating hlocks => cases hp; exact Caller.owner hsession halive hlocks
      | _ => cases hp
    refine ⟨hsession.pid ▸ (LockStep.create howner).free, hsession.ended _, h.ended.mono ?_ ?_⟩
    · exact fun _ => List.subset_cons_self _ _
    · exact fun _ hphase => by cases hphase

/-- A caller that is about to write the schema has the lock. -/
theorem Caller.owner_of_writing {p : PgClient} (hsession : Session i s t)
    (h : Caller hashtext kept quiet stranding n s t p)
    (hwriting : t.phase = .writing) : s.owner (hashtext n) = some i ∧ (quiet → n ∉ s.schemas) := by
  cases h with
  | creating hlocks hn =>
    refine ⟨Caller.owner hsession ?_ hlocks, hn hwriting⟩
    cases halive : t.alive with
    | true => rfl
    | false =>
      rw [(hsession.dead halive).2] at hwriting
      cases hwriting
  | starting _ hidle | locked _ hidle | created _ hidle | outrun _ hidle | failing _ hidle
  | unlocking _ hidle | leaving _ hidle | returned _ hidle | stranded _ _ hidle =>
    rw [hidle] at hwriting
    cases hwriting

/-- A caller that has not returned asks for something; if the server has nothing to do about
    that, the caller waits for a lock. -/
theorem Caller.progress {p : PgClient} (h : Caller hashtext kept quiet stranding n s t p) :
    (∃ result, p = .done result) ∨
      (∃ r k s' t' res, p = .ask r k ∧ PgWork hashtext r s t s' t' res) ∨
        t.locks = [] ∧ ∃ j, s.owner (hashtext n) = some j := by
  cases halive : t.alive with
  | false =>
    cases p with
    | done result => exact .inl ⟨result, rfl⟩
    | ask r k => exact .inr (.inl ⟨r, k, s, t, _, rfl, @PgWork.dead _ _ _ _ _ (.text .valueError []) halive rfl⟩)
  | true =>
    cases h with
    | returned | stranded => exact .inl ⟨_, rfl⟩
    | starting hlocks =>
      cases howner : s.owner (hashtext n) with
      | none => exact .inr (.inl ⟨_, _, _, _, _, rfl, .locked halive (.inl howner)⟩)
      | some j => exact .inr (.inr ⟨hlocks, j, rfl⟩)
    | locked => exact .inr (.inl ⟨_, _, _, _, _, rfl, .settled halive (.inl rfl)⟩)
    | created => exact .inr (.inl ⟨_, _, _, _, _, rfl, .settled halive (.inl rfl)⟩)
    | leaving => exact .inr (.inl ⟨_, _, _, _, _, rfl, .settled halive (.inl rfl)⟩)
    | outrun => exact .inr (.inl ⟨_, _, _, _, _, rfl, .settled halive (.inr rfl)⟩)
    | failing => exact .inr (.inl ⟨_, _, _, _, _, rfl, .settled halive (.inr rfl)⟩)
    | unlocking hlocks =>
      exact .inr (.inl ⟨_, _, _, _, _, rfl, .unlocked halive (by rw [hlocks halive]; exact List.mem_cons_self)⟩)
    | creating =>
      refine .inr (.inl ?_)
      cases hphase : t.phase with
      | idle =>
        by_cases hn : n ∈ s.schemas
        · exact ⟨_, _, _, _, _, rfl, .found halive hphase hn⟩
        · exact ⟨_, _, _, _, _, rfl, .notFound halive hphase hn⟩
      | writing =>
        by_cases hn : n ∈ s.schemas
        · exact ⟨_, _, _, _, _, rfl, @PgWork.lost _ _ _ _ _
            (.text (.other (py "psycopg2.errors.DuplicateSchema")) []) halive hphase hn (by decide)⟩
        · exact ⟨_, _, _, _, _, rfl, .written halive hphase hn⟩

end

/-! ## Any run -/

section
variable [DecidableEq ι] {hashtext : Str → ℤ} {stranding : ι → Prop} {names : ι → Str}
  {others : PgShared ι → PgShared ι → Prop}
  {schemas : List Str} {c : LockPool ι}

/-- Other parties drop no schema. -/
def Kept (others : PgShared ι → PgShared ι → Prop) : Prop := ∀ s s', others s s' → s.schemas ⊆ s'.schemas

/-- Other parties create none of these schemas. -/
def Quiet (names : ι → Str) (others : PgShared ι → PgShared ι → Prop) : Prop :=
  ∀ s s', others s s' → ∀ i, names i ∈ s'.schemas → names i ∈ s.schemas

/-- **Where the callers can be** in any run in which other parties leave the locks alone. -/
theorem lockers_invariant (hothers : ∀ s s', others s s' → s'.owner = s.owner)
    (hrun : Pool.Run (PgServe hashtext stranding) others (lockers names schemas) c) (i : ι) :
    Session i c.shared (c.session i) ∧ Caller hashtext (Kept others) (Quiet names others) (stranding i) (names i)
      c.shared (c.session i) (c.client i) := by
  refine Pool.rely_guarantee (fun i s s' => LockStep hashtext i s s')
    (fun i s t p => Session i s t ∧
      Caller hashtext (Kept others) (Quiet names others) (stranding i) (names i) s t p)
    (fun h hserve => ?_) (fun ho h => ?_) (fun hne hstep h => ?_) (fun i => ?_) hrun i
  · obtain ⟨hstep, hsession, hcaller⟩ := h.2.serve h.1 hserve
    exact ⟨hstep, hsession, hcaller⟩
  · obtain ⟨hsession, hcaller⟩ := h
    refine ⟨⟨hsession.pid, fun key => ?_, hsession.dead⟩,
      hcaller.mono (fun hkept => hkept _ _ ho) fun hquiet _ hn => hquiet _ _ ho _ hn⟩
    rw [hothers _ _ ho]
    exact hsession.owner key
  · obtain ⟨hsession, hcaller⟩ := h
    refine ⟨hsession.other hstep hne, hcaller.mono (fun _ => hstep.kept) fun _ hphase hn => ?_⟩
    -- whoever writes the schema has the lock, which this caller has
    by_contra hnew
    have hcreator := hstep.created _ hn hnew
    rw [(hcaller.owner_of_writing hsession hphase).1] at hcreator
    exact hne (Option.some.inj hcreator)
  · exact ⟨⟨rfl, fun key => iff_of_false nofun List.not_mem_nil, nofun⟩, .starting rfl rfl⟩

omit [DecidableEq ι] in
/-- What is left of a caller that is done. -/
theorem Caller.done {kept quiet stranding : Prop} {n : Str} {i : ι} {s : PgShared ι} {t : LockSession ι}
    {result : Except Exc Unit} (hsession : Session i s t)
    (h : Caller hashtext kept quiet stranding n s t (.done result)) :
    SchemaResult kept n s result ∧
      ∀ key, s.owner key = some i → stranding ∧ key = hashtext n ∧ ∃ e, result = .error e := by
  generalize hp : Client.done result = p at h
  cases h with
  | returned hlocks _ h =>
    cases hp
    refine ⟨h, fun key howner => ?_⟩
    rw [hsession.owner key, hlocks] at howner
    cases howner
  | stranded hstranding hlocks _ h =>
    cases hp
    refine ⟨h, fun key howner => ⟨hstranding, ?_, _, rfl⟩⟩
    rw [hsession.owner key] at howner
    cases halive : t.alive with
    | true =>
      rw [hlocks halive] at howner
      exact List.mem_singleton.1 howner
    | false =>
      rw [(hsession.dead halive).1] at howner
      cases howner
  | _ => cases hp

omit [DecidableEq ι] in
/-- The requests of one call. -/
theorem ensureSchemaPg_within (n : Str) : (ensureSchemaPg n).Within 7 := by
  have hhandler : ∀ e, (schemaHandler e).Within 1 := by
    intro e
    unfold schemaHandler
    split_ifs
    · exact Client.Within.call
    · exact Client.Within.call.andThen fun _ => Client.Within.done
    · exact Client.Within.done.mono (Nat.zero_le 1)
  unfold ensureSchemaPg
  refine (Client.Within.call.andThen fun _ => Client.Within.call.andThen fun _ =>
    ((Client.Within.call.andThen fun _ => Client.Within.call).handle hhandler).always
      (Client.Within.call.andThen fun _ => Client.Within.call)).mono (le_of_eq ?_)
  rfl

/-- What the server may still do about one request of a session. -/
def LockSession.work (t : LockSession ι) : ℕ :=
  if t.alive then
    match t.phase with
    | .idle => 2
    | .writing => 1
  else 0

omit [DecidableEq ι] in
theorem LockSession.work_le (t : LockSession ι) : t.work ≤ 2 := by
  unfold work
  split_ifs
  · cases t.phase <;> simp
  · omega

/-- A step without an answer leaves less to do. -/
theorem PgServe.work_lt {r : LockStatement} {s s' : PgShared ι} {t t' : LockSession ι}
    (h : PgServe hashtext stranding r s t s' t' none) : t'.work < t.work := by
  have hended : t.alive = true → t.ended.work < t.work := by
    intro halive
    unfold LockSession.work LockSession.ended
    rw [if_pos halive]
    cases t.phase <;> simp
  cases h with
  | ended halive => exact hended halive
  | writtenEnded halive => exact hended halive
  | work h =>
    cases h with
    | notFound halive hphase =>
      unfold LockSession.work
      dsimp only
      rw [if_pos halive, if_pos halive, hphase]
      decide

/-- **No caller waits for ever**: callers of `ensure_schema` take at most 23 steps each,
    whatever goes wrong and whatever other parties do; and as long as one of them is not done,
    the server has something to do for one of them, or one that raised has kept its lock. -/
theorem ensureSchema_ends [Fintype ι] (hashtext : Str → ℤ) (stranding : ι → Prop) (names : ι → Str)
    (others : PgShared ι → PgShared ι → Prop) (hothers : ∀ s s', others s s' → s'.owner = s.owner)
    (schemas : List Str) :
    (∀ steps c, Pool.Counted (PgServe hashtext stranding) others steps (lockers names schemas) c →
      steps ≤ 23 * Fintype.card ι) ∧
    ∀ c, Pool.Run (PgServe hashtext stranding) others (lockers names schemas) c →
      (∀ i, ∃ result, c.client i = .done result) ∨ (∃ i c', Pool.Serves (PgWork hashtext) i c c') ∨
        ∃ i e, stranding i ∧ c.client i = .done (.error e) ∧ c.shared.owner (hashtext (names i)) = some i := by
  refine ⟨fun steps c hrun => ?_, fun c hrun => ?_⟩
  · have hle := Pool.count_le LockSession.work LockSession.work_le (fun h => h.work_lt) hrun (fun _ => 7)
      fun i => ensureSchemaPg_within (names i)
    refine hle.trans (le_of_eq ?_)
    calc ∑ i, ((2 + 1) * 7 + ((lockers names schemas).session i).work)
      _ = ∑ _ : ι, 23 := rfl
      _ = 23 * Fintype.card ι := by rw [Finset.sum_const, Finset.card_univ, smul_eq_mul, mul_comm]
  · have hinv := lockers_invariant hothers hrun
    have hserves : ∀ {i r k s' t' res}, c.client i = .ask r k → PgWork hashtext r c.shared (c.session i) s' t' res →
        ∃ i c', Pool.Serves (PgWork hashtext) i c c' := fun hask hwork => ⟨_, _, .intro hask hwork⟩
    rw [or_iff_not_imp_left, not_forall]
    rintro ⟨i, hi⟩
    rcases (hinv i).2.progress with hdone | ⟨r, k, s', t', res, hask, hwork⟩ | ⟨-, j, howner⟩
    · exact absurd hdone hi
    · exact .inl (hserves hask hwork)
    · -- the caller that has the lock goes on, or is done
      rcases (hinv j).2.progress with ⟨result, hdone⟩ | ⟨r, k, s', t', res, hask, hwork⟩ | ⟨hnone, -⟩
      · have hcaller := (hinv j).2
        rw [hdone] at hcaller
        obtain ⟨hstranding, hkey, e, rfl⟩ := (hcaller.done (hinv j).1).2 _ howner
        exact .inr ⟨j, e, hstranding, hdone, hkey ▸ howner⟩
      · exact .inl (hserves hask hwork)
      · have hmem := ((hinv j).1.owner _).1 howner
        rw [hnone] at hmem
        cases hmem

end

/-- Two callers for one schema; the first is interrupted when it has the lock, and the
    server cannot serve the second. -/
theorem ensureSchema_ends_two : ∃ c : LockPool Bool,
    Pool.Run (PgServe (fun _ => 0) fun i => i = true) (fun _ _ => False) (lockers (fun _ => py "s") []) c ∧
      (¬ ∃ i c', Pool.Serves (PgWork fun _ => 0) i c c') ∧ c.shared.owner 0 = some true := by
  let c₀ : LockPool Bool := lockers (fun _ => py "s") []
  let interrupt : Exc := .text (.base (py "KeyboardInterrupt")) []
  let c₁ : LockPool Bool := ⟨c₀.shared.setOwner 0 (some true),
    Function.update c₀.session true ⟨true, true, .idle, [0]⟩,
    Function.update c₀.client true (.done (.error interrupt))⟩
  have h₁ : Pool.Serves (PgServe (fun _ => 0) fun i => i = true) true c₀ c₁ :=
    Pool.Serves.to (show c₀.client true = .ask (.advisoryLock (py "s")) _ from rfl)
      (.interrupted (.locked rfl (.inl rfl)) rfl rfl) rfl
  have hrun : Pool.Run (PgServe (fun _ => 0) fun i => i = true) (fun _ _ => False) c₀ c₁ :=
    .single (.client h₁)
  have hstuck : ¬ ∃ i c', Pool.Serves (PgWork fun _ => 0) i c₁ c' := by
    rintro ⟨i, c', @⟨r, k, s, t, res, hask, hwork⟩⟩
    cases i with
    | true => cases hask
    | false =>
      cases hask
      cases hwork with
      | locked _ hfree => rcases hfree with hfree | hfree <;> cases hfree
      | settled _ hr => rcases hr with hr | hr <;> cases hr
      | dead halive => cases halive
  have hends := (ensureSchema_ends (fun _ => 0) (fun i => i = true) (fun _ : Bool => py "s") (fun _ _ => False)
    (fun _ _ h => h.elim) []).2 c₁ hrun
  refine ⟨c₁, hrun, hstuck, ?_⟩
  rcases hends with hall | hserves | ⟨i, e, rfl, -, howner⟩
  · obtain ⟨result, hdone⟩ := hall false
    cases hdone
  · exact absurd hserves hstuck
  · exact howner

end ContinuoRuntime
