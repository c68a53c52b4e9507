/-
  `DuckLakeSession.connect`: up to five connections, of which at most one stays open.

  The engine, the clock and the file system answer each call as they like, from the calls
  before it.

  * `connect`, `openConnection`, `loadExtension`: the methods, over a list of their calls;
  * `connect_closes`: **what stays open**, however it ends, and which exceptions leave it.
-/
import ContinuoRuntime.Lib.Calls
import ContinuoRuntime.Libpq
import ContinuoRuntime.DuckDb.Conninfo
import ContinuoRuntime.DuckDb.Redaction

namespace ContinuoRuntime
namespace DuckLakeConnect

/-! ## Statements -/

/-- `CATALOG_ALIAS`. -/
def catalogAlias : Str := py "lake"

/-- `load_extension` of the DDL. -/
def loadStatement (name : Str) : Str := py "LOAD " ++ quoteIdentifier name

/-- `install_extension`. -/
def installStatement (name : Str) : Str := py "INSTALL " ++ quoteIdentifier name

/-- `set_extension_directory`. -/
def setExtensionDirectory (directory : Str) : Str := py "SET extension_directory = " ++ sqlLiteral directory

/-- `set_temp_directory`. -/
def setTempDirectory (directory : Str) : Str := py "SET temp_directory = " ++ sqlLiteral directory

/-- `use_catalog`. -/
def useCatalog (catalog : Str) : Str := py "USE " ++ quoteIdentifier catalog

/-- `uses_s3`. -/
def usesS3 (settings : DuckLakeSettings) : Prop := py "s3://" <+: settings.dataPath

instance (settings : DuckLakeSettings) : Decidable (usesS3 settings) := inferInstanceAs (Decidable (_ <+: _))

/-- `EXTENSIONS`. -/
def extensions : List Str := [py "ducklake", py "postgres", py "httpfs", py "aws"]

/-- `extensions_to_load`. -/
def extensionsToLoad (settings : DuckLakeSettings) : List Str :=
  let chain := usesS3 settings ∧
    ((truthy settings.s3AccessKeyId).isNone ∨ (truthy settings.s3SecretAccessKey).isNone)
  extensions.filter fun name => name ≠ py "aws" ∨ chain

/-! ## Calls -/

/-- An exception: a `duckdb.Error`, or another. -/
inductive Raised where
  | engine (exc : EngineError)
  | other (exc : Exc)

/-- What the session calls. -/
inductive Call where
  /-- `duckdb.connect()` -/
  | connect
  | execute (statement : Str)
  /-- `close` of the last connection -/
  | closeConnection
  | sleep (tenths : ℕ)
  /-- `close` of the passfile -/
  | closePassfile

/-- A call of the engine. -/
def Call.isEngine : Call → Bool
  | connect | execute _ | closeConnection => true
  | sleep _ | closePassfile => false

/-- A call, and what it raised. -/
abbrev Event := Call × Option Raised

/-- Everything around the session; only the engine raises a `duckdb.Error`. -/
structure World where
  settings : DuckLakeSettings
  extensionDirectory : Option Str
  tempDirectory : Option Str
  /-- whether `PGPASSWORD` is set -/
  pgPassword : Bool
  /-- how creating the passfile ends -/
  created : Except Exc {path : Str // path ≠ []}
  raises : List Event → Call → Option Raised
  raises_other : ∀ events c exc, c.isEngine = false → raises events c ≠ some (.engine exc)
  /-- which classes take a single message -/
  constructs : EngineClass → Bool
  /-- the order of a set of texts -/
  order : SetOrder
  /-- `str.lower` -/
  lower : Str → Str

variable (w : World)

/-- A call. -/
def call (c : Call) : Prog Raised (List Event) Unit :=
  Prog.record (fun events => w.raises events c) fun raised => (c, raised)

/-- `_load_extension`. -/
def loadExtension (name : Str) : Prog Raised (List Event) Unit :=
  (call w (.execute (loadStatement name))).handle fun
    | .engine _ => do
      call w (.execute (installStatement name))
      call w (.execute (loadStatement name))
    | .other e => Prog.raise (.other e)

/-- The statement of a setting that is not empty. -/
def setDirectory (statement : Str → Str) (directory : Option Str) : Prog Raised (List Event) Unit :=
  match truthy directory with
  | some directory => call w (.execute (statement directory))
  | none => pure ()

/-- The secret of the object store, if the data is in one. -/
def createSecret : Prog Raised (List Event) Unit :=
  if usesS3 w.settings then call w (.execute (s3SecretStatement w.settings)) else pure ()

/-- The body of `_open`. -/
def attach (passfile : Option Passfile) : Prog Raised (List Event) Unit := do
  setDirectory w setExtensionDirectory w.extensionDirectory
  setDirectory w setTempDirectory w.tempDirectory
  (extensionsToLoad w.settings).forM (loadExtension w)
  createSecret w
  call w (.execute (attachStatement w.settings catalogAlias (passfile.map Passfile.path)))
  call w (.execute (useCatalog catalogAlias))

/-- `_open`. -/
def openConnection (passfile : Option Passfile) : Prog Raised (List Event) Unit := do
  call w .connect
  (attach w passfile).handle fun e => do
    call w .closeConnection
    Prog.raise e

/-- `_ATTACH_ATTEMPTS`. -/
def attachAttempts : ℕ := 5

/-- `_is_first_attach_race`. -/
def isFirstAttachRace (message : Str) : Prop :=
  py "Failed to initialize DuckLake" <:+: message ∧
    (py "duplicate" <:+: w.lower message ∨ py "already exists" <:+: w.lower message)

instance (message : Str) : Decidable (isFirstAttachRace w message) := inferInstanceAs (Decidable (_ ∧ (_ ∨ _)))

/-- The handler of an attempt, with so many attempts left; the pauses are in tenths of a
    second. -/
def failed (left : ℕ) : Raised → Prog Raised (List Event) Unit
  | .engine exc =>
    if left ≠ 0 ∧ isFirstAttachRace w exc.message then call w (.sleep (2 * (attachAttempts - left)))
    else if left ≠ 0 ∧ isUnreachable exc.message then call w (.sleep 20)
    else Prog.raise (.engine (translate w.constructs (secretTexts w.order w.settings) false exc))
  | .other e => Prog.raise (.other e)

/-- `passfile.close()`, if there is one. -/
def closePassfile : Option Passfile → Prog Raised (List Event) Unit
  | some _ => call w .closePassfile
  | none => pure ()

/-- What `open_passfile` returns. -/
def passfile : Except Exc (Option Passfile) := openPassfile w.settings.catalogPassword w.pgPassword w.created

/-- The attempts, and what is closed if they fail. -/
def attempts (passfile : Option Passfile) : Prog Raised (List Event) Unit :=
  (Prog.retry (openConnection w passfile) (failed w)
    (.other (.text (.other (py "AssertionError")) (py "unreachable"))) attachAttempts).handle fun e => do
    closePassfile w passfile
    Prog.raise e

/-- `connect`; it returns the passfile of the session. -/
def connect : Prog Raised (List Event) (Option Passfile) :=
  match passfile w with
  | .error e => Prog.raise (.other e)
  | .ok passfile => do
    attempts w passfile
    pure passfile

/-! ## What stays open -/

/-- The connections that were opened. -/
def opened (events : List Event) : ℕ := events.countP fun e => match e with
  | (.connect, none) => true
  | _ => false

/-- The connections that were closed. -/
def closed (events : List Event) : ℕ := events.countP fun e => match e with
  | (.closeConnection, _) => true
  | _ => false

/-- The attempts. -/
def tried (events : List Event) : ℕ := events.countP fun e => match e with
  | (.connect, _) => true
  | _ => false

/-- How often the passfile was removed. -/
def removed (events : List Event) : ℕ := events.countP fun e => match e with
  | (.closePassfile, _) => true
  | _ => false

/-- So many connections are open, of so many attempts, and the passfile is there. -/
structure Holds (n k : ℕ) (events : List Event) : Prop where
  balance : opened events = closed events + n
  attempts : tried events = k
  kept : removed events = 0

/-- An engine error that is masked. -/
def Masked (e : Raised) : Prop := ∀ exc, e = .engine exc →
  ∃ inner, exc = translate w.constructs (secretTexts w.order w.settings) false inner

/-- How `connect` ends with an exception. -/
structure GaveUp (passfile : Option Passfile) (e : Raised) (events : List Event) : Prop where
  masked : Masked w e
  balance : opened events = closed events
  attempts : tried events ≤ attachAttempts
  dropped : removed events = passfile.toList.length

section
variable {w} {n k : ℕ} {events : List Event} {e : Raised}

theorem Holds.append {n' k' : ℕ} {event : Event} (h : Holds n k events)
    (hopened : n + opened [event] = closed [event] + n') (htried : k + tried [event] = k')
    (hremoved : removed [event] = 0) : Holds n' k' (events ++ [event]) := by
  obtain ⟨hall, hbefore, hnone⟩ := h
  unfold opened closed at hall hopened
  unfold tried at htried hbefore
  unfold removed at hnone hremoved
  refine ⟨?_, ?_, ?_⟩
  · unfold opened closed
    rw [List.countP_append, List.countP_append]
    omega
  · unfold tried
    rw [List.countP_append, hbefore, htried]
  · unfold removed
    rw [List.countP_append, hnone, hremoved]

theorem Holds.executed (h : Holds n k events) (statement : Str) (raised : Option Raised) :
    Holds n k (events ++ [(.execute statement, raised)]) := h.append (Nat.zero_add n).symm rfl rfl

theorem Holds.slept (h : Holds n k events) (tenths : ℕ) (raised : Option Raised) :
    Holds n k (events ++ [(.sleep tenths, raised)]) := h.append (Nat.zero_add n).symm rfl rfl

theorem Holds.connected (h : Holds 0 k events) : Holds 1 (k + 1) (events ++ [(.connect, none)]) := h.append rfl rfl rfl

theorem Holds.refused (h : Holds 0 k events) : Holds 0 (k + 1) (events ++ [(.connect, some e)]) := h.append rfl rfl rfl

theorem Holds.disconnected (h : Holds 1 k events) (raised : Option Raised) :
    Holds 0 k (events ++ [(.closeConnection, raised)]) := h.append rfl rfl rfl

theorem masked_of_foreign {c : Call} (hc : c.isEngine = false) (h : w.raises events c = some e) : Masked w e := by
  rintro exc rfl
  exact absurd h (w.raises_other events c exc hc)

theorem execute_triple (statement : Str) :
    Prog.Triple (Holds n k) (call w (.execute statement)) (fun _ => Holds n k) fun _ => Holds n k :=
  Prog.Triple.record (fun _ h => h.executed statement none) fun _ e h _ => h.executed statement (some e)

theorem loadExtension_triple (name : Str) :
    Prog.Triple (Holds n k) (loadExtension w name) (fun _ => Holds n k) fun _ => Holds n k := by
  refine (execute_triple _).handle fun e => ?_
  cases e with
  | engine exc => exact (execute_triple _).bind fun _ => execute_triple _
  | other exc => exact Prog.Triple.raise fun _ h => h

theorem setDirectory_triple (statement : Str → Str) (directory : Option Str) :
    Prog.Triple (Holds n k) (setDirectory w statement directory) (fun _ => Holds n k) fun _ => Holds n k := by
  unfold setDirectory
  cases truthy directory with
  | none => exact Prog.Triple.pure fun _ h => h
  | some directory => exact execute_triple _

theorem createSecret_triple :
    Prog.Triple (Holds n k) (createSecret w) (fun _ => Holds n k) fun _ => Holds n k := by
  unfold createSecret
  split_ifs
  · exact execute_triple _
  · exact Prog.Triple.pure fun _ h => h

theorem attach_triple (passfile : Option Passfile) :
    Prog.Triple (Holds n k) (attach w passfile) (fun _ => Holds n k) fun _ => Holds n k := by
  refine (setDirectory_triple _ _).bind fun _ => (setDirectory_triple _ _).bind fun _ => ?_
  refine Prog.Triple.bind (@Prog.Triple.forM Raised (List Event) Str (loadExtension w) (fun _ => Holds n k)
    (fun _ => Holds n k) [] (extensionsToLoad w.settings) fun _ name _ _ => loadExtension_triple name) fun _ => ?_
  exact createSecret_triple.bind fun _ => (execute_triple _).bind fun _ => execute_triple _

/-- An attempt leaves a connection if it returns, and none if it raises. -/
theorem openConnection_triple (passfile : Option Passfile) :
    Prog.Triple (Holds 0 k) (openConnection w passfile) (fun _ => Holds 1 (k + 1)) fun _ => Holds 0 (k + 1) := by
  refine Prog.Triple.bind (Prog.Triple.record (fun _ h => h.connected) fun _ _ h _ => h.refused) fun _ => ?_
  refine (attach_triple passfile).handle fun e => ?_
  exact (Prog.Triple.record (fun _ h => h.disconnected none) fun _ e' h _ => h.disconnected (some e')).bind fun _ =>
    Prog.Triple.raise fun _ h => h

theorem failed_triple (left : ℕ) (e : Raised) : Prog.Triple (Holds 0 k) (failed w left e)
    (fun _ events => left ≠ 0 ∧ Holds 0 k events) fun e' events => Masked w e' ∧ Holds 0 k events := by
  cases e with
  | engine exc =>
    unfold failed
    dsimp only
    split_ifs with hrace hunreachable
    · exact Prog.Triple.record (fun _ h => ⟨hrace.1, h.slept _ none⟩) fun _ e' h hraises =>
        ⟨masked_of_foreign rfl hraises, h.slept _ (some e')⟩
    · exact Prog.Triple.record (fun _ h => ⟨hunreachable.1, h.slept _ none⟩) fun _ e' h hraises =>
        ⟨masked_of_foreign rfl hraises, h.slept _ (some e')⟩
    · refine Prog.Triple.raise fun _ h => ⟨?_, h⟩
      rintro _ ⟨⟩
      exact ⟨exc, rfl⟩
  | other exc =>
    refine Prog.Triple.raise fun _ h => ⟨?_, h⟩
    rintro _ ⟨⟩

/-- The attempts, by how many are left. -/
theorem retry_triple (passfile : Option Passfile) (exhausted : Raised) :
    Prog.Triple (fun events => 0 < attachAttempts ∧ ∃ k, k + attachAttempts = attachAttempts ∧ Holds 0 k events)
      (Prog.retry (openConnection w passfile) (failed w) exhausted attachAttempts)
      (fun _ events => ∃ k ≤ attachAttempts, Holds 1 k events)
      fun e events => Masked w e ∧ ∃ k ≤ attachAttempts, Holds 0 k events := by
  refine @Prog.Triple.retry Raised (List Event) Unit (openConnection w passfile) _ _ (failed w) exhausted
    (fun left events => 0 < left ∧ ∃ k, k + left = attachAttempts ∧ Holds 0 k events)
    (fun left _ events => ∃ k, k + left = attachAttempts ∧ Holds 0 k events) ?_ ?_ ?_ attachAttempts
  · rintro left events ⟨-, k, hk, h⟩
    obtain ⟨hok, herror⟩ := openConnection_triple passfile events h
    exact ⟨fun a s hs => ⟨k + 1, by omega, hok a s hs⟩, fun e s hs => ⟨k + 1, by omega, herror e s hs⟩⟩
  · rintro left e events ⟨k, hk, h⟩
    obtain ⟨hok, herror⟩ := failed_triple left e events h
    exact ⟨fun a s hs => ⟨Nat.pos_of_ne_zero (hok a s hs).1, k, hk, (hok a s hs).2⟩,
      fun e' s hs => ⟨(herror e' s hs).1, k, by omega, (herror e' s hs).2⟩⟩
  · exact fun events h => Nat.lt_irrefl 0 h.1

theorem attempts_triple (passfile : Option Passfile) : Prog.Triple (fun events => events = [])
    (attempts w passfile) (fun _ events => ∃ k ≤ attachAttempts, Holds 1 k events) (GaveUp w passfile) := by
  refine ((retry_triple passfile _).mono ?_ (fun _ _ h => h) fun _ _ h => h).handle fun e => ?_
  · rintro events rfl
    exact ⟨by decide, 0, Nat.zero_add _, rfl, rfl, rfl⟩
  refine Prog.Triple.bind (Q := fun _ => GaveUp w passfile e) ?_ fun _ => Prog.Triple.raise fun _ h => h
  cases passfile with
  | none =>
    refine Prog.Triple.pure ?_
    rintro events ⟨hmasked, k, hk, h⟩
    exact ⟨hmasked, h.balance, h.attempts.trans_le hk, h.kept⟩
  | some passfile =>
    have hclosed : ∀ {events : List Event} {e'} (raised : Option Raised), Masked w e' →
        (∃ k ≤ attachAttempts, Holds 0 k events) →
        GaveUp w (some passfile) e' (events ++ [(.closePassfile, raised)]) := by
      rintro events e' raised hmasked ⟨k, hk, h⟩
      exact ⟨hmasked, by simpa [opened, closed] using h.balance, by simpa [tried] using h.attempts.trans_le hk,
        by simpa [removed] using h.kept⟩
    exact Prog.Triple.record (fun _ h => hclosed none h.1 h.2) fun _ e' h hraises =>
      hclosed (some e') (masked_of_foreign rfl hraises) h.2

end

/-- **What stays open**: after at most five attempts `connect` either has one connection open
    and keeps its passfile, or it raises, has closed every connection it opened and has
    removed its passfile; and a `duckdb.Error` that it raises has the credentials masked. -/
theorem connect_closes (w : World) :
    (∃ e, passfile w = .error e ∧ connect w [] = (.error (.other e), [])) ∨
      ∃ file, passfile w = .ok file ∧
        (((connect w []).1 = .ok file ∧ ∃ k ≤ attachAttempts, Holds 1 k (connect w []).2) ∨
          ∃ e, (connect w []).1 = .error e ∧ GaveUp w file e (connect w []).2) := by
  cases hfile : passfile w with
  | error e =>
    refine .inl ⟨e, rfl, ?_⟩
    unfold connect
    rw [hfile]
    rfl
  | ok file =>
    refine .inr ⟨file, rfl, ?_⟩
    have htriple : Prog.Triple (fun events => events = []) (connect w)
        (fun a events => a = file ∧ ∃ k ≤ attachAttempts, Holds 1 k events) (GaveUp w file) := by
      unfold connect
      rw [hfile]
      exact (attempts_triple file).bind fun _ => Prog.Triple.pure fun _ h => ⟨rfl, h⟩
    obtain ⟨hok, herror⟩ := htriple [] rfl
    rcases hout : connect w [] with ⟨e | a, events⟩
    · exact .inr ⟨e, rfl, herror e events hout⟩
    · obtain ⟨rfl, hholds⟩ := hok a events hout
      exact .inl ⟨rfl, hholds⟩

end DuckLakeConnect
end ContinuoRuntime
