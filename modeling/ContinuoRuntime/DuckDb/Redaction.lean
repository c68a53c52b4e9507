/-
  The redaction of engine errors (`_translate` in `infrastructure/session.py`,
  `secret_texts` in `infrastructure/ddl.py`).

  DuckDB echoes statements in its errors, and with them the credentials.  Every
  spelling of a credential is replaced by `***`, one after the other.

  * `infix_redactMessage`: what stands in a redacted message, and has no `*`, stood
    there before and is no spelling;
  * `translate_redacts`: **no credential leaves the session**, and the spellings are
    those of the statements.
-/
import ContinuoRuntime.DuckDb.Statements

namespace ContinuoRuntime

open Quoting

/-! ## Spellings -/

/-- The order in which a set of texts is iterated. -/
structure SetOrder where
  list : List Str → List Str
  perm : ∀ texts, (list texts).Perm texts

/-- The non-empty credentials of a session. -/
def credentials (settings : DuckLakeSettings) : List Str :=
  (truthy (some settings.catalogPassword)).toList ++ (truthy settings.s3SecretAccessKey).toList

/-- The spellings of one credential. -/
def spellings (secret : Str) : List Str :=
  let quoted := libpqValue secret
  [secret, quoted, replace quoted [ch '\''] [ch '\'', ch '\''], replace secret [ch '\''] [ch '\'', ch '\'']]

/-- `secret_texts`: the longest spellings first. -/
def secretTexts (order : SetOrder) (settings : DuckLakeSettings) : List Str :=
  (order.list ((credentials settings).flatMap spellings).dedup).mergeSort fun a b => b.length ≤ a.length

theorem mem_secretTexts {order : SetOrder} {settings : DuckLakeSettings} {text : Str} :
    text ∈ secretTexts order settings ↔ ∃ secret ∈ credentials settings, text ∈ spellings secret := by
  rw [secretTexts, (List.mergeSort_perm _ _).mem_iff, (order.perm _).mem_iff, List.mem_dedup, List.mem_flatMap]

theorem mem_truthy {value : Option Str} {s : Str} : s ∈ (truthy value).toList ↔ value = some s ∧ s ≠ [] := by
  match value with
  | none => simp [truthy]
  | some [] =>
    simp only [truthy, Option.toList_none, List.not_mem_nil, Option.some.injEq, false_iff, not_and, not_not]
    exact fun h => h.symm
  | some (c :: t) =>
    simp only [truthy, Option.toList_some, List.mem_singleton, Option.some.injEq]
    constructor
    · rintro rfl
      exact ⟨rfl, List.cons_ne_nil _ _⟩
    · exact fun h => h.1.symm

theorem mem_credentials {settings : DuckLakeSettings} {secret : Str} : secret ∈ credentials settings ↔
    (settings.catalogPassword = secret ∨ settings.s3SecretAccessKey = some secret) ∧ secret ≠ [] := by
  rw [credentials, List.mem_append, mem_truthy, mem_truthy, Option.some.injEq, or_and_right]

/-! ## Foreign characters -/

theorem notMem_replace {s new : Str} {c m : CodePoint} (hs : m ∉ s) (hnew : m ∉ new) :
    m ∉ replace s [c] new := by
  rw [replace_singleton, List.mem_flatMap]
  rintro ⟨d, hd, hm⟩
  split_ifs at hm
  · exact hnew hm
  · exact hs (List.mem_singleton.1 hm ▸ hd)

theorem replace_ne_nil {s new : Str} (c : CodePoint) (hs : s ≠ []) (hnew : new ≠ []) : replace s [c] new ≠ [] := by
  obtain ⟨d, s, rfl⟩ := List.exists_cons_of_ne_nil hs
  rw [replace_singleton, List.flatMap_cons]
  split_ifs
  · exact List.append_ne_nil_of_left_ne_nil hnew _
  · exact List.cons_ne_nil _ _

theorem notMem_libpqValue {s : Str} (hs : ch '*' ∉ s) : ch '*' ∉ libpqValue s := by
  unfold libpqValue
  split
  · exact hs
  · have hescaped : ch '*' ∉ replace (replace s [ch '\\'] [ch '\\', ch '\\']) [ch '\''] [ch '\\', ch '\''] :=
      notMem_replace (notMem_replace hs (by decide)) (by decide)
    intro h
    simp only [libpqQuoted, List.mem_append, List.mem_singleton] at h
    rcases h with (h | h) | h
    · exact absurd h (by decide)
    · exact hescaped h
    · exact absurd h (by decide)

theorem libpqValue_ne_nil {s : Str} (hs : s ≠ []) : libpqValue s ≠ [] := by
  unfold libpqValue
  split
  · exact hs
  · simp [libpqQuoted]

/-- A spelling has no character `*` if its credential has none, and is not empty. -/
theorem spelling_plain {secret text : Str} (hstar : ch '*' ∉ secret) (hne : secret ≠ [])
    (h : text ∈ spellings secret) : ch '*' ∉ text ∧ text ≠ [] := by
  have hquoted := libpqValue_ne_nil hne
  simp only [spellings, List.mem_cons, List.not_mem_nil, or_false] at h
  rcases h with rfl | rfl | rfl | rfl
  · exact ⟨hstar, hne⟩
  · exact ⟨notMem_libpqValue hstar, hquoted⟩
  · exact ⟨notMem_replace (notMem_libpqValue hstar) (by decide), replace_ne_nil _ hquoted (by decide)⟩
  · exact ⟨notMem_replace hstar (by decide), replace_ne_nil _ hne (by decide)⟩

/-! ## Messages -/

/-- The loop of `_translate`. -/
def redactMessage (secrets : List Str) (message : Str) : Str :=
  secrets.foldl (fun message secret => if secret = [] then message else replace message secret (py "***")) message

/-- **A redacted message**: what stands in it, and has no `*`, stood in the message, and
    is none of the texts that were masked. -/
theorem infix_redactMessage {t : Str} (ht : ch '*' ∉ t) : ∀ {secrets : List Str} {message : Str},
    t <:+: redactMessage secrets message → t <:+: message ∧ ∀ secret ∈ secrets, secret ≠ [] → t ≠ secret
  | [], message, h => ⟨h, fun _ hs => absurd hs List.not_mem_nil⟩
  | secret :: secrets, message, h => by
    rw [redactMessage, List.foldl_cons, ← redactMessage] at h
    obtain ⟨hin, hrest⟩ := infix_redactMessage ht h
    by_cases hnil : secret = []
    · rw [if_pos hnil] at hin
      refine ⟨hin, fun s hs hne => ?_⟩
      rcases List.mem_cons.1 hs with rfl | hs
      · exact absurd hnil hne
      · exact hrest s hs hne
    · rw [if_neg hnil] at hin
      obtain ⟨hbefore, hother⟩ := @infix_of_infix_replace (ch '*') 2 _ _ _ hnil ht hin
      refine ⟨hbefore, fun s hs hne => ?_⟩
      rcases List.mem_cons.1 hs with rfl | hs
      · exact hother
      · exact hrest s hs hne

/-- The classes of `duckdb.Error` that the session tells apart, and the port's own
    class. -/
inductive EngineClass where
  | lakeConflict
  | transaction
  | error
  | other (name : Str)
  deriving DecidableEq

/-- An engine error with its text. -/
structure EngineError where
  cls : EngineClass
  message : Str
  deriving DecidableEq

/-- `_translate`; `constructs` says which classes take a single message. -/
def translate (constructs : EngineClass → Bool) (secrets : List Str) (conflicts : Bool) (exc : EngineError) :
    EngineError :=
  let message := redactMessage secrets exc.message
  if conflicts = true ∧ exc.cls = .transaction then ⟨.lakeConflict, message⟩
  else if constructs exc.cls = true then ⟨exc.cls, message⟩
  else ⟨.error, message⟩

theorem translate_message (constructs : EngineClass → Bool) (secrets : List Str) (conflicts : Bool)
    (exc : EngineError) : (translate constructs secrets conflicts exc).message = redactMessage secrets exc.message := by
  unfold translate
  dsimp only
  split_ifs <;> rfl

/-! ## No credential leaves -/

/-- The settings with other credentials. -/
def DuckLakeSettings.withPassword (settings : DuckLakeSettings) (password : Str) : DuckLakeSettings :=
  { settings with catalogPassword := password }

def DuckLakeSettings.withS3Secret (settings : DuckLakeSettings) (secret : Option Str) : DuckLakeSettings :=
  { settings with s3SecretAccessKey := secret }

/-- The password as the `ATTACH` spells it. -/
def attachSpelling (password : Str) : Str := replace (libpqValue password) [ch '\''] [ch '\'', ch '\'']

/-- The secret as the statement of the S3 secret spells it. -/
def s3Spelling (secret : Str) : Str := replace secret [ch '\''] [ch '\'', ch '\'']

/-- **No credential leaves the session**: a translated error has none of the spellings
    in its message; and the spelling of a credential that a statement embeds is one of
    them, as is the credential itself. -/
theorem translate_redacts (order : SetOrder) (settings : DuckLakeSettings)
    (hpassword : ch '*' ∉ settings.catalogPassword)
    (hsecret : ∀ secret, settings.s3SecretAccessKey = some secret → ch '*' ∉ secret) :
    (∀ constructs conflicts exc, ∀ text ∈ secretTexts order settings,
      ¬ text <:+: (translate constructs (secretTexts order settings) conflicts exc).message) ∧
    (settings.catalogPassword ≠ [] → settings.catalogPassword ∈ secretTexts order settings ∧
      attachSpelling settings.catalogPassword ∈ secretTexts order settings ∧
      ∀ catalog, ∃ head tail, ∀ password, attachStatement (settings.withPassword password) catalog none =
        head ++ (py "password=" ++ attachSpelling password) ++ tail) ∧
    ∀ secret, settings.s3SecretAccessKey = some secret → secret ≠ [] →
      secret ∈ secretTexts order settings ∧ s3Spelling secret ∈ secretTexts order settings ∧
      ((∃ head tail, ∀ other, other ≠ [] → s3SecretStatement (settings.withS3Secret (some other)) =
          head ++ (py "SECRET '" ++ s3Spelling other) ++ tail) ∨
        ∀ other, s3SecretStatement (settings.withS3Secret (some other)) =
          s3SecretStatement (settings.withS3Secret none)) := by
  refine ⟨fun constructs conflicts exc text htext hin => ?_, fun hne => ?_, fun secret hsome hne => ?_⟩
  · obtain ⟨secret, hcredential, hspelling⟩ := mem_secretTexts.1 htext
    obtain ⟨hfrom, hne⟩ := mem_credentials.1 hcredential
    have hstar : ch '*' ∉ secret := by
      rcases hfrom with rfl | hfrom
      · exact hpassword
      · exact hsecret secret hfrom
    obtain ⟨hplain, htextNe⟩ := spelling_plain hstar hne hspelling
    rw [translate_message] at hin
    exact (infix_redactMessage hplain hin).2 text htext htextNe rfl
  · have hcredential := mem_credentials.2 ⟨.inl rfl, hne⟩
    exact ⟨mem_secretTexts.2 ⟨_, hcredential, by simp [spellings]⟩,
      mem_secretTexts.2 ⟨_, hcredential, by simp [spellings, attachSpelling]⟩,
      attachStatement_password settings⟩
  · have hcredential := mem_credentials.2 ⟨.inr hsome, hne⟩
    exact ⟨mem_secretTexts.2 ⟨_, hcredential, by simp [spellings]⟩,
      mem_secretTexts.2 ⟨_, hcredential, by simp [spellings, s3Spelling]⟩, s3SecretStatement_secret settings⟩

/-- Settings with a password that libpq and SQL both have to quote. -/
def quotedSettings : DuckLakeSettings where
  catalogHost := py "h"
  catalogPort := py "5432"
  catalogDb := py "d"
  catalogUser := py "u"
  catalogPassword := py "it's"
  dataPath := py "s3://b"
  s3Endpoint := none
  s3AccessKeyId := some (py "k")
  s3SecretAccessKey := some (py "a'b")
  s3Region := py "r"
  s3UrlStyle := py "path"
  s3UseSsl := true
  dataInliningRowLimit := none

/-- A set that keeps the order in which it was filled. -/
def insertionOrder : SetOrder := ⟨id, fun _ => .refl _⟩

theorem translate_redacts_quoted :
    (∀ constructs conflicts exc, ∀ text ∈ secretTexts insertionOrder quotedSettings,
      ¬ text <:+: (translate constructs (secretTexts insertionOrder quotedSettings) conflicts exc).message) ∧
    s3Spelling (py "a'b") ∈ secretTexts insertionOrder quotedSettings :=
  have hredacts := translate_redacts insertionOrder quotedSettings (by decide)
    (fun secret h => by cases h; decide)
  ⟨hredacts.1, (hredacts.2.2 (py "a'b") rfl (by decide)).2.1⟩

/-- An error that echoes the conninfo. -/
example : redactMessage [py "'it\\''s'", py "it's"] (py "password='it\\''s': refused, it's") =
    py "password=***: refused, ***" := by decide +kernel

end ContinuoRuntime
