/-
  The statements that carry the credentials of a DuckLake session
  (`infrastructure/ddl.py` of the DuckDB adapter).

  * `libpqValue` writes a value into a libpq conninfo, `attachStatement` the conninfo
    into the `ATTACH`, `s3SecretStatement` the S3 secret into its statement;
  * `attachStatement_password`, `s3SecretStatement_secret`: the one place where a
    credential stands, and how it is spelled there.
-/
import ContinuoRuntime.SqlText
import ContinuoRuntime.Python.JsonText

namespace ContinuoRuntime

open Quoting

/-- `DuckLakeSettings`, as far as the statements read it. -/
structure DuckLakeSettings where
  catalogHost : Str
  catalogPort : Str
  catalogDb : Str
  catalogUser : Str
  catalogPassword : Str
  dataPath : Str
  s3Endpoint : Option Str
  s3AccessKeyId : Option Str
  s3SecretAccessKey : Option Str
  s3Region : Str
  s3UrlStyle : Str
  s3UseSsl : Bool
  dataInliningRowLimit : Option ℤ

/-! ## Values of a conninfo -/

/-- A character of `_LIBPQ_BARE`. -/
def isLibpqBare (c : CodePoint) : Bool :=
  (65 ≤ c.val && c.val ≤ 90) || (97 ≤ c.val && c.val ≤ 122) || (48 ≤ c.val && c.val ≤ 57) ||
    c == ch '_' || c == ch '.' || c == ch ':' || c == ch '/' || c == ch '-'

/-- The value between single quotes, with backslashes. -/
def libpqQuoted (value : Str) : Str :=
  let escaped := replace (replace value [ch '\\'] [ch '\\', ch '\\']) [ch '\''] [ch '\\', ch '\'']
  [ch '\''] ++ escaped ++ [ch '\'']

/-- `_libpq_value`. -/
def libpqValue (value : Str) : Str :=
  if value ≠ [] ∧ value.all isLibpqBare = true then value else libpqQuoted value

/-- A `keyword=value` of a conninfo. -/
def libpqItem (item : Str × Str) : Str := item.1 ++ py "=" ++ libpqValue item.2

/-- A conninfo. -/
def conninfo (items : List (Str × Str)) : Str := (py " ").intercalate (items.map libpqItem)

/-! ## Statements -/

/-- The value, if it is neither `None` nor empty. -/
def truthy : Option Str → Option Str
  | some (c :: s) => some (c :: s)
  | _ => none

/-- The keywords and values of the catalog connection. -/
def catalogItems (settings : DuckLakeSettings) (passfile : Option Str) : List (Str × Str) :=
  let credential := match truthy passfile with
    | some path => (py "passfile", path)
    | none => (py "password", settings.catalogPassword)
  [(py "host", settings.catalogHost), (py "port", settings.catalogPort), (py "dbname", settings.catalogDb),
    (py "user", settings.catalogUser), credential]

/-- The text before the conninfo in the literal of the `ATTACH`. -/
def attachScheme : Str := py "ducklake:postgres:"

/-- The `ATTACH` after its literal. -/
def attachOptions (settings : DuckLakeSettings) (catalog : Str) : Str :=
  let dataPath := py "DATA_PATH " ++ sqlLiteral settings.dataPath
  let options := match settings.dataInliningRowLimit with
    | some limit => [dataPath, py "DATA_INLINING_ROW_LIMIT " ++ decimalInt limit]
    | none => [dataPath]
  py " AS " ++ quoteIdentifier catalog ++ py " (" ++ (py ", ").intercalate options ++ py ")"

/-- `attach_statement`. -/
def attachStatement (settings : DuckLakeSettings) (catalog : Str) (passfile : Option Str) : Str :=
  py "ATTACH " ++ sqlLiteral (attachScheme ++ conninfo (catalogItems settings passfile)) ++
    attachOptions settings catalog

/-- The credentials of `s3_secret_statement`. -/
def s3Credentials (settings : DuckLakeSettings) : List Str :=
  match truthy settings.s3AccessKeyId, truthy settings.s3SecretAccessKey with
  | some keyId, some secret => [py "KEY_ID " ++ sqlLiteral keyId, py "SECRET " ++ sqlLiteral secret]
  | _, _ => [py "PROVIDER credential_chain"]

/-- What follows them. -/
def s3Options (settings : DuckLakeSettings) : List Str :=
  let endpoint := match truthy settings.s3Endpoint with
    | some endpoint => [py "ENDPOINT " ++ sqlLiteral endpoint]
    | none => []
  endpoint ++ [py "REGION " ++ sqlLiteral settings.s3Region, py "URL_STYLE " ++ sqlLiteral settings.s3UrlStyle,
    py "USE_SSL " ++ if settings.s3UseSsl then py "true" else py "false"]

/-- `s3_secret_statement`. -/
def s3SecretStatement (settings : DuckLakeSettings) : Str :=
  py "CREATE OR REPLACE SECRET continuo_s3 (" ++
    (py ", ").intercalate ([py "TYPE S3"] ++ s3Credentials settings ++ s3Options settings) ++ py ")"

/-! ## Where the credentials stand -/

theorem intercalate_cons_ne_nil (sep x : Str) {xs : List Str} (h : xs ≠ []) :
    sep.intercalate (x :: xs) = x ++ (sep ++ sep.intercalate xs) := by
  obtain ⟨y, ys, rfl⟩ := List.exists_cons_of_ne_nil h
  simp [List.intercalate]

theorem conninfo_cons (item : Str × Str) {items : List (Str × Str)} (h : items ≠ []) :
    conninfo (item :: items) = libpqItem item ++ (py " " ++ conninfo items) :=
  intercalate_cons_ne_nil _ _ (by simpa using h)

theorem conninfo_singleton (item : Str × Str) : conninfo [item] = libpqItem item := by
  simp [conninfo, List.intercalate]

/-- **The password in the `ATTACH`** is quoted for libpq, then for SQL. -/
theorem attachStatement_password (settings : DuckLakeSettings) (catalog : Str) : ∃ head tail, ∀ password,
    attachStatement { settings with catalogPassword := password } catalog none =
      head ++ (py "password=" ++ replace (libpqValue password) [ch '\''] [ch '\'', ch '\'']) ++ tail := by
  refine ⟨py "ATTACH " ++ ([ch '\''] ++ double (ch '\'') (attachScheme ++ (libpqItem (py "host", settings.catalogHost) ++
      py " " ++ libpqItem (py "port", settings.catalogPort) ++ py " " ++
      libpqItem (py "dbname", settings.catalogDb) ++ py " " ++ libpqItem (py "user", settings.catalogUser) ++
      py " "))), [ch '\''] ++ attachOptions settings catalog, fun password => ?_⟩
  have hitems : conninfo (catalogItems { settings with catalogPassword := password } none) =
      libpqItem (py "host", settings.catalogHost) ++ py " " ++ libpqItem (py "port", settings.catalogPort) ++
        py " " ++ libpqItem (py "dbname", settings.catalogDb) ++ py " " ++
        libpqItem (py "user", settings.catalogUser) ++ py " " ++ (py "password=" ++ libpqValue password) := by
    rw [catalogItems, conninfo_cons _ (by simp), conninfo_cons _ (by simp), conninfo_cons _ (by simp),
      conninfo_cons _ (by simp), conninfo_singleton]
    simp only [List.append_assoc]
    rfl
  have hplain : double (ch '\'') (py "password=") = py "password=" := double_of_notMem (by decide)
  rw [attachStatement, hitems, sqlLiteral, replace_doubled, replace_doubled, ← List.append_assoc attachScheme,
    double_append _ _ (py "password=" ++ libpqValue password), double_append _ (py "password="), hplain]
  simp only [List.append_assoc]
  rfl

theorem s3Options_ne_nil (settings : DuckLakeSettings) : s3Options settings ≠ [] := by simp [s3Options]

/-- **The S3 secret** is quoted for SQL, or does not stand in the statement at all. -/
theorem s3SecretStatement_secret (settings : DuckLakeSettings) :
    (∃ head tail, ∀ secret, secret ≠ [] →
      s3SecretStatement { settings with s3SecretAccessKey := some secret } =
        head ++ (py "SECRET '" ++ replace secret [ch '\''] [ch '\'', ch '\'']) ++ tail) ∨
    ∀ secret, s3SecretStatement { settings with s3SecretAccessKey := some secret } =
      s3SecretStatement { settings with s3SecretAccessKey := none } := by
  cases hkey : truthy settings.s3AccessKeyId with
  | none =>
    refine .inr fun secret => ?_
    simp only [s3SecretStatement, s3Credentials, hkey]
    rfl
  | some keyId =>
    refine .inl ⟨py "CREATE OR REPLACE SECRET continuo_s3 (" ++ (py "TYPE S3" ++ (py ", " ++
      ((py "KEY_ID " ++ sqlLiteral keyId) ++ py ", "))), [ch '\''] ++ (py ", " ++
      ((py ", ").intercalate (s3Options settings) ++ py ")")), fun secret hsecret => ?_⟩
    have htruthy : truthy (some secret) = some secret := by
      obtain ⟨c, s, rfl⟩ := List.exists_cons_of_ne_nil hsecret
      rfl
    have hcredentials : s3Credentials { settings with s3SecretAccessKey := some secret } =
        [py "KEY_ID " ++ sqlLiteral keyId, py "SECRET " ++ sqlLiteral secret] := by
      simp only [s3Credentials, hkey, htruthy]
    have hlist : (py ", ").intercalate ([py "TYPE S3"] ++ [py "KEY_ID " ++ sqlLiteral keyId,
        py "SECRET " ++ sqlLiteral secret] ++ s3Options settings) = py "TYPE S3" ++ (py ", " ++
          ((py "KEY_ID " ++ sqlLiteral keyId) ++ (py ", " ++ ((py "SECRET " ++ sqlLiteral secret) ++
            (py ", " ++ (py ", ").intercalate (s3Options settings)))))) := by
      rw [List.append_assoc, List.singleton_append, intercalate_cons_ne_nil _ _ (by simp), List.cons_append,
        intercalate_cons_ne_nil _ _ (by simp), List.singleton_append,
        intercalate_cons_ne_nil _ _ (s3Options_ne_nil settings)]
    have hstatement : s3SecretStatement { settings with s3SecretAccessKey := some secret } =
        py "CREATE OR REPLACE SECRET continuo_s3 (" ++ (py ", ").intercalate ([py "TYPE S3"] ++
          s3Credentials { settings with s3SecretAccessKey := some secret } ++ s3Options settings) ++ py ")" := rfl
    have hliteral : py "SECRET " ++ sqlLiteral secret = (py "SECRET '" ++
        replace secret [ch '\''] [ch '\'', ch '\'']) ++ [ch '\''] := rfl
    rw [hstatement, hcredentials, hlist, hliteral]
    simp only [List.append_assoc]

end ContinuoRuntime
