/-
  The catalog connection, as DuckDB and libpq read it back: the literal of the `ATTACH`,
  the conninfo in it and the passfile (`infrastructure/ddl.py` and
  `infrastructure/passfile.py` of the DuckDB adapter).

  * `sqlUnquote`, `parseConninfo`, `passfilePassword`: the readers;
  * `parseConninfo_conninfo`: a conninfo gives its keywords and values, and no others;
  * `passfilePassword_contents`: a passfile gives its password, to any connection;
  * `connection_roundTrip`: **the connection is the configured one**.
-/
import ContinuoRuntime.DuckDb.Statements
import ContinuoRuntime.Python.Exc

namespace ContinuoRuntime

open Quoting

/-! ## Reading SQL and conninfo -/

/-- An SQL literal, unquoted, and what follows it. -/
def sqlUnquote : Str → Option (Str × Str)
  | [] => none
  | c :: text => if c = ch '\'' then readDoubled (ch '\'') text else none

/-- `isspace` in the C locale. -/
def isCSpace (c : CodePoint) : Bool := c.val == 32 || (9 ≤ c.val && c.val ≤ 13)

/-- The text from its first character that is not white space. -/
def skipBlanks (s : Str) : Str := s.dropWhile isCSpace

/-- A character of a keyword. -/
def isKeywordChar (c : CodePoint) : Bool := c != ch '=' && !isCSpace c

/-- A keyword, and the text behind its `=`. -/
def readKeyword (s : Str) : Option (Str × Str) :=
  match skipBlanks (s.dropWhile isKeywordChar) with
  | [] => none
  | c :: rest => if c = ch '=' then some (s.takeWhile isKeywordChar, skipBlanks rest) else none

/-- A value, quoted or up to white space, and what follows it. -/
def readValue (s : Str) : Option (Str × Str) :=
  match s with
  | [] => some ([], [])
  | c :: text =>
    if c = ch '\'' then
      let p := readEscaped (ch '\\') (· == ch '\'') text
      match p.2 with
      | [] => none
      | _ :: rest => some (p.1, rest)
    else some (readEscaped (ch '\\') isCSpace (c :: text))

/-- At most `n` keywords and their values. -/
def parseConninfoUpTo : ℕ → Str → Option (List (Str × Str))
  | 0, s => if skipBlanks s = [] then some [] else none
  | n + 1, s =>
    if skipBlanks s = [] then some []
    else do
      let keyword ← readKeyword (skipBlanks s)
      let value ← readValue keyword.2
      let items ← parseConninfoUpTo n value.2
      some ((keyword.1, value.1) :: items)

/-- libpq's `conninfo_parse`. -/
def parseConninfo (s : Str) : Option (List (Str × Str)) := parseConninfoUpTo s.length s

/-! ## What the writers write -/

/-- A backslash before every `q` and every backslash, in two replacements. -/
theorem replace_backslashed {q : CodePoint} (hq : q ≠ ch '\\') (s : Str) :
    replace (replace s [ch '\\'] [ch '\\', ch '\\']) [q] [ch '\\', q] =
      escaped (ch '\\') (fun c => c == q || c == ch '\\') s := by
  rw [replace_singleton, replace_singleton, escaped, List.flatMap_assoc]
  congr 1
  funext c
  by_cases hb : c = ch '\\'
  · subst hb
    simp [hq.symm]
  · by_cases hc : c = q
    · subst hc
      simp [hb]
    · simp [hb, hc]

theorem bare_not_special {value : Str} (h : value.all isLibpqBare = true) {c : CodePoint} (hc : c ∈ value) :
    isCSpace c = false ∧ c ≠ ch '\'' ∧ c ≠ ch '\\' := by
  have hbare := List.all_eq_true.1 h c hc
  refine ⟨?_, ?_, ?_⟩
  · by_contra hspace
    have hcode : c.val = 32 ∨ 9 ≤ c.val ∧ c.val ≤ 13 := by
      rw [Bool.not_eq_false] at hspace
      simpa only [isCSpace, Bool.or_eq_true, Bool.and_eq_true, beq_iff_eq, decide_eq_true_eq] using hspace
    have hsigns : c ≠ ch '_' ∧ c ≠ ch '.' ∧ c ≠ ch ':' ∧ c ≠ ch '/' ∧ c ≠ ch '-' := by
      refine ⟨?_, ?_, ?_, ?_, ?_⟩ <;> rintro rfl <;> revert hcode <;> decide
    simp [isLibpqBare, hsigns] at hbare
    omega
  · rintro rfl
    exact absurd hbare (by decide)
  · rintro rfl
    exact absurd hbare (by decide)

/-- A written value starts with no white space. -/
theorem libpqValue_head (value rest : Str) : skipBlanks (libpqValue value ++ rest) = libpqValue value ++ rest := by
  have hskip : ∀ {c : CodePoint} {s : Str}, isCSpace c = false → skipBlanks (c :: s) = c :: s := fun h => by
    rw [skipBlanks, List.dropWhile_cons, if_neg (by rw [h]; exact Bool.false_ne_true)]
  unfold libpqValue
  split
  · next h =>
    obtain ⟨c, s, rfl⟩ := List.exists_cons_of_ne_nil h.1
    exact hskip (bare_not_special h.2 List.mem_cons_self).1
  · exact hskip (by decide)

/-- **A value** is read back, up to the white space behind it. -/
theorem readValue_libpqValue {rest : Str} (hrest : ∀ c ∈ rest.head?, isCSpace c = true) (value : Str) :
    readValue (libpqValue value ++ rest) = some (value, rest) := by
  unfold libpqValue
  split
  · next h =>
    have hplain : ∀ c ∈ value, (isCSpace c || c == ch '\\') = false := fun c hc => by
      obtain ⟨hspace, -, hback⟩ := bare_not_special h.2 hc
      simp [hspace, hback]
    have hread := @readEscaped_escaped _ _ (ch '\\') isCSpace (fun c => isCSpace c || c == ch '\\') (by decide)
      (by decide) (fun c hc => by rw [hc, Bool.true_or]) rest hrest value
    rw [escaped_of_plain hplain] at hread
    obtain ⟨c, s, rfl⟩ := List.exists_cons_of_ne_nil h.1
    rw [List.cons_append] at hread ⊢
    rw [readValue, if_neg (bare_not_special h.2 List.mem_cons_self).2.1, hread]
  · have hread := @readEscaped_escaped _ _ (ch '\\') (· == ch '\'') (fun c => c == ch '\'' || c == ch '\\')
      (by decide) (by decide) (fun c hc => by rw [hc, Bool.true_or]) (ch '\'' :: rest)
      (fun c hc => by cases hc; decide) value
    have htext : libpqQuoted value ++ rest = ch '\'' ::
        (escaped (ch '\\') (fun c => c == ch '\'' || c == ch '\\') value ++ ch '\'' :: rest) := by
      rw [libpqQuoted, replace_backslashed (by decide)]
      simp
    rw [htext, readValue, if_pos rfl, hread]

/-- A keyword that libpq can read. -/
def IsKeyword (key : Str) : Prop := key ≠ [] ∧ ∀ c ∈ key, isKeywordChar c = true

theorem readKeyword_item {key : Str} (hkey : IsKeyword key) (value rest : Str) :
    readKeyword (libpqItem (key, value) ++ rest) = some (key, libpqValue value ++ rest) := by
  have htext : libpqItem (key, value) ++ rest = key ++ (ch '=' :: (libpqValue value ++ rest)) := by
    simp [libpqItem, py]
  have htake : (key ++ (ch '=' :: (libpqValue value ++ rest))).takeWhile isKeywordChar = key := by
    rw [List.takeWhile_append_of_pos hkey.2, List.takeWhile_cons, if_neg (by decide), List.append_nil]
  have hdrop : (key ++ (ch '=' :: (libpqValue value ++ rest))).dropWhile isKeywordChar =
      ch '=' :: (libpqValue value ++ rest) := by
    rw [List.dropWhile_append_of_pos hkey.2, List.dropWhile_cons, if_neg (by decide)]
  have hskip : skipBlanks (ch '=' :: (libpqValue value ++ rest)) = ch '=' :: (libpqValue value ++ rest) := by
    rw [skipBlanks, List.dropWhile_cons, if_neg (by decide)]
  rw [readKeyword, htext, htake, hdrop, hskip]
  simp only [↓reduceIte, libpqValue_head]

/-- White space before a keyword does not matter. -/
theorem parseConninfoUpTo_space (n : ℕ) (s : Str) : parseConninfoUpTo n (py " " ++ s) = parseConninfoUpTo n s := by
  have hskip : skipBlanks (py " " ++ s) = skipBlanks s := by
    have htext : py " " ++ s = ch ' ' :: s := rfl
    rw [htext, skipBlanks, List.dropWhile_cons, if_pos (by decide), ← skipBlanks]
  cases n with
  | zero => rw [parseConninfoUpTo, parseConninfoUpTo, hskip]
  | succ n => rw [parseConninfoUpTo, parseConninfoUpTo, hskip]

theorem parseConninfoUpTo_conninfo : ∀ {items : List (Str × Str)} {n : ℕ}, (∀ item ∈ items, IsKeyword item.1) →
    items.length ≤ n → parseConninfoUpTo n (conninfo items) = some items
  | [], n, _, _ => by cases n <;> rfl
  | (key, value) :: items, n + 1, hkeys, hn => by
    have hkey := hkeys _ List.mem_cons_self
    have hrest := fun item hitem => hkeys item (List.mem_cons_of_mem _ hitem)
    have ih := parseConninfoUpTo_conninfo (n := n) hrest (Nat.le_of_succ_le_succ hn)
    -- what follows the first item is nothing, or a space and the other items
    obtain ⟨rest, htext, hhead, hparse⟩ : ∃ rest, conninfo ((key, value) :: items) = libpqItem (key, value) ++ rest ∧
        (∀ c ∈ rest.head?, isCSpace c = true) ∧ parseConninfoUpTo n rest = some items := by
      cases items with
      | nil =>
        refine ⟨[], ?_, fun c hc => by simp at hc, ?_⟩
        · rw [conninfo_singleton, List.append_nil]
        · exact ih
      | cons item items =>
        refine ⟨py " " ++ conninfo (item :: items), conninfo_cons _ (List.cons_ne_nil _ _), ?_, ?_⟩
        · intro c hc
          cases hc
          decide
        · rw [parseConninfoUpTo_space, ih]
    have hskip : skipBlanks (libpqItem (key, value) ++ rest) = libpqItem (key, value) ++ rest := by
      obtain ⟨c, key, rfl⟩ := List.exists_cons_of_ne_nil hkey.1
      have hc : isCSpace c = false := by
        have hchar := hkey.2 c List.mem_cons_self
        simp [isKeywordChar] at hchar
        exact hchar.2
      rw [libpqItem, List.cons_append, List.cons_append, List.cons_append, skipBlanks, List.dropWhile_cons,
        if_neg (by rw [hc]; exact Bool.false_ne_true)]
    have hne : libpqItem (key, value) ++ rest ≠ [] := by simp [libpqItem, py]
    rw [htext, parseConninfoUpTo, hskip, if_neg hne, readKeyword_item hkey]
    simp only [Option.bind_eq_bind, Option.bind_some, readValue_libpqValue hhead, hparse]

theorem length_le_conninfo : ∀ items : List (Str × Str), items.length ≤ (conninfo items).length
  | [] => Nat.zero_le _
  | [item] => by
    rw [conninfo_singleton, libpqItem]
    simp [py]
    omega
  | item :: item' :: items => by
    have ih := length_le_conninfo (item' :: items)
    rw [conninfo_cons _ (List.cons_ne_nil _ _), List.length_append, List.length_append, List.length_cons]
    have hspace : (py " ").length = 1 := rfl
    omega

/-- **A conninfo** gives its keywords and values, and no others. -/
theorem parseConninfo_conninfo {items : List (Str × Str)} (h : ∀ item ∈ items, IsKeyword item.1) :
    parseConninfo (conninfo items) = some items :=
  parseConninfoUpTo_conninfo h (length_le_conninfo items)

/-! ## The passfile -/

/-- A file that `mkstemp` has created, and what was written. -/
structure Passfile where
  path : Str
  contents : Str
  path_ne_nil : path ≠ []

/-- `_escape`. -/
def escapePassfile (field : Str) : Str :=
  replace (replace field [ch '\\'] [ch '\\', ch '\\']) [ch ':'] [ch '\\', ch ':']

/-- `can_store`. -/
def canStore (password : Str) : Prop := password ≠ [] ∧ ch '\n' ∉ password ∧ ch '\r' ∉ password

instance (password : Str) : Decidable (canStore password) := inferInstanceAs (Decidable (_ ∧ _ ∧ _))

/-- What `Passfile` writes. -/
def passfileContents (password : Str) : Str := py "*:*:*:*:" ++ escapePassfile password ++ py "\n"

/-- `open_passfile`; `pgPassword` says whether `PGPASSWORD` is set, and `created` how
    creating and writing the file ends. -/
def openPassfile (password : Str) (pgPassword : Bool) (created : Except Exc {path : Str // path ≠ []}) :
    Except Exc (Option Passfile) :=
  if ¬ canStore password then .ok none
  else if pgPassword = true then .ok none
  else match created with
    | .ok path => .ok (some ⟨path.1, passfileContents password, path.2⟩)
    | .error exc => if exc.cls = .osError then .ok none else .error exc

/-- The fields of a line, at most `n` and one more. -/
def passfileFieldsUpTo : ℕ → Str → List Str
  | 0, line => [(readEscaped (ch '\\') (· == ch ':') line).1]
  | n + 1, line =>
    let p := readEscaped (ch '\\') (· == ch ':') line
    match p.2 with
    | [] => [p.1]
    | _ :: rest => p.1 :: passfileFieldsUpTo n rest

/-- The line between unescaped colons, without its escapes. -/
def passfileFields (line : Str) : List Str := passfileFieldsUpTo line.length line

/-- The password of a line, if its fields match these. -/
def passfileLine (wanted : List Str) (line : Str) : Option Str :=
  match passfileFields line with
  | host :: port :: db :: user :: password :: _ =>
    if ([host, port, db, user].zip wanted).all (fun p => p.1 == py "*" || p.1 == p.2) = true then some password
    else none
  | _ => none

/-- The password that libpq finds in a passfile, for a connection with this host, port,
    database and user. -/
def passfilePassword (contents : Str) (wanted : List Str) : Option Str :=
  ((contents.splitOn (ch '\n')).map fun line => line.rdropWhile (· == ch '\r')).findSome? (passfileLine wanted)

/-- The password that libpq ends up with: the one of the conninfo, or that of its
    passfile. -/
def libpqPassword (files : Str → Option Str) (items : List (Str × Str)) (wanted : List Str) : Option Str :=
  match items.lookup (py "password") with
  | some password => some password
  | none => do
    let path ← items.lookup (py "passfile")
    let contents ← files path
    passfilePassword contents wanted

theorem notMem_escapePassfile {c : CodePoint} {password : Str} (h : c ∉ password) (hback : c ≠ ch '\\')
    (hcolon : c ≠ ch ':') : c ∉ escapePassfile password := by
  rw [escapePassfile, replace_backslashed (by decide), escaped, List.mem_flatMap]
  rintro ⟨d, hd, hc⟩
  split_ifs at hc with hspecial
  · simp only [List.mem_cons, List.not_mem_nil, or_false] at hc
    rcases hc with rfl | rfl
    · exact hback rfl
    · exact h hd
  · exact h (List.mem_singleton.1 hc ▸ hd)

/-- The password is the last field of its line. -/
theorem passfileFields_password (password : Str) : passfileFields (py "*:*:*:*:" ++ escapePassfile password) =
    [py "*", py "*", py "*", py "*", password] := by
  have hstar : ∀ line, readEscaped (ch '\\') (· == ch ':') (py "*:" ++ line) = (py "*", ch ':' :: line) := by
    intro line
    have htext : py "*:" ++ line = ch '*' :: ch ':' :: line := rfl
    rw [htext, readEscaped_cons (by decide) (by decide), readEscaped_stop (by decide)]
    rfl
  have hone : ∀ n line, passfileFieldsUpTo (n + 1) (py "*:" ++ line) = py "*" :: passfileFieldsUpTo n line := by
    intro n line
    rw [passfileFieldsUpTo, hstar]
  have hlast : ∀ n, passfileFieldsUpTo n (escapePassfile password) = [password] := by
    intro n
    have hread := @readEscaped_escaped _ _ (ch '\\') (· == ch ':') (fun c => c == ch ':' || c == ch '\\')
      (by decide) (by decide) (fun c hc => by rw [hc, Bool.true_or]) [] (fun c hc => by cases hc) password
    rw [List.append_nil, ← replace_backslashed (by decide), ← escapePassfile] at hread
    cases n with
    | zero => rw [passfileFieldsUpTo, hread]
    | succ n => rw [passfileFieldsUpTo, hread]
  have hlen : (py "*:*:*:*:" ++ escapePassfile password).length = (escapePassfile password).length + 4 + 1 + 1 + 1 + 1 := by
    rw [List.length_append, Nat.add_comm]
    rfl
  have htext : py "*:*:*:*:" ++ escapePassfile password =
      py "*:" ++ (py "*:" ++ (py "*:" ++ (py "*:" ++ escapePassfile password))) := rfl
  rw [passfileFields, hlen, htext, hone, hone, hone, hone, hlast]

/-- **A passfile** gives its password, to any connection. -/
theorem passfilePassword_contents {password : Str} (h : canStore password) {wanted : List Str} :
    passfilePassword (passfileContents password) wanted = some password := by
  obtain ⟨-, hnewline, hreturn⟩ := h
  have hline : ∀ c : CodePoint, c ∉ password → c ≠ ch '\\' → c ≠ ch ':' → c ∉ py "*:*:*:*:" →
      c ∉ py "*:*:*:*:" ++ escapePassfile password := fun c hc hback hcolon hfields hmem =>
    (List.mem_append.1 hmem).elim hfields (notMem_escapePassfile hc hback hcolon)
  have hn := hline (ch '\n') hnewline (by decide) (by decide) (by decide)
  have hr := hline (ch '\r') hreturn (by decide) (by decide) (by decide)
  have hsplit : (passfileContents password).splitOn (ch '\n') = [py "*:*:*:*:" ++ escapePassfile password, []] := by
    have htext : passfileContents password = (py "*:*:*:*:" ++ escapePassfile password) ++ ch '\n' :: [] := rfl
    rw [htext, List.splitOn_append_cons_self, List.splitOn_eq_singleton hn]
    rfl
  have hstrip : (py "*:*:*:*:" ++ escapePassfile password).rdropWhile (· == ch '\r') =
      py "*:*:*:*:" ++ escapePassfile password := by
    refine List.rdropWhile_eq_self_iff.2 fun hne hlast => hr ?_
    have heq : (py "*:*:*:*:" ++ escapePassfile password).getLast hne = ch '\r' := by simpa using hlast
    rw [← heq]
    exact List.getLast_mem hne
  have hfields : passfileLine wanted (py "*:*:*:*:" ++ escapePassfile password) = some password := by
    rw [passfileLine, passfileFields_password]
    refine if_pos (List.all_eq_true.2 fun p hp => ?_)
    have hfirst : p.1 ∈ [py "*", py "*", py "*", py "*"] := (List.of_mem_zip hp).1
    have hstar : p.1 = py "*" := by simpa using hfirst
    rw [hstar]
    rfl
  rw [passfilePassword, hsplit, List.map_cons, hstrip, List.findSome?_cons, hfields]

/-! ## The connection -/

/-- The intended keywords and values. -/
def intendedItems (settings : DuckLakeSettings) (passfile : Option Passfile) : List (Str × Str) :=
  [(py "host", settings.catalogHost), (py "port", settings.catalogPort), (py "dbname", settings.catalogDb),
    (py "user", settings.catalogUser), match passfile with
      | some file => (py "passfile", file.path)
      | none => (py "password", settings.catalogPassword)]

/-- What libpq is given: the literal of the `ATTACH` is unquoted, the scheme taken away
    and the conninfo parsed.  The second part is what follows the literal. -/
def attachedItems (statement : Str) : Option (List (Str × Str) × Str) := do
  let literal ← sqlUnquote (statement.drop (py "ATTACH ").length)
  if attachScheme <+: literal.1 then
    let items ← parseConninfo (literal.1.drop attachScheme.length)
    some (items, literal.2)
  else none

theorem catalogItems_passfile (settings : DuckLakeSettings) (passfile : Option Passfile) :
    catalogItems settings (passfile.map Passfile.path) = intendedItems settings passfile := by
  cases passfile with
  | none => rfl
  | some file =>
    obtain ⟨c, path, hpath⟩ := List.exists_cons_of_ne_nil file.path_ne_nil
    simp only [catalogItems, intendedItems, Option.map_some, hpath, truthy]

theorem attachedItems_attachStatement (settings : DuckLakeSettings) (catalog : Str) (passfile : Option Passfile) :
    attachedItems (attachStatement settings catalog (passfile.map Passfile.path)) =
      some (intendedItems settings passfile, attachOptions settings catalog) := by
  have hkeys : ∀ item ∈ intendedItems settings passfile, IsKeyword item.1 := by
    have hnames : ∀ key ∈ [py "host", py "port", py "dbname", py "user", py "passfile", py "password"],
        key ≠ [] ∧ key.all isKeywordChar = true := by decide +kernel
    have hmem : ∀ item ∈ intendedItems settings passfile,
        item.1 ∈ [py "host", py "port", py "dbname", py "user", py "passfile", py "password"] := by
      cases passfile <;> simp [intendedItems]
    intro item hitem
    obtain ⟨hne, hall⟩ := hnames item.1 (hmem item hitem)
    exact ⟨hne, fun c hc => List.all_eq_true.1 hall c hc⟩
  have hoptions : (attachOptions settings catalog).head? ≠ some (ch '\'') := fun h => by cases h
  obtain ⟨text, htext, hread⟩ :=
    readDoubled_sqlLiteral (attachScheme ++ conninfo (intendedItems settings passfile)) hoptions
  have hunquote : sqlUnquote (sqlLiteral (attachScheme ++ conninfo (intendedItems settings passfile)) ++
      attachOptions settings catalog) =
        some (attachScheme ++ conninfo (intendedItems settings passfile), attachOptions settings catalog) := by
    rw [htext, sqlUnquote, if_pos rfl, hread]
  rw [attachedItems, attachStatement, catalogItems_passfile, List.append_assoc, List.drop_left, hunquote]
  simp only [Option.bind_eq_bind, Option.bind_some, List.prefix_append, ↓reduceIte, List.drop_left,
    parseConninfo_conninfo hkeys]

/-- **The connection is the configured one**: the `ATTACH` gives libpq the intended
    keywords and values in order and no others, and the password that libpq ends up
    with, inline or through the passfile, is the configured one. -/
theorem connection_roundTrip (settings : DuckLakeSettings) (catalog : Str) (pgPassword : Bool)
    (created : Except Exc {path : Str // path ≠ []}) (passfile : Option Passfile)
    (hopen : openPassfile settings.catalogPassword pgPassword created = .ok passfile)
    (files : Str → Option Str) (hfiles : ∀ file, passfile = some file → files file.path = some file.contents) :
    attachedItems (attachStatement settings catalog (passfile.map Passfile.path)) =
      some (intendedItems settings passfile, attachOptions settings catalog) ∧
    libpqPassword files (intendedItems settings passfile)
      [settings.catalogHost, settings.catalogPort, settings.catalogDb, settings.catalogUser] =
        some settings.catalogPassword := by
  refine ⟨attachedItems_attachStatement settings catalog passfile, ?_⟩
  cases passfile with
  | none => rfl
  | some file =>
    have hstored : canStore settings.catalogPassword ∧ file.contents = passfileContents settings.catalogPassword := by
      by_cases hstore : canStore settings.catalogPassword
      · by_cases hpg : pgPassword = true
        · rw [openPassfile.eq_def, if_neg (not_not.2 hstore), if_pos hpg] at hopen
          cases hopen
        · rw [openPassfile.eq_def, if_neg (not_not.2 hstore), if_neg hpg] at hopen
          cases created with
          | ok path =>
            cases hopen
            exact ⟨hstore, rfl⟩
          | error exc =>
            dsimp only at hopen
            split_ifs at hopen
            cases hopen
      · rw [openPassfile.eq_def, if_pos hstore] at hopen
        cases hopen
    have hlookup : libpqPassword files (intendedItems settings (some file))
        [settings.catalogHost, settings.catalogPort, settings.catalogDb, settings.catalogUser] =
          (files file.path).bind fun contents => passfilePassword contents
            [settings.catalogHost, settings.catalogPort, settings.catalogDb, settings.catalogUser] := rfl
    rw [hlookup, hfiles file rfl, hstored.2, Option.bind_some]
    exact passfilePassword_contents hstored.1

/-- A password that the passfile and libpq have to escape. -/
def escapedSettings : DuckLakeSettings where
  catalogHost := py "h"
  catalogPort := py "5432"
  catalogDb := py "d b"
  catalogUser := []
  catalogPassword := py "a:b\\c"
  dataPath := py "p"
  s3Endpoint := none
  s3AccessKeyId := none
  s3SecretAccessKey := none
  s3Region := []
  s3UrlStyle := py "vhost"
  s3UseSsl := true
  dataInliningRowLimit := none

/-- The passfile of that session. -/
def escapedPassfile : Passfile := ⟨py "/tmp/cpr", passfileContents (py "a:b\\c"), by decide⟩

theorem connection_roundTrip_passfile :
    attachedItems (attachStatement escapedSettings (py "lake") (some (py "/tmp/cpr"))) =
      some (intendedItems escapedSettings (some escapedPassfile), attachOptions escapedSettings (py "lake")) ∧
    libpqPassword (fun _ => some (passfileContents (py "a:b\\c"))) (intendedItems escapedSettings (some escapedPassfile))
      [py "h", py "5432", py "d b", []] = some (py "a:b\\c") :=
  connection_roundTrip escapedSettings (py "lake") false (.ok ⟨py "/tmp/cpr", by decide⟩) (some escapedPassfile)
    (if_neg (not_not.2 (by decide))) _ (fun file h => by cases h; rfl)

end ContinuoRuntime
