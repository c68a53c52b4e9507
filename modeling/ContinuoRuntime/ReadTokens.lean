/-
  Read normalization against SQL's tokens.

  `config_hash` reads an SQL text through `" ".join(sql.split())`.  A text is
  taken as UTF-16 here, which is what the hashed JSON spells: a character beyond
  U+FFFF and its two surrogates are one text.

  * `canonicalText_retext_iff`: entries that differ only in their reads have one
    canonical text exactly if every read keeps its words;
  * `configHash_tokens_iff`: every such entry has the same tokens in every read
    exactly if no gap of a read stands inside quotes and nothing but comments
    follows a `--` comment (`LayoutFree`).
-/
import ContinuoRuntime.Lib.SqlLex
import ContinuoRuntime.Contract.Entry

namespace ContinuoRuntime

open SqlLex

/-! ## SQL text -/

/-- What SQL's lexer sees of a character, by its number. -/
def sqlClass (u : Unit16) : CharClass :=
  if u.val = 10 ∨ u.val = 13 then .newline
  else if isSpaceCode u.val then .blank
  else if u.val = 39 then .squote
  else if u.val = 34 then .dquote
  else if u.val = 45 then .dash
  else if u.val = 47 then .slash
  else if u.val = 42 then .star
  else .other

/-- The token sequence of an SQL text; `nested` says whether block comments nest. -/
def sqlTokens (nested : Bool) (sql : Str) : List (Token Unit16) := lex sqlClass nested (utf16 sql)

/-- A read whose tokens do not depend on its layout: no white space stands inside
    quotes, and nothing but comments follows a `--` comment, however the lines
    are broken. -/
def LayoutFree (nested : Bool) (sql : Str) : Prop :=
  Free sqlClass nested .code ((split sql).map utf16)

instance (nested : Bool) (sql : Str) : Decidable (LayoutFree nested sql) := by
  unfold LayoutFree; infer_instance

theorem isGap_sqlClass : isGap sqlClass = isSpaceUnit := by
  funext u
  unfold isGap sqlClass isSpaceUnit
  split_ifs with h1 h2
  · rcases h1 with h1 | h1 <;> (rw [h1]; decide)
  · rw [h2]; rfl
  all_goals (rw [Bool.eq_false_iff.2 h2]; rfl)

/-- **Free reads**: the tokens are the same in every text with the same words. -/
theorem layoutFree_iff {nested : Bool} {sql : Str} :
    LayoutFree nested sql ↔ ∀ other : Str, (split other).map utf16 = (split sql).map utf16 →
      sqlTokens nested other = sqlTokens nested sql := by
  have hb : sqlClass 32 = .blank := by decide
  have hnl : sqlClass 10 = .newline := by decide
  rw [LayoutFree, ← words_utf16, ← isGap_sqlClass, free_iff sqlClass nested hb hnl, isGap_sqlClass,
    words_utf16]
  constructor
  · exact fun h other ho => h (utf16 other) ((words_utf16 other).trans ho)
  · intro h us hus
    have := h (ofUnits us) (by rw [← words_utf16, utf16_ofUnits, hus])
    rwa [sqlTokens, utf16_ofUnits] at this

/-! ## Entries that differ in their reads -/

/-- A read under another text. -/
def retextRead (ρ : Str → Str) (name : Str) : Json Str → Json Str
  | .str _ => .str (ρ name)
  | v => v

/-- Reads under other texts, by name. -/
def retextReads (ρ : Str → Str) : Json Str → Json Str
  | .obj reads => .obj (reads.map fun p => (p.1, retextRead ρ p.1 p.2))
  | v => v

theorem retextReads_wf {ρ : Str → Str} {v : Json Str} (hv : v.WF) : (retextReads ρ v).WF := by
  cases v with
  | obj reads =>
    refine ⟨?_, Json.wfItems_iff.2 fun p hp => ?_⟩
    · have hn := hv.1
      unfold NodupKeys at hn ⊢
      rwa [List.map_map]
    · obtain ⟨q, hq, rfl⟩ := List.mem_map.1 hp
      have hw := Json.wfItems_iff.1 hv.2 q hq
      revert hw
      cases q.2 <;> exact id
  | _ => exact hv

/-- The entry whose SQL reads have the texts `ρ`. -/
def retext (ρ : Str → Str) (entry : Entry) : Entry where
  members := entry.members.map fun p => (p.1, if p.1 = py "reads" then retextReads ρ p.2 else p.2)
  wf := by
    refine ⟨?_, Json.wfItems_iff.2 fun p hp => ?_⟩
    · have hn := entry.wf.1
      unfold NodupKeys at hn ⊢
      rwa [List.map_map]
    · obtain ⟨q, hq, rfl⟩ := List.mem_map.1 hp
      have hw := Json.wfItems_iff.1 entry.wf.2 q hq
      dsimp only
      split_ifs
      · exact retextReads_wf hw
      · exact hw

/-- `value` if it is a text. -/
def asText : Json Str → Option Str
  | .str s => some s
  | _ => none

/-- The names and texts of the SQL reads of an entry. -/
def sqlReadsOf (entry : Entry) : List (Str × Str) :=
  match entry.get? (py "reads") with
  | some (.obj reads) => presentItems (reads.map fun p => (p.1, asText p.2))
  | _ => []

theorem mem_sqlReadsOf {entry : Entry} {name sql : Str} : (name, sql) ∈ sqlReadsOf entry ↔
    ∃ reads, (py "reads", Json.obj reads) ∈ entry.members ∧ (name, .str sql) ∈ reads := by
  have hmem : ∀ reads : List (Str × Json Str),
      (name, sql) ∈ presentItems (reads.map fun p => (p.1, asText p.2)) ↔ (name, .str sql) ∈ reads := by
    intro reads
    rw [mem_presentItems, List.mem_map]
    constructor
    · rintro ⟨⟨k, v⟩, hp, h⟩
      obtain ⟨rfl, hv⟩ := Prod.mk.inj h
      cases v <;> cases hv
      exact hp
    · exact fun h => ⟨_, h, rfl⟩
  unfold sqlReadsOf
  constructor
  · intro h
    split at h
    next reads hr => exact ⟨reads, JsonDict.get?_eq_some_iff.1 hr, (hmem reads).1 h⟩
    · cases h
  · rintro ⟨reads, hr, h⟩
    rw [JsonDict.get?_eq_some_iff.2 hr]
    exact (hmem reads).2 h

theorem sqlReadsOf_nodup (entry : Entry) : NodupKeys (sqlReadsOf entry) := by
  unfold sqlReadsOf
  split
  next reads hr =>
    have hn : NodupKeys reads :=
      (Json.wfItems_iff.1 entry.wf.2 _ (JsonDict.get?_eq_some_iff.1 hr)).1
    exact (hn.map asText).present
  · exact List.nodup_nil

/-! ## What `config_hash` keeps of the reads -/

/-- The words of a normalized text, in UTF-16. -/
theorem normalized_iff {s t : Str} : utf16 (joinWords (split s)) = utf16 (joinWords (split t)) ↔
    (split s).map utf16 = (split t).map utf16 := by
  have hback : ∀ s, words isSpaceUnit (utf16 (joinWords (split s))) = (split s).map utf16 := fun s =>
    (words_utf16 _).trans (congrArg _ (split_joinWords (layout_words s).runs))
  refine ⟨fun h => ?_, fun h => ?_⟩
  · rw [← hback s, ← hback t, h]
  · rw [utf16_joinWords, utf16_joinWords, h]

/-- The reads member, whitespace-normalized, under two choices of texts. -/
theorem spelled_reads_iff (ρ : Str → Str) (v : Json Str) :
    spelled utf16 (normalizeReads v) = spelled utf16 (normalizeReads (retextReads ρ v)) ↔
      ∀ reads, v = .obj reads → ∀ name sql, (name, Json.str sql) ∈ reads →
        (split sql).map utf16 = (split (ρ name)).map utf16 := by
  cases v with
  | obj reads =>
    have hmap : ((reads.map fun p => (p.1, retextRead ρ p.1 p.2)).map fun p => (p.1, normalizeRead p.2)) =
        reads.map fun p => (p.1, normalizeRead (retextRead ρ p.1 p.2)) := by
      rw [List.map_map]; rfl
    rw [normalizeReads, retextReads, normalizeReads, hmap,
      spelled_obj_map_iff utf16 (fun _ v => normalizeRead v) (fun k v => normalizeRead (retextRead ρ k v))]
    constructor
    · rintro h _ ⟨rfl⟩ name sql hm
      exact normalized_iff.1 (Json.str.inj (h _ hm))
    · rintro h ⟨name, v⟩ hm
      cases v with
      | str sql => exact congrArg Json.str (normalized_iff.2 (h reads rfl name sql hm))
      | _ => rfl
  | _ => simp [normalizeReads, retextReads]

/-- **What `config_hash` keeps of a read**: its words. -/
theorem canonicalText_retext_iff (ρ : Str → Str) (entry : Entry) :
    canonicalText entry = canonicalText (retext ρ entry) ↔
      ∀ name sql, (name, sql) ∈ sqlReadsOf entry →
        (split sql).map utf16 = (split (ρ name)).map utf16 := by
  let base := entry.members.filter fun p => p.1 ∉ unhashedFields
  have hbase : canonicalItems entry.members =
      base.map fun p => (p.1, if p.1 = py "reads" then normalizeReads p.2 else p.2) := rfl
  have hretext : canonicalItems (retext ρ entry).members = base.map fun p =>
      (p.1, if p.1 = py "reads" then normalizeReads (retextReads ρ p.2) else p.2) := by
    rw [canonicalItems, retext, List.filter_map, List.map_map]
    refine List.map_congr_left fun p _ => ?_
    by_cases hk : p.1 = py "reads" <;> simp [hk]
  have hreads : py "reads" ∉ unhashedFields := by decide +kernel
  rw [canonicalText, canonicalText, dumps_eq_iff, hbase, hretext]
  refine (spelled_obj_map_iff utf16 (fun k v => if k = py "reads" then normalizeReads v else v)
    (fun k v => if k = py "reads" then normalizeReads (retextReads ρ v) else v) base).trans ?_
  constructor
  · intro h name sql hm
    obtain ⟨reads, hr, hm⟩ := mem_sqlReadsOf.1 hm
    have hp := h _ (List.mem_filter.2 ⟨hr, by simpa using hreads⟩)
    simp only [if_pos] at hp
    exact (spelled_reads_iff ρ _).1 hp reads rfl name sql hm
  · rintro h ⟨k, v⟩ hp
    dsimp only
    split_ifs with hk
    · subst hk
      refine (spelled_reads_iff ρ v).2 fun reads hv name sql hm => h name sql ?_
      subst hv
      exact mem_sqlReadsOf.2 ⟨reads, (List.mem_filter.1 hp).1, hm⟩
    · rfl

/-- **Read normalization**: every entry with the same `config_hash` that differs in
    its reads only has the same tokens, exactly if the reads are layout-free. -/
theorem configHash_tokens_iff (nested : Bool) (entry : Entry) :
    (∀ ρ : Str → Str,
      Set.InjOn sha256 {ascii (canonicalText entry), ascii (canonicalText (retext ρ entry))} →
      configDigest entry = configDigest (retext ρ entry) →
      ∀ name sql, (name, sql) ∈ sqlReadsOf entry →
        sqlTokens nested (ρ name) = sqlTokens nested sql) ↔
    ∀ name sql, (name, sql) ∈ sqlReadsOf entry → LayoutFree nested sql := by
  constructor
  · intro h name sql hm
    refine layoutFree_iff.2 fun other ho => ?_
    -- the entry that has `other` for this read and keeps the rest
    let ρ : Str → Str := fun k => if k = name then other else (Dict.get? ⟨_, sqlReadsOf_nodup entry⟩ k).getD []
    have hρ : canonicalText entry = canonicalText (retext ρ entry) := by
      refine (canonicalText_retext_iff ρ entry).2 fun k s hk => ?_
      by_cases hkn : k = name
      · subst hkn
        have hs : s = sql := congrArg Prod.snd ((sqlReadsOf_nodup entry).eq_of_key hk hm rfl)
        rw [hs, show ρ k = other from if_pos rfl, ho]
      · have hget : Dict.get? ⟨_, sqlReadsOf_nodup entry⟩ k = some s := Dict.get?_eq_some_iff.2 hk
        rw [show ρ k = s by simp only [ρ, if_neg hkn, hget, Option.getD_some]]
    have hinj : Set.InjOn sha256
        {ascii (canonicalText entry), ascii (canonicalText (retext ρ entry))} := by
      rw [← hρ, Set.pair_eq_singleton]
      exact Set.injOn_singleton _ _
    have htok := h ρ hinj (by rw [configDigest, configDigest, hρ]) name sql hm
    rwa [show ρ name = other from if_pos rfl] at htok
  · intro h ρ hinj hhash name sql hm
    have hjson : canonicalText entry = canonicalText (retext ρ entry) :=
      ascii_inj (isAscii_canonicalText _) (isAscii_canonicalText _)
        (hexdigest_inj hinj (by simp) (by simp) hhash)
    exact layoutFree_iff.1 (h name sql hm) (ρ name)
      ((canonicalText_retext_iff ρ entry).1 hjson name sql hm).symm

/-- A `python-node` with one read. -/
def readNode (sql : Str) : Node :=
  { apiNode [] with
    kind := .pythonNode
    reads := ⟨[(py "q", sql)], List.nodup_singleton _⟩ }

/-- Two blanks in a literal and one: the hash is the same, the literal is not. -/
theorem configHash_merges_literals : ∃ (entry : Entry) (ρ : Str → Str),
    retext ρ entry = nodeEntry (readNode (py "select 'a b'")) ∧
    entry = nodeEntry (readNode (py "select 'a  b'")) ∧
    Set.InjOn sha256 {ascii (canonicalText entry), ascii (canonicalText (retext ρ entry))} ∧
    configDigest entry = configDigest (retext ρ entry) ∧
    ∀ nested, sqlTokens nested (py "select 'a b'") ≠ sqlTokens nested (py "select 'a  b'") := by
  have hsame : canonicalText (nodeEntry (readNode (py "select 'a  b'"))) =
      canonicalText (nodeEntry (readNode (py "select 'a b'"))) := by decide +kernel
  refine ⟨_, fun _ => py "select 'a b'", rfl, rfl, ?_, ?_, fun nested => ?_⟩
  · rw [show retext _ _ = nodeEntry (readNode (py "select 'a b'")) from rfl, hsame,
      Set.pair_eq_singleton]
    exact Set.injOn_singleton _ _
  · rw [show retext _ _ = nodeEntry (readNode (py "select 'a b'")) from rfl, configDigest, configDigest,
      hsame]
  · cases nested <;> decide +kernel

end ContinuoRuntime
