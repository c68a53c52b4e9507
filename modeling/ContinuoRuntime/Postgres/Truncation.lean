/-
  Identifiers within the bytes that Postgres stores (`_truncate_explicit_identifier`
  and `_index_name` in `adapter.py`).

  Encoded text is cut at a byte, maybe inside a character, and decoded again without
  what is incomplete.

  * `LongestFitting`: the longest prefix of whole characters within a number of bytes;
  * `longestFitting_decode_take`: cutting and decoding finds it;
  * `identifiers_truncated`: **truncation is exact**, for explicit and derived names.
-/
import ContinuoRuntime.Postgres.Indexes

namespace ContinuoRuntime

/-! ## Prefixes that fit -/

/-- The text is encoded in at most `n` bytes. -/
def FitsIn (n : ℕ) (s : Str) : Prop := ∃ bs, utf8 s = some bs ∧ bs.length ≤ n

/-- `s` is the longest prefix of whole characters of `name` that is encoded in at most
    `n` bytes. -/
structure LongestFitting (n : ℕ) (name s : Str) : Prop where
  isPrefix : s <+: name
  fits : FitsIn n s
  longest : ∀ t, t <+: name → FitsIn n t → t <+: s

theorem utf8_nil : utf8 [] = some [] := rfl

theorem utf8_uncons {c : CodePoint} {s : Str} {bs : Bytes} (h : utf8 (c :: s) = some bs) :
    ∃ a b, utf8Char c = some a ∧ utf8 s = some b ∧ bs = a ++ b := by
  simp only [utf8, Option.map_eq_some_iff, List.mapM_cons, Option.bind_eq_bind, Option.bind_eq_some_iff] at h
  obtain ⟨_, ⟨bytes, hbytes, rest, hrest, hpure⟩, rfl⟩ := h
  cases hpure
  exact ⟨bytes, rest.flatten, hbytes, by rw [utf8, hrest]; rfl, List.flatten_cons⟩

theorem longestFitting_nil (n : ℕ) : LongestFitting n [] [] :=
  ⟨List.prefix_rfl, ⟨[], utf8_nil, Nat.zero_le n⟩, fun _ ht _ => ht⟩

/-- The first character fits, and so does the longest prefix of the rest. -/
theorem LongestFitting.cons {n : ℕ} {c : CodePoint} {a : Bytes} {name s : Str} (hc : utf8Char c = some a)
    (hle : a.length ≤ n) (h : LongestFitting (n - a.length) name s) : LongestFitting n (c :: name) (c :: s) where
  isPrefix := List.cons_prefix_cons.2 ⟨rfl, h.isPrefix⟩
  fits := by
    obtain ⟨bs, hbs, hlen⟩ := h.fits
    refine ⟨a ++ bs, utf8_cons hc hbs, ?_⟩
    rw [List.length_append]
    omega
  longest t ht hfits := by
    cases t with
    | nil => exact List.nil_prefix
    | cons d t =>
      obtain ⟨rfl, hprefix⟩ := List.cons_prefix_cons.1 ht
      obtain ⟨bs, hbs, hlen⟩ := hfits
      obtain ⟨a', b, hchar, hrest, rfl⟩ := utf8_uncons hbs
      cases hc.symm.trans hchar
      rw [List.length_append] at hlen
      exact List.cons_prefix_cons.2 ⟨rfl, h.longest t hprefix ⟨b, hrest, by omega⟩⟩

/-- The first character does not fit. -/
theorem longestFitting_of_lt {n : ℕ} {c : CodePoint} {a : Bytes} (name : Str) (hc : utf8Char c = some a)
    (hlt : n < a.length) : LongestFitting n (c :: name) [] where
  isPrefix := List.nil_prefix
  fits := ⟨[], utf8_nil, Nat.zero_le n⟩
  longest t ht hfits := by
    cases t with
    | nil => exact List.nil_prefix
    | cons d t =>
      obtain ⟨rfl, -⟩ := List.cons_prefix_cons.1 ht
      obtain ⟨bs, hbs, hlen⟩ := hfits
      obtain ⟨a', b, hchar, -, rfl⟩ := utf8_uncons hbs
      cases hc.symm.trans hchar
      rw [List.length_append] at hlen
      omega

/-! ## Cut encodings -/

/-- Decoding does not run out of steps. -/
theorem utf8DecodeIgnoreUpTo_of_le : ∀ {n m : ℕ} {bs : Bytes}, bs.length ≤ n → bs.length ≤ m →
    utf8DecodeIgnoreUpTo n bs = utf8DecodeIgnoreUpTo m bs
  | n, m, [], _, _ => by cases n <;> cases m <;> rfl
  | n + 1, m + 1, b :: bs, hn, hm => by
    have hwidth : 1 ≤ utf8Width b := by
      unfold utf8Width
      split_ifs <;> decide
    have hdrop : ((b :: bs).drop (utf8Width b)).length ≤ bs.length := by
      rw [List.length_drop, List.length_cons]
      omega
    rw [List.length_cons] at hn hm
    rw [utf8DecodeIgnoreUpTo, utf8DecodeIgnoreUpTo]
    split
    · rw [utf8DecodeIgnoreUpTo_of_le (n := n) (m := m) (by omega) (by omega)]
    · exact utf8DecodeIgnoreUpTo_of_le (by omega) (by omega)

/-- A continuation byte. -/
def IsTail (b : UInt8) : Prop := 0x80 ≤ b.toNat ∧ b.toNat < 0xC0

/-- A character starts with no continuation byte, and goes on with nothing else. -/
theorem utf8Char_bytes {c : CodePoint} {b : UInt8} {bs : Bytes} (h : utf8Char c = some (b :: bs)) :
    ¬ IsTail b ∧ ∀ x ∈ bs, IsTail x := by
  have hc := c.isLt
  unfold utf8Char at h
  split_ifs at h with h1 h2 h3 h4
  all_goals
    cases h
    simp only [IsTail, List.mem_cons, List.not_mem_nil, or_false, forall_eq_or_imp, forall_eq]
  · rw [toNat_ofNat_of_lt (by omega)]
    exact ⟨by omega, fun x hx => by cases hx⟩
  · rw [toNat_ofNat_of_lt (by omega), toNat_ofNat_of_lt (by omega)]
    omega
  · rw [toNat_ofNat_of_lt (by omega), toNat_ofNat_of_lt (by omega), toNat_ofNat_of_lt (by omega)]
    omega
  · rw [toNat_ofNat_of_lt (by omega), toNat_ofNat_of_lt (by omega), toNat_ofNat_of_lt (by omega),
      toNat_ofNat_of_lt (by omega)]
    omega

/-- Continuation bytes alone decode to nothing. -/
theorem utf8DecodeIgnoreUpTo_tail : ∀ {n : ℕ} {bs : Bytes}, (∀ x ∈ bs, IsTail x) →
    utf8DecodeIgnoreUpTo n bs = []
  | n, [], _ => by cases n <;> rfl
  | 0, _ :: _, _ => rfl
  | n + 1, b :: bs, h => by
    rw [utf8DecodeIgnoreUpTo]
    have hfirst : ∀ c : CodePoint, utf8Char c ≠ some ((b :: bs).take (utf8Width b)) := by
      intro c hchar
      have hwidth : ∃ w, utf8Width b = w + 1 := by
        unfold utf8Width
        split_ifs
        exacts [⟨0, rfl⟩, ⟨1, rfl⟩, ⟨2, rfl⟩, ⟨3, rfl⟩]
      obtain ⟨w, hw⟩ := hwidth
      rw [hw, List.take_succ_cons] at hchar
      exact (utf8Char_bytes hchar).1 (h b List.mem_cons_self)
    rw [if_neg (hfirst _)]
    exact utf8DecodeIgnoreUpTo_tail fun x hx => h x (List.mem_cons_of_mem _ hx)

/-- **A character cut short** decodes to nothing. -/
theorem utf8DecodeIgnore_take {c : CodePoint} {a : Bytes} (h : utf8Char c = some a) {n : ℕ} (hn : n < a.length) :
    utf8DecodeIgnore (a.take n) = [] := by
  obtain ⟨b, bs, rfl, hwidth, -, -⟩ := utf8Char_decode h
  cases n with
  | zero => rfl
  | succ n =>
    have hcut : (b :: bs.take n).take (utf8Width b) = b :: bs.take n := by
      refine List.take_of_length_le ?_
      rw [hwidth, List.length_cons, List.length_cons, List.length_take]
      omega
    -- a whole character would be as long as its first byte says
    have hwhole : ∀ d : CodePoint, utf8Char d ≠ some (b :: bs.take n) := by
      intro d hd
      obtain ⟨b', bs', heq, hwidth', -, -⟩ := utf8Char_decode hd
      obtain ⟨rfl, -⟩ := List.cons.inj heq
      rw [hwidth, List.length_cons, List.length_cons, List.length_take] at hwidth'
      rw [List.length_cons] at hn
      omega
    rw [List.take_succ_cons, utf8DecodeIgnore, List.length_cons, utf8DecodeIgnoreUpTo, hcut, if_neg (hwhole _)]
    exact utf8DecodeIgnoreUpTo_tail fun x hx => (utf8Char_bytes h).2 x (List.mem_of_mem_take hx)

/-- **Cutting an encoding** and decoding it again finds the longest prefix that fits. -/
theorem longestFitting_decode_take : ∀ {s : Str} {bs : Bytes}, utf8 s = some bs → ∀ n,
    LongestFitting n s (utf8DecodeIgnore (bs.take n))
  | [], bs, h, n => by
    obtain rfl : bs = [] := (Option.some.inj h).symm
    rw [List.take_nil]
    exact longestFitting_nil n
  | c :: s, bs, h, n => by
    obtain ⟨a, b, hc, hs, rfl⟩ := utf8_uncons h
    rcases Nat.lt_or_ge n a.length with hlt | hle
    · rw [List.take_append_of_le_length hlt.le, utf8DecodeIgnore_take hc hlt]
      exact longestFitting_of_lt s hc hlt
    · have hpos : 0 < a.length := by
        obtain ⟨x, xs, rfl, -⟩ := utf8Char_decode hc
        exact Nat.succ_pos _
      have htake : (a ++ b).take n = a ++ b.take (n - a.length) := by
        rw [List.take_append, List.take_of_length_le hle]
      have hdecode : utf8DecodeIgnore (a ++ b.take (n - a.length)) =
          c :: utf8DecodeIgnore (b.take (n - a.length)) := by
        have hlen : (a ++ b.take (n - a.length)).length =
            (a.length - 1 + (b.take (n - a.length)).length) + 1 := by
          rw [List.length_append]
          omega
        rw [utf8DecodeIgnore, hlen, utf8DecodeIgnoreUpTo_append hc, utf8DecodeIgnore,
          utf8DecodeIgnoreUpTo_of_le (Nat.le_add_left _ _) (le_refl _)]
      rw [htake, hdecode]
      exact (longestFitting_decode_take hs (n - a.length)).cons hc hle

/-! ## Names -/

/-- The name of an index before it is truncated. -/
def fullIndexName (table : Str) (columns : List Str) : Str :=
  py "ix_" ++ table ++ py "_" ++ (py "_").intercalate columns

/-- `UnicodeEncodeError`. -/
def encodeError : Exc := .text .unicodeEncodeError (py "surrogates not allowed")

theorem encode_of_none {s : Str} (h : utf8 s = none) : encode s = .error encodeError := by
  rw [encode, h]
  rfl

/-- A text that fits is its own longest prefix. -/
theorem longestFitting_self {n : ℕ} {s : Str} (h : FitsIn n s) : LongestFitting n s s :=
  ⟨List.prefix_rfl, h, fun _ ht _ => ht⟩

/-- **An explicit name** becomes its longest prefix of 63 bytes. -/
theorem longestFitting_of_truncate {name stored : Str} (h : truncateExplicitIdentifier name = .ok stored) :
    LongestFitting maxIdentifierBytes name stored := by
  obtain ⟨encoded, hencoded, h⟩ := bind_eq_ok.1 h
  have hutf8 := utf8_of_encode hencoded
  split_ifs at h with hlength
  · cases h
    exact longestFitting_self ⟨encoded, hutf8, hlength⟩
  · cases h
    exact longestFitting_decode_take hutf8 maxIdentifierBytes

/-- What a derived name is: the full name, or a prefix of it with a digest. -/
structure DerivedName (table : Str) (columns : List Str) (bytes : Bytes) (name : Str) : Prop where
  fits : FitsIn maxIdentifierBytes name
  full : FitsIn maxIdentifierBytes (fullIndexName table columns) → name = fullIndexName table columns
  cut : ¬ FitsIn maxIdentifierBytes (fullIndexName table columns) → ∃ shortened digest,
    LongestFitting (maxIdentifierBytes - 9) (fullIndexName table columns) shortened ∧
      digest = (hexdigest bytes).take 8 ∧ digest.length = 8 ∧ name = shortened ++ py "_" ++ digest

theorem derivedName_of_indexName {table name : Str} {columns : List Str} {bytes : Bytes}
    (hbytes : utf8 (fullIndexName table columns) = some bytes) (h : indexName table columns = .ok name) :
    DerivedName table columns bytes name := by
  have hfits := fits_of_indexName h
  obtain ⟨encoded, hencoded, h⟩ := bind_eq_ok.1 h
  cases hbytes.symm.trans (utf8_of_encode hencoded)
  split_ifs at h with hlength
  · cases h
    exact ⟨hfits, fun _ => rfl, fun hcut => absurd ⟨bytes, hbytes, hlength⟩ hcut⟩
  · refine ⟨hfits, ?_, fun _ => ?_⟩
    · rintro ⟨bs, hbs, hle⟩
      cases hbytes.symm.trans hbs
      exact absurd hle hlength
    · cases h
      exact ⟨_, _, longestFitting_decode_take hbytes _, rfl, by simp, rfl⟩

/-- **Truncation is exact**: an explicit name becomes the longest prefix of whole
    characters in 63 bytes, which is truncated no further; a derived name is the full
    name if it fits, or else the longest prefix in 54 bytes with `_` and eight digits
    of a digest.  A name with surrogates is refused. -/
theorem identifiers_truncated (explicit table : Str) (columns : List Str) :
    (match utf8 explicit with
      | none => truncateExplicitIdentifier explicit = .error encodeError
      | some _ => ∃ stored, truncateExplicitIdentifier explicit = .ok stored ∧
        LongestFitting 63 explicit stored ∧ truncateExplicitIdentifier stored = .ok stored) ∧
    match utf8 (fullIndexName table columns) with
      | none => indexName table columns = .error encodeError
      | some bytes => ∃ name, indexName table columns = .ok name ∧ DerivedName table columns bytes name := by
  constructor
  · cases hutf8 : utf8 explicit with
    | none =>
      rw [truncateExplicitIdentifier, encode_of_none hutf8]
      rfl
    | some bytes =>
      have hok : ∃ stored, truncateExplicitIdentifier explicit = .ok stored := by
        rw [truncateExplicitIdentifier, encode_of_utf8 hutf8]
        by_cases hlength : bytes.length ≤ maxIdentifierBytes
        · exact ⟨_, if_pos hlength⟩
        · exact ⟨_, if_neg hlength⟩
      obtain ⟨stored, hstored⟩ := hok
      exact ⟨stored, hstored, longestFitting_of_truncate hstored, truncate_of_fits (fits_of_truncate hstored)⟩
  · cases hutf8 : utf8 (fullIndexName table columns) with
    | none =>
      have hrefused := encode_of_none hutf8
      unfold fullIndexName at hrefused
      rw [indexName, hrefused]
      rfl
    | some bytes =>
      have hok : ∃ name, indexName table columns = .ok name := by
        have hencoded := encode_of_utf8 hutf8
        unfold fullIndexName at hencoded
        rw [indexName, hencoded]
        by_cases hlength : bytes.length ≤ maxIdentifierBytes
        · exact ⟨_, if_pos hlength⟩
        · exact ⟨_, if_neg hlength⟩
      obtain ⟨name, hname⟩ := hok
      exact ⟨name, hname, derivedName_of_indexName hutf8 hname⟩

/-- A lone surrogate has no encoding, and no name is returned for it. -/
theorem surrogate_not_truncated : ¬ ∃ stored, truncateExplicitIdentifier [0xD800] = .ok stored := by
  rintro ⟨stored, h⟩
  cases h

/-- The second byte of `é` does not fit in one byte. -/
example : utf8DecodeIgnore ([0xC3, 0xA9].take 1) = [] ∧ utf8DecodeIgnore [0xC3, 0xA9] = [0xE9] := by decide

end ContinuoRuntime
