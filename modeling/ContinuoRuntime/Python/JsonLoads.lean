/-
  `json.loads`: reading a JSON text.

  The reader takes whitespace between tokens, members in any order and every
  escape; two escapes of a surrogate pair are one character, and an integer of
  more digits than `int` converts is refused.

  * `scanString_quote`: a quoted string is read back, unless it spells a
    character as two surrogates of its own (`Paired`);
  * `loads_text`: **a value is read back from its text**.
-/
import ContinuoRuntime.Python.JsonText

namespace ContinuoRuntime

namespace Json

/-! ## Strings -/

/-- A leading surrogate. -/
def isHigh (n : ℕ) : Bool := 0xD800 ≤ n && n < 0xDC00

/-- A trailing surrogate. -/
def isLow (n : ℕ) : Bool := 0xDC00 ≤ n && n < 0xE000

def isHexDigit (c : CodePoint) : Bool :=
  (48 ≤ c.val && c.val < 58) || (97 ≤ c.val && c.val < 103) || (65 ≤ c.val && c.val < 71)

/-- The value of a hexadecimal digit of either case. -/
def hexDigitVal (c : CodePoint) : ℕ := if 65 ≤ c.val ∧ c.val < 71 then c.val - 55 else hexVal c

/-- Four hexadecimal digits. -/
def scanHex4 : Str → Option (ℕ × Str)
  | a :: b :: c :: d :: t =>
    if isHexDigit a && isHexDigit b && isHexDigit c && isHexDigit d then
      some (4096 * hexDigitVal a + 256 * hexDigitVal b + 16 * hexDigitVal c + hexDigitVal d, t)
    else none
  | _ => none

/-- The escape of a trailing surrogate. -/
def scanLow : Str → Option (ℕ × Str)
  | b :: u :: t =>
    if b = ch '\\' ∧ u = ch 'u' then (scanHex4 t).filter fun p => isLow p.1 else none
  | _ => none

/-- The letters and signs that stand for a character after a backslash. -/
def unescape (e : CodePoint) : Option CodePoint :=
  if e = ch '"' then some (ch '"') else if e = ch '\\' then some (ch '\\')
  else if e = ch '/' then some (ch '/') else if e = ch 'n' then some (Fin.ofNat _ 10)
  else if e = ch 'r' then some (Fin.ofNat _ 13) else if e = ch 't' then some (Fin.ofNat _ 9)
  else if e = ch 'f' then some (Fin.ofNat _ 12) else if e = ch 'b' then some (Fin.ofNat _ 8)
  else none

/-- What follows a backslash. -/
def scanEscape : Str → Option (CodePoint × Str)
  | [] => none
  | e :: t =>
    if e = ch 'u' then
      match scanHex4 t with
      | none => none
      | some (n, t) =>
        if isHigh n then
          match scanLow t with
          | some (l, t) => some (Fin.ofNat _ (0x10000 + (n - 0xD800) * 0x400 + (l - 0xDC00)), t)
          | none => some (Fin.ofNat _ n, t)
        else some (Fin.ofNat _ n, t)
    else (unescape e).map fun c => (c, t)

/-- `json.decoder.py_scanstring` after the opening quote sign. -/
def scanString : ℕ → Str → Option (Str × Str)
  | 0, _ | _, [] => none
  | n + 1, c :: t =>
    if c = ch '"' then some ([], t)
    else if c = ch '\\' then
      match scanEscape t with
      | none => none
      | some (d, t) => (scanString n t).map fun p => (d :: p.1, p.2)
    else if c.val < 32 then none
    else (scanString n t).map fun p => (c :: p.1, p.2)

/-! ## Quoted strings are read back -/

/-- No leading surrogate stands directly before a trailing one.  Such a pair is
    not Unicode text: its escapes are those of one character. -/
def Unpaired (s : Str) : Prop :=
  s.IsChain fun c d => ¬ (isHigh c.val = true ∧ isLow d.val = true)

/-- Unicode text has no surrogates. -/
theorem unpaired_py (s : String) : Unpaired (py s) := by
  have hch : ∀ c : Char, isLow (ch c).val = false := by
    intro c
    have hv : c.toNat.isValidChar := c.valid
    simp only [Nat.isValidChar] at hv
    have hc : (ch c).val = c.toNat := by
      rw [ch, Fin.val_ofNat, Nat.mod_eq_of_lt (by omega)]
    rw [hc, Bool.eq_false_iff]
    intro h
    simp only [isLow, Bool.and_eq_true, decide_eq_true_eq] at h
    omega
  unfold py
  induction s.toList with
  | nil => exact List.isChain_nil
  | cons c cs ih =>
    refine List.isChain_cons.2 ⟨fun d hd h => ?_, ih⟩
    rw [List.head?_map, Option.mem_map] at hd
    obtain ⟨e, -, rfl⟩ := hd
    rw [hch e] at h
    cases h.2

theorem hexDigit_spec (n : ℕ) :
    isHexDigit (hexDigit n) = true ∧ hexDigitVal (hexDigit n) = n % 16 := by
  have h := hexDigit_val n
  constructor
  · simp only [isHexDigit, Bool.or_eq_true, Bool.and_eq_true, decide_eq_true_eq]
    omega
  · rw [hexDigitVal, if_neg (by omega), hexVal_hexDigit]

theorem scanHex4_hex4 {n : ℕ} (hn : n < 0x10000) (t : Str) :
    scanHex4 (hex4 n ++ t) = some (n, t) := by
  simp only [hex4, List.cons_append, List.nil_append, scanHex4, hexDigit_spec, Bool.and_self,
    ↓reduceIte, Option.some.injEq, Prod.mk.injEq, and_true]
  omega

/-- How a character is escaped. -/
theorem escapeChar_cases (c : CodePoint) :
    (∃ e, shortEscape c.val = some e ∧ escapeChar c = [ch '\\', e]) ∨
    (shortEscape c.val = none ∧ 32 ≤ c.val ∧ c.val ≤ 126 ∧ escapeChar c = [c]) ∨
    (c.val < 0x10000 ∧ escapeChar c = ch '\\' :: ch 'u' :: hex4 c.val) ∨
    ∃ hi lo, isHigh hi = true ∧ isLow lo = true ∧
      c.val = 0x10000 + (hi - 0xD800) * 0x400 + (lo - 0xDC00) ∧
      escapeChar c = ch '\\' :: ch 'u' :: hex4 hi ++ ch '\\' :: ch 'u' :: hex4 lo := by
  have hc := c.isLt
  unfold escapeChar
  cases hs : shortEscape c.val with
  | some e => exact .inl ⟨e, rfl, rfl⟩
  | none =>
    dsimp only
    split_ifs with h1 h2
    · exact .inr (.inl ⟨rfl, h1.1, h1.2, rfl⟩)
    · exact .inr (.inr (.inl ⟨h2, rfl⟩))
    · refine .inr (.inr (.inr ⟨_, _, ?_, ?_, ?_, rfl⟩))
      · simp only [isHigh, Bool.and_eq_true, decide_eq_true_eq]
        omega
      · simp only [isLow, Bool.and_eq_true, decide_eq_true_eq]
        omega
      · omega

theorem isHigh_not_isLow {n : ℕ} (h : isHigh n = true) : isLow n = false := by
  simp only [isHigh, Bool.and_eq_true, decide_eq_true_eq] at h
  simp only [isLow, Bool.and_eq_false_iff, decide_eq_false_iff_not]
  omega

/-- A `\u` escape of anything but a trailing surrogate. -/
theorem scanLow_hex4 {n : ℕ} (hn : n < 0x10000) (h : isLow n = false) (t : Str) :
    scanLow (ch '\\' :: ch 'u' :: (hex4 n ++ t)) = none := by
  simp only [scanLow, and_self, ↓reduceIte, scanHex4_hex4 hn, Option.filter, h, Bool.false_eq_true]

theorem scanLow_of_ne {c : CodePoint} (hc : c ≠ ch '\\') (t : Str) : scanLow (c :: t) = none := by
  cases t with
  | nil => rfl
  | cons u t => rw [scanLow, if_neg fun h => hc h.1]

theorem shortEscape_backslash : shortEscape (ch '\\').val ≠ none := by decide

theorem ne_backslash {c : CodePoint} (h : shortEscape c.val = none) : c ≠ ch '\\' := by
  rintro rfl
  exact shortEscape_backslash h

theorem ne_quoteSign {c : CodePoint} (h : shortEscape c.val = none) : c ≠ ch '"' := by
  rintro rfl
  exact absurd h (by decide)

/-- Only the escape of a trailing surrogate is read as one. -/
theorem scanLow_escapeChar {d : CodePoint} (hd : isLow d.val = false) (t : Str) :
    scanLow (escapeChar d ++ t) = none := by
  rcases escapeChar_cases d with ⟨e, hs, he⟩ | ⟨hs, -, -, he⟩ | ⟨hlt, he⟩ | ⟨hi, lo, hhi, -, hv, he⟩
  · rw [he, List.cons_append, List.singleton_append, scanLow,
      if_neg fun h => (shortEscape_some hs).1 h.2]
  · rw [he, List.singleton_append, scanLow_of_ne (ne_backslash hs)]
  · rw [he, List.cons_append, List.cons_append, scanLow_hex4 hlt hd]
  · have hhi' := hhi
    simp only [isHigh, Bool.and_eq_true, decide_eq_true_eq] at hhi'
    rw [he, List.cons_append, List.cons_append, List.cons_append, List.cons_append,
      List.append_assoc, scanLow_hex4 (by omega) (isHigh_not_isLow hhi)]

/-- What a quoted string goes on with: escapes, and the closing quote sign. -/
def quoted (s r : Str) : Str := s.flatMap escapeChar ++ ch '"' :: r

theorem scanLow_quoted {s : Str} (h : ∀ d ∈ s.head?, isLow d.val = false) (r : Str) :
    scanLow (quoted s r) = none := by
  cases s with
  | nil => exact scanLow_of_ne (by decide) r
  | cons d s =>
    rw [quoted, List.flatMap_cons, List.append_assoc]
    exact scanLow_escapeChar (h d rfl) _

theorem unescape_shortEscape {n : ℕ} {e : CodePoint} (h : shortEscape n = some e) :
    e ≠ ch 'u' ∧ unescape e = some (Fin.ofNat _ n) := by
  unfold shortEscape at h
  split_ifs at h <;> (cases h; subst_vars; exact ⟨by decide, rfl⟩)

/-- **One escaped character is read back.** -/
theorem scanString_escapeChar {c : CodePoint} {s : Str}
    (h : isHigh c.val = true → ∀ d ∈ s.head?, isLow d.val = false) (n : ℕ) (r : Str) :
    scanString (n + 1) (escapeChar c ++ quoted s r)
      = (scanString n (quoted s r)).map fun p => (c :: p.1, p.2) := by
  have hc := c.isLt
  have hback : ∀ m, m = c.val → (Fin.ofNat 0x110000 m) = c := fun m hm =>
    Fin.ext (by rw [Fin.val_ofNat, Nat.mod_eq_of_lt (by omega), hm])
  have hbs : ch '\\' ≠ ch '"' := by decide
  rcases escapeChar_cases c with ⟨e, hs, he⟩ | ⟨hs, h32, -, he⟩ | ⟨hlt, he⟩ |
    ⟨hi, lo, hhi, hlo, hv, he⟩
  · obtain ⟨hu, hun⟩ := unescape_shortEscape hs
    simp only [he, List.cons_append, List.nil_append, scanString, hbs, ↓reduceIte, scanEscape, hu,
      hun, Option.map_some, hback _ rfl]
  · simp only [he, List.cons_append, List.nil_append, scanString, ne_quoteSign hs, ne_backslash hs,
      ↓reduceIte, show ¬ c.val < 32 by omega]
  · simp only [he, List.cons_append, scanString, hbs, ↓reduceIte, scanEscape, scanHex4_hex4 hlt]
    cases hh : isHigh c.val with
    | true => simp only [↓reduceIte, scanLow_quoted (h hh), hback _ rfl]
    | false => simp only [Bool.false_eq_true, ↓reduceIte, hback _ rfl]
  · have hhi' := hhi
    have hlo' := hlo
    simp only [isHigh, isLow, Bool.and_eq_true, decide_eq_true_eq] at hhi' hlo'
    simp only [he, List.cons_append, List.append_assoc, scanString, hbs, ↓reduceIte, scanEscape,
      scanHex4_hex4 (show hi < 0x10000 by omega), hhi, scanLow, and_self,
      scanHex4_hex4 (show lo < 0x10000 by omega), Option.filter, hlo, hback _ hv.symm]

/-- **A quoted string is read back.** -/
theorem scanString_quoted : ∀ {s : Str}, Unpaired s → ∀ {n : ℕ}, s.length < n → ∀ r : Str,
    scanString n (quoted s r) = some (s, r)
  | [], _, n + 1, _, r => by
    rw [quoted, List.flatMap_nil, List.nil_append, scanString, if_pos rfl]
  | c :: s, hs, n + 1, hn, r => by
    obtain ⟨hhead, hs⟩ := List.isChain_cons.1 hs
    have hlow : isHigh c.val = true → ∀ d ∈ s.head?, isLow d.val = false := fun hc d hd => by
      by_contra hd'
      exact hhead d hd ⟨hc, by simpa using hd'⟩
    rw [quoted, List.flatMap_cons, List.append_assoc]
    refine (scanString_escapeChar hlow n r).trans ?_
    rw [scanString_quoted hs (Nat.lt_of_succ_lt_succ hn) r, Option.map_some]

theorem length_le_quoted (s r : Str) : s.length < (quoted s r).length := by
  have hpos : ∀ c, 0 < (escapeChar c).length := by
    intro c
    rcases escapeChar_cases c with ⟨e, -, he⟩ | ⟨-, -, -, he⟩ | ⟨-, he⟩ | ⟨hi, lo, -, -, -, he⟩ <;>
      simp [he]
  induction s with
  | nil => simp [quoted]
  | cons c s ih =>
    have := hpos c
    simp only [quoted, List.flatMap_cons, List.append_assoc, List.length_append, List.length_cons]
      at ih ⊢
    omega

theorem quote_append (s r : Str) : quote s ++ r = ch '"' :: quoted s r := by
  simp only [quote, quoted, List.cons_append, List.append_assoc, List.nil_append]

/-! ## Values -/

/-- The whitespace between tokens. -/
def isJsonSpace (c : CodePoint) : Bool := c == ch ' ' || c.val == 9 || c.val == 10 || c.val == 13

def skipWs (t : Str) : Str := t.dropWhile isJsonSpace

/-- `int(text)` of digits without leading zeros; too many digits are refused. -/
def readNat (t : Str) : Option ℕ := if isNatText t && t.length ≤ maxIntDigits then some (ofDecimal t) else none

/-- The integer a text writes. -/
def readInt : Str → Option ℤ
  | [] => none
  | c :: t => if c = ch '-' then (readNat t).map fun n : ℕ => -(n : ℤ) else (readNat (c :: t)).map Int.ofNat

/-- The value of a word; a float is kept as it is written. -/
def readWord (w : Str) : Option (Json Str) :=
  if w = py "null" then some null
  else if w = py "true" then some (bool true)
  else if w = py "false" then some (bool false)
  else match readInt w with
    | some i => some (int i)
    | none => if h : isFloatText w = true then some (float ⟨w, h⟩) else none

mutual
/-- `scan_once`: the value at the head of a text, and the rest of the text. -/
def scanOnce : ℕ → Str → Option (Json Str × Str)
  | 0, _ | _, [] => none
  | n + 1, c :: t =>
    if c = ch '"' then (scanString t.length t).map fun p => (str p.1, p.2)
    else if c = ch '[' then
      match skipWs t with
      | [] => none
      | d :: u =>
        if d = ch ']' then some (arr [], u)
        else (scanElements n (d :: u)).map fun p => (arr p.1, p.2)
    else if c = ch '{' then
      match skipWs t with
      | [] => none
      | d :: u =>
        if d = ch '}' then some (obj [], u)
        else (scanMembers n (d :: u)).map fun p => (obj p.1, p.2)
    else
      (readWord ((c :: t).takeWhile isWordChar)).map fun v => (v, (c :: t).dropWhile isWordChar)
/-- The elements of an array up to its closing bracket. -/
def scanElements : ℕ → Str → Option (List (Json Str) × Str)
  | 0, _ => none
  | n + 1, t =>
    match scanOnce n t with
    | none => none
    | some (v, t) =>
      match skipWs t with
      | [] => none
      | d :: t =>
        if d = ch ']' then some ([v], t)
        else if d = ch ',' then (scanElements n (skipWs t)).map fun p => (v :: p.1, p.2)
        else none
/-- The members of an object up to its closing bracket. -/
def scanMembers : ℕ → Str → Option (List (Str × Json Str) × Str)
  | 0, _ | _, [] => none
  | n + 1, q :: t =>
    if q ≠ ch '"' then none
    else match scanString t.length t with
      | none => none
      | some (k, t) =>
        match skipWs t with
        | [] => none
        | d :: t =>
          if d ≠ ch ':' then none
          else match scanOnce n (skipWs t) with
            | none => none
            | some (v, t) =>
              match skipWs t with
              | [] => none
              | d :: t =>
                if d = ch '}' then some ([(k, v)], t)
                else if d = ch ',' then
                  (scanMembers n (skipWs t)).map fun p => ((k, v) :: p.1, p.2)
                else none
end

/-! ## Words are read back -/

theorem isNatText_decimal (n : ℕ) : isNatText (decimal n) = true := by
  have hall : (decimal n).all isDigit = true :=
    List.all_eq_true.2 fun c hc => by
      have := mem_decimal hc
      simp only [isDigit, Bool.and_eq_true, decide_eq_true_eq]
      exact this
  have hlead : (decimal n).length = 1 ∨ (decimal n).head? ≠ some (ch '0') := by
    unfold decimal
    split_ifs with hn
    · exact .inl rfl
    · refine .inr fun h => ?_
      have hne : Nat.digits 10 n ≠ [] := Nat.digits_ne_nil_iff_ne_zero.2 hn
      rw [List.head?_map, List.head?_reverse, List.getLast?_eq_some_getLast hne, Option.map_some,
        Option.some.injEq] at h
      have hd := Nat.digits_lt_base (by decide : 1 < 10) (List.getLast_mem hne)
      have hv := congrArg Fin.val h
      rw [Fin.val_ofNat, Nat.mod_eq_of_lt (by omega)] at hv
      have : (ch '0').val = 48 := by decide
      have hz := Nat.getLast_digit_ne_zero 10 hn
      omega
  simp only [isNatText, isDigits, hall, Bool.and_true, Bool.and_eq_true, Bool.or_eq_true, decide_eq_true_eq,
    beq_iff_eq]
  exact ⟨decimal_ne_nil n, hlead⟩

theorem readNat_decimal {n : ℕ} (hn : (decimal n).length ≤ maxIntDigits) : readNat (decimal n) = some n := by
  rw [readNat, isNatText_decimal, Bool.true_and, if_pos (decide_eq_true hn), ofDecimal_decimal]

theorem readInt_decimalInt {i : ℤ} (hi : IntPrints i) : readInt (decimalInt i) = some i := by
  cases i with
  | ofNat n =>
    obtain ⟨c, t, hct⟩ := List.exists_cons_of_ne_nil (decimal_ne_nil n)
    have hc : c ≠ ch '-' := by
      rintro rfl
      exact minus_notMem_decimal n (hct ▸ List.mem_cons_self)
    have hread : readNat (decimal n) = some n := readNat_decimal hi
    rw [hct] at hread
    rw [decimalInt, hct, readInt, if_neg hc, hread]
    rfl
  | negSucc n =>
    have hread : readNat (decimal (n + 1)) = some (n + 1) := readNat_decimal hi
    rw [decimalInt, readInt, if_pos rfl, hread]
    rfl

/-- Only characters of an integer are read as one. -/
theorem isIntText_of_readInt {t : Str} {i : ℤ} (h : readInt t = some i) : isIntText t = true := by
  have hnat : ∀ {t : Str} {n : ℕ}, readNat t = some n → isIntText t = true := by
    intro t n ht
    unfold readNat at ht
    split_ifs at ht with hdigits
    simp only [isNatText, isDigits, Bool.and_eq_true] at hdigits
    refine List.all_eq_true.2 fun c hc => ?_
    have hc := List.all_eq_true.1 hdigits.1.1.2 c hc
    rw [isDigit] at hc
    rw [hc, Bool.true_or]
  cases t with
  | nil => rfl
  | cons c t =>
    rw [readInt] at h
    split_ifs at h with hc
    · obtain ⟨n, hn, -⟩ := Option.map_eq_some_iff.1 h
      subst hc
      rw [isIntText, List.all_cons, ← isIntText, hnat hn]
      rfl
    · obtain ⟨n, hn, -⟩ := Option.map_eq_some_iff.1 h
      exact hnat hn

/-- **A word is read back.** -/
theorem readWord_word {v : Json Str} {t : Str} (hv : ∀ i, v = int i → IntPrints i) (h : v.word = some t) :
    readWord t = some v := by
  have hne : ∀ {t u : Str}, isIntText t = true → isIntText u = false → t ≠ u := by
    rintro t u h1 h2 rfl
    rw [h1] at h2
    cases h2
  have hkey : isIntText (py "null") = false ∧ isIntText (py "true") = false ∧
      isIntText (py "false") = false := by decide
  cases v with
  | null =>
    cases h
    exact if_pos rfl
  | bool b =>
    cases b with
    | true => cases h; rfl
    | false => cases h; rfl
  | int i =>
    cases h
    have hi := isIntText_decimalInt i
    rw [readWord, if_neg (hne hi hkey.1), if_neg (hne hi hkey.2.1), if_neg (hne hi hkey.2.2),
      readInt_decimalInt (hv i rfl)]
  | float f =>
    cases h
    have hf : ∀ {u : Str}, isFloatText u = false → f.text ≠ u := by
      rintro u hu rfl
      rw [f.wf] at hu
      cases hu
    have hint : readInt f.text = none := by
      cases hr : readInt f.text with
      | none => rfl
      | some i =>
        have := isIntText_of_readInt hr
        rw [not_isIntText_of_float f.wf] at this
        cases this
    rw [readWord, if_neg (hf (by decide)), if_neg (hf (by decide)), if_neg (hf (by decide)), hint]
    simp only [f.wf, ↓reduceDIte]
  | str | arr | obj => cases h

/-! ## Texts are read back -/

variable {S : Type}

mutual
/-- Every string of a value, keys included, satisfies `P`, and every integer `Q`. -/
def All (P : S → Prop) (Q : ℤ → Prop) : Json S → Prop
  | int i => Q i
  | str s => P s
  | arr xs => AllList P Q xs
  | obj kvs => AllItems P Q kvs
  | _ => True
  termination_by structural j => j
def AllList (P : S → Prop) (Q : ℤ → Prop) : List (Json S) → Prop
  | [] => True
  | x :: xs => x.All P Q ∧ AllList P Q xs
  termination_by structural xs => xs
def AllItems (P : S → Prop) (Q : ℤ → Prop) : List (S × Json S) → Prop
  | [] => True
  | (k, v) :: kvs => P k ∧ v.All P Q ∧ AllItems P Q kvs
  termination_by structural kvs => kvs
end

/-- A text starts with a character that is neither whitespace nor a sign that
    ends or separates values. -/
theorem exists_text_head (v : Json Str) : ∃ c t, v.text quote = c :: t ∧ shapeOf c ≠ 4 := by
  have hq : quote = quoteUnits ∘ utf16 := funext quote_eq
  obtain ⟨c, t, hv, hc⟩ := text_head quoting_units (v.map utf16)
  rw [text_map, ← hq] at hv
  refine ⟨c, t, hv, ?_⟩
  rw [hc]
  cases v.map utf16 <;> simp [shape]

theorem shapeOf_of_isJsonSpace {c : CodePoint} (h : isJsonSpace c = true) : shapeOf c = 4 := by
  simp only [isJsonSpace, Bool.or_eq_true, beq_iff_eq] at h
  rcases h with ((rfl | h) | h) | h
  · decide
  · rw [show c = 9 from Fin.ext h]; decide
  · rw [show c = 10 from Fin.ext h]; decide
  · rw [show c = 13 from Fin.ext h]; decide

theorem skipWs_cons {c : CodePoint} (h : isJsonSpace c = false) (t : Str) :
    skipWs (c :: t) = c :: t := by
  rw [skipWs, List.dropWhile_cons, h]
  rfl

theorem skipWs_text (v : Json Str) (r : Str) : skipWs (v.text quote ++ r) = v.text quote ++ r := by
  obtain ⟨c, t, hv, hc⟩ := exists_text_head v
  rw [hv, List.cons_append]
  refine skipWs_cons ?_ _
  by_contra h
  exact hc (shapeOf_of_isJsonSpace (by simpa using h))

/-- **A word at the head of a text is read back.** -/
theorem scanOnce_word {v : Json Str} {t : Str} (hv : ∀ i, v = int i → IntPrints i) (h : v.word = some t)
    (n : ℕ) {r : Str} (hr : Delim r) : scanOnce (n + 1) (t ++ r) = some (v, r) := by
  have hw := word_isWord h
  obtain ⟨c, u, hcu⟩ := List.exists_cons_of_ne_nil hw.1
  have hc : isWordChar c = true := hw.2 c (hcu ▸ List.mem_cons_self)
  have hne : ∀ d : CodePoint, isWordChar d = false → c ≠ d := by
    rintro d hd rfl
    rw [hc] at hd
    cases hd
  have htake : (t ++ r).takeWhile isWordChar = t := by
    rw [List.takeWhile_append_of_pos hw.2]
    cases r with
    | nil => exact List.append_nil t
    | cons d r => rw [List.takeWhile_cons, hr d rfl]; exact List.append_nil t
  have hdrop : (t ++ r).dropWhile isWordChar = r := by
    rw [List.dropWhile_append_of_pos hw.2]
    cases r with
    | nil => rfl
    | cons d r => rw [List.dropWhile_cons, hr d rfl]; rfl
  rw [hcu, List.cons_append] at htake hdrop ⊢
  rw [scanOnce, if_neg (hne _ (by decide)), if_neg (hne _ (by decide)), if_neg (hne _ (by decide)),
    htake, hdrop, ← hcu, readWord_word hv h, Option.map_some]

theorem scanString_quote {s : Str} (hs : Unpaired s) (r : Str) :
    scanString (quoted s r).length (quoted s r) = some (s, r) :=
  scanString_quoted hs (length_le_quoted s r) r

mutual
/-- **A value at the head of a text is read back.** -/
theorem scanOnce_text : ∀ (v : Json Str), v.All Unpaired IntPrints → ∀ {n : ℕ} {r : Str},
    2 * (v.text quote).length ≤ n → Delim r → scanOnce n (v.text quote ++ r) = some (v, r)
  | v, hv, 0, r, hn, _ => by
    obtain ⟨c, t, ht, -⟩ := exists_text_head v
    rw [ht, List.length_cons] at hn
    omega
  | null, _, n + 1, r, _, hr | bool true, _, n + 1, r, _, hr | bool false, _, n + 1, r, _, hr
  | float _, _, n + 1, r, _, hr => scanOnce_word (fun _ hv => (by cases hv)) rfl n hr
  | int _, hi, n + 1, r, _, hr => scanOnce_word (fun _ hv => (by cases hv; exact hi)) rfl n hr
  | str s, hs, n + 1, r, _, _ => by
    rw [text, quote_append, scanOnce, if_pos rfl, scanString_quote hs, Option.map_some]
  | arr [], _, n + 1, r, _, _ => by
    rw [text, List.cons_append, List.cons_append, List.nil_append, scanOnce, if_neg (by decide),
      if_pos rfl, skipWs_cons (by decide)]
    exact if_pos rfl
  | arr (x :: xs), hxs, n + 1, r, hn, _ => by
    have hlen : (textTail quote (x :: xs)).length + 1 = ((arr (x :: xs)).text quote).length := by
      simp only [text, textTail, List.length_cons, List.length_append, List.length_nil]
    obtain ⟨u, hu, hscan⟩ := scanElements_text (x :: xs) (List.cons_ne_nil _ _) hxs (n := n)
      (r := r) (by omega)
    rw [textTail, List.cons_append, List.append_assoc] at hu
    obtain ⟨c, t, hx, hc⟩ := exists_text_head x
    have hclose : c ≠ ch ']' := by
      rintro rfl
      exact hc (by decide)
    rw [← (List.cons.inj hu).2] at hscan
    have hws := skipWs_text x (textTail quote xs ++ ch ']' :: r)
    simp only [text, List.cons_append, List.append_assoc, List.nil_append, scanOnce, hws]
    rw [hx, List.cons_append] at hscan ⊢
    simp only [hclose, ↓reduceIte, hscan, Option.map_some]
    rfl
  | obj [], _, n + 1, r, _, _ => by
    rw [text, List.cons_append, List.cons_append, List.nil_append, scanOnce, if_neg (by decide),
      if_neg (by decide), if_pos rfl, skipWs_cons (by decide)]
    exact if_pos rfl
  | obj ((k, v) :: kvs), hkvs, n + 1, r, hn, _ => by
    have hlen : (itemsTail quote ((k, v) :: kvs)).length + 1
        = ((obj ((k, v) :: kvs)).text quote).length := by
      simp only [text, itemsTail, List.length_cons, List.length_append, List.length_nil]
      omega
    obtain ⟨u, hu, hscan⟩ := scanMembers_text ((k, v) :: kvs) (List.cons_ne_nil _ _) hkvs (n := n)
      (r := r) (by omega)
    rw [itemsTail, List.cons_append, List.append_assoc, quote_append] at hu
    rw [← (List.cons.inj hu).2] at hscan
    have hquote : ∀ t, skipWs (quote k ++ t) = ch '"' :: quoted k t := fun t => by
      rw [quote_append, skipWs_cons (by decide)]
    simp only [List.cons_append, List.append_assoc] at hscan
    simp only [text, List.cons_append, List.append_assoc, List.nil_append, scanOnce, hquote]
    simp only [hscan, Option.map_some]
    rfl
  termination_by structural v => v
/-- The elements after an opening bracket or a comma. -/
theorem scanElements_text : ∀ (xs : List (Json Str)), xs ≠ [] → AllList Unpaired IntPrints xs →
    ∀ {n : ℕ} {r : Str}, 2 * (textTail quote xs).length ≤ n →
    ∃ u, textTail quote xs ++ ch ']' :: r = ch ',' :: u ∧ scanElements n u = some (xs, r)
  | [], h, _, _, _, _ => absurd rfl h
  | x :: xs, _, hxs, n, r, hn => by
    simp only [textTail, List.length_cons, List.length_append] at hn
    obtain ⟨n, rfl⟩ : ∃ m, n = m + 1 := ⟨n - 1, by omega⟩
    refine ⟨x.text quote ++ (textTail quote xs ++ ch ']' :: r), ?_, ?_⟩
    · rw [textTail, List.cons_append, List.append_assoc]
    have hx := scanOnce_text x hxs.1 (n := n) (by omega) (@textTail_delim _ quote xs r)
    rw [scanElements, hx]
    match xs, hxs.2 with
    | [], _ => simp only [textTail, List.nil_append, skipWs_cons (show isJsonSpace (ch ']') = false
        by decide), ↓reduceIte]
    | y :: ys, hys =>
      obtain ⟨u, hu, hscan⟩ := scanElements_text (y :: ys) (List.cons_ne_nil _ _) hys (n := n)
        (r := r) (by omega)
      have hws : skipWs u = u := by
        rw [textTail, List.cons_append, List.append_assoc] at hu
        rw [← (List.cons.inj hu).2]
        exact skipWs_text y _
      simp only [hu, skipWs_cons (show isJsonSpace (ch ',') = false by decide), hws, hscan,
        show ch ',' ≠ ch ']' by decide, ↓reduceIte, Option.map_some]
  termination_by structural xs => xs
/-- The members after an opening brace or a comma. -/
theorem scanMembers_text : ∀ (kvs : List (Str × Json Str)), kvs ≠ [] → AllItems Unpaired IntPrints kvs →
    ∀ {n : ℕ} {r : Str}, 2 * (itemsTail quote kvs).length ≤ n →
    ∃ u, itemsTail quote kvs ++ ch '}' :: r = ch ',' :: u ∧ scanMembers n u = some (kvs, r)
  | [], h, _, _, _, _ => absurd rfl h
  | (k, v) :: kvs, _, hkvs, n, r, hn => by
    simp only [itemsTail, List.length_cons, List.length_append] at hn
    obtain ⟨n, rfl⟩ : ∃ m, n = m + 1 := ⟨n - 1, by omega⟩
    refine ⟨quote k ++ ch ':' :: (v.text quote ++ (itemsTail quote kvs ++ ch '}' :: r)), ?_, ?_⟩
    · simp only [itemsTail, List.cons_append, List.append_assoc]
    have hv := scanOnce_text v hkvs.2.1 (n := n) (by omega) (@itemsTail_delim _ quote kvs r)
    rw [quote_append, scanMembers, if_neg (by simp), scanString_quote hkvs.1]
    dsimp only
    rw [skipWs_cons (by decide)]
    dsimp only
    rw [if_neg (by simp), skipWs_text, hv]
    match kvs, hkvs.2.2 with
    | [], _ => simp only [itemsTail, List.nil_append, skipWs_cons (show isJsonSpace (ch '}') = false
        by decide), ↓reduceIte]
    | (l, w) :: kws, hkws =>
      obtain ⟨u, hu, hscan⟩ := scanMembers_text ((l, w) :: kws) (List.cons_ne_nil _ _) hkws (n := n)
        (r := r) (by omega)
      have hws : skipWs u = u := by
        rw [itemsTail, List.cons_append, List.append_assoc, quote_append] at hu
        rw [← (List.cons.inj hu).2]
        exact skipWs_cons (by decide) _
      simp only [hu, skipWs_cons (show isJsonSpace (ch ',') = false by decide), hws, hscan,
        show ch ',' ≠ ch '}' by decide, ↓reduceIte, Option.map_some]
  termination_by structural kvs => kvs
end

end Json

/-- `json.loads`; two units of fuel for each character are enough. -/
def loads (t : Str) : Option (Json Str) :=
  match Json.scanOnce (2 * t.length) (Json.skipWs t) with
  | some (v, rest) => if Json.skipWs rest = [] then some v else none
  | none => none

/-- **A value is read back from its text.** -/
theorem loads_text {v : Json Str} (hv : v.All Json.Unpaired IntPrints) : loads (v.text quote) = some v := by
  have hws := Json.skipWs_text v []
  have hscan := Json.scanOnce_text v hv (Nat.le_refl _) (r := []) fun c hc => by cases hc
  rw [List.append_nil] at hws hscan
  rw [loads, hws, hscan]
  exact if_pos rfl

end ContinuoRuntime
