/-
  `json.dumps(value, sort_keys=True, separators=(",", ":"))`.

  * `Json.text_inj`: the text of a value determines the value, whatever may
    follow it, for every quoting that can be read back (`Quoting`);
  * `quote_eq`: a quoted string spells the UTF-16 code units of the string
    (`ensure_ascii`), so a text is the text of the value's UTF-16 spelling;
  * `dumps_eq_iff`: two values have one text exactly if their sorted forms have
    one UTF-16 spelling.
-/
import ContinuoRuntime.Python.Json

namespace ContinuoRuntime

/-! ## Texts -/

/-- The decimal digits of a natural number. -/
def decimal (n : ℕ) : Str :=
  if n = 0 then [ch '0'] else (Nat.digits 10 n).reverse.map fun d => Fin.ofNat _ (48 + d)

/-- `str` of an integer. -/
def decimalInt : ℤ → Str
  | .ofNat n => decimal n
  | .negSucc n => ch '-' :: decimal (n + 1)

namespace Json

variable {S T : Type}

/-- The text of a scalar other than a string. -/
def word : Json S → Option Str
  | null => some (py "null")
  | bool true => some (py "true")
  | bool false => some (py "false")
  | int i => some (decimalInt i)
  | float f => some f.text
  | _ => none

/-- `type(value).__name__`. -/
def typeName : Json Str → Str
  | null => py "NoneType"
  | bool _ => py "bool"
  | int _ => py "int"
  | float _ => py "float"
  | str _ => py "str"
  | arr _ => py "list"
  | obj _ => py "dict"

mutual
/-- The text of a value, with `q` quoting strings; members in the given order. -/
def text (q : S → Str) : Json S → Str
  | null => py "null"
  | bool true => py "true"
  | bool false => py "false"
  | int i => decimalInt i
  | float f => f.text
  | str s => q s
  | arr [] => [ch '[', ch ']']
  | arr (x :: xs) => ch '[' :: (text q x ++ textTail q xs ++ [ch ']'])
  | obj [] => [ch '{', ch '}']
  | obj ((k, v) :: kvs) => ch '{' :: (q k ++ ch ':' :: (text q v ++ itemsTail q kvs ++ [ch '}']))
  termination_by structural j => j
/-- Further elements, each after a comma. -/
def textTail (q : S → Str) : List (Json S) → Str
  | [] => []
  | x :: xs => ch ',' :: (text q x ++ textTail q xs)
  termination_by structural xs => xs
/-- Further members, each after a comma. -/
def itemsTail (q : S → Str) : List (S × Json S) → Str
  | [] => []
  | (k, v) :: kvs => ch ',' :: (q k ++ ch ':' :: (text q v ++ itemsTail q kvs))
  termination_by structural kvs => kvs
end

end Json

/-! ## Quoted strings -/

/-- Four hexadecimal digits, as `'{0:04x}'` writes a number below `0x10000`. -/
def hex4 (n : ℕ) : Str :=
  [hexDigit (n / 4096), hexDigit (n / 256), hexDigit (n / 16), hexDigit n]

/-- The escapes with a letter or sign of their own. -/
def shortEscape (n : ℕ) : Option CodePoint :=
  if n = 34 then some (ch '"') else if n = 92 then some (ch '\\') else if n = 10 then some (ch 'n')
  else if n = 13 then some (ch 'r') else if n = 9 then some (ch 't') else if n = 12 then some (ch 'f')
  else if n = 8 then some (ch 'b') else none

/-- `json.encoder.py_encode_basestring_ascii` on one character. -/
def escapeChar (c : CodePoint) : Str :=
  match shortEscape c.val with
  | some e => [ch '\\', e]
  | none =>
    if 32 ≤ c.val ∧ c.val ≤ 126 then [c]
    else if c.val < 0x10000 then ch '\\' :: ch 'u' :: hex4 c.val
    else
      -- surrogate pair
      let n := c.val - 0x10000
      ch '\\' :: ch 'u' :: hex4 (0xD800 + n / 0x400) ++
        ch '\\' :: ch 'u' :: hex4 (0xDC00 + n % 0x400)

/-- A string between quotes, in ASCII. -/
def quote (s : Str) : Str := ch '"' :: (s.flatMap escapeChar ++ [ch '"'])

/-- The escape of one UTF-16 code unit. -/
def escapeUnit (u : Unit16) : Str :=
  match shortEscape u.val with
  | some e => [ch '\\', e]
  | none =>
    if 32 ≤ u.val ∧ u.val ≤ 126 then [Fin.ofNat _ u.val] else ch '\\' :: ch 'u' :: hex4 u.val

def quoteUnits (us : List Unit16) : Str := ch '"' :: (us.flatMap escapeUnit ++ [ch '"'])

theorem shortEscape_none {n : ℕ} (hn : 126 < n) : shortEscape n = none := by
  unfold shortEscape
  split_ifs <;> first | omega | rfl

theorem escapeUnit_wide {n : ℕ} (hn : 126 < n) (h : n < 0x10000) :
    escapeUnit (Fin.ofNat _ n) = ch '\\' :: ch 'u' :: hex4 n := by
  have hv : (Fin.ofNat 0x10000 n).val = n := by rw [Fin.val_ofNat, Nat.mod_eq_of_lt h]
  simp only [escapeUnit, hv, shortEscape_none hn]
  rw [if_neg (by omega)]

/-- `ensure_ascii` writes the UTF-16 code units of a character. -/
theorem escape_eq (c : CodePoint) : escapeChar c = (units c).flatMap escapeUnit := by
  have hc := c.isLt
  by_cases h : c.val < 0x10000
  · have hv : (Fin.ofNat 0x10000 c.val).val = c.val := by rw [Fin.val_ofNat, Nat.mod_eq_of_lt h]
    have hc' : Fin.ofNat 0x110000 c.val = c :=
      Fin.ext (by rw [Fin.val_ofNat, Nat.mod_eq_of_lt hc])
    simp only [units, h, ↓reduceIte, List.flatMap_singleton, escapeUnit, escapeChar, hv, hc']
  · simp only [units, h, ↓reduceIte, List.flatMap_cons, List.flatMap_nil, escapeChar,
      shortEscape_none (show 126 < c.val by omega)]
    rw [if_neg (by omega), escapeUnit_wide (by omega) (by omega),
      escapeUnit_wide (by omega) (by omega), List.append_nil]

theorem quote_eq (s : Str) : quote s = quoteUnits (utf16 s) := by
  rw [quote, quoteUnits, utf16, List.flatMap_assoc, funext escape_eq]

/-- Read one escaped code unit back. -/
def readUnit : Str → Option (Unit16 × Str)
  | [] => none
  | c :: t =>
    if c ≠ ch '\\' then some (Fin.ofNat _ c.val, t)
    else match t with
      | [] => none
      | e :: t =>
        if e = ch 'u' then match t with
          | a :: b :: c :: d :: t => some (Fin.ofNat _
              (4096 * hexVal a + 256 * hexVal b + 16 * hexVal c + hexVal d), t)
          | _ => none
        else if e = ch 'n' then some (10, t) else if e = ch 'r' then some (13, t)
        else if e = ch 't' then some (9, t) else if e = ch 'f' then some (12, t)
        else if e = ch 'b' then some (8, t) else some (Fin.ofNat _ e.val, t)

theorem shortEscape_some {n : ℕ} {e : CodePoint} (h : shortEscape n = some e) :
    e ≠ ch 'u' ∧ ∀ t, readUnit (ch '\\' :: e :: t) = some (Fin.ofNat _ n, t) := by
  unfold shortEscape at h
  split_ifs at h <;> (cases h; subst_vars; exact ⟨by decide, fun t => rfl⟩)

theorem readUnit_escapeUnit (u : Unit16) (r : Str) : readUnit (escapeUnit u ++ r) = some (u, r) := by
  have hu := u.isLt
  have hu' : Fin.ofNat 0x10000 u.val = u := Fin.ext (by rw [Fin.val_ofNat, Nat.mod_eq_of_lt hu])
  unfold escapeUnit
  cases hs : shortEscape u.val with
  | some e => rw [List.cons_append, List.singleton_append, (shortEscape_some hs).2 r, hu']
  | none =>
    dsimp only
    split_ifs with h
    · have hne : (Fin.ofNat 0x110000 u.val) ≠ ch '\\' := by
        intro hc
        have hv := congrArg Fin.val hc
        rw [Fin.val_ofNat, Nat.mod_eq_of_lt (by omega)] at hv
        simp [shortEscape, hv, ch] at hs
      simp only [List.cons_append, List.nil_append, readUnit, ne_eq, hne, not_false_eq_true,
        ↓reduceIte, Fin.val_ofNat, Nat.mod_eq_of_lt (show u.val < 0x110000 by omega), hu']
    · simp only [hex4, List.cons_append, List.nil_append, readUnit, ne_eq, not_true_eq_false,
        ↓reduceIte, hexVal_hexDigit, Option.some.injEq, Prod.mk.injEq, and_true, Fin.ext_iff,
        Fin.val_ofNat]
      omega

/-! ## Reading numbers and words -/

theorem mem_decimal {n : ℕ} {c : CodePoint} (h : c ∈ decimal n) : 48 ≤ c.val ∧ c.val < 58 := by
  unfold decimal at h
  split_ifs at h with hn
  · simp only [List.mem_singleton] at h; subst h; decide
  · simp only [List.mem_map, List.mem_reverse] at h
    obtain ⟨d, hd, rfl⟩ := h
    have := Nat.digits_lt_base (by decide : 1 < 10) hd
    rw [Fin.val_ofNat, Nat.mod_eq_of_lt (by omega)]
    omega

/-- The number a decimal text writes. -/
def ofDecimal (t : Str) : ℕ := Nat.ofDigits 10 (t.reverse.map fun c => c.val - 48)

theorem ofDecimal_decimal (n : ℕ) : ofDecimal (decimal n) = n := by
  unfold decimal
  split_ifs with hn
  · subst hn; decide
  · have hd : (Nat.digits 10 n).map ((fun c : CodePoint => c.val - 48) ∘
        fun d => Fin.ofNat _ (48 + d)) = Nat.digits 10 n := by
      refine (List.map_congr_left fun d hd => ?_).trans (List.map_id _)
      have := Nat.digits_lt_base (by decide : 1 < 10) hd
      simp only [Function.comp, Fin.val_ofNat, id]
      rw [Nat.mod_eq_of_lt (by omega)]
      omega
    rw [ofDecimal, ← List.map_reverse, List.reverse_reverse, List.map_map, hd, Nat.ofDigits_digits]

theorem length_decimal {n : ℕ} (hn : n ≠ 0) : (decimal n).length = (Nat.digits 10 n).length := by
  rw [decimal, if_neg hn, List.length_map, List.length_reverse]

/-- `sys.get_int_max_str_digits()`, unless it is set. -/
def maxIntDigits : ℕ := 4300

/-- `repr` of the integer has no more digits than that. -/
def IntPrints (i : ℤ) : Prop := (decimal i.natAbs).length ≤ maxIntDigits

instance (i : ℤ) : Decidable (IntPrints i) := inferInstanceAs (Decidable (_ ≤ _))

theorem intPrints_iff {i : ℤ} : IntPrints i ↔ i.natAbs < 10 ^ maxIntDigits := by
  unfold IntPrints
  by_cases hi : i.natAbs = 0
  · rw [hi]
    exact iff_of_true (by decide) (Nat.pow_pos (by decide))
  · rw [length_decimal hi]
    exact Nat.digits_length_le_iff (by decide) _

theorem decimal_ne_nil (n : ℕ) : decimal n ≠ [] := by
  unfold decimal
  split_ifs with hn
  · simp
  · simpa using Nat.digits_ne_nil_iff_ne_zero.2 hn

theorem mem_decimalInt {i : ℤ} {c : CodePoint} (h : c ∈ decimalInt i) :
    (48 ≤ c.val ∧ c.val < 58) ∨ c = ch '-' := by
  cases i with
  | ofNat n => exact .inl (mem_decimal h)
  | negSucc n => exact (List.mem_cons.1 h).elim .inr fun h => .inl (mem_decimal h)

theorem decimalInt_ne_nil (i : ℤ) : decimalInt i ≠ [] := by
  cases i with
  | ofNat n => exact decimal_ne_nil n
  | negSucc n => simp [decimalInt]

theorem minus_notMem_decimal (n : ℕ) : ch '-' ∉ decimal n := fun h => by
  have := mem_decimal h
  simp [ch] at this

theorem decimalInt_inj {i j : ℤ} (h : decimalInt i = decimalInt j) : i = j := by
  cases i with
  | ofNat m =>
    cases j with
    | ofNat n =>
      have := congrArg ofDecimal h
      simp only [decimalInt, ofDecimal_decimal] at this
      rw [this]
    | negSucc n =>
      have hm : ch '-' ∈ decimalInt (.ofNat m) := by rw [h]; exact List.mem_cons_self
      exact absurd hm (minus_notMem_decimal m)
  | negSucc m =>
    cases j with
    | ofNat n =>
      have hn : ch '-' ∈ decimalInt (.ofNat n) := by rw [← h]; exact List.mem_cons_self
      exact absurd hn (minus_notMem_decimal n)
    | negSucc n =>
      have := congrArg ofDecimal (List.cons.inj h).2
      simp only [ofDecimal_decimal, Nat.add_right_cancel_iff] at this
      rw [this]

/-- A word: a nonempty run of word characters. -/
def IsWord (t : Str) : Prop := t ≠ [] ∧ ∀ c ∈ t, isWordChar c = true

/-- What may follow a word: nothing, or a character that is not part of it. -/
def Delim (r : Str) : Prop := ∀ c ∈ r.head?, isWordChar c = false

theorem IsWord.append_inj {t u r s : Str} (ht : IsWord t) (hu : IsWord u) (hr : Delim r)
    (hs : Delim s) (h : t ++ r = u ++ s) : t = u ∧ r = s := by
  have htake : ∀ {t r : Str}, IsWord t → Delim r → (t ++ r).takeWhile isWordChar = t := by
    intro t r ht hr
    rw [List.takeWhile_append_of_pos ht.2]
    cases r with
    | nil => simp
    | cons c r => simp [hr c rfl]
  have htu : t = u := by rw [← htake ht hr, h, htake hu hs]
  subst htu
  exact ⟨rfl, List.append_cancel_left h⟩

/-! ## Floats -/

theorem isWordChar_of_isDigit {c : CodePoint} (h : isDigit c = true) : isWordChar c = true := by
  simp only [isDigit, Bool.and_eq_true, decide_eq_true_eq] at h
  simp only [isWordChar, Bool.or_eq_true, Bool.and_eq_true, decide_eq_true_eq]
  exact .inl (.inl (.inl (.inl (.inl h))))

theorem word_of_isDigits {t : Str} (h : isDigits t = true) : ∀ c ∈ t, isWordChar c = true := by
  simp only [isDigits, Bool.and_eq_true] at h
  exact fun c hc => isWordChar_of_isDigit (List.all_eq_true.1 h.2 c hc)

/-- An exponent starts with its letter, and goes on with characters of words. -/
theorem isExponent_spec {t : Str} (h : isExponent t = true) :
    (ch 'e' ∈ t ∨ ch 'E' ∈ t) ∧ ∀ c ∈ t, isWordChar c = true := by
  match t, h with
  | e :: c :: t, h =>
    simp only [isExponent, Bool.and_eq_true, Bool.or_eq_true, beq_iff_eq] at h
    obtain ⟨he, hrest⟩ := h
    have hdigits : ∀ d ∈ c :: t, isWordChar d = true := by
      split_ifs at hrest with hc
      · have hsign : isWordChar c = true := by rcases hc with rfl | rfl <;> decide
        exact List.forall_mem_cons.2 ⟨hsign, word_of_isDigits hrest⟩
      · exact word_of_isDigits hrest
    rcases he with rfl | rfl
    · exact ⟨.inl List.mem_cons_self, List.forall_mem_cons.2 ⟨by decide, hdigits⟩⟩
    · exact ⟨.inr List.mem_cons_self, List.forall_mem_cons.2 ⟨by decide, hdigits⟩⟩

/-- A fraction has a point or the letter of an exponent. -/
theorem isFraction_spec {t : Str} (h : isFraction t = true) :
    (ch '.' ∈ t ∨ ch 'e' ∈ t ∨ ch 'E' ∈ t) ∧ ∀ c ∈ t, isWordChar c = true := by
  cases t with
  | nil => cases h
  | cons c t =>
    rw [isFraction] at h
    split_ifs at h with hc
    · subst hc
      simp only [Bool.and_eq_true, Bool.or_eq_true, decide_eq_true_eq] at h
      refine ⟨.inl List.mem_cons_self, List.forall_mem_cons.2 ⟨by decide, fun d hd => ?_⟩⟩
      rw [← List.takeWhile_append_dropWhile (p := isDigit) (l := t), List.mem_append] at hd
      rcases hd with hd | hd
      · exact isWordChar_of_isDigit (List.mem_takeWhile_imp hd)
      · rcases h.2 with hnil | hexponent
        · rw [hnil] at hd
          cases hd
        · exact (isExponent_spec hexponent).2 d hd
    · obtain ⟨hletter, hall⟩ := isExponent_spec h
      exact ⟨.inr hletter, hall⟩

/-- A float that is not a special value has a point or an exponent. -/
theorem isFloatText_spec {t : Str} (ht : isFloatText t = true) :
    (t = py "NaN" ∨ t = py "Infinity" ∨ t = py "-Infinity") ∨
      (ch '.' ∈ t ∨ ch 'e' ∈ t ∨ ch 'E' ∈ t) ∧ ∀ c ∈ t, isWordChar c = true := by
  simp only [isFloatText, Bool.or_eq_true, Bool.and_eq_true, beq_iff_eq] at ht
  rcases ht with ((h | h) | h) | ⟨-, hfraction⟩
  · exact .inl (.inl h)
  · exact .inl (.inr (.inl h))
  · exact .inl (.inr (.inr h))
  · obtain ⟨hmark, hall⟩ := isFraction_spec hfraction
    have hsub : ∀ c ∈ (unsigned t).dropWhile isDigit, c ∈ unsigned t :=
      fun c hc => (List.dropWhile_sublist isDigit).subset hc
    have hunsigned : (∀ c ∈ unsigned t, c ∈ t) ∧ ∀ c ∈ t, c ∈ unsigned t ∨ c = ch '-' := by
      cases t with
      | nil => exact ⟨fun c hc => hc, fun c hc => .inl hc⟩
      | cons d t =>
        rw [unsigned]
        split_ifs with hd
        · subst hd
          exact ⟨fun c hc => List.mem_cons_of_mem _ hc, fun c hc => (List.mem_cons.1 hc).symm⟩
        · exact ⟨fun c hc => hc, fun c hc => .inl hc⟩
    have hin : ∀ c ∈ (unsigned t).dropWhile isDigit, c ∈ t := fun c hc => hunsigned.1 c (hsub c hc)
    refine .inr ⟨hmark.imp (hin _) (Or.imp (hin _) (hin _)), fun c hc => ?_⟩
    rcases hunsigned.2 c hc with hc | rfl
    · rw [← List.takeWhile_append_dropWhile (p := isDigit) (l := unsigned t), List.mem_append] at hc
      rcases hc with hc | hc
      · exact isWordChar_of_isDigit (List.mem_takeWhile_imp hc)
      · exact hall c hc
    · decide

theorem isFloatText_isWord {t : Str} (ht : isFloatText t = true) : IsWord t := by
  rcases isFloatText_spec ht with (rfl | rfl | rfl) | ⟨hmark, hall⟩
  · exact ⟨by decide, List.all_eq_true.1 (by decide)⟩
  · exact ⟨by decide, List.all_eq_true.1 (by decide)⟩
  · exact ⟨by decide, List.all_eq_true.1 (by decide)⟩
  · refine ⟨?_, hall⟩
    rintro rfl
    rcases hmark with h | h | h <;> cases h

/-! ## Integers -/

theorem isWord_decimalInt (i : ℤ) : IsWord (decimalInt i) := by
  refine ⟨decimalInt_ne_nil i, fun c hc => ?_⟩
  rcases mem_decimalInt hc with h | rfl
  · simp only [isWordChar, Bool.or_eq_true, Bool.and_eq_true, decide_eq_true_eq]
    exact .inl (.inl (.inl (.inl (.inl h))))
  · decide

/-- The characters of an integer. -/
def isIntText (t : Str) : Bool := t.all fun c => (48 ≤ c.val && c.val < 58) || c == ch '-'

theorem isIntText_decimalInt (i : ℤ) : isIntText (decimalInt i) = true := by
  refine List.all_eq_true.2 fun c hc => ?_
  rcases mem_decimalInt hc with h | rfl
  · simp [h.1, h.2]
  · decide

theorem not_isIntText_of_float {t : Str} (ht : isFloatText t = true) : isIntText t = false := by
  rcases isFloatText_spec ht with (rfl | rfl | rfl) | ⟨hc | hc | hc, -⟩
  · decide
  · decide
  · decide
  all_goals exact List.all_eq_false.2 ⟨_, hc, by decide⟩

namespace Json

variable {S T : Type}

theorem word_isWord {v : Json S} {t : Str} (h : v.word = some t) : IsWord t := by
  cases v with
  | null => cases h; exact ⟨by decide, List.all_eq_true.1 (by decide)⟩
  | bool b => cases b <;> (cases h; exact ⟨by decide, List.all_eq_true.1 (by decide)⟩)
  | int i => cases h; exact isWord_decimalInt i
  | float f => cases h; exact isFloatText_isWord f.wf
  | str | arr | obj => cases h

/-- The scalar kinds: null, true, false, integers, floats. -/
def kind : Json S → ℕ
  | null => 0
  | bool true => 1
  | bool false => 2
  | int _ => 3
  | float _ => 4
  | _ => 5

/-- The scalar kind a word belongs to. -/
def wordKind (t : Str) : ℕ :=
  if t = py "null" then 0 else if t = py "true" then 1 else if t = py "false" then 2
  else if isIntText t = true then 3 else 4

theorem wordKind_eq {v : Json S} {t : Str} (h : v.word = some t) : wordKind t = v.kind := by
  have hne : ∀ {t u : Str}, isIntText t = true → isIntText u = false → t ≠ u := by
    rintro t u h1 h2 rfl; simp [h1] at h2
  cases v with
  | null => cases h; show wordKind (py "null") = 0; decide
  | bool b =>
    cases b with
    | true => cases h; show wordKind (py "true") = 1; decide
    | false => cases h; show wordKind (py "false") = 2; decide
  | int i =>
    cases h
    have hi := isIntText_decimalInt i
    simp only [wordKind, hne hi (show isIntText (py "null") = false by decide),
      hne hi (show isIntText (py "true") = false by decide),
      hne hi (show isIntText (py "false") = false by decide), hi, ↓reduceIte, kind]
  | float f =>
    cases h
    have hf : ∀ {u : Str}, isFloatText u = false → f.text ≠ u := by
      rintro u hu rfl; simp [f.wf] at hu
    simp only [wordKind, hf (show isFloatText (py "null") = false by decide),
      hf (show isFloatText (py "true") = false by decide),
      hf (show isFloatText (py "false") = false by decide), not_isIntText_of_float f.wf,
      Bool.false_eq_true, ↓reduceIte, kind]
  | str | arr | obj => cases h

/-- A word is the text of one scalar only. -/
theorem word_inj {v w : Json S} {t : Str} (hv : v.word = some t) (hw : w.word = some t) : v = w := by
  have hk : v.kind = w.kind := (wordKind_eq hv).symm.trans (wordKind_eq hw)
  match v, w with
  | null, null | bool true, bool true | bool false, bool false => rfl
  | int i, int j => rw [decimalInt_inj (Option.some.inj (hv.trans hw.symm))]
  | float ⟨f, _⟩, float ⟨g, _⟩ => cases Option.some.inj (hv.trans hw.symm); rfl
  | null, bool true | null, bool false | null, int _ | null, float _
  | bool true, null | bool true, bool false | bool true, int _ | bool true, float _
  | bool false, null | bool false, bool true | bool false, int _ | bool false, float _
  | int _, null | int _, bool true | int _, bool false | int _, float _
  | float _, null | float _, bool true | float _, bool false | float _, int _ => simp [kind] at hk
  | str _, _ | arr _, _ | obj _, _ => cases hv
  | _, str _ | _, arr _ | _, obj _ => cases hw

/-! ## Texts are read back -/

/-- A quoting whose end can be found: it starts with a quote sign, and no text
    that follows can be taken for a part of it. -/
structure Quoting (q : S → Str) : Prop where
  head : ∀ s, ∃ t, q s = ch '"' :: t
  inj : ∀ {a b : S} {r s : Str}, q a ++ r = q b ++ s → a = b ∧ r = s

theorem delim_cons {c : CodePoint} {r : Str} (h : isWordChar c = false) : Delim (c :: r) := by
  intro d hd; cases hd; exact h

theorem text_of_word {q : S → Str} {v : Json S} {t : Str} (h : v.word = some t) : v.text q = t := by
  cases v with
  | null => cases h; rfl
  | bool b => cases b <;> (cases h; rfl)
  | int | float => cases h; rfl
  | str | arr | obj => cases h

/-- The shapes that a first character tells apart. -/
def shape : Json S → ℕ
  | str _ => 1
  | arr _ => 2
  | obj _ => 3
  | _ => 0

/-- The shape that a first character starts. -/
def shapeOf (c : CodePoint) : ℕ :=
  if isWordChar c then 0 else if c = ch '"' then 1 else if c = ch '[' then 2
  else if c = ch '{' then 3 else 4

theorem shape_of_word {v : Json S} {t : Str} (h : v.word = some t) : v.shape = 0 := by
  cases v with
  | str | arr | obj => cases h
  | _ => rfl

theorem word_of_shape {v : Json S} (h : v.shape = 0) : ∃ t, v.word = some t := by
  cases v with
  | bool b => cases b <;> exact ⟨_, rfl⟩
  | str | arr | obj => cases h
  | _ => exact ⟨_, rfl⟩

/-- The first character of a text tells the shape of the value. -/
theorem text_head {q : S → Str} (hq : Quoting q) (v : Json S) :
    ∃ c t, v.text q = c :: t ∧ shapeOf c = v.shape := by
  have hword : ∀ {v : Json S} {t : Str}, v.word = some t →
      ∃ c u, v.text q = c :: u ∧ shapeOf c = v.shape := by
    intro v t h
    obtain ⟨hne, hall⟩ := word_isWord h
    obtain ⟨c, u, rfl⟩ := List.exists_cons_of_ne_nil hne
    refine ⟨c, u, text_of_word h, ?_⟩
    rw [shape_of_word h, shapeOf, if_pos (hall c (by simp))]
  cases v with
  | str s =>
    obtain ⟨t, ht⟩ := hq.head s
    exact ⟨_, t, ht, rfl⟩
  | arr xs => cases xs <;> exact ⟨_, _, rfl, rfl⟩
  | obj kvs =>
    obtain - | ⟨⟨k, v⟩, kvs⟩ := kvs
    · exact ⟨_, _, rfl, rfl⟩
    · exact ⟨_, _, rfl, rfl⟩
  | bool b => cases b <;> exact hword rfl
  | _ => exact hword rfl

theorem text_ne_close {q : S → Str} (hq : Quoting q) (v : Json S) {c : CodePoint}
    (hc : shapeOf c = 4) (r s : Str) : v.text q ++ r ≠ c :: s := by
  obtain ⟨d, t, ht, hd⟩ := text_head hq v
  intro h
  rw [ht, List.cons_append] at h
  rw [(List.cons.inj h).1, hc] at hd
  cases v <;> cases hd

theorem textTail_delim {q : S → Str} (xs : List (Json S)) (r : Str) :
    Delim (textTail q xs ++ ch ']' :: r) := by
  cases xs with
  | nil => exact delim_cons (by decide)
  | cons x xs => exact delim_cons (by decide)

theorem itemsTail_delim {q : S → Str} (kvs : List (S × Json S)) (r : Str) :
    Delim (itemsTail q kvs ++ ch '}' :: r) := by
  obtain - | ⟨⟨k, v⟩, kvs⟩ := kvs
  · exact delim_cons (by decide)
  · exact delim_cons (by decide)

theorem text_scalar_inj {q : S → Str} {v w : Json S} {r s : Str} (hv : v.shape = 0) (hw : w.shape = 0)
    (hr : Delim r) (hs : Delim s) (h : v.text q ++ r = w.text q ++ s) : v = w ∧ r = s := by
  obtain ⟨t, hv⟩ := word_of_shape hv
  obtain ⟨u, hw⟩ := word_of_shape hw
  rw [text_of_word hv, text_of_word hw] at h
  obtain ⟨rfl, hrs⟩ := (word_isWord hv).append_inj (word_isWord hw) hr hs h
  exact ⟨word_inj hv hw, hrs⟩

mutual
/-- **A value is determined by its text**, whatever may follow it. -/
theorem text_inj {q : S → Str} (hq : Quoting q) : ∀ (v w : Json S) {r s : Str}, Delim r → Delim s →
    v.text q ++ r = w.text q ++ s → v = w ∧ r = s
  | v, w, r, s, hr, hs, h => by
    have hshape : v.shape = w.shape := by
      obtain ⟨c, t, hv, hc⟩ := text_head hq v
      obtain ⟨d, u, hw, hd⟩ := text_head hq w
      rw [hv, hw, List.cons_append, List.cons_append] at h
      rw [← hc, ← hd, (List.cons.inj h).1]
    match v, w with
    | str a, str b =>
      obtain ⟨rfl, hrs⟩ := hq.inj h
      exact ⟨rfl, hrs⟩
    | arr [], arr [] => exact ⟨rfl, List.append_cancel_left h⟩
    | arr [], arr (y :: ys) =>
      simp only [text, List.append_assoc, List.cons_append, List.cons.injEq, true_and] at h
      exact absurd h.symm (text_ne_close hq y (by decide) _ _)
    | arr (x :: xs), arr [] =>
      simp only [text, List.append_assoc, List.cons_append, List.cons.injEq, true_and] at h
      exact absurd h (text_ne_close hq x (by decide) _ _)
    | arr (x :: xs), arr (y :: ys) =>
      simp only [text, List.append_assoc, List.cons_append, List.nil_append, List.cons.injEq,
        true_and] at h
      obtain ⟨rfl, ht⟩ := text_inj hq x y (textTail_delim xs r) (textTail_delim ys s) h
      obtain ⟨rfl, hrs⟩ := textTail_inj hq xs ys ht
      exact ⟨rfl, hrs⟩
    | obj [], obj [] => exact ⟨rfl, List.append_cancel_left h⟩
    | obj [], obj ((k, y) :: ys) =>
      obtain ⟨t, ht⟩ := hq.head k
      simp only [text, ht, List.cons_append, List.cons.injEq, true_and] at h
      exact absurd h.1 (by decide)
    | obj ((k, x) :: xs), obj [] =>
      obtain ⟨t, ht⟩ := hq.head k
      simp only [text, ht, List.cons_append, List.cons.injEq, true_and] at h
      exact absurd h.1 (by decide)
    | obj ((k, x) :: xs), obj ((l, y) :: ys) =>
      simp only [text, List.append_assoc, List.cons_append, List.nil_append, List.cons.injEq,
        true_and] at h
      obtain ⟨rfl, hkv⟩ := hq.inj h
      obtain ⟨rfl, ht⟩ := text_inj hq x y (itemsTail_delim xs r) (itemsTail_delim ys s)
        (List.cons.inj hkv).2
      obtain ⟨rfl, hrs⟩ := itemsTail_inj hq xs ys ht
      exact ⟨rfl, hrs⟩
    | null, w | bool _, w | int _, w | float _, w =>
      exact text_scalar_inj rfl hshape.symm hr hs h
    | str _, null | str _, bool _ | str _, int _ | str _, float _ | str _, arr _ | str _, obj _
    | arr _, null | arr _, bool _ | arr _, int _ | arr _, float _ | arr _, str _ | arr _, obj _
    | obj _, null | obj _, bool _ | obj _, int _ | obj _, float _ | obj _, str _ | obj _, arr _ =>
      cases hshape
  termination_by structural v => v
theorem textTail_inj {q : S → Str} (hq : Quoting q) : ∀ (xs ys : List (Json S)) {r s : Str},
    textTail q xs ++ ch ']' :: r = textTail q ys ++ ch ']' :: s → xs = ys ∧ r = s
  | [], [], _, _, h => ⟨rfl, (List.cons.inj h).2⟩
  | [], _ :: _, _, _, h => absurd (List.cons.inj h).1 (by decide)
  | _ :: _, [], _, _, h => absurd (List.cons.inj h).1 (by decide)
  | x :: xs, y :: ys, r, s, h => by
    simp only [textTail, List.append_assoc, List.cons_append, List.cons.injEq, true_and] at h
    obtain ⟨rfl, ht⟩ := text_inj hq x y (textTail_delim xs r) (textTail_delim ys s) h
    obtain ⟨rfl, hrs⟩ := textTail_inj hq xs ys ht
    exact ⟨rfl, hrs⟩
  termination_by structural xs => xs
theorem itemsTail_inj {q : S → Str} (hq : Quoting q) : ∀ (xs ys : List (S × Json S)) {r s : Str},
    itemsTail q xs ++ ch '}' :: r = itemsTail q ys ++ ch '}' :: s → xs = ys ∧ r = s
  | [], [], _, _, h => ⟨rfl, (List.cons.inj h).2⟩
  | [], (_, _) :: _, _, _, h => absurd (List.cons.inj h).1 (by decide)
  | (_, _) :: _, [], _, _, h => absurd (List.cons.inj h).1 (by decide)
  | (k, x) :: xs, (l, y) :: ys, r, s, h => by
    simp only [itemsTail, List.append_assoc, List.cons_append, List.cons.injEq, true_and] at h
    obtain ⟨rfl, hkv⟩ := hq.inj h
    obtain ⟨rfl, ht⟩ := text_inj hq x y (itemsTail_delim xs r) (itemsTail_delim ys s)
      (List.cons.inj hkv).2
    obtain ⟨rfl, hrs⟩ := itemsTail_inj hq xs ys ht
    exact ⟨rfl, hrs⟩
  termination_by structural xs => xs
end

/-- The escapes of code units can be told apart, and from the closing quote. -/
theorem quoting_units : Quoting quoteUnits where
  head _ := ⟨_, rfl⟩
  inj {a b r s} h := by
    have hclose : ∀ (u : Unit16) (t : Str), escapeUnit u ++ t ≠ ch '"' :: s ∧
        escapeUnit u ++ t ≠ ch '"' :: r := by
      have hne : ∀ (u : Unit16) (t t' : Str), escapeUnit u ++ t ≠ ch '"' :: t' := by
        intro u t t' he
        have hu := readUnit_escapeUnit u t
        rw [he] at hu
        obtain ⟨rfl, rfl⟩ := Prod.mk.inj (Option.some.inj hu)
        exact absurd (List.cons.inj he).1 (by decide)
      exact fun u t => ⟨hne u t s, hne u t r⟩
    have hgo : ∀ a b : List Unit16, a.flatMap escapeUnit ++ ch '"' :: r =
        b.flatMap escapeUnit ++ ch '"' :: s → a = b ∧ r = s := by
      intro a
      induction a with
      | nil =>
        intro b h
        cases b with
        | nil => exact ⟨rfl, (List.cons.inj h).2⟩
        | cons v b =>
          rw [List.flatMap_cons, List.append_assoc] at h
          exact absurd h.symm (hclose v _).2
      | cons u a ih =>
        intro b h
        cases b with
        | nil =>
          rw [List.flatMap_cons, List.append_assoc] at h
          exact absurd h (hclose u _).1
        | cons v b =>
          rw [List.flatMap_cons, List.flatMap_cons, List.append_assoc, List.append_assoc] at h
          have hu := readUnit_escapeUnit u (a.flatMap escapeUnit ++ ch '"' :: r)
          rw [h, readUnit_escapeUnit] at hu
          obtain ⟨rfl, ht⟩ := Prod.mk.inj (Option.some.inj hu)
          obtain ⟨rfl, hrs⟩ := ih b ht.symm
          exact ⟨rfl, hrs⟩
    refine hgo a b ?_
    simpa only [quoteUnits, List.cons_append, List.append_assoc, List.nil_append, List.cons.injEq,
      true_and] using h

mutual
/-- Quoting a renamed value. -/
theorem text_map (q : T → Str) (f : S → T) : ∀ v : Json S, (v.map f).text q = v.text (q ∘ f)
  | null | bool true | bool false | int _ | float _ | str _ | arr [] | obj [] => rfl
  | arr (x :: xs) => by simp only [map, mapList, text, text_map q f x, textTail_map q f xs]
  | obj ((k, v) :: kvs) => by
    simp only [map, mapItems, text, text_map q f v, itemsTail_map q f kvs, Function.comp]
  termination_by structural v => v
theorem textTail_map (q : T → Str) (f : S → T) : ∀ xs : List (Json S),
    textTail q (mapList f xs) = textTail (q ∘ f) xs
  | [] => rfl
  | x :: xs => by simp only [mapList, textTail, text_map q f x, textTail_map q f xs]
  termination_by structural xs => xs
theorem itemsTail_map (q : T → Str) (f : S → T) : ∀ kvs : List (S × Json S),
    itemsTail q (mapItems f kvs) = itemsTail (q ∘ f) kvs
  | [] => rfl
  | (k, v) :: kvs => by
    simp only [mapItems, itemsTail, text_map q f v, itemsTail_map q f kvs, Function.comp]
  termination_by structural kvs => kvs
end

/-- **What `dumps` writes**: the UTF-16 spelling of the value, and nothing else. -/
theorem text_quote_iff {v w : Json Str} : v.text quote = w.text quote ↔ v.map utf16 = w.map utf16 := by
  have hq : quote = quoteUnits ∘ utf16 := funext quote_eq
  rw [hq, ← text_map, ← text_map]
  refine ⟨fun h => ?_, fun h => by rw [h]⟩
  refine (text_inj quoting_units _ _ (r := []) (s := []) ?_ ?_ (by rw [h])).1 <;>
    (intro c hc; cases hc)

/-! ## Printable ASCII -/

/-- The punctuation of a JSON text. -/
theorem printable_punctuation : (32 ≤ (ch ',').val ∧ (ch ',').val ≤ 126) ∧
    (32 ≤ (ch ':').val ∧ (ch ':').val ≤ 126) ∧ (32 ≤ (ch '[').val ∧ (ch '[').val ≤ 126) ∧
    (32 ≤ (ch ']').val ∧ (ch ']').val ≤ 126) ∧ (32 ≤ (ch '{').val ∧ (ch '{').val ≤ 126) ∧
    32 ≤ (ch '}').val ∧ (ch '}').val ≤ 126 := by decide

theorem printable_of_isWord {t : Str} (h : IsWord t) : Printable t := by
  intro c hc
  have hw := h.2 c hc
  have hch : (ch '.').val = 46 ∧ (ch '+').val = 43 ∧ (ch '-').val = 45 := by decide
  simp only [isWordChar, Bool.or_eq_true, Bool.and_eq_true, decide_eq_true_eq, beq_iff_eq] at hw
  rcases hw with ((((h | h) | h) | rfl) | rfl) | rfl <;> omega

theorem printable_word {q : S → Str} {v : Json S} {t : Str} (h : v.word = some t) :
    Printable (v.text q) :=
  text_of_word h ▸ printable_of_isWord (word_isWord h)

mutual
theorem printable_text {q : S → Str} (hq : ∀ s, Printable (q s)) : ∀ v : Json S, Printable (v.text q)
  | null | bool true | bool false | int _ | float _ => printable_word rfl
  | str s => hq s
  | arr [] | obj [] => by
    simp only [text, printable_cons, printable_nil, printable_punctuation, and_self]
  | arr (x :: xs) => by
    simp only [text, printable_cons, printable_append, printable_nil, printable_punctuation,
      printable_text hq x, printable_textTail hq xs, and_self]
  | obj ((k, v) :: kvs) => by
    simp only [text, printable_cons, printable_append, printable_nil, printable_punctuation, hq k,
      printable_text hq v, printable_itemsTail hq kvs, and_self]
  termination_by structural v => v
theorem printable_textTail {q : S → Str} (hq : ∀ s, Printable (q s)) : ∀ xs : List (Json S),
    Printable (textTail q xs)
  | [] => printable_nil
  | x :: xs => by
    simp only [textTail, printable_cons, printable_append, printable_punctuation,
      printable_text hq x, printable_textTail hq xs, and_self]
  termination_by structural xs => xs
theorem printable_itemsTail {q : S → Str} (hq : ∀ s, Printable (q s)) : ∀ kvs : List (S × Json S),
    Printable (itemsTail q kvs)
  | [] => printable_nil
  | (k, v) :: kvs => by
    simp only [itemsTail, printable_cons, printable_append, printable_punctuation, hq k,
      printable_text hq v, printable_itemsTail hq kvs, and_self]
  termination_by structural kvs => kvs
end

theorem printable_hex4 (n : ℕ) : Printable (hex4 n) := by
  have hhex : ∀ n, 32 ≤ (hexDigit n).val ∧ (hexDigit n).val ≤ 126 := fun n => by
    have := hexDigit_val n
    omega
  simp only [hex4, printable_cons, hhex, printable_nil, and_self]

theorem printable_escapeUnit (u : Unit16) : Printable (escapeUnit u) := by
  have hbs : (32 ≤ (ch '\\').val ∧ (ch '\\').val ≤ 126) ∧ 32 ≤ (ch 'u').val ∧ (ch 'u').val ≤ 126 := by
    decide
  have hshort : ∀ {n : ℕ} {e : CodePoint}, shortEscape n = some e → 32 ≤ e.val ∧ e.val ≤ 126 := by
    intro n e h
    unfold shortEscape at h
    split_ifs at h <;> (cases h; decide)
  unfold escapeUnit
  cases hs : shortEscape u.val with
  | some e => simp only [printable_cons, hbs, hshort hs, printable_nil, and_self]
  | none =>
    dsimp only
    split_ifs with h
    · refine printable_cons.2 ⟨?_, printable_nil⟩
      rw [Fin.val_ofNat, Nat.mod_eq_of_lt (by omega)]
      exact h
    · simp only [printable_cons, hbs, printable_hex4, and_self]

theorem printable_quote (s : Str) : Printable (quote s) := by
  have hq : 32 ≤ (ch '"').val ∧ (ch '"').val ≤ 126 := by decide
  rw [quote_eq, quoteUnits, printable_cons, printable_append, printable_cons]
  refine ⟨hq, fun c hc => ?_, hq, printable_nil⟩
  obtain ⟨u, -, hu⟩ := List.mem_flatMap.1 hc
  exact printable_escapeUnit u c hu

end Json

/-- `json.dumps(value, sort_keys=True, separators=(",", ":"))`. -/
def dumps (v : Json Str) : Str := v.sortKeys.text quote

/-- `ensure_ascii`. -/
theorem isAscii_dumps (v : Json Str) : IsAscii (dumps v) :=
  (Json.printable_text Json.printable_quote _).isAscii

/-- Two values have one text exactly if their sorted forms have one UTF-16
    spelling. -/
theorem dumps_eq_iff {v w : Json Str} :
    dumps v = dumps w ↔ v.sortKeys.map utf16 = w.sortKeys.map utf16 :=
  Json.text_quote_iff

end ContinuoRuntime
