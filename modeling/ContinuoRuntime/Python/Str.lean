/-
  Python's `str` and `bytes`, as far as the runtime uses them.

  A `str` is a list of code points.  Surrogate code points are included: a
  YAML escape such as `"\uD83D"` puts a lone one into a `str`, so Lean's `Char`
  (Unicode scalar values only) would leave out values the program receives.

  * `split`, `joinWords`: `str.split()` and `" ".join(words)`;
  * `utf16`, `utf8`: the UTF-16 code units of a `str`, and `str.encode()`;
  * `hexdigest`: `bytes.hex()`.
-/
import ContinuoRuntime.Lib.Words

namespace ContinuoRuntime

/-- A Unicode code point, surrogates included. -/
abbrev CodePoint := Fin 0x110000

instance neZero_codePoints : NeZero 0x110000 := ⟨by decide⟩
instance lawfulBEq_codePoint : LawfulBEq CodePoint := inferInstance

/-- Python's `str`. -/
abbrev Str := List CodePoint

instance lawfulBEq_str : LawfulBEq Str := inferInstance

/-- Python's `bytes`. -/
abbrev Bytes := List UInt8

/-- The code point of a character. -/
def ch (c : Char) : CodePoint := Fin.ofNat _ c.toNat

/-- A text literal. -/
def py (s : String) : Str := s.toList.map ch

/-! ## Whitespace -/

/-- The numbers of the white space characters. -/
def isSpaceCode (n : ℕ) : Bool :=
  (0x09 ≤ n && n ≤ 0x0D) || (0x1C ≤ n && n ≤ 0x20) || n == 0x85 || n == 0xA0 || n == 0x1680 ||
    (0x2000 ≤ n && n ≤ 0x200A) || n == 0x2028 || n == 0x2029 || n == 0x202F || n == 0x205F ||
    n == 0x3000

/-- `str.isspace` on one code point. -/
def isSpace (c : CodePoint) : Bool := isSpaceCode c.val

/-- `not s.strip()`. -/
def isBlank (s : Str) : Bool := s.all isSpace

/-- `s.strip()`. -/
def strip (s : Str) : Str := (s.dropWhile isSpace).rdropWhile isSpace

/-- `s.split()`: the maximal runs of characters that are not whitespace. -/
def split (s : Str) : List Str := words isSpace s

/-- `" ".join(words)`. -/
def joinWords (ws : List Str) : Str := [ch ' '].intercalate ws

/-- `s.split(".")`. -/
def splitDots (s : Str) : List Str := s.splitOn (ch '.')

/-- The parts of a dotted name hold no dot. -/
theorem dot_notMem_of_mem_splitDots {s part : Str} (h : part ∈ splitDots s) : ch '.' ∉ part :=
  fun hc => by simpa using of_mem_splitOnP h _ hc

theorem splitDots_ne_nil (s : Str) : splitDots s ≠ [] := List.splitOn_ne_nil _ _

/-- Splitting at one of the dots. -/
theorem splitDots_append (s t : Str) : splitDots (s ++ py "." ++ t) = splitDots s ++ splitDots t := by
  rw [splitDots, splitDots, splitDots, List.append_assoc]
  exact List.splitOn_append_cons_self s t

/-- Without a dot there is nothing to split. -/
theorem splitDots_of_notMem {s : Str} (h : ch '.' ∉ s) : splitDots s = [s] := List.splitOn_eq_singleton h

/-- **A dotted pair** can be read back, if neither part has a dot. -/
theorem dotted_inj {s t s' t' : Str} (hs : ch '.' ∉ s) (ht : ch '.' ∉ t) (hs' : ch '.' ∉ s')
    (ht' : ch '.' ∉ t') (h : s ++ py "." ++ t = s' ++ py "." ++ t') : s = s' ∧ t = t' := by
  have hsplit := congrArg splitDots h
  rw [splitDots_append, splitDots_append, splitDots_of_notMem hs, splitDots_of_notMem ht,
    splitDots_of_notMem hs', splitDots_of_notMem ht'] at hsplit
  simpa using hsplit

/-- `".".join(parts)`. -/
def joinDots (parts : List Str) : Str := [ch '.'].intercalate parts

theorem splitDots_joinDots {parts : List Str} (hne : parts ≠ []) (h : ∀ part ∈ parts, ch '.' ∉ part) :
    splitDots (joinDots parts) = parts := List.splitOn_intercalate _ h hne

theorem joinDots_pair {p q : Str} (hp : p ≠ []) :
    joinDots ([p, q].filter (· ≠ [])) = if q = [] then p else p ++ py "." ++ q := by
  by_cases hq : q = []
  · rw [if_pos hq]
    simp [hp, hq, joinDots, List.intercalate]
  · rw [if_neg hq]
    simp [hp, hq, joinDots, List.intercalate, py]

/-- Words joined with a space are laid out by it. -/
theorem layout_joinWords : ∀ {ws : List Str}, (∀ w ∈ ws, IsRun isSpace w) →
    Layout isSpace ws (joinWords ws)
  | [], _ => .nil
  | [w], h => by
    have hl := Layout.word w (h w (by simp)) (fun c hc => by cases hc) Layout.nil
    simpa [joinWords, List.intercalate] using hl
  | w :: v :: ws, h => by
    have hgap : isSpace (ch ' ') = true := by decide
    have ih : Layout isSpace (v :: ws) (joinWords (v :: ws)) :=
      layout_joinWords fun u hu => h u (by simp [hu])
    have hl := Layout.word w (h w (by simp)) (gapStart_cons hgap _) (ih.gap _ hgap)
    simpa [joinWords, List.intercalate] using hl

/-- Joining words with a space, and splitting again. -/
theorem split_joinWords {ws : List Str} (h : ∀ w ∈ ws, IsRun isSpace w) : split (joinWords ws) = ws :=
  (layout_joinWords h).words_eq

/-- **Whitespace normalization** keeps exactly the words of a text. -/
theorem joinWords_split_iff {s t : Str} :
    joinWords (split s) = joinWords (split t) ↔ split s = split t := by
  have hback : ∀ s, split (joinWords (split s)) = split s := fun s =>
    split_joinWords (layout_words s).runs
  exact ⟨fun h => (hback s).symm.trans ((congrArg split h).trans (hback t)), congrArg _⟩

/-! ## UTF-16 code units -/

/-- A UTF-16 code unit. -/
abbrev Unit16 := Fin 0x10000

instance neZero_units16 : NeZero 0x10000 := ⟨by decide⟩

/-- The UTF-16 code units of one code point; a surrogate stands for itself. -/
def units (c : CodePoint) : List Unit16 :=
  if c.val < 0x10000 then [Fin.ofNat _ c.val]
  else [Fin.ofNat _ (0xD800 + (c.val - 0x10000) / 0x400),
    Fin.ofNat _ (0xDC00 + (c.val - 0x10000) % 0x400)]

/-- The UTF-16 code units of a text. -/
def utf16 (s : Str) : List Unit16 := s.flatMap units

/-- White space among the code units. -/
def isSpaceUnit (u : Unit16) : Bool := isSpaceCode u.val

theorem units_of_isSpace {c : CodePoint} (hc : isSpace c = true) :
    ∃ u, units c = [u] ∧ isSpaceUnit u = true := by
  have hlt : c.val < 0x10000 := by
    simp only [isSpace, isSpaceCode, Bool.or_eq_true, Bool.and_eq_true, decide_eq_true_eq,
      beq_iff_eq] at hc
    omega
  refine ⟨Fin.ofNat _ c.val, by rw [units, if_pos hlt], ?_⟩
  rw [isSpaceUnit, Fin.val_ofNat, Nat.mod_eq_of_lt hlt]
  exact hc

theorem units_of_not_isSpace {c : CodePoint} (hc : isSpace c = false) :
    units c ≠ [] ∧ ∀ u ∈ units c, isSpaceUnit u = false := by
  have hcl := c.isLt
  have hhigh : ∀ n, 0xD800 ≤ n → n < 0x10000 → isSpaceUnit (Fin.ofNat _ n) = false := by
    intro n h1 h2
    rw [isSpaceUnit, Fin.val_ofNat, Nat.mod_eq_of_lt h2, isSpaceCode]
    simp only [Bool.or_eq_false_iff, Bool.and_eq_false_iff, decide_eq_false_iff_not, beq_eq_false_iff_ne]
    omega
  unfold units
  split_ifs with h
  · refine ⟨by simp, fun u hu => ?_⟩
    rw [List.mem_singleton.1 hu, isSpaceUnit, Fin.val_ofNat, Nat.mod_eq_of_lt h]
    exact hc
  · refine ⟨by simp, fun u hu => ?_⟩
    simp only [List.mem_cons, List.not_mem_nil, or_false] at hu
    rcases hu with rfl | rfl
    · exact hhigh _ (by omega) (by omega)
    · exact hhigh _ (by omega) (by omega)

theorem isRun_utf16 {w : Str} (hw : IsRun isSpace w) : IsRun isSpaceUnit (utf16 w) := by
  obtain ⟨hne, hall⟩ := hw
  constructor
  · obtain ⟨c, w, rfl⟩ := List.exists_cons_of_ne_nil hne
    have hc := (units_of_not_isSpace (hall c (by simp))).1
    rw [utf16, List.flatMap_cons]
    exact fun h => hc (List.append_eq_nil_iff.1 h).1
  · intro u hu
    obtain ⟨c, hc, hu⟩ := List.mem_flatMap.1 hu
    exact (units_of_not_isSpace (hall c hc)).2 u hu

theorem gapStart_utf16 {s : Str} (hs : GapStart isSpace s) : GapStart isSpaceUnit (utf16 s) := by
  cases s with
  | nil => intro u hu; cases hu
  | cons c s =>
    obtain ⟨u, hu, hsp⟩ := units_of_isSpace (hs c rfl)
    rw [utf16, List.flatMap_cons, hu]
    exact gapStart_cons hsp _

theorem layout_utf16 {ws : List Str} {s : Str} (h : Layout isSpace ws s) :
    Layout isSpaceUnit (ws.map utf16) (utf16 s) := by
  induction h with
  | nil => exact .nil
  | @gap ws s c hc _ ih =>
    obtain ⟨u, hu, hsp⟩ := units_of_isSpace hc
    rw [utf16, List.flatMap_cons, hu]
    exact .gap u hsp ih
  | @word ws s w hw hs _ ih =>
    rw [utf16, List.flatMap_append]
    exact .word _ (isRun_utf16 hw) (gapStart_utf16 hs) ih

/-- The words of the code units are the code units of the words. -/
theorem words_utf16 (s : Str) : words isSpaceUnit (utf16 s) = (split s).map utf16 :=
  (layout_utf16 (layout_words s)).words_eq

theorem utf16_joinWords : ∀ ws : List Str,
    utf16 (joinWords ws) = (units (ch ' ')).intercalate (ws.map utf16)
  | [] => rfl
  | [w] => by simp [joinWords, List.intercalate]
  | w :: v :: ws => by
    have ih := utf16_joinWords (v :: ws)
    simp only [joinWords, List.intercalate, List.map_cons, List.intersperse_cons_cons,
      List.flatten_cons, utf16, List.flatMap_append] at ih ⊢
    rw [ih, List.flatMap_singleton]

/-- A text of the given code units, each a code point of its own. -/
def ofUnits (us : List Unit16) : Str := us.map fun u => Fin.ofNat _ u.val

theorem utf16_ofUnits (us : List Unit16) : utf16 (ofUnits us) = us := by
  induction us with
  | nil => rfl
  | cons u us ih =>
    have hu := u.isLt
    have hv : (Fin.ofNat 0x110000 u.val).val = u.val := by
      rw [Fin.val_ofNat, Nat.mod_eq_of_lt (by omega)]
    have hunits : units (Fin.ofNat 0x110000 u.val) = [u] := by
      rw [units, hv, if_pos hu]
      exact congrArg (· :: []) (Fin.ext (by rw [Fin.val_ofNat, Nat.mod_eq_of_lt hu]))
    rw [ofUnits, List.map_cons, utf16, List.flatMap_cons, hunits]
    exact congrArg (u :: ·) ih

/-- Surrogate code points. -/
def isSurrogate (c : CodePoint) : Bool := 0xD800 ≤ c.val && c.val ≤ 0xDFFF

/-- On texts without surrogates, UTF-16 loses nothing. -/
theorem utf16_inj : ∀ {s t : Str}, (∀ c ∈ s, isSurrogate c = false) →
    (∀ c ∈ t, isSurrogate c = false) → utf16 s = utf16 t → s = t
  | [], [], _, _, _ => rfl
  | [], d :: t, _, _, h => by
    simp only [utf16, List.flatMap_nil, List.flatMap_cons, units] at h
    split_ifs at h <;> simp at h
  | c :: s, [], _, _, h => by
    simp only [utf16, List.flatMap_nil, List.flatMap_cons, units] at h
    split_ifs at h <;> simp at h
  | c :: s, d :: t, hs, ht, h => by
    have hc := hs c (by simp)
    have hd := ht d (by simp)
    have ih := @utf16_inj s t (fun x hx => hs x (by simp [hx])) (fun x hx => ht x (by simp [hx]))
    have hcl := c.isLt
    have hdl := d.isLt
    simp only [isSurrogate, Bool.and_eq_false_iff, decide_eq_false_iff_not] at hc hd
    simp only [utf16, List.flatMap_cons, units] at h ih
    split_ifs at h <;> simp only [List.cons_append, List.nil_append, List.cons.injEq, Fin.ext_iff,
      Fin.val_ofNat] at h
    · rw [show c = d from Fin.ext (by omega), ih h.2]
    · omega
    · omega
    · rw [show c = d from Fin.ext (by omega), ih h.2.2]

/-! ## Bytes -/

/-- The UTF-8 bytes of one code point; `none` on a surrogate, which
    `str.encode()` refuses. -/
def utf8Char (c : CodePoint) : Option Bytes :=
  if c.val < 0x80 then some [UInt8.ofNat c.val]
  else if c.val < 0x800 then
    some [UInt8.ofNat (0xC0 + c.val / 0x40), UInt8.ofNat (0x80 + c.val % 0x40)]
  else if isSurrogate c then none
  else if c.val < 0x10000 then
    some [UInt8.ofNat (0xE0 + c.val / 0x1000), UInt8.ofNat (0x80 + c.val / 0x40 % 0x40),
      UInt8.ofNat (0x80 + c.val % 0x40)]
  else
    some [UInt8.ofNat (0xF0 + c.val / 0x40000), UInt8.ofNat (0x80 + c.val / 0x1000 % 0x40),
      UInt8.ofNat (0x80 + c.val / 0x40 % 0x40), UInt8.ofNat (0x80 + c.val % 0x40)]

/-- `s.encode()`; `none` is `UnicodeEncodeError`. -/
def utf8 (s : Str) : Option Bytes := (s.mapM utf8Char).map List.flatten

/-- The length of the encoding that a byte starts. -/
def utf8Width (b : UInt8) : ℕ :=
  if b.toNat < 0x80 then 1 else if b.toNat < 0xE0 then 2 else if b.toNat < 0xF0 then 3 else 4

/-- The number that the bits of an encoding spell. -/
def utf8Number : Bytes → ℕ
  | [a] => a.toNat
  | [a, b] => a.toNat % 0x20 * 0x40 + b.toNat % 0x40
  | [a, b, c] => (a.toNat % 0x10 * 0x40 + b.toNat % 0x40) * 0x40 + c.toNat % 0x40
  | [a, b, c, d] =>
    ((a.toNat % 0x08 * 0x40 + b.toNat % 0x40) * 0x40 + c.toNat % 0x40) * 0x40 + d.toNat % 0x40
  | _ => 0

/-- `bytes.decode()`, of at most `n` characters: what is not the encoding of a
    character is refused. -/
def utf8DecodeUpTo : ℕ → Bytes → Option Str
  | _, [] => some []
  | 0, _ :: _ => none
  | n + 1, b :: bs =>
    let bytes := (b :: bs).take (utf8Width b)
    let c : CodePoint := Fin.ofNat _ (utf8Number bytes)
    if utf8Char c = some bytes then (utf8DecodeUpTo n ((b :: bs).drop (utf8Width b))).map (c :: ·)
    else none

/-- `bytes.decode()`; `none` is `UnicodeDecodeError`. -/
def utf8Decode (bs : Bytes) : Option Str := utf8DecodeUpTo bs.length bs

/-- `bytes.decode("utf-8-sig")`: a byte order mark first is dropped. -/
def utf8SigDecode (bs : Bytes) : Option Str :=
  utf8Decode (if [0xEF, 0xBB, 0xBF].isPrefixOf bs then bs.drop 3 else bs)

/-- The bytes of a byte order mark. -/
def bomBytes : Bytes := [0xEF, 0xBB, 0xBF]

theorem utf8DecodeUpTo_add : ∀ {n : ℕ} {bs : Bytes}, bs.length ≤ n → ∀ k,
    utf8DecodeUpTo (n + k) bs = utf8DecodeUpTo n bs
  | 0, [], _, 0 => rfl
  | 0, [], _, _ + 1 => rfl
  | 0, _ :: _, h, _ => absurd h (by simp)
  | n + 1, [], _, k => by rw [Nat.add_right_comm]; rfl
  | n + 1, b :: bs, h, k => by
    have hwidth : 1 ≤ utf8Width b := by
      unfold utf8Width
      split_ifs <;> decide
    have hrest : ((b :: bs).drop (utf8Width b)).length ≤ n := by
      rw [List.length_drop]
      rw [List.length_cons] at h ⊢
      omega
    rw [Nat.add_right_comm, utf8DecodeUpTo, utf8DecodeUpTo, utf8DecodeUpTo_add hrest]

/-- **A byte order mark** decodes to U+FEFF. -/
theorem utf8Decode_bom (bs : Bytes) : utf8Decode (bomBytes ++ bs) = (utf8Decode bs).map (0xFEFF :: ·) := by
  have hchar : utf8Char (0xFEFF : CodePoint) = some bomBytes := by decide
  have hfuel := utf8DecodeUpTo_add (le_refl bs.length) 2
  have hfirst : utf8DecodeUpTo (bs.length + 3) (bomBytes ++ bs) =
      if utf8Char (0xFEFF : CodePoint) = some bomBytes then
        (utf8DecodeUpTo (bs.length + 2) bs).map (0xFEFF :: ·)
      else none := rfl
  rw [if_pos hchar, hfuel] at hfirst
  rw [utf8Decode, utf8Decode, ← hfirst, List.length_append, Nat.add_comm]
  rfl

theorem utf8SigDecode_eq (bs : Bytes) :
    utf8SigDecode bs = utf8Decode (if bomBytes.isPrefixOf bs then bs.drop 3 else bs) := rfl

theorem utf8SigDecode_of_not_prefix {bs : Bytes} (h : ¬ bomBytes <+: bs) :
    utf8SigDecode bs = utf8Decode bs := by
  rw [utf8SigDecode_eq, if_neg fun hp => h (List.isPrefixOf_iff_prefix.1 hp)]

/-- What reading a file as text makes of its line ends. -/
def universalNewlines : Str → Str
  | [] => []
  | [c] => if c = ch '\r' then [ch '\n'] else [c]
  | c :: d :: s =>
    if c = ch '\r' then
      if d = ch '\n' then ch '\n' :: universalNewlines s else ch '\n' :: universalNewlines (d :: s)
    else c :: universalNewlines (d :: s)

/-- The bytes of an ASCII text. -/
def ascii (s : Str) : Bytes := s.map fun c => UInt8.ofNat c.val

/-- A text of ASCII characters only. -/
def IsAscii (s : Str) : Prop := ∀ c ∈ s, c.val < 0x80

/-- `encode()` of an ASCII text. -/
theorem utf8_ascii : ∀ {s : Str}, IsAscii s → utf8 s = some (ascii s)
  | [], _ => rfl
  | c :: s, h => by
    have hc : utf8Char c = some [UInt8.ofNat c.val] := by
      unfold utf8Char; rw [if_pos (h c (by simp))]
    have ih := utf8_ascii (s := s) fun x hx => h x (by simp [hx])
    obtain ⟨bs, hbs, hfl⟩ := Option.map_eq_some_iff.1 ih
    simp only [utf8, List.mapM_cons, hc, hbs, Option.pure_def, Option.bind_eq_bind,
      Option.bind_some, Option.map_some, List.flatten_cons, hfl]
    rfl

theorem ascii_inj : ∀ {s t : Str}, IsAscii s → IsAscii t → ascii s = ascii t → s = t
  | [], [], _, _, _ => rfl
  | [], _ :: _, _, _, h => by simp [ascii] at h
  | _ :: _, [], _, _, h => by simp [ascii] at h
  | c :: s, d :: t, hs, ht, h => by
    simp only [ascii, List.map_cons, List.cons.injEq] at h
    have hc : c.val < 0x80 := hs c (by simp)
    have hd : d.val < 0x80 := ht d (by simp)
    have hcd : c.val = d.val := by
      have h' := congrArg UInt8.toNat h.1
      simp only [UInt8.toNat_ofNat'] at h'
      omega
    rw [Fin.ext hcd, ascii_inj (fun x hx => hs x (by simp [hx])) (fun x hx => ht x (by simp [hx])) h.2]

theorem isAscii_cons {c : CodePoint} {t : Str} : IsAscii (c :: t) ↔ c.val < 0x80 ∧ IsAscii t :=
  List.forall_mem_cons

theorem isAscii_append {s t : Str} : IsAscii (s ++ t) ↔ IsAscii s ∧ IsAscii t := by
  simp only [IsAscii, List.mem_append]
  exact ⟨fun h => ⟨fun c hc => h c (.inl hc), fun c hc => h c (.inr hc)⟩,
    fun h c hc => hc.elim (h.1 c) (h.2 c)⟩

/-- Printable ASCII: no control character, and nothing beyond the tilde. -/
def Printable (s : Str) : Prop := ∀ c ∈ s, 32 ≤ c.val ∧ c.val ≤ 126

theorem Printable.isAscii {s : Str} (h : Printable s) : IsAscii s := fun c hc => by
  have := h c hc
  omega

theorem printable_cons {c : CodePoint} {t : Str} :
    Printable (c :: t) ↔ (32 ≤ c.val ∧ c.val ≤ 126) ∧ Printable t :=
  List.forall_mem_cons

theorem printable_nil : Printable [] := fun _ h => by cases h

theorem printable_append {s t : Str} : Printable (s ++ t) ↔ Printable s ∧ Printable t :=
  List.forall_mem_append

/-! ## Hexadecimal -/

/-- A hexadecimal digit, lower case. -/
def hexDigit (n : ℕ) : CodePoint := Fin.ofNat _ (if n % 16 < 10 then 48 + n % 16 else 87 + n % 16)

/-- The value of a hexadecimal digit. -/
def hexVal (c : CodePoint) : ℕ := if c.val < 58 then c.val - 48 else c.val - 87

@[simp] theorem hexVal_hexDigit (n : ℕ) : hexVal (hexDigit n) = n % 16 := by
  have h16 : n % 16 < 16 := Nat.mod_lt _ (by decide)
  simp only [hexVal, hexDigit, Fin.val_ofNat]
  split_ifs <;> omega

theorem hexDigit_val (n : ℕ) :
    (48 ≤ (hexDigit n).val ∧ (hexDigit n).val < 58) ∨
      (97 ≤ (hexDigit n).val ∧ (hexDigit n).val < 103) := by
  have h16 : n % 16 < 16 := Nat.mod_lt _ (by decide)
  simp only [hexDigit, Fin.val_ofNat]
  split_ifs <;> omega

/-- `bytes.hex()`. -/
def hex (bs : Bytes) : Str := bs.flatMap fun b => [hexDigit (b.toNat / 16), hexDigit b.toNat]

theorem length_hex (bs : Bytes) : (hex bs).length = 2 * bs.length := by
  induction bs with
  | nil => rfl
  | cons b bs ih => simp only [hex, List.flatMap_cons, List.length_append] at ih ⊢; simp [ih]; omega

theorem mem_hex {bs : Bytes} {c : CodePoint} (h : c ∈ hex bs) :
    (48 ≤ c.val ∧ c.val < 58) ∨ (97 ≤ c.val ∧ c.val < 103) := by
  obtain ⟨b, -, hb⟩ := List.mem_flatMap.1 h
  simp only [List.mem_cons, List.not_mem_nil, or_false] at hb
  rcases hb with rfl | rfl <;> exact hexDigit_val _

theorem isAscii_hex (bs : Bytes) : IsAscii (hex bs) := fun c hc => by
  have := mem_hex hc; omega

theorem hex_inj : ∀ {as bs : Bytes}, hex as = hex bs → as = bs
  | [], [], _ => rfl
  | [], _ :: _, h => by simp [hex] at h
  | _ :: _, [], h => by simp [hex] at h
  | a :: as, b :: bs, h => by
    simp only [hex, List.flatMap_cons, List.cons_append, List.nil_append, List.cons.injEq] at h
    obtain ⟨h1, h2, h3⟩ := h
    have e1 := congrArg hexVal h1
    have e2 := congrArg hexVal h2
    simp only [hexVal_hexDigit] at e1 e2
    have := a.toNat_lt
    have := b.toNat_lt
    rw [UInt8.toNat_inj.1 (show a.toNat = b.toNat by omega), hex_inj h3]

/-- `str.lower` and `str.casefold` of an ASCII text. -/
def asciiLower (s : Str) : Str :=
  s.map fun c => if 65 ≤ c.val ∧ c.val ≤ 90 then Fin.ofNat _ (c.val + 32) else c

end ContinuoRuntime
