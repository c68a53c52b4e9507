/-
  `continuo_engine_contract.result`: the result block of one node.

  `result_block` prints the fields of a result as one line of JSON between two
  marker lines.  The consumer cuts the pod log into lines, takes the block
  between the marker lines and reads the JSON (`readResult`).

  * `LineBreaks`: what a consumer may take for a line break;
  * `resultBlock_eq`: the block, or the error of a failure count whose text is
    too long for `int.__repr__`;
  * `readResult_resultBlock`: **a result is read back from a log**, exactly if
    the log before it ends where a line ends.
-/
import ContinuoRuntime.Lib.Framing
import ContinuoRuntime.Python.JsonLoads
import ContinuoRuntime.Python.Exc

namespace ContinuoRuntime

/-! ## `json.dumps` of integers -/

namespace Json

variable {S : Type}

mutual
/-- The integers of a value. -/
def ints : Json S → List ℤ
  | int i => [i]
  | arr xs => intsList xs
  | obj kvs => intsItems kvs
  | _ => []
  termination_by structural j => j
def intsList : List (Json S) → List ℤ
  | [] => []
  | x :: xs => ints x ++ intsList xs
  termination_by structural xs => xs
def intsItems : List (S × Json S) → List ℤ
  | [] => []
  | (_, v) :: kvs => ints v ++ intsItems kvs
  termination_by structural kvs => kvs
end

end Json

/-- `int.__repr__` refuses an integer of more digits than the limit. -/
def tooLong (i : ℤ) : Bool := 10 ^ maxIntDigits ≤ i.natAbs

def longIntError : Exc := .text .valueError (py ("Exceeds the limit (4300 digits) for integer "
  ++ "string conversion; use sys.set_int_max_str_digits() to increase the limit"))

/-- `json.dumps(value, separators=(",", ":"))`. -/
def jsonDumps (v : Json Str) : Except Exc Str :=
  if v.ints.any tooLong then .error longIntError else .ok (v.text quote)

/-! ## The block -/

def sentinelBegin : Str := py "===CONTINUO_VALIDATION_RESULT_BEGIN==="

def sentinelEnd : Str := py "===CONTINUO_VALIDATION_RESULT_END==="

def schemaVersion : ℤ := 1

/-- `s or d` of two texts. -/
def orText (s d : Str) : Str := if s = [] then d else s

/-- `int(n or 0)`. -/
def orZero (n : ℤ) : ℤ := if n = 0 then 0 else n

/-- The dictionary that `result_block` writes. -/
def resultValue (status message : Str) (failures : ℤ) (uniqueId : Str) : Json Str :=
  .obj [(py "schema_version", .int schemaVersion),
    (py "status", .str status),
    (py "message", .str (orText message [])),
    (py "failures", .int (orZero failures)),
    (py "unique_id", .str (orText uniqueId []))]

def newline : CodePoint := ch '\n'

/-- `result_block(status, message, failures, unique_id)`. -/
def resultBlock (status message : Str) (failures : ℤ) (uniqueId : Str) : Except Exc Str := do
  let body ← jsonDumps (resultValue status message failures uniqueId)
  return sentinelBegin ++ newline :: (body ++ newline :: sentinelEnd)

/-! ## The consumer -/

/-- What a consumer takes for a line break: newlines and perhaps other
    characters, but no printable ASCII character. -/
structure LineBreaks where
  isBreak : CodePoint → Bool
  newline : isBreak newline = true
  printable : ∀ c : CodePoint, 32 ≤ c.val → c.val ≤ 126 → isBreak c = false

/-- Lines end at newlines only. -/
def newlinesOnly : LineBreaks where
  isBreak c := c == ContinuoRuntime.newline
  newline := beq_self_eq_true _
  printable c h _ := by
    rw [beq_eq_false_iff_ne]
    rintro rfl
    exact absurd h (by decide)

/-- The fields of a result. -/
structure NodeResult where
  status : Str
  message : Str
  failures : ℤ
  uniqueId : Str
  deriving DecidableEq

/-- The member of an object with the key `k`; the last one counts. -/
def member (kvs : List (Str × Json Str)) (k : Str) : Option (Json Str) := kvs.reverse.lookup k

def textMember (kvs : List (Str × Json Str)) (k : Str) : Option Str :=
  match member kvs k with
  | some (.str s) => some s
  | _ => none

def intMember (kvs : List (Str × Json Str)) (k : Str) : Option ℤ :=
  match member kvs k with
  | some (.int i) => some i
  | _ => none

/-- The fields of a decoded body. -/
def decodeResult : Json Str → Option NodeResult
  | .obj kvs => do
    let status ← textMember kvs (py "status")
    let message ← textMember kvs (py "message")
    let failures ← intMember kvs (py "failures")
    let uniqueId ← textMember kvs (py "unique_id")
    return ⟨status, message, failures, uniqueId⟩
  | _ => none

/-- Take the block out of a log by its marker lines, and decode its one line. -/
def readResult (breaks : LineBreaks) (log : Str) : Option NodeResult :=
  match framed sentinelBegin sentinelEnd (lines breaks.isBreak log) with
  | some [body] => (loads body).bind decodeResult
  | _ => none

/-! ## What is written -/

theorem orText_nil (s : Str) : orText s [] = s := by
  unfold orText
  split_ifs with h
  · exact h.symm
  · rfl

theorem orZero_eq (n : ℤ) : orZero n = n := by
  unfold orZero
  split_ifs with h
  · exact h.symm
  · rfl

section
variable (status message : Str) (failures : ℤ) (uniqueId : Str)

/-- The body of a block. -/
def resultBody : Str := (resultValue status message failures uniqueId).text quote

theorem printable_resultBody : Printable (resultBody status message failures uniqueId) :=
  Json.printable_text Json.printable_quote _

theorem resultBlock_eq : resultBlock status message failures uniqueId =
    if 10 ^ maxIntDigits ≤ failures.natAbs then .error longIntError
    else .ok (frame newline sentinelBegin sentinelEnd
      (resultBody status message failures uniqueId)) := by
  have hversion : tooLong schemaVersion = false := by
    rw [tooLong, decide_eq_false_iff_not, not_le]
    exact Nat.one_lt_pow (by decide) (by decide)
  have hany : (resultValue status message failures uniqueId).ints.any tooLong = tooLong failures := by
    simp only [resultValue, Json.ints, Json.intsItems, orZero_eq, List.nil_append,
      List.singleton_append, List.any_cons, List.any_nil, hversion, Bool.false_or, Bool.or_false]
  rw [resultBlock, jsonDumps, hany]
  simp only [tooLong, decide_eq_true_eq]
  split_ifs
  · rfl
  · rfl

variable {status message uniqueId}

/-- **The fields are decoded** from the body. -/
theorem decode_resultBody (hstatus : Json.Unpaired status) (hmessage : Json.Unpaired message)
    (hid : Json.Unpaired uniqueId) (hfailures : IntPrints failures) :
    (loads (resultBody status message failures uniqueId)).bind decodeResult
      = some ⟨status, message, failures, uniqueId⟩ := by
  have hversion : IntPrints schemaVersion := by decide
  have hleaves : (resultValue status message failures uniqueId).All Json.Unpaired IntPrints := by
    simp only [resultValue, Json.All, Json.AllItems, orText_nil, orZero_eq, Json.unpaired_py, hstatus,
      hmessage, hid, hfailures, hversion, and_self]
  rw [resultBody, loads_text hleaves, Option.bind_some, resultValue, orText_nil, orText_nil, orZero_eq]
  rfl

end

/-! ## What is read -/

theorem LineBreaks.unbroken (breaks : LineBreaks) {t : Str} (h : Printable t) :
    Unbroken breaks.isBreak t :=
  fun c hc => breaks.printable c (h c hc).1 (h c hc).2

theorem printable_sentinels : Printable sentinelBegin ∧ Printable sentinelEnd := by
  have hall : (sentinelBegin ++ sentinelEnd).all (fun c => 32 ≤ c.val && c.val ≤ 126) = true := by
    decide
  refine printable_append.1 fun c hc => ?_
  simpa using List.all_eq_true.1 hall c hc

/-- A body starts with a brace, the markers do not. -/
theorem resultBody_ne (status message : Str) (failures : ℤ) (uniqueId : Str) :
    sentinelBegin ≠ resultBody status message failures uniqueId ∧
      resultBody status message failures uniqueId ≠ sentinelEnd := by
  have hhead : (resultBody status message failures uniqueId).head? = some (ch '{') := rfl
  constructor
  · intro h
    rw [← h] at hhead
    exact absurd hhead (by decide)
  · intro h
    rw [h] at hhead
    exact absurd hhead (by decide)

/-- **Result blocks are read back.**  For a failure count of at most 4300 digits
    there is a block; its body is printable ASCII; and behind a log with no
    marker line, whatever may follow on further lines, a consumer reads the
    very fields that were written, exactly if the log ends where a line ends. -/
theorem readResult_resultBlock (breaks : LineBreaks) {status message uniqueId : Str}
    (hstatus : Json.Unpaired status) (hmessage : Json.Unpaired message)
    (hid : Json.Unpaired uniqueId) {failures : ℤ} (hfailures : failures.natAbs < 10 ^ maxIntDigits)
    {log : Str} (hlog : ∀ line ∈ lines breaks.isBreak log,
      line ≠ sentinelBegin ∧ line ≠ sentinelEnd) :
    ∃ body, Printable body ∧
      resultBlock status message failures uniqueId
        = .ok (frame newline sentinelBegin sentinelEnd body) ∧
      (∀ rest, StartsLine breaks.isBreak rest → Complete breaks.isBreak log →
        readResult breaks (log ++ (frame newline sentinelBegin sentinelEnd body ++ rest))
          = some ⟨status, message, failures, uniqueId⟩) ∧
      (¬ Complete breaks.isBreak log →
        readResult breaks (log ++ frame newline sentinelBegin sentinelEnd body) = none) := by
  have hprint := printable_resultBody status message failures uniqueId
  have hbegin := breaks.unbroken printable_sentinels.1
  have hend := breaks.unbroken printable_sentinels.2
  have hmark : sentinelBegin ∉ lines breaks.isBreak log := fun h => (hlog _ h).1 rfl
  obtain ⟨hne, hne'⟩ := resultBody_ne status message failures uniqueId
  refine ⟨resultBody status message failures uniqueId, hprint, ?_, fun rest hrest hcomplete => ?_,
    fun hcomplete => ?_⟩
  · rw [resultBlock_eq, if_neg (by omega)]
  · rw [readResult, framed_lines_append breaks.newline hbegin (breaks.unbroken hprint) hend hne'
      hrest hcomplete hmark]
    exact decode_resultBody failures hstatus hmessage hid (intPrints_iff.2 hfailures)
  · rw [readResult, framed_lines_append_of_not_complete breaks.newline hbegin
      (breaks.unbroken hprint) hend hne (by decide) hcomplete hmark]

theorem readResult_resultBlock_marker :
    ∃ body, Printable body ∧
      resultBlock (py "error") (py "a\n===CONTINUO_VALIDATION_RESULT_END===\n\"\\ 😀") 1 (py "m.x")
        = .ok (frame newline sentinelBegin sentinelEnd body) ∧
      readResult newlinesOnly
        (py "start\n" ++ (frame newline sentinelBegin sentinelEnd body ++ [newline])) =
        some ⟨py "error", py "a\n===CONTINUO_VALIDATION_RESULT_END===\n\"\\ 😀", 1, py "m.x"⟩ := by
  have hlog : ∀ line ∈ lines newlinesOnly.isBreak (py "start\n"),
      line ≠ sentinelBegin ∧ line ≠ sentinelEnd := by decide
  obtain ⟨body, hbody, hblock, hread, -⟩ := readResult_resultBlock newlinesOnly
    (Json.unpaired_py "error")
    (Json.unpaired_py "a\n===CONTINUO_VALIDATION_RESULT_END===\n\"\\ 😀")
    (Json.unpaired_py "m.x") (show (1 : ℤ).natAbs < 10 ^ maxIntDigits from
      Nat.one_lt_pow (by decide) (by decide)) hlog
  refine ⟨body, hbody, hblock, hread [newline] (fun c hc => ?_) (fun c hc => ?_)⟩ <;>
    (cases hc; rfl)

/-- A failure count of 4301 digits has no block, and behind a log that does not
    end where a line ends the block is not found. -/
theorem result_not_read :
    resultBlock (py "fail") [] (10 ^ maxIntDigits) [] = .error longIntError ∧
    (∀ line ∈ lines newlinesOnly.isBreak (py "x"), line ≠ sentinelBegin ∧ line ≠ sentinelEnd) ∧
    ∃ block, resultBlock (py "success") [] 0 [] = .ok block ∧
      readResult newlinesOnly (py "x" ++ block) = none := by
  refine ⟨?_, by decide, frame newline sentinelBegin sentinelEnd (resultBody (py "success") [] 0 []),
    ?_, by decide +kernel⟩
  · have hlong : ∀ n : ℕ, 10 ^ n ≤ ((10 : ℤ) ^ n).natAbs := fun n => (Int.natAbs_pow 10 n).ge
    rw [resultBlock_eq, if_pos (hlong maxIntDigits)]
  · have hshort : ¬ 10 ^ maxIntDigits ≤ (0 : ℤ).natAbs := by
      rw [Int.natAbs_zero, not_le]
      exact Nat.pow_pos (by decide)
    rw [resultBlock_eq, if_neg hshort]

end ContinuoRuntime
