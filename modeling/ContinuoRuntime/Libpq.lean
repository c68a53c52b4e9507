/-
  What libpq says about a connection that failed, and which of these texts the adapters
  try again.

  libpq writes a line for each address of the host, with the reason behind a marker; the
  Postgres adapter and the DuckDB session look for the markers with one pattern.

  * `addressFailures_eq`: the pattern finds one reason in each line that has a marker;
  * `isUnreachable_iff`: **a text is tried again** exactly if a line of it has a marker, and
    every line that has one says that the address was refused or could not be routed to.
-/
import ContinuoRuntime.Python.Str

namespace ContinuoRuntime

/-! ## The pattern -/

/-- The text behind `failed: ` or `could not connect to server: `, if it starts with that. -/
def behindMarker (text : Str) : Option Str :=
  if py "failed: " <+: text then some (text.drop (py "failed: ").length)
  else if py "could not connect to server: " <+: text then some (text.drop (py "could not connect to server: ").length)
  else none

/-- `_ADDRESS_FAILURE.findall`, from at most so many places of a text. -/
def addressFailuresUpTo : ℕ → Str → List Str
  | 0, _ => []
  | _, [] => []
  | n + 1, c :: text =>
    match behindMarker (c :: text) with
    | some rest => rest.takeWhile (· ≠ ch '\n') :: addressFailuresUpTo n (rest.dropWhile (· ≠ ch '\n'))
    | none => addressFailuresUpTo n text

/-- `_ADDRESS_FAILURE.findall(message)`. -/
def addressFailures (message : Str) : List Str := addressFailuresUpTo message.length message

/-- `_UNREACHABLE_REASONS`. -/
def unreachableReasons : List Str := [py "Connection refused", py "No route to host", py "Network is unreachable"]

/-- `_is_unreachable` of the Postgres adapter, and `_is_catalog_unreachable` of the DuckDB
    session, on the text of the exception. -/
def isUnreachable (message : Str) : Prop :=
  let reasons := (addressFailures message).map strip
  reasons ≠ [] ∧ (∀ reason ∈ reasons, reason ∈ unreachableReasons) ∧ ¬ py "FATAL:" <:+: message ∧
    ¬ py "timeout expired" <:+: message

instance (message : Str) : Decidable (isUnreachable message) := inferInstanceAs (Decidable (_ ∧ _ ∧ _ ∧ _))

/-! ## Lines -/

/-- The reason of a line: what stands behind its first marker. -/
def lineReason : Str → Option Str
  | [] => none
  | c :: line =>
    match behindMarker (c :: line) with
    | some rest => some rest
    | none => lineReason line

/-- The rest of a text behind a line of it. -/
def AtLineEnd (rest : Str) : Prop := ∀ c ∈ rest.head?, c = ch '\n'

/-- A text without a line break stands at the start of a line if it stands at the start of
    that line and what follows. -/
theorem prefix_line_iff {marker line rest : Str} (hmarker : ch '\n' ∉ marker) (hrest : AtLineEnd rest) :
    marker <+: line ++ rest ↔ marker <+: line := by
  refine ⟨fun h => ?_, fun h => h.trans (List.prefix_append line rest)⟩
  rcases List.prefix_or_prefix_of_prefix h (List.prefix_append line rest) with h' | ⟨more, rfl⟩
  · exact h'
  · rw [List.prefix_append_right_inj] at h
    cases more with
    | nil => rw [List.append_nil]
    | cons c more =>
      obtain ⟨after, rfl⟩ := h
      have hbreak : c = ch '\n' := hrest c rfl
      exact absurd (by rw [hbreak]; simp) hmarker

theorem behindMarker_append {line rest : Str} (hrest : AtLineEnd rest) :
    behindMarker (line ++ rest) = (behindMarker line).map (· ++ rest) := by
  have hfailed : py "failed: " <+: line ++ rest ↔ py "failed: " <+: line := prefix_line_iff (by decide) hrest
  have hserver : py "could not connect to server: " <+: line ++ rest ↔ py "could not connect to server: " <+: line :=
    prefix_line_iff (by decide) hrest
  unfold behindMarker
  by_cases h₁ : py "failed: " <+: line
  · rw [if_pos h₁, if_pos (hfailed.2 h₁), Option.map_some, List.drop_append_of_le_length h₁.length_le]
  · rw [if_neg h₁, if_neg fun h => h₁ (hfailed.1 h)]
    by_cases h₂ : py "could not connect to server: " <+: line
    · rw [if_pos h₂, if_pos (hserver.2 h₂), Option.map_some, List.drop_append_of_le_length h₂.length_le]
    · rw [if_neg h₂, if_neg fun h => h₂ (hserver.1 h), Option.map_none]

theorem behindMarker_suffix {text rest : Str} (h : behindMarker text = some rest) : rest <:+ text := by
  unfold behindMarker at h
  split_ifs at h
  · exact Option.some.inj h ▸ List.drop_suffix _ text
  · exact Option.some.inj h ▸ List.drop_suffix _ text

theorem exists_line (text : Str) : ∃ line rest, text = line ++ rest ∧ ch '\n' ∉ line ∧ AtLineEnd rest := by
  refine ⟨_, _, (List.takeWhile_append_dropWhile (p := (· ≠ ch '\n'))).symm, fun h => ?_, fun c hc => ?_⟩
  · simpa using List.mem_takeWhile_imp h
  · have hhead := List.head?_dropWhile_not (· ≠ ch '\n') text
    rw [Option.mem_def.1 hc] at hhead
    simpa using hhead

theorem takeWhile_line {line rest : Str} (hline : ch '\n' ∉ line) (hrest : AtLineEnd rest) :
    (line ++ rest).takeWhile (· ≠ ch '\n') = line ∧ (line ++ rest).dropWhile (· ≠ ch '\n') = rest := by
  have hall : ∀ c ∈ line, decide (c ≠ ch '\n') = true := fun c hc => decide_eq_true fun h => hline (h ▸ hc)
  rw [List.takeWhile_append_of_pos hall, List.dropWhile_append_of_pos hall]
  cases rest with
  | nil => simp
  | cons c rest =>
    rw [hrest c rfl]
    simp

theorem splitOn_line {line rest : Str} (hline : ch '\n' ∉ line) (hrest : AtLineEnd rest) :
    (line ++ rest).splitOn (ch '\n') = line :: (rest.splitOn (ch '\n')).tail := by
  cases rest with
  | nil => rw [List.append_nil, List.splitOn_eq_singleton hline, List.splitOn_nil, List.tail_cons]
  | cons c rest =>
    have hbreak : [ch '\n'].head? = some c := by rw [hrest c rfl]; rfl
    cases hbreak
    have hempty : (ch '\n' :: rest).splitOn (ch '\n') = [] :: rest.splitOn (ch '\n') := by
      rw [← List.nil_append (ch '\n' :: rest), List.splitOn_append_cons_self, List.splitOn_nil]
      rfl
    rw [List.splitOn_append_cons_self, List.splitOn_eq_singleton hline, hempty]
    rfl

theorem addressFailuresUpTo_eq {n : ℕ} {text : Str} (h : text.length ≤ n) :
    addressFailuresUpTo n text = (text.splitOn (ch '\n')).filterMap lineReason := by
  induction n generalizing text with
  | zero =>
    rw [List.length_eq_zero_iff.1 (Nat.le_zero.1 h)]
    rfl
  | succ n ih =>
    cases text with
    | nil => rfl
    | cons c text =>
      have hlength : text.length ≤ n := by simpa using h
      unfold addressFailuresUpTo
      by_cases hc : c = ch '\n'
      · -- a line ends here
        have hend : AtLineEnd (c :: text) := fun d hd => by cases hd; exact hc
        have hnone : behindMarker ([] ++ c :: text) = none := behindMarker_append hend
        have hsplit := splitOn_line List.not_mem_nil hend
        rw [List.nil_append] at hsplit
        have htail : ((c :: text).splitOn (ch '\n')).tail = text.splitOn (ch '\n') := by
          rw [hc, ← List.nil_append (ch '\n' :: text), List.splitOn_append_cons_self, List.splitOn_nil]
          rfl
        rw [List.nil_append] at hnone
        rw [hnone, hsplit, htail, List.filterMap_cons_none rfl]
        exact ih hlength
      · obtain ⟨line, rest, rfl, hline, hrest⟩ := exists_line text
        have hline' : ch '\n' ∉ c :: line := by
          rw [List.mem_cons]
          exact fun h => h.elim (fun h => hc h.symm) hline
        have hmarker := @behindMarker_append (c :: line) rest hrest
        rw [← List.cons_append, hmarker, splitOn_line hline' hrest]
        cases hbehind : behindMarker (c :: line) with
        | none =>
          have hreason : lineReason (c :: line) = lineReason line := by rw [lineReason, hbehind]
          have hfilter := ih hlength
          rw [splitOn_line hline hrest] at hfilter
          rw [Option.map_none, List.filterMap_cons, hreason, ← List.filterMap_cons]
          exact hfilter
        | some reason =>
          have hreason : lineReason (c :: line) = some reason := by rw [lineReason, hbehind]
          have hplain : ch '\n' ∉ reason := fun h => hline' ((behindMarker_suffix hbehind).subset h)
          obtain ⟨htake, hdrop⟩ := takeWhile_line hplain hrest
          have hfilter := ih (show rest.length ≤ n by rw [List.length_append] at hlength; omega)
          have hsplit := splitOn_line List.not_mem_nil hrest
          rw [List.nil_append] at hsplit
          rw [hsplit, List.filterMap_cons_none rfl] at hfilter
          rw [Option.map_some, List.filterMap_cons_some hreason]
          dsimp only
          rw [htake, hdrop, hfilter]

/-- **The pattern** finds the reasons of the lines. -/
theorem addressFailures_eq (message : Str) :
    addressFailures message = (message.splitOn (ch '\n')).filterMap lineReason := addressFailuresUpTo_eq le_rfl

/-- **A text is tried again** exactly if a line of it has a marker, every line that has one
    says that the address was refused or could not be routed to, no server has answered and
    nothing has timed out. -/
theorem isUnreachable_iff (message : Str) : isUnreachable message ↔
    (∃ line ∈ message.splitOn (ch '\n'), (lineReason line).isSome) ∧
      (∀ line ∈ message.splitOn (ch '\n'), ∀ reason, lineReason line = some reason →
        strip reason ∈ unreachableReasons) ∧
      ¬ py "FATAL:" <:+: message ∧ ¬ py "timeout expired" <:+: message := by
  unfold isUnreachable
  dsimp only
  rw [addressFailures_eq]
  refine and_congr ?_ (and_congr ?_ Iff.rfl)
  · rw [ne_eq, List.map_eq_nil_iff]
    constructor
    · intro hne
      obtain ⟨reason, h⟩ := List.exists_mem_of_ne_nil _ hne
      obtain ⟨line, hline, hreason⟩ := List.mem_filterMap.1 h
      exact ⟨line, hline, by rw [hreason]; rfl⟩
    · rintro ⟨line, hline, h⟩
      obtain ⟨reason, hreason⟩ := Option.isSome_iff_exists.1 h
      exact List.ne_nil_of_mem (List.mem_filterMap.2 ⟨line, hline, hreason⟩)
  · constructor
    · intro h line hline reason hreason
      exact h _ (List.mem_map_of_mem (List.mem_filterMap.2 ⟨line, hline, hreason⟩))
    · intro h reason hreason
      obtain ⟨r, hr, rfl⟩ := List.mem_map.1 hreason
      obtain ⟨line, hline, hreason⟩ := List.mem_filterMap.1 hr
      exact h line hline r hreason

/-- Two addresses, one of which timed out. -/
example : isUnreachable (py "connection to server at h (::1), port 5432 failed: Connection refused") ∧
    ¬ isUnreachable (py "h failed: Connection refused\nh failed: Connection timed out") := by
  decide +kernel

end ContinuoRuntime
