/-
  The header line of a csv source (`csv_source.py`, `csv_readers/s3.py`,
  `csv_readers/https.py`).

  Both readers probe with ranged requests until a newline arrives; a server that
  ignores the range answers with the whole object, which is read in chunks.

  * `HeaderLine`: the outcome every reader is to have;
  * `probe_returns`: what probing an object ends with (`probed`);
  * `extractHeaderLine_readBounded`: reading in chunks, whatever their sizes;
  * `readers_extract_iff`: every reader does what `extract_header_line` does with
    the whole body exactly if no probe ends at the end of the object, and no short
    probe is the one past the limit;
  * `headerReaders_agree_iff`: the readers agree on the required outcome exactly on
    such bodies whose first line is decodable or over the limit.
-/
import ContinuoRuntime.Contract.Kinds
import ContinuoRuntime.Lib.Loop

namespace ContinuoRuntime

/-- `HEADER_PROBE_BYTES`. -/
def headerProbeBytes : ℕ := 65536

/-- `MAX_HEADER_BYTES`. -/
def maxHeaderBytes : ℕ := 1048576

/-- `_READ_CHUNK_BYTES`. -/
def readChunkBytes : ℕ := 65536

/-- `b"\n"`. -/
def newlineByte : UInt8 := 10

/-- The `ValueError` for a header line over the limit. -/
def headerTooLong (sourceDesc : Str) : Exc :=
  .text .valueError (py "csv header line exceeds " ++ decimal maxHeaderBytes ++ py " bytes: " ++ sourceDesc)

variable (detail : Bytes → Str)

/-- `line.rstrip(b"\r").decode("utf-8-sig")`; `detail` is the text of a
    `UnicodeDecodeError`. -/
def decodeLine (line : Bytes) : Except Exc Str :=
  let stripped := line.rdropWhile (· == 13)
  match utf8SigDecode stripped with
  | some text => .ok text
  | none => .error (.text .unicodeDecodeError (detail stripped))

/-- `extract_header_line`. -/
def extractHeaderLine (data : Bytes) (sourceDesc : Str) : Except Exc Str :=
  let line := data.takeWhile (· ≠ newlineByte)
  if maxHeaderBytes < line.length then .error (headerTooLong sourceDesc) else decodeLine detail line

/-! ## Probing -/

/-- What one ranged request gives: a part of the object, or the end of the reading. -/
inductive Probe where
  | part (body : Bytes)
  | done (out : Except Exc Str)

/-- One round of `fetch_header_line`, from `start` and `buf`. -/
def probeRound (probe : ℕ → ℕ → Probe) (raw : Str) (s : ℕ × Bytes) : Except Exc Str ⊕ (ℕ × Bytes) :=
  match probe s.1 (s.1 + headerProbeBytes - 1) with
  | .done out => .inl out
  | .part body =>
    let buf := s.2 ++ body
    if newlineByte ∈ buf then .inl (extractHeaderLine detail buf raw)
    -- the whole object is read, and has no newline
    else if body.length < headerProbeBytes then .inl (decodeLine detail buf)
    else if maxHeaderBytes < buf.length then .inl (.error (headerTooLong raw))
    else .inr (s.1 + headerProbeBytes, buf)

/-- `fetch_header_line`, for at most so many probes. -/
def fetchHeaderLine (probe : ℕ → ℕ → Probe) (raw : Str) (fuel : ℕ) : Option (Except Exc Str) :=
  Loop.run (probeRound detail probe raw) fuel (0, [])

/-! ## S3 -/

/-- `ClientError`, with the code of its response. -/
structure ClientError where
  code : Str
  text : Str

/-- `client.get_object(Bucket, Key, Range)`. -/
abbrev GetObject := Str → Str → ℕ → ℕ → Except ClientError Bytes

/-- One request of `S3CsvSourceReader`. -/
def s3Probe (getObject : GetObject) (bucket key : Str) (start last : ℕ) : Probe :=
  match getObject bucket key start last with
  | .ok body => .part body
  | .error exc =>
    -- an object of no bytes
    if start = 0 ∧ exc.code = py "InvalidRange" then .done (.ok [])
    else .done (.error (.text (.other (py "ClientError")) exc.text))

/-- `S3CsvSourceReader.fetch_header_line`. -/
def s3FetchHeaderLine (getObject : GetObject) (raw bucket key : Str) (fuel : ℕ) :
    Option (Except Exc Str) :=
  fetchHeaderLine detail (s3Probe getObject bucket key) raw fuel

/-! ## HTTPS -/

/-- A response: 206 with its body, or 200 with what each `read` will give. -/
inductive Response where
  | partialContent (body : Bytes)
  | whole (chunks : List Bytes)

/-- `_opener.open` of a request for a range. -/
abbrev OpenUrl := Str → ℕ → ℕ → Except Exc Response

/-- `_read_bounded`, with `buf` read so far. -/
def readBounded (limit : ℕ) : Bytes → List Bytes → Bytes
  | buf, [] => buf
  | buf, chunk :: chunks =>
    if chunk = [] then buf
    else
      let buf := buf ++ chunk
      if newlineByte ∈ buf ∨ limit < buf.length then buf else readBounded limit buf chunks

/-- One request of `HttpsCsvSourceReader`. -/
def httpsProbe (openUrl : OpenUrl) (raw : Str) (start last : ℕ) : Probe :=
  match openUrl raw start last with
  | .error exc => .done (.error exc)
  | .ok (.partialContent body) => .part body
  | .ok (.whole chunks) => .done (extractHeaderLine detail (readBounded maxHeaderBytes [] chunks) raw)

/-- `HttpsCsvSourceReader.fetch_header_line`. -/
def httpsFetchHeaderLine (openUrl : OpenUrl) (raw : Str) (fuel : ℕ) : Option (Except Exc Str) :=
  fetchHeaderLine detail (httpsProbe detail openUrl raw) raw fuel

/-! ## Servers -/

/-- The bytes of a range; a range that starts past the end has none. -/
def rangeOf (body : Bytes) (first last : ℕ) : Option Bytes :=
  if first < body.length then some ((body.drop first).take (last + 1 - first)) else none

/-- S3, with this object. -/
def objectStore (text : Str) (body : Bytes) : GetObject := fun _ _ first last =>
  match rangeOf body first last with
  | some part => .ok part
  | none => .error ⟨py "InvalidRange", text⟩

/-- A server that honours ranges; `refusal` is the text of its HTTP 416. -/
def rangeServer (refusal : Str) (body : Bytes) : OpenUrl := fun _ first last =>
  match rangeOf body first last with
  | some part => .ok (.partialContent part)
  | none => .error (.text .osError refusal)

/-- A server that ignores ranges. -/
def plainServer (chunks : List Bytes) : OpenUrl := fun _ _ _ => .ok (.whole chunks)

/-- The reads of a response with this body. -/
structure Delivers (body : Bytes) (chunks : List Bytes) : Prop where
  flatten : chunks.flatten = body
  nonempty : ∀ chunk ∈ chunks, chunk ≠ []
  bounded : ∀ chunk ∈ chunks, chunk.length ≤ readChunkBytes

/-! ## The outcome every reader is to have -/

/-- The bytes up to the first newline, or the whole body. -/
def FirstLine (body line : Bytes) : Prop :=
  newlineByte ∉ line ∧ (body = line ∨ ∃ rest, body = line ++ newlineByte :: rest)

/-- The line without its carriage returns at the end, decoded. -/
def lineText (line : Bytes) : Option Str := utf8SigDecode (line.rdropWhile (· == 13))

/-- The first line of `body`, decoded, or the `ValueError` for a line over the limit. -/
def HeaderLine (raw : Str) (body : Bytes) (out : Except Exc Str) : Prop :=
  ∃ line, FirstLine body line ∧
    ((maxHeaderBytes < line.length ∧ out = .error (headerTooLong raw)) ∨
      (line.length ≤ maxHeaderBytes ∧ ∃ text, lineText line = some text ∧ out = .ok text))

/-- The first line is over the limit, or can be decoded. -/
def LineDecodes (body : Bytes) : Prop :=
  ∃ line, FirstLine body line ∧ (maxHeaderBytes < line.length ∨ (lineText line).isSome = true)

theorem ne_newline {line : Bytes} (h : newlineByte ∉ line) :
    ∀ b ∈ line, decide (b ≠ newlineByte) = true := by
  intro b hb
  exact decide_eq_true fun hn => h (hn ▸ hb)

theorem takeWhile_eq_self {body : Bytes} (h : newlineByte ∉ body) :
    body.takeWhile (· ≠ newlineByte) = body :=
  List.takeWhile_eq_self_iff.2 (ne_newline h)

theorem takeWhile_newline {line rest : Bytes} (h : newlineByte ∉ line) :
    (line ++ newlineByte :: rest).takeWhile (· ≠ newlineByte) = line := by
  rw [List.takeWhile_append_of_pos (ne_newline h),
    List.takeWhile_cons_of_neg (by simp), List.append_nil]

/-- A body has one first line. -/
theorem firstLine_iff {body line : Bytes} : FirstLine body line ↔ line = body.takeWhile (· ≠ newlineByte) := by
  constructor
  · rintro ⟨hl, rfl | ⟨rest, rfl⟩⟩
    · exact (takeWhile_eq_self hl).symm
    · exact (takeWhile_newline hl).symm
  · rintro rfl
    by_cases h : newlineByte ∈ body
    · obtain ⟨line, rest, rfl, hl⟩ := List.eq_append_cons_of_mem h
      rw [takeWhile_newline hl]
      exact ⟨hl, .inr ⟨rest, rfl⟩⟩
    · rw [takeWhile_eq_self h]
      exact ⟨h, .inl rfl⟩

/-- **`extract_header_line`** of the whole body has the outcome, if there is one. -/
theorem headerLine_iff {raw : Str} {body : Bytes} {out : Except Exc Str} :
    HeaderLine raw body out ↔ LineDecodes body ∧ out = extractHeaderLine detail body raw := by
  simp only [HeaderLine, LineDecodes, firstLine_iff, exists_eq_left, extractHeaderLine]
  generalize body.takeWhile (· ≠ newlineByte) = line
  split_ifs with hlen
  · simp only [hlen, not_le.2 hlen, true_and, false_and, or_false, true_or]
  · simp only [hlen, not_lt.1 hlen, true_and, false_and, false_or, decodeLine, lineText]
    cases utf8SigDecode (line.rdropWhile (· == 13)) with
    | none => simp
    | some text => simp

variable {detail}

theorem extractHeaderLine_of_notMem {raw : Str} {body : Bytes} (h : newlineByte ∉ body) :
    extractHeaderLine detail body raw =
      if maxHeaderBytes < body.length then .error (headerTooLong raw) else decodeLine detail body := by
  rw [extractHeaderLine, takeWhile_eq_self h]

/-- What follows the first newline does not matter. -/
theorem extractHeaderLine_append {raw : Str} {buf : Bytes} (h : newlineByte ∈ buf) (rest : Bytes) :
    extractHeaderLine detail (buf ++ rest) raw = extractHeaderLine detail buf raw := by
  obtain ⟨line, more, rfl, hl⟩ := List.eq_append_cons_of_mem h
  rw [extractHeaderLine, extractHeaderLine, List.append_assoc, List.cons_append, takeWhile_newline hl,
    takeWhile_newline hl]

/-- A body over the limit before its first newline is refused. -/
theorem extractHeaderLine_tooLong {raw : Str} {buf : Bytes} (h : newlineByte ∉ buf)
    (hlen : maxHeaderBytes < buf.length) (rest : Bytes) :
    extractHeaderLine detail (buf ++ rest) raw = .error (headerTooLong raw) := by
  have hle : buf.length ≤ ((buf ++ rest).takeWhile (· ≠ newlineByte)).length := by
    rw [List.takeWhile_append_of_pos (ne_newline h), List.length_append]
    omega
  rw [extractHeaderLine, if_pos (by omega)]

/-- **Reading in chunks** stops early enough, whatever their sizes. -/
theorem extractHeaderLine_readBounded {raw : Str} : ∀ {chunks : List Bytes} {buf : Bytes},
    (∀ chunk ∈ chunks, chunk ≠ []) →
    extractHeaderLine detail (readBounded maxHeaderBytes buf chunks) raw =
      extractHeaderLine detail (buf ++ chunks.flatten) raw
  | [], buf, _ => by rw [readBounded, List.flatten_nil, List.append_nil]
  | chunk :: chunks, buf, h => by
    rw [readBounded, if_neg (h chunk List.mem_cons_self), List.flatten_cons, ← List.append_assoc]
    dsimp only
    split_ifs with hstop
    · by_cases hn : newlineByte ∈ buf ++ chunk
      · rw [extractHeaderLine_append hn]
      · have hlen := hstop.resolve_left hn
        rw [extractHeaderLine_tooLong hn hlen, extractHeaderLine_of_notMem hn, if_pos hlen]
    · exact extractHeaderLine_readBounded fun c hc => h c (List.mem_cons_of_mem _ hc)

/-! ## What probing ends with -/

/-- A probe that gives the ranges of `body`, and `refused` past its end. -/
def Ranged (body : Bytes) (refused : ℕ → Except Exc Str) (probe : ℕ → ℕ → Probe) : Prop :=
  ∀ first last, probe first last = match rangeOf body first last with
    | some part => .part part
    | none => .done (refused first)

/-- The outcome of probing `body`. -/
def probed (detail : Bytes → Str) (raw : Str) (body : Bytes) (refused : ℕ → Except Exc Str) :
    Except Exc Str :=
  if newlineByte ∈ body ∨ maxHeaderBytes + headerProbeBytes ≤ body.length then
    extractHeaderLine detail body raw
  else if headerProbeBytes ∣ body.length then refused body.length
  else decodeLine detail body

/-- Before each probe: full probes so far, within the limit and without a newline. -/
structure ProbeInv (body : Bytes) (s : ℕ × Bytes) : Prop where
  aligned : headerProbeBytes ∣ s.1
  within : s.1 ≤ maxHeaderBytes
  available : s.1 ≤ body.length
  buf : s.2 = body.take s.1
  noNewline : newlineByte ∉ s.2

/-- **One probe** ends the reading as `probed` says, or keeps the invariant. -/
theorem probeRound_spec {raw : Str} {body : Bytes} {refused : ℕ → Except Exc Str}
    {probe : ℕ → ℕ → Probe} (hp : Ranged body refused probe) {s : ℕ × Bytes} (hs : ProbeInv body s) :
    probeRound detail probe raw s = .inl (probed detail raw body refused) ∨
      ∃ s', probeRound detail probe raw s = .inr s' ∧ ProbeInv body s' ∧ s.1 < s'.1 := by
  obtain ⟨start, buf⟩ := s
  obtain ⟨⟨k, hk⟩, hwithin, havail, hbuf, hno⟩ := hs
  dsimp only at hk hwithin havail hbuf hno
  simp only [headerProbeBytes, maxHeaderBytes] at hk hwithin
  rw [probeRound, hp]
  by_cases hend : start < body.length
  · -- a part of the object arrives
    have hrange : rangeOf body start (start + headerProbeBytes - 1) =
        some ((body.drop start).take headerProbeBytes) := by
      rw [rangeOf, if_pos hend, show start + headerProbeBytes - 1 + 1 - start = headerProbeBytes by
        simp only [headerProbeBytes]; omega]
    have hnext : buf ++ (body.drop start).take headerProbeBytes = body.take (start + headerProbeBytes) := by
      rw [hbuf, List.take_add]
    have hrest : body = body.take (start + headerProbeBytes) ++ body.drop (start + headerProbeBytes) :=
      (List.take_append_drop _ _).symm
    have hlen : (body.take (start + headerProbeBytes)).length =
        min (start + headerProbeBytes) body.length := List.length_take
    have hpart : ((body.drop start).take headerProbeBytes).length =
        min headerProbeBytes (body.length - start) := by rw [List.length_take, List.length_drop]
    rw [hrange]
    dsimp only
    rw [hnext]
    split_ifs with hnew hshort hover
    · left
      have hmem : newlineByte ∈ body := List.mem_of_mem_take hnew
      rw [probed, if_pos (.inl hmem)]
      conv_rhs => rw [hrest, extractHeaderLine_append hnew]
    · left
      rw [hpart] at hshort
      have hall : body.take (start + headerProbeBytes) = body :=
        List.take_of_length_le (by omega)
      simp only [headerProbeBytes] at hshort
      have hnone : newlineByte ∉ body := by
        rw [hall] at hnew
        exact hnew
      have hndvd : ¬ headerProbeBytes ∣ body.length := by
        rintro ⟨j, hj⟩
        simp only [headerProbeBytes] at hj
        omega
      rw [hall, probed, if_neg (by
        simp only [hnone, false_or, headerProbeBytes, maxHeaderBytes]; omega), if_neg hndvd]
    · left
      rw [hlen] at hover
      rw [hpart] at hshort
      simp only [headerProbeBytes, maxHeaderBytes] at hover hshort
      have hbig : newlineByte ∈ body ∨ maxHeaderBytes + headerProbeBytes ≤ body.length := .inr (by
        simp only [headerProbeBytes, maxHeaderBytes]; omega)
      rw [probed, if_pos hbig]
      conv_rhs => rw [hrest, extractHeaderLine_tooLong hnew (by
        rw [hlen]; simp only [headerProbeBytes, maxHeaderBytes]; omega)]
    · right
      rw [hlen] at hover
      rw [hpart] at hshort
      simp only [headerProbeBytes, maxHeaderBytes] at hover hshort
      refine ⟨_, rfl, ⟨⟨k + 1, ?_⟩, ?_, ?_, rfl, hnew⟩, ?_⟩ <;>
        simp only [headerProbeBytes, maxHeaderBytes] <;> omega
  · -- the probe starts at the end of the object
    have hall : start = body.length := by omega
    have hnone : newlineByte ∉ body := by
      rwa [hbuf, hall, List.take_length] at hno
    left
    rw [rangeOf, if_neg hend]
    dsimp only
    rw [probed, if_neg (by simp only [hnone, false_or, headerProbeBytes, maxHeaderBytes]; omega),
      if_pos ⟨k, hall ▸ hk⟩, hall]

/-- **Probing an object** ends, with `probed`. -/
theorem probe_returns (detail : Bytes → Str) (raw : Str) {body : Bytes} {refused : ℕ → Except Exc Str}
    {probe : ℕ → ℕ → Probe} (hp : Ranged body refused probe) :
    ∃ fuel, fetchHeaderLine detail probe raw fuel = some (probed detail raw body refused) := by
  have hinit : ProbeInv body (0, []) :=
    ⟨Nat.dvd_zero _, Nat.zero_le _, Nat.zero_le _, rfl, List.not_mem_nil⟩
  have hround : ∀ s, ProbeInv body s →
      (∃ r, probeRound detail probe raw s = .inl r ∧ r = probed detail raw body refused) ∨
        ∃ s', probeRound detail probe raw s = .inr s' ∧ ProbeInv body s' ∧
          maxHeaderBytes + 1 - s'.1 < maxHeaderBytes + 1 - s.1 := by
    intro s hs
    rcases probeRound_spec hp hs with h | ⟨s', h, hinv, hlt⟩
    · exact .inl ⟨_, h, rfl⟩
    · have hwithin := hinv.within
      exact .inr ⟨s', h, hinv, by omega⟩
  obtain ⟨r, hr, rfl⟩ := Loop.returns_of_variant (ProbeInv body) (· = probed detail raw body refused)
    (fun s => maxHeaderBytes + 1 - s.1) hround hinit
  exact hr

/-- A reader has one outcome. -/
theorem fetchHeaderLine_unique {probe : ℕ → ℕ → Probe} {raw : Str} {out out' : Except Exc Str}
    (h : ∃ fuel, fetchHeaderLine detail probe raw fuel = some out)
    (h' : ∃ fuel, fetchHeaderLine detail probe raw fuel = some out') : out = out' :=
  Loop.Returns.unique h h'

/-! ## The servers -/

theorem ranged_s3Probe (text : Str) (bucket key : Str) (body : Bytes) :
    Ranged body (fun first => if first = 0 then .ok [] else .error (.text (.other (py "ClientError")) text))
      (s3Probe (objectStore text body) bucket key) := by
  intro first last
  rw [s3Probe, objectStore]
  cases rangeOf body first last with
  | some part => rfl
  | none =>
    dsimp only
    split_ifs with h1 h2 h2
    · rfl
    · exact absurd h1.1 h2
    · exact absurd ⟨h2, rfl⟩ h1
    · rfl

theorem ranged_httpsProbe (detail : Bytes → Str) (raw refusal : Str) (body : Bytes) :
    Ranged body (fun _ => .error (.text .osError refusal))
      (httpsProbe detail (rangeServer refusal body) raw) := by
  intro first last
  rw [httpsProbe, rangeServer]
  cases rangeOf body first last <;> rfl

/-- A server that ignores ranges is read once. -/
theorem plainServer_returns {raw : Str} {body : Bytes} {chunks : List Bytes} (h : Delivers body chunks) :
    ∃ fuel, httpsFetchHeaderLine detail (plainServer chunks) raw fuel =
      some (extractHeaderLine detail body raw) := by
  have hread : extractHeaderLine detail (readBounded maxHeaderBytes [] chunks) raw =
      extractHeaderLine detail body raw := by
    rw [extractHeaderLine_readBounded h.nonempty, h.flatten, List.nil_append]
  refine ⟨1, ?_⟩
  rw [← hread]
  rfl

/-- **Every reader ends**, on every body. -/
theorem headerReaders_terminate (detail : Bytes → Str) (text refusal raw bucket key : Str) (body : Bytes) :
    (∃ fuel, (s3FetchHeaderLine detail (objectStore text body) raw bucket key fuel).isSome) ∧
      (∃ fuel, (httpsFetchHeaderLine detail (rangeServer refusal body) raw fuel).isSome) ∧
      ∀ chunks, Delivers body chunks →
        ∃ fuel, (httpsFetchHeaderLine detail (plainServer chunks) raw fuel).isSome := by
  obtain ⟨n, hn⟩ := probe_returns detail raw (ranged_s3Probe text bucket key body)
  obtain ⟨m, hm⟩ := probe_returns detail raw (ranged_httpsProbe detail raw refusal body)
  refine ⟨⟨n, Option.isSome_of_mem hn⟩, ⟨m, Option.isSome_of_mem hm⟩, fun chunks hc => ?_⟩
  obtain ⟨j, hj⟩ := plainServer_returns hc
  exact ⟨j, Option.isSome_of_mem hj⟩

/-! ## Agreement -/

/-- The class of the exception that ends a computation. -/
def errorClass {α : Type} : Except Exc α → Option ExcClass
  | .ok _ => none
  | .error exc => some exc.cls

theorem errorClass_decodeLine (detail : Bytes → Str) (line : Bytes) :
    errorClass (decodeLine detail line) = none ∨
      errorClass (decodeLine detail line) = some .unicodeDecodeError := by
  unfold decodeLine
  dsimp only
  split
  · exact .inl rfl
  · exact .inr rfl

theorem errorClass_extractHeaderLine (detail : Bytes → Str) (data : Bytes) (raw : Str) :
    errorClass (extractHeaderLine detail data raw) = none ∨
      errorClass (extractHeaderLine detail data raw) = some .unicodeDecodeError ∨
      errorClass (extractHeaderLine detail data raw) = some .valueError := by
  unfold extractHeaderLine
  dsimp only
  split_ifs
  · exact .inr (.inr rfl)
  · exact (errorClass_decodeLine _ _).imp id .inl

/-- No probe starts at the end of the object, and no short probe passes the limit:
    there is a newline, or the limit is passed by a full probe, or the object is
    within the limit and not a whole number of probes. -/
def ProbesApart (body : Bytes) : Prop :=
  newlineByte ∈ body ∨ maxHeaderBytes + headerProbeBytes ≤ body.length ∨
    (body.length ≤ maxHeaderBytes ∧ ¬ headerProbeBytes ∣ body.length)

theorem probed_of_probesApart {raw : Str} {body : Bytes} {refused : ℕ → Except Exc Str}
    (h : ProbesApart body) : probed detail raw body refused = extractHeaderLine detail body raw := by
  unfold probed
  split_ifs with hwhole hdvd
  · rfl
  · rcases h with h | h | ⟨-, h⟩
    · exact absurd (.inl h) hwhole
    · exact absurd (.inr h) hwhole
    · exact absurd hdvd h
  · rcases h with h | h | ⟨h, -⟩
    · exact absurd (.inl h) hwhole
    · exact absurd (.inr h) hwhole
    · rw [extractHeaderLine_of_notMem fun hn => hwhole (.inl hn), if_neg (by omega)]

/-- Where the probes are not apart, a server that refuses a range past the end is
    read wrongly. -/
theorem probesApart_of_probed {raw : Str} {body : Bytes} {refused : ℕ → Except Exc Str}
    (hrefused : errorClass (refused body.length) = some .osError)
    (h : probed detail raw body refused = extractHeaderLine detail body raw) : ProbesApart body := by
  unfold probed at h
  split_ifs at h with hwhole hdvd
  · exact hwhole.imp id .inl
  · rw [h] at hrefused
    rcases errorClass_extractHeaderLine detail body raw with hc | hc | hc <;>
      (rw [hc] at hrefused; cases hrefused)
  · refine .inr (.inr ⟨?_, hdvd⟩)
    by_contra hlen
    rw [extractHeaderLine_of_notMem fun hn => hwhole (.inl hn), if_pos (by omega)] at h
    rcases errorClass_decodeLine detail body with hc | hc <;> (rw [h] at hc; cases hc)

/-- All readers have this outcome. -/
structure ReadersGive (detail : Bytes → Str) (text refusal raw bucket key : Str) (body : Bytes)
    (out : Except Exc Str) : Prop where
  s3 : ∃ fuel, s3FetchHeaderLine detail (objectStore text body) raw bucket key fuel = some out
  ranged : ∃ fuel, httpsFetchHeaderLine detail (rangeServer refusal body) raw fuel = some out
  plain : ∀ chunks, Delivers body chunks →
    ∃ fuel, httpsFetchHeaderLine detail (plainServer chunks) raw fuel = some out

/-- **The readers do what `extract_header_line` does** with the whole body, an
    undecodable line included, exactly on the bodies whose probes are apart. -/
theorem readers_extract_iff {text refusal raw bucket key : Str} {body : Bytes} :
    ReadersGive detail text refusal raw bucket key body (extractHeaderLine detail body raw) ↔
      ProbesApart body := by
  have hs3 := probe_returns detail raw (ranged_s3Probe text bucket key body)
  have hhttps := probe_returns detail raw (ranged_httpsProbe detail raw refusal body)
  constructor
  · exact fun h => probesApart_of_probed rfl (fetchHeaderLine_unique hhttps h.ranged)
  · intro h
    rw [probed_of_probesApart h] at hs3 hhttps
    exact ⟨hs3, hhttps, fun chunks hc => plainServer_returns hc⟩

/-- **The header readers agree** on the outcome `HeaderLine` exactly on the bodies
    whose probes are apart, with a first line that is over the limit or decodable. -/
theorem headerReaders_agree_iff (detail : Bytes → Str) (text refusal raw bucket key : Str) (body : Bytes) :
    (∃ out, HeaderLine raw body out ∧ ReadersGive detail text refusal raw bucket key body out) ↔
      ProbesApart body ∧ LineDecodes body := by
  constructor
  · rintro ⟨out, hout, hgive⟩
    obtain ⟨hline, rfl⟩ := (headerLine_iff detail).1 hout
    exact ⟨readers_extract_iff.1 hgive, hline⟩
  · rintro ⟨hapart, hline⟩
    exact ⟨_, (headerLine_iff detail).2 ⟨hline, rfl⟩, readers_extract_iff.2 hapart⟩

/-- **An object of no bytes** is refused to the HTTPS reader, whose header line is to
    be empty. -/
theorem emptyObject_refused :
    httpsFetchHeaderLine (fun _ => []) (rangeServer (py "HTTP Error 416: Range Not Satisfiable") [])
        (py "https://host/empty.csv") 1 =
      some (.error (.text .osError (py "HTTP Error 416: Range Not Satisfiable"))) ∧
    HeaderLine (py "https://host/empty.csv") [] (.ok []) ∧
    ¬ ∃ fuel, httpsFetchHeaderLine (fun _ => [])
        (rangeServer (py "HTTP Error 416: Range Not Satisfiable") []) (py "https://host/empty.csv") fuel =
      some (.ok []) := by
  have hone : httpsFetchHeaderLine (fun _ => [])
      (rangeServer (py "HTTP Error 416: Range Not Satisfiable") []) (py "https://host/empty.csv") 1 =
        some (.error (.text .osError (py "HTTP Error 416: Range Not Satisfiable"))) := rfl
  refine ⟨hone, ⟨[], ⟨List.not_mem_nil, .inl rfl⟩, .inr ⟨Nat.zero_le _, [], rfl, rfl⟩⟩, ?_⟩
  intro hempty
  cases fetchHeaderLine_unique ⟨1, hone⟩ hempty

end ContinuoRuntime
