/-
  Content hashing (`hashing.py`): three parts folded into one `content_hash`.

  A function into 32 bytes is not injective.  What the results assume of
  SHA-256 is that it is injective on the byte strings that the runs in question
  hash (`hashInputs`).

  `canonical_json` copies the entry and writes the copy; both may raise.

  * `canonicalJson_eq_ok`, `hashParts_eq_ok`: when they do not, and what they give;
  * `foldText_inj`, `sharedCodeHash_eq_iff`: the `|`-joined fold and the
    sorted-digest fold lose nothing;
  * `contentHash_eq_iff`: two content hashes are equal exactly if the scripts,
    the closure members (in any order) and the canonical JSON texts are.
-/
import ContinuoRuntime.Python.Sha256
import ContinuoRuntime.Python.JsonEncode

namespace ContinuoRuntime

/-! ## Canonical entries -/

/-- A wire entry. -/
abbrev Entry := JsonDict

/-- `CONTENT_HASH_FIELD`, `HASH_PART_FIELDS` and `NON_HASHED_FIELDS`: the keys
    outside the basis of `config_hash`. -/
def unhashedFields : List Str :=
  [py "content_hash", py "source_hash", py "shared_code_hash", py "config_hash", py "timeout_minutes"]

/-- One read, with its whitespace normalized. -/
def normalizeRead : Json Str → Json Str
  | .str sql => .str (joinWords (split sql))
  | v => v

/-- The value of `reads`. -/
def normalizeReads : Json Str → Json Str
  | .obj reads => .obj (reads.map fun p => (p.1, normalizeRead p.2))
  | v => v

/-- The members of a canonical entry. -/
def canonicalItems (items : List (Str × Json Str)) : List (Str × Json Str) :=
  (items.filter fun p => p.1 ∉ unhashedFields).map fun p =>
    (p.1, if p.1 = py "reads" then normalizeReads p.2 else p.2)

/-- The text of a canonical entry. -/
def canonicalText (entry : Entry) : Str := dumps (.obj (canonicalItems entry.members))

theorem isAscii_canonicalText (entry : Entry) : IsAscii (canonicalText entry) := isAscii_dumps _

/-- What the stack takes when `canonical_json` is called; an entry without config
    is serialised. -/
structure Stack where
  /-- frames of `deepcopy` -/
  frames : ℕ
  /-- containers that the encoder takes inside one another -/
  nesting : ℕ
  frames_entry : 7 ≤ frames
  nesting_entry : 3 ≤ nesting

/-- `canonical_json` of an entry; `deepcopy` takes `copied` frames for its `config`. -/
def canonicalJson (S : Stack) (copied : ℕ) (entry : Entry) : Except Exc Str :=
  if S.frames < copied then .error recursionError
  else do
    Json.encode S.nesting 0 (Json.obj (canonicalItems entry.members)).sortKeys
    .ok (canonicalText entry)

/-- An entry that can be copied and written. -/
structure Serialises (S : Stack) (copied : ℕ) (entry : Entry) : Prop where
  copies : copied ≤ S.frames
  encodes : (Json.obj (canonicalItems entry.members)).Encodes S.nesting 0

/-- **`canonical_json`** gives the text of the canonical entry, if it gives one. -/
theorem canonicalJson_eq_ok {S : Stack} {copied : ℕ} {entry : Entry} {text : Str} :
    canonicalJson S copied entry = .ok text ↔ Serialises S copied entry ∧ text = canonicalText entry := by
  unfold canonicalJson
  split_ifs with hframes
  · exact ⟨fun hok => (by cases hok), fun hok => absurd hok.1.copies (by omega)⟩
  · rw [bind_eq_ok]
    constructor
    · rintro ⟨⟨⟩, henc, hok⟩
      exact ⟨⟨by omega, Json.encode_sortKeys _ |>.1 henc⟩, (Except.ok.inj hok).symm⟩
    · rintro ⟨hser, rfl⟩
      exact ⟨(), (Json.encode_sortKeys _).2 hser.encodes, rfl⟩

/-! ## The parts -/

/-- `source_hash`. -/
def sourceHash (scriptBytes : Bytes) : Str := hexdigest scriptBytes

/-- The sorted digests of the members. -/
def unitHashes (memberBytes : List Bytes) : List Str :=
  (memberBytes.map hexdigest).insertionSort (· ≤ ·)

/-- `shared_code_hash`. -/
def sharedCodeHash (memberBytes : List Bytes) : Str :=
  if unitHashes memberBytes = [] then [] else hexdigest (ascii (unitHashes memberBytes).flatten)

/-- `config_hash`. -/
def configHash (S : Stack) (copied : ℕ) (entry : Entry) : Except Exc Str := do
  let text ← canonicalJson S copied entry
  .ok (hexdigest (ascii text))

/-- What `config_hash` returns, if `canonical_json` does not raise. -/
def configDigest (entry : Entry) : Str := hexdigest (ascii (canonicalText entry))

theorem configHash_eq_ok {S : Stack} {copied : ℕ} {entry : Entry} {digest : Str} :
    configHash S copied entry = .ok digest ↔ Serialises S copied entry ∧ digest = configDigest entry := by
  unfold configHash
  rw [bind_eq_ok]
  constructor
  · rintro ⟨text, htext, hok⟩
    obtain ⟨hser, rfl⟩ := canonicalJson_eq_ok.1 htext
    exact ⟨hser, (Except.ok.inj hok).symm⟩
  · rintro ⟨hser, rfl⟩
    exact ⟨_, canonicalJson_eq_ok.2 ⟨hser, rfl⟩, rfl⟩

/-- The text that the fold hashes. -/
def foldText (source shared config : Str) : Str := source ++ ch '|' :: (shared ++ ch '|' :: config)

/-- `content_hash_fold`. -/
def contentHashFold (source shared config : Str) : Str :=
  py "sha256:" ++ hexdigest (ascii (foldText source shared config))

/-- What `hash_parts` returns. -/
structure HashParts where
  sourceHash : Str
  sharedCodeHash : Str
  configHash : Str
  contentHash : Str
  deriving DecidableEq

/-- `hash_parts`. -/
def hashParts (S : Stack) (copied : ℕ) (entry : Entry) (scriptBytes : Bytes) (memberBytes : List Bytes) :
    Except Exc HashParts := do
  let s := sourceHash scriptBytes
  let sh := sharedCodeHash memberBytes
  let c ← configHash S copied entry
  .ok ⟨s, sh, c, contentHashFold s sh c⟩

/-- The parts of an entry that can be copied and written. -/
def partsOf (entry : Entry) (scriptBytes : Bytes) (memberBytes : List Bytes) : HashParts where
  sourceHash := sourceHash scriptBytes
  sharedCodeHash := sharedCodeHash memberBytes
  configHash := configDigest entry
  contentHash := contentHashFold (sourceHash scriptBytes) (sharedCodeHash memberBytes) (configDigest entry)

/-- **`hash_parts`** returns the parts of the entry, if `canonical_json` does not
    raise. -/
theorem hashParts_eq_ok {S : Stack} {copied : ℕ} {entry : Entry} {b : Bytes} {ms : List Bytes}
    {parts : HashParts} : hashParts S copied entry b ms = .ok parts ↔
      Serialises S copied entry ∧ parts = partsOf entry b ms := by
  unfold hashParts
  constructor
  · intro hok
    obtain ⟨c, hc, hok⟩ := bind_eq_ok.1 hok
    obtain ⟨hser, rfl⟩ := configHash_eq_ok.1 hc
    exact ⟨hser, (Except.ok.inj hok).symm⟩
  · rintro ⟨hser, rfl⟩
    exact bind_eq_ok.2 ⟨_, configHash_eq_ok.2 ⟨hser, rfl⟩, rfl⟩

/-- Every byte string that `hash_parts` feeds to SHA-256. -/
def hashInputs (entry : Entry) (scriptBytes : Bytes) (memberBytes : List Bytes) : List Bytes :=
  scriptBytes :: ascii (canonicalText entry) :: ascii (unitHashes memberBytes).flatten ::
    ascii (foldText (sourceHash scriptBytes) (sharedCodeHash memberBytes) (configDigest entry)) ::
    memberBytes

/-! ## The folds lose nothing -/

/-- A concatenation of pieces of one length determines the pieces. -/
theorem flatten_inj_of_length {α : Type} {n : ℕ} (hn : 0 < n) : ∀ {xs ys : List (List α)},
    (∀ x ∈ xs, x.length = n) → (∀ y ∈ ys, y.length = n) → xs.flatten = ys.flatten → xs = ys
  | [], [], _, _, _ => rfl
  | [], y :: ys, _, hy, h => by
    have hl := congrArg List.length h
    have := hy y (by simp)
    simp only [List.flatten_nil, List.length_nil, List.flatten_cons, List.length_append] at hl
    omega
  | x :: xs, [], hx, _, h => by
    have hl := congrArg List.length h
    have := hx x (by simp)
    simp only [List.flatten_nil, List.length_nil, List.flatten_cons, List.length_append] at hl
    omega
  | x :: xs, y :: ys, hx, hy, h => by
    have hlen : x.length = y.length := by rw [hx x (by simp), hy y (by simp)]
    obtain ⟨rfl, ht⟩ := List.append_inj h hlen
    rw [flatten_inj_of_length hn (fun z hz => hx z (by simp [hz])) (fun z hz => hy z (by simp [hz])) ht]

/-- On a set where `f` is injective, lists with the same images have the same
    elements, with multiplicity. -/
theorem perm_of_map_perm {α β : Type} {f : α → β} {xs ys : List α}
    (hf : Set.InjOn f {x | x ∈ xs ++ ys}) (h : (xs.map f).Perm (ys.map f)) : xs.Perm ys := by
  rcases isEmpty_or_nonempty α with hα | hα
  · cases xs with
    | nil => cases ys with
      | nil => exact .refl _
      | cons y => exact hα.elim y
    | cons x => exact hα.elim x
  · have hinv : ∀ {zs : List α}, (∀ z ∈ zs, z ∈ xs ++ ys) →
        (zs.map f).map (Function.invFunOn f {x | x ∈ xs ++ ys}) = zs := by
      intro zs hz
      rw [List.map_map]
      refine (List.map_congr_left fun z hzs => ?_).trans (List.map_id zs)
      exact hf.leftInvOn_invFunOn (hz z hzs)
    have hmap := h.map (Function.invFunOn f {x | x ∈ xs ++ ys})
    rwa [hinv fun z hz => List.mem_append_left _ hz, hinv fun z hz => List.mem_append_right _ hz]
      at hmap

theorem unitHashes_perm (members : List Bytes) : (unitHashes members).Perm (members.map hexdigest) :=
  List.perm_insertionSort _ _

theorem mem_unitHashes {members : List Bytes} {u : Str} (hu : u ∈ unitHashes members) :
    u.length = 64 ∧ IsAscii u := by
  obtain ⟨m, -, rfl⟩ := List.mem_map.1 ((unitHashes_perm members).subset hu)
  exact ⟨length_hexdigest m, isAscii_hexdigest m⟩

theorem isAscii_unitHashes (members : List Bytes) : IsAscii (unitHashes members).flatten := by
  intro c hc
  obtain ⟨u, hu, hc⟩ := List.mem_flatten.1 hc
  exact (mem_unitHashes hu).2 c hc

theorem unitHashes_eq_iff {ms ns : List Bytes} :
    unitHashes ms = unitHashes ns ↔ (ms.map hexdigest).Perm (ns.map hexdigest) := by
  refine ⟨fun h => (unitHashes_perm ms).symm.trans (h ▸ unitHashes_perm ns), fun h => ?_⟩
  exact ((unitHashes_perm ms).trans (h.trans (unitHashes_perm ns).symm)).eq_of_pairwise'
    (List.pairwise_insertionSort _ _) (List.pairwise_insertionSort _ _)

/-- **The sorted-digest fold** keeps the members, in any order; the empty closure
    is told apart from every other. -/
theorem sharedCodeHash_eq_iff {ms ns : List Bytes} {S : Set Bytes} (hS : Set.InjOn sha256 S)
    (hm : ∀ m ∈ ms, m ∈ S) (hn : ∀ m ∈ ns, m ∈ S) (hm' : ascii (unitHashes ms).flatten ∈ S)
    (hn' : ascii (unitHashes ns).flatten ∈ S) : sharedCodeHash ms = sharedCodeHash ns ↔ ms.Perm ns := by
  have hlen : ∀ b, hexdigest b ≠ [] := fun b hb => by
    have := length_hexdigest b; rw [hb] at this; cases this
  constructor
  · intro h
    have hunits : unitHashes ms = unitHashes ns := by
      unfold sharedCodeHash at h
      split_ifs at h with hms hns hns
      · rw [hms, hns]
      · exact absurd h.symm (hlen _)
      · exact absurd h (hlen _)
      · exact flatten_inj_of_length (by decide : 0 < 64) (fun u hu => (mem_unitHashes hu).1)
          (fun u hu => (mem_unitHashes hu).1)
          (ascii_inj (isAscii_unitHashes ms) (isAscii_unitHashes ns) (hexdigest_inj hS hm' hn' h))
    refine perm_of_map_perm (fun x hx y hy hxy => ?_) (unitHashes_eq_iff.1 hunits)
    have hmem : ∀ z, z ∈ ms ++ ns → z ∈ S := fun z hz =>
      (List.mem_append.1 hz).elim (hm z) (hn z)
    exact hexdigest_inj hS (hmem x hx) (hmem y hy) hxy
  · intro h
    rw [sharedCodeHash, sharedCodeHash, unitHashes_eq_iff.2 (h.map _)]

/-- The order of the members does not matter, to the hashes and to what is
    hashed. -/
theorem partsOf_perm {ms ns : List Bytes} (h : ms.Perm ns) (e : Entry) (b : Bytes) :
    partsOf e b ms = partsOf e b ns ∧ (hashInputs e b ms).Perm (hashInputs e b ns) := by
  have hunits : unitHashes ms = unitHashes ns := unitHashes_eq_iff.2 (h.map _)
  simp only [partsOf, hashInputs, sharedCodeHash, hunits, true_and]
  exact ((h.cons _).cons _).cons _ |>.cons _

theorem isAscii_sharedCodeHash (ms : List Bytes) : IsAscii (sharedCodeHash ms) := by
  unfold sharedCodeHash
  split_ifs
  · intro c hc; cases hc
  · exact isAscii_hexdigest _

/-- The fields of a fold can be read back: the outer two have one length. -/
theorem foldText_inj {s s' sh sh' c c' : Str} (hs : s.length = s'.length)
    (hc : c.length = c'.length) (h : foldText s sh c = foldText s' sh' c') :
    s = s' ∧ sh = sh' ∧ c = c' := by
  obtain ⟨rfl, ht⟩ := List.append_inj h hs
  obtain ⟨rfl, hcc⟩ := List.append_inj' (List.cons.inj ht).2 (by simp [hc])
  exact ⟨rfl, rfl, (List.cons.inj hcc).2⟩

theorem isAscii_foldText {s sh c : Str} (hs : IsAscii s) (hsh : IsAscii sh) (hc : IsAscii c) :
    IsAscii (foldText s sh c) := by
  have hbar : (ch '|').val < 0x80 := by decide
  simp only [foldText, isAscii_append, isAscii_cons, hs, hsh, hc, hbar, and_self]

/-- **The kernel of `content_hash`**: the script, the members as a multiset, and
    the canonical text of the entry. -/
theorem contentHash_eq_iff {e e' : Entry} {b b' : Bytes} {ms ms' : List Bytes}
    (hS : Set.InjOn sha256 {x | x ∈ hashInputs e b ms ++ hashInputs e' b' ms'}) :
    (partsOf e b ms).contentHash = (partsOf e' b' ms').contentHash ↔
      b = b' ∧ ms.Perm ms' ∧ canonicalText e = canonicalText e' := by
  have hin : ∀ {x}, x ∈ hashInputs e b ms → x ∈ {x | x ∈ hashInputs e b ms ++ hashInputs e' b' ms'} :=
    fun hx => List.mem_append_left _ hx
  have hin' : ∀ {x}, x ∈ hashInputs e' b' ms' →
      x ∈ {x | x ∈ hashInputs e b ms ++ hashInputs e' b' ms'} := fun hx => List.mem_append_right _ hx
  have hshared : sharedCodeHash ms = sharedCodeHash ms' ↔ ms.Perm ms' := sharedCodeHash_eq_iff hS
    (fun m hm => hin (by simp [hashInputs, hm])) (fun m hm => hin' (by simp [hashInputs, hm]))
    (hin (by simp [hashInputs])) (hin' (by simp [hashInputs]))
  constructor
  · intro h
    have hfold := hexdigest_inj hS (hin (by simp [hashInputs])) (hin' (by simp [hashInputs]))
      (List.append_cancel_left h)
    have htext := ascii_inj
      (isAscii_foldText (isAscii_hexdigest b) (isAscii_sharedCodeHash ms) (isAscii_hexdigest _))
      (isAscii_foldText (isAscii_hexdigest b') (isAscii_sharedCodeHash ms') (isAscii_hexdigest _)) hfold
    obtain ⟨hs, hsh, hc⟩ := foldText_inj
      ((length_hexdigest b).trans (length_hexdigest b').symm)
      ((length_hexdigest _).trans (length_hexdigest _).symm) htext
    refine ⟨hexdigest_inj hS (hin (by simp [hashInputs])) (hin' (by simp [hashInputs])) hs,
      hshared.1 hsh, ?_⟩
    exact ascii_inj (isAscii_canonicalText e) (isAscii_canonicalText e')
      (hexdigest_inj hS (hin (by simp [hashInputs])) (hin' (by simp [hashInputs])) hc)
  · rintro ⟨rfl, hperm, hjson⟩
    simp only [partsOf, hshared.2 hperm, configDigest, hjson]

end ContinuoRuntime
