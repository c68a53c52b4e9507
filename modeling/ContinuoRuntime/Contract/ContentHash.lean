/-
  What the `content_hash` of an accepted node tells apart.

  * `RawNode.Serialisable`: `canonical_json` does not raise on the entry of the node;
  * `node_contentHash_exact_iff`: two accepted nodes have equal content hashes
    exactly if scripts, members and declared fields agree, but for nodes that cannot
    be serialised, and for nodes whose strings differ only in that a character of
    one is spelled as two surrogates in the other.
-/
import ContinuoRuntime.Contract.ConfigGraph
import ContinuoRuntime.Contract.Declared

namespace ContinuoRuntime

/-! ## Serialisation -/

namespace RawNode

/-- The frames that `deepcopy` of the node's entry takes for its config. -/
def copied (r : RawNode) : ℕ := copyFrames r.heap r.config

/-- The config can be copied and written. -/
structure Serialisable (S : Stack) (r : RawNode) : Prop where
  copies : r.copied ≤ S.frames
  encodes : Encodable r.heap S.nesting 1 r.config

end RawNode

section
variable {L : Lang} {P : SqlParser} {S : Stack} {r : RawNode} {checkReads : Bool} {source : Str} {node : Node}

/-- The config of an accepted node has been accepted. -/
theorem config_parseNode (hn : parseNode L P r.heap checkReads r.value source = .ok node) :
    ∃ label, validateConfig L r.heap r.config label = .ok node.config := by
  obtain ⟨raw, hraw⟩ := parseNode_eq_ok L P r.heap hn
  have hconfig : r.config = getNone raw (py "config") := by
    unfold RawNode.config
    rw [hraw.mapping]
  rw [hconfig]
  exact ⟨_, hraw.config⟩

/-- An accepted node is serialised exactly if its config can be copied and written. -/
theorem serialises_parseNode (hn : parseNode L P r.heap checkReads r.value source = .ok node) :
    Serialises S r.copied (nodeEntry node) ↔ r.Serialisable S := by
  obtain ⟨label, hconfig⟩ := config_parseNode hn
  unfold RawNode.copied
  rw [serialises_nodeEntry hconfig]
  exact ⟨fun hfit => ⟨hfit.1, hfit.2⟩, fun hser => ⟨hser.copies, hser.encodes⟩⟩

/-- **The config of an accepted node** is copied in four frames, and two for each that
    accepting it may take. -/
theorem copied_parseNode_le (hn : parseNode L P r.heap checkReads r.value source = .ok node) :
    r.copied ≤ 2 * L.depth + 4 := by
  obtain ⟨label, hconfig⟩ := config_parseNode hn
  exact copyFrames_le (accepts_iff_isConfig.1 ⟨_, hconfig⟩).2

/-- **The hashes of an accepted node**. -/
theorem hashParts_parseNode (hn : parseNode L P r.heap checkReads r.value source = .ok node) {b : Bytes}
    {ms : List Bytes} {parts : HashParts} : hashParts S r.copied (nodeEntry node) b ms = .ok parts ↔
      r.Serialisable S ∧ parts = partsOf (nodeEntry node) b ms := by
  rw [hashParts_eq_ok, serialises_parseNode hn]

end

/-! ## The kernel of the content hash -/

/-- **The content hash of accepted nodes** compares scripts, members and declared
    fields exactly if the nodes can be serialised where these agree, and are not
    serialisable surrogate twins. -/
theorem node_contentHash_exact_iff (L : Lang) (P P' : SqlParser) (S S' : Stack) (r r' : RawNode)
    (checkReads checkReads' : Bool) (source source' : Str) (n m : Node)
    (hn : parseNode L P r.heap checkReads r.value source = .ok n)
    (hm : parseNode L P' r'.heap checkReads' r'.value source' = .ok m) (b b' : Bytes) (ms ms' : List Bytes)
    (hinj : Set.InjOn sha256 {x | x ∈ hashInputs (nodeEntry n) b ms ++ hashInputs (nodeEntry m) b' ms'}) :
    ((∃ parts parts', hashParts S r.copied (nodeEntry n) b ms = .ok parts ∧
          hashParts S' r'.copied (nodeEntry m) b' ms' = .ok parts' ∧ parts.contentHash = parts'.contentHash) ↔
        b = b' ∧ ms.Perm ms' ∧ SameDeclared n m) ↔
      (b = b' → ms.Perm ms' →
        (SameDeclared n m → r.Serialisable S ∧ r'.Serialisable S') ∧
        ¬ (SurrogateTwins n m ∧ r.Serialisable S ∧ r'.Serialisable S')) := by
  have hhash : (∃ parts parts', hashParts S r.copied (nodeEntry n) b ms = .ok parts ∧
      hashParts S' r'.copied (nodeEntry m) b' ms' = .ok parts' ∧ parts.contentHash = parts'.contentHash) ↔
      (r.Serialisable S ∧ r'.Serialisable S') ∧ b = b' ∧ ms.Perm ms' ∧ SameFields utf16 n m := by
    rw [← canonicalText_eq_iff, ← contentHash_eq_iff hinj]
    constructor
    · rintro ⟨parts, parts', hparts, hparts', heq⟩
      obtain ⟨hser, rfl⟩ := (hashParts_parseNode hn).1 hparts
      obtain ⟨hser', rfl⟩ := (hashParts_parseNode hm).1 hparts'
      exact ⟨⟨hser, hser'⟩, heq⟩
    · rintro ⟨⟨hser, hser'⟩, heq⟩
      exact ⟨_, _, (hashParts_parseNode hn).2 ⟨hser, rfl⟩, (hashParts_parseNode hm).2 ⟨hser', rfl⟩, heq⟩
  have himp : SameDeclared n m → SameFields utf16 n m := fun h =>
    ((sameFields_id_iff n m).2 h).rename utf16
  rw [hhash]
  unfold SurrogateTwins
  tauto

/-! ## Surrogate twins -/

/-- U+1F600, and the two surrogates that `json.dumps` writes for it. -/
def emoji : Str := [0x1F600]
def emojiSurrogates : Str := [0xD83D, 0xDE00]

/-- The raw node of `apiNode`. -/
def apiNodeRaw (description : Str) : RawNode := ⟨apiHeap description, .ref ⟨0, Nat.succ_pos 2⟩⟩

theorem apiNodeRaw_serialisable (S : Stack) (description : Str) : (apiNodeRaw description).Serialisable S where
  copies := by
    have hcopied : (apiNodeRaw description).copied = 3 := rfl
    have hentry := S.frames_entry
    omega
  encodes := encodable_scalar nofun nofun

theorem canonicalText_twins : canonicalText (nodeEntry (apiNode emojiSurrogates)) =
    canonicalText (nodeEntry (apiNode emoji)) := by decide +kernel

theorem sha256_injOn_twins : Set.InjOn sha256 {x | x ∈ hashInputs (nodeEntry (apiNode emoji)) [] [] ++
    hashInputs (nodeEntry (apiNode emojiSurrogates)) [] []} := by
  have hsame : hashInputs (nodeEntry (apiNode emojiSurrogates)) [] [] =
      hashInputs (nodeEntry (apiNode emoji)) [] [] := by
    simp only [hashInputs, configDigest, canonicalText_twins]
  -- the empty script is hashed a second time as the empty list of members
  have hheads : ((hashInputs (nodeEntry (apiNode emoji)) [] []).tail.map fun x =>
      (sha256 x).head?) = [some 251, some 227, some 180] := by decide +kernel
  have hnodup : ((hashInputs (nodeEntry (apiNode emoji)) [] []).tail.map fun x =>
      (sha256 x).head?).Nodup := by rw [hheads]; decide
  refine (sha256_injOn_of_heads hnodup).mono fun x hx => ?_
  rw [Set.mem_ofPred_eq, hsame, List.mem_append, or_self] at hx
  rcases List.mem_cons.1 hx with rfl | hx
  · exact List.mem_cons_of_mem _ List.mem_cons_self
  · exact hx

theorem node_contentHash_exact_emoji :
    ((∃ parts parts',
        hashParts smallStack (apiNodeRaw emoji).copied (nodeEntry (apiNode emoji)) [] [] = .ok parts ∧
        hashParts smallStack (apiNodeRaw emojiSurrogates).copied (nodeEntry (apiNode emojiSurrogates)) [] [] =
          .ok parts' ∧ parts.contentHash = parts'.contentHash) ↔
      ([] : Bytes) = [] ∧ ([] : List Bytes).Perm [] ∧
        SameDeclared (apiNode emoji) (apiNode emojiSurrogates)) ↔
    (([] : Bytes) = [] → ([] : List Bytes).Perm [] →
      (SameDeclared (apiNode emoji) (apiNode emojiSurrogates) →
        (apiNodeRaw emoji).Serialisable smallStack ∧ (apiNodeRaw emojiSurrogates).Serialisable smallStack) ∧
      ¬ (SurrogateTwins (apiNode emoji) (apiNode emojiSurrogates) ∧
        (apiNodeRaw emoji).Serialisable smallStack ∧ (apiNodeRaw emojiSurrogates).Serialisable smallStack)) :=
  node_contentHash_exact_iff plainLang emptySql emptySql smallStack smallStack (apiNodeRaw emoji)
    (apiNodeRaw emojiSurrogates) true true (py "f.yml") (py "f.yml") _ _ (parseNode_apiHeap _ _ _)
    (parseNode_apiHeap _ _ _) [] [] [] [] sha256_injOn_twins

/-- Two descriptions that YAML and `parse_node` tell apart, and the content hash
    does not. -/
theorem contentHash_merges_surrogates : ∃ (r r' : RawNode) (n m : Node),
    (∀ L P, parseNode L P r.heap true r.value (py "f.yml") = .ok n) ∧
    (∀ L P, parseNode L P r'.heap true r'.value (py "f.yml") = .ok m) ∧
    Set.InjOn sha256 {x | x ∈ hashInputs (nodeEntry n) [] [] ++ hashInputs (nodeEntry m) [] []} ∧
    (∀ S, ∃ parts parts', hashParts S r.copied (nodeEntry n) [] [] = .ok parts ∧
      hashParts S r'.copied (nodeEntry m) [] [] = .ok parts' ∧ parts.contentHash = parts'.contentHash) ∧
    ¬ SameDeclared n m := by
  refine ⟨apiNodeRaw emoji, apiNodeRaw emojiSurrogates, apiNode emoji, apiNode emojiSurrogates,
    fun L P => parseNode_apiHeap L P _, fun L P => parseNode_apiHeap L P _, sha256_injOn_twins, fun S => ?_,
    fun h => absurd h.description (by decide)⟩
  refine ⟨_, _, (hashParts_parseNode (parseNode_apiHeap plainLang emptySql _)).2
      ⟨apiNodeRaw_serialisable S _, rfl⟩,
    (hashParts_parseNode (parseNode_apiHeap plainLang emptySql _)).2 ⟨apiNodeRaw_serialisable S _, rfl⟩, ?_⟩
  simp only [partsOf, configDigest, canonicalText_twins]

end ContinuoRuntime
