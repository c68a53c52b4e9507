/-
  SHA-256 (FIPS 180-4), the `hashlib.sha256` of the change detector.

  Words are natural numbers below `2^32`.  `sha256` is the digest of a byte
  string and `hexdigest` its 64 hexadecimal digits.  No function into 32 bytes
  is injective on all byte strings, so "no collision" is always said of the
  finitely many strings at hand: `Set.InjOn sha256 S`.
-/
import ContinuoRuntime.Python.Str

namespace ContinuoRuntime

namespace Sha256

/-- The modulus of 32-bit words. -/
def w32 : ℕ := 4294967296

def rotr (n x : ℕ) : ℕ := (x >>> n) ||| ((x <<< (32 - n)) % w32)

def σ₀ (x : ℕ) : ℕ := rotr 7 x ^^^ rotr 18 x ^^^ (x >>> 3)

def σ₁ (x : ℕ) : ℕ := rotr 17 x ^^^ rotr 19 x ^^^ (x >>> 10)

def bigσ₀ (x : ℕ) : ℕ := rotr 2 x ^^^ rotr 13 x ^^^ rotr 22 x

def bigσ₁ (x : ℕ) : ℕ := rotr 6 x ^^^ rotr 11 x ^^^ rotr 25 x

def choose (x y z : ℕ) : ℕ := (x &&& y) ^^^ ((4294967295 ^^^ x) &&& z)

def majority (x y z : ℕ) : ℕ := (x &&& y) ^^^ (x &&& z) ^^^ (y &&& z)

/-- The round constants. -/
def K : List ℕ :=
  [0x428a2f98, 0x71374491, 0xb5c0fbcf, 0xe9b5dba5, 0x3956c25b, 0x59f111f1, 0x923f82a4, 0xab1c5ed5,
   0xd807aa98, 0x12835b01, 0x243185be, 0x550c7dc3, 0x72be5d74, 0x80deb1fe, 0x9bdc06a7, 0xc19bf174,
   0xe49b69c1, 0xefbe4786, 0x0fc19dc6, 0x240ca1cc, 0x2de92c6f, 0x4a7484aa, 0x5cb0a9dc, 0x76f988da,
   0x983e5152, 0xa831c66d, 0xb00327c8, 0xbf597fc7, 0xc6e00bf3, 0xd5a79147, 0x06ca6351, 0x14292967,
   0x27b70a85, 0x2e1b2138, 0x4d2c6dfc, 0x53380d13, 0x650a7354, 0x766a0abb, 0x81c2c92e, 0x92722c85,
   0xa2bfe8a1, 0xa81a664b, 0xc24b8b70, 0xc76c51a3, 0xd192e819, 0xd6990624, 0xf40e3585, 0x106aa070,
   0x19a4c116, 0x1e376c08, 0x2748774c, 0x34b0bcb5, 0x391c0cb3, 0x4ed8aa4a, 0x5b9cca4f, 0x682e6ff3,
   0x748f82ee, 0x78a5636f, 0x84c87814, 0x8cc70208, 0x90befffa, 0xa4506ceb, 0xbef9a3f7, 0xc67178f2]

/-- The eight working variables, and the eight words of the hash value. -/
structure State where
  (a b c d e f g h : ℕ)

/-- The initial hash value. -/
def H₀ : State :=
  ⟨0x6a09e667, 0xbb67ae85, 0x3c6ef372, 0xa54ff53a, 0x510e527f, 0x9b05688c, 0x1f83d9ab, 0x5be0cd19⟩

/-- The next word of the message schedule, from the sixteen before it. -/
def nextWord : List ℕ → ℕ
  | [w₀, w₁, _, _, _, _, _, _, _, w₉, _, _, _, _, w₁₄, _] => (σ₁ w₁₄ + w₉ + σ₀ w₁ + w₀) % w32
  | _ => 0

/-- One round, with its constant and schedule word. -/
def round (s : State) (k w : ℕ) : State :=
  let t₁ := s.h + bigσ₁ s.e + choose s.e s.f s.g + k + w
  let t₂ := bigσ₀ s.a + majority s.a s.b s.c
  ⟨(t₁ + t₂) % w32, s.a, s.b, s.c, (s.d + t₁) % w32, s.e, s.f, s.g⟩

/-- The rounds over a sliding window of sixteen schedule words. -/
def rounds : List ℕ → List ℕ → State → State
  | k :: ks, w :: ws, s => rounds ks (ws ++ [nextWord (w :: ws)]) (round s k w)
  | _, _, s => s

/-- The compression function on one block of sixteen words. -/
def compress (s : State) (block : List ℕ) : State :=
  let r := rounds K block s
  ⟨(s.a + r.a) % w32, (s.b + r.b) % w32, (s.c + r.c) % w32, (s.d + r.d) % w32,
   (s.e + r.e) % w32, (s.f + r.f) % w32, (s.g + r.g) % w32, (s.h + r.h) % w32⟩

/-- Big-endian words of a byte string. -/
def words : List ℕ → List ℕ
  | a :: b :: c :: d :: bs => (((a * 256 + b) * 256 + c) * 256 + d) :: words bs
  | _ => []

/-- The big-endian bytes of a number, `n` of them. -/
def bytesOf (n x : ℕ) : List ℕ := (List.range n).reverse.map fun i => x / 256 ^ i % 256

/-- Padding: a one bit, zeros, and the length in bits. -/
def pad (m : List ℕ) : List ℕ :=
  m ++ [128] ++ List.replicate ((119 - m.length % 64) % 64) 0 ++ bytesOf 8 (8 * m.length)

def blocks : ℕ → List ℕ → State → State
  | 0, _, s => s
  | n + 1, ws, s => blocks n (ws.drop 16) (compress s (ws.take 16))

/-- The eight words of the digest. -/
def digest (m : List ℕ) : State :=
  let ws := words (pad m)
  blocks (ws.length / 16) ws H₀

end Sha256

open Sha256

/-- `hashlib.sha256(m).digest()`. -/
def sha256 (m : Bytes) : Bytes :=
  let s := digest (m.map UInt8.toNat)
  ([s.a, s.b, s.c, s.d, s.e, s.f, s.g, s.h].flatMap (bytesOf 4)).map UInt8.ofNat

/-- `hashlib.sha256(m).hexdigest()`. -/
def hexdigest (m : Bytes) : Str := hex (sha256 m)

@[simp] theorem length_sha256 (m : Bytes) : (sha256 m).length = 32 := by
  simp [sha256, bytesOf]

@[simp] theorem length_hexdigest (m : Bytes) : (hexdigest m).length = 64 := by
  rw [hexdigest, length_hex, length_sha256]

theorem isAscii_hexdigest (m : Bytes) : IsAscii (hexdigest m) := isAscii_hex _

theorem hexdigest_inj {S : Set Bytes} (hS : Set.InjOn sha256 S) {x y : Bytes} (hx : x ∈ S)
    (hy : y ∈ S) (h : hexdigest x = hexdigest y) : x = y :=
  hS hx hy (hex_inj h)

/-- SHA-256 is injective on a list whose digests differ in their first bytes. -/
theorem sha256_injOn_of_heads {xs : List Bytes} (h : (xs.map fun x => (sha256 x).head?).Nodup) :
    Set.InjOn sha256 {x | x ∈ xs} := fun x hx y hy hxy =>
  List.inj_on_of_nodup_map h hx hy (by rw [hxy])

example : hexdigest (ascii (py "abc")) =
    py "ba7816bf8f01cfea414140de5dae2223b00361a396177a9cb410ff61f20015ad" := by decide +kernel

end ContinuoRuntime
