import MasternodePayments.Bytes.LittleEndian

/-!
# The SHA-2 family

Both members work on eight words of `w` bits, `w` being 32 or 64, and differ only in rotation
amounts and in the number of rounds. Their constants are the first `w` bits of the fractional
parts of roots of the first primes: square roots for the start value, cube roots for the rounds.

* `sha256`, `sha512`: the two digests.
* `doubleSha256`: SHA-256 of the SHA-256 digest, the checksum of snapshot files.
-/

namespace MasternodePayments
namespace Sha2

/-- The eight words carried from round to round. -/
structure State (w : Nat) where
  a : BitVec w
  b : BitVec w
  c : BitVec w
  d : BitVec w
  e : BitVec w
  f : BitVec w
  g : BitVec w
  h : BitVec w

def State.add {w : Nat} (s t : State w) : State w :=
  ⟨s.a + t.a, s.b + t.b, s.c + t.c, s.d + t.d, s.e + t.e, s.f + t.f, s.g + t.g, s.h + t.h⟩

def State.words {w : Nat} (s : State w) : List (BitVec w) :=
  [s.a, s.b, s.c, s.d, s.e, s.f, s.g, s.h]

/-- The first 64 bits of the fractional parts of the cube roots of the first 80 primes. -/
def cubeRootBits : List (BitVec 64) := [
  0x428a2f98d728ae22, 0x7137449123ef65cd, 0xb5c0fbcfec4d3b2f,
  0xe9b5dba58189dbbc, 0x3956c25bf348b538, 0x59f111f1b605d019,
  0x923f82a4af194f9b, 0xab1c5ed5da6d8118, 0xd807aa98a3030242,
  0x12835b0145706fbe, 0x243185be4ee4b28c, 0x550c7dc3d5ffb4e2,
  0x72be5d74f27b896f, 0x80deb1fe3b1696b1, 0x9bdc06a725c71235,
  0xc19bf174cf692694, 0xe49b69c19ef14ad2, 0xefbe4786384f25e3,
  0x0fc19dc68b8cd5b5, 0x240ca1cc77ac9c65, 0x2de92c6f592b0275,
  0x4a7484aa6ea6e483, 0x5cb0a9dcbd41fbd4, 0x76f988da831153b5,
  0x983e5152ee66dfab, 0xa831c66d2db43210, 0xb00327c898fb213f,
  0xbf597fc7beef0ee4, 0xc6e00bf33da88fc2, 0xd5a79147930aa725,
  0x06ca6351e003826f, 0x142929670a0e6e70, 0x27b70a8546d22ffc,
  0x2e1b21385c26c926, 0x4d2c6dfc5ac42aed, 0x53380d139d95b3df,
  0x650a73548baf63de, 0x766a0abb3c77b2a8, 0x81c2c92e47edaee6,
  0x92722c851482353b, 0xa2bfe8a14cf10364, 0xa81a664bbc423001,
  0xc24b8b70d0f89791, 0xc76c51a30654be30, 0xd192e819d6ef5218,
  0xd69906245565a910, 0xf40e35855771202a, 0x106aa07032bbd1b8,
  0x19a4c116b8d2d0c8, 0x1e376c085141ab53, 0x2748774cdf8eeb99,
  0x34b0bcb5e19b48a8, 0x391c0cb3c5c95a63, 0x4ed8aa4ae3418acb,
  0x5b9cca4f7763e373, 0x682e6ff3d6b2b8a3, 0x748f82ee5defb2fc,
  0x78a5636f43172f60, 0x84c87814a1f0ab72, 0x8cc702081a6439ec,
  0x90befffa23631e28, 0xa4506cebde82bde9, 0xbef9a3f7b2c67915,
  0xc67178f2e372532b, 0xca273eceea26619c, 0xd186b8c721c0c207,
  0xeada7dd6cde0eb1e, 0xf57d4f7fee6ed178, 0x06f067aa72176fba,
  0x0a637dc5a2c898a6, 0x113f9804bef90dae, 0x1b710b35131c471b,
  0x28db77f523047d84, 0x32caab7b40c72493, 0x3c9ebe0a15c9bebc,
  0x431d67c49c100d4c, 0x4cc5d4becb3e42b6, 0x597f299cfc657e2a,
  0x5fcb6fab3ad6faec, 0x6c44198c4a475817]

/-- The first 64 bits of the fractional parts of the square roots of the first 8 primes. -/
def squareRootBits : State 64 :=
  ⟨0x6a09e667f3bcc908, 0xbb67ae8584caa73b, 0x3c6ef372fe94f82b, 0xa54ff53a5f1d36f1,
   0x510e527fade682d1, 0x9b05688c2b3e6c1f, 0x1f83d9abfb41bd6b, 0x5be0cd19137e2179⟩

/-- What tells the members of the family apart. -/
structure Variant (w : Nat) where
  /-- Rotations of the two round mixers. -/
  upper0 : Nat × Nat × Nat
  upper1 : Nat × Nat × Nat
  /-- Two rotations and a shift of the two schedule mixers. -/
  lower0 : Nat × Nat × Nat
  lower1 : Nat × Nat × Nat
  constants : List (BitVec w)
  start : State w

variable {w : Nat}

def rotations (amounts : Nat × Nat × Nat) (x : BitVec w) : BitVec w :=
  x.rotateRight amounts.1 ^^^ x.rotateRight amounts.2.1 ^^^ x.rotateRight amounts.2.2

def rotationsAndShift (amounts : Nat × Nat × Nat) (x : BitVec w) : BitVec w :=
  x.rotateRight amounts.1 ^^^ x.rotateRight amounts.2.1 ^^^ x >>> amounts.2.2

/-- Each bit of `x` chooses between the bits of `y` and `z`. -/
def choose (x y z : BitVec w) : BitVec w := (x &&& y) ^^^ (~~~x &&& z)

/-- Each bit is the majority of the three. -/
def majority (x y z : BitVec w) : BitVec w := (x &&& y) ^^^ (x &&& z) ^^^ (y &&& z)

namespace Variant

/-- One round with its constant and its schedule word. -/
def round (v : Variant w) (s : State w) (constant word : BitVec w) : State w :=
  let t := s.h + rotations v.upper1 s.e + choose s.e s.f s.g + constant + word
  let u := rotations v.upper0 s.a + majority s.a s.b s.c
  ⟨t + u, s.a, s.b, s.c, s.d + t, s.e, s.f, s.g⟩

/-- The schedule word that follows sixteen others. -/
def nextWord (v : Variant w) (window : List (BitVec w)) : BitVec w :=
  rotationsAndShift v.lower1 (window.getD 14 0) + window.getD 9 0 +
    rotationsAndShift v.lower0 (window.getD 1 0) + window.getD 0 0

/-- One round for each constant; `window` holds the next sixteen schedule words. -/
def rounds (v : Variant w) : List (BitVec w) → List (BitVec w) → State w → State w
  | [], _, s => s
  | k :: ks, window, s =>
    v.rounds ks (window.drop 1 ++ [v.nextWord window]) (v.round s k (window.getD 0 0))

/-- The state after one more block of sixteen words. -/
def absorb (v : Variant w) (s : State w) (block : Bytes) : State w :=
  let words := (chunks (w / 8) 16 block).map fun b => BitVec.ofNat w (ofBigEndian b)
  s.add (v.rounds v.constants words s)

end Variant

/-- The message, a single one bit, zeros and the bit length, filling whole blocks. -/
def pad (w : Nat) (message : Bytes) : Bytes :=
  let filled := message.length + 1 + w / 4
  message ++ 0x80 :: List.replicate ((2 * w - filled % (2 * w)) % (2 * w)) 0 ++
    bigEndian (w / 4) (8 * message.length)

def Variant.digest (v : Variant w) (message : Bytes) : Bytes :=
  let padded := pad w message
  let final := (chunks (2 * w) (padded.length / (2 * w)) padded).foldl v.absorb v.start
  final.words.flatMap fun x => bigEndian (w / 8) x.toNat

theorem Variant.length_digest (v : Variant w) (message : Bytes) :
    (v.digest message).length = 8 * (w / 8) := by
  rw [Variant.digest, length_flatMap_of_forall (fun _ => length_bigEndian ..)]
  simp only [State.words, List.length_cons, List.length_nil]
  omega

/-- The member with 64-bit words and 80 rounds. -/
def wide : Variant 64 where
  upper0 := (28, 34, 39)
  upper1 := (14, 18, 41)
  lower0 := (1, 8, 7)
  lower1 := (19, 61, 6)
  constants := cubeRootBits
  start := squareRootBits

def highHalf (x : BitVec 64) : BitVec 32 := BitVec.ofNat 32 (x.toNat >>> 32)

/-- The member with 32-bit words and 64 rounds. -/
def narrow : Variant 32 where
  upper0 := (2, 13, 22)
  upper1 := (6, 11, 25)
  lower0 := (7, 18, 3)
  lower1 := (17, 19, 10)
  constants := (cubeRootBits.take 64).map highHalf
  start :=
    let s := squareRootBits
    ⟨highHalf s.a, highHalf s.b, highHalf s.c, highHalf s.d,
     highHalf s.e, highHalf s.f, highHalf s.g, highHalf s.h⟩

end Sha2

def sha256 (message : Bytes) : Hash :=
  ⟨Sha2.narrow.digest message, Sha2.narrow.length_digest message⟩

def sha512 (message : Bytes) : FixedBytes 64 :=
  ⟨Sha2.wide.digest message, Sha2.wide.length_digest message⟩

def doubleSha256 (message : Bytes) : Hash := sha256 (sha256 message).bytes

end MasternodePayments
