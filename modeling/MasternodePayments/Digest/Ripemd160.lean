import MasternodePayments.Digest.Sha2
import MasternodePayments.Digest.Word

/-!
# RIPEMD-160

Two lines of five passes run over each block of sixteen words, a pass being sixteen steps with one
mixing function, one constant, an order of the words and an amount of rotation for each. The two
results are then added crosswise to the state.

* `ripemd160`: the digest of 20 bytes.
* `hash160`: RIPEMD-160 of the SHA-256 digest, which stands for a public key in payout scripts.
-/

namespace MasternodePayments
namespace Ripemd160

/-- The five words carried from step to step. -/
structure State where
  a : UInt32
  b : UInt32
  c : UInt32
  d : UInt32
  e : UInt32

def State.words (s : State) : List (UInt32) := [s.a, s.b, s.c, s.d, s.e]

def start : State := ⟨0x67452301, 0xefcdab89, 0x98badcfe, 0x10325476, 0xc3d2e1f0⟩

def parity (x y z : UInt32) : UInt32 := x ^^^ y ^^^ z
def choose (x y z : UInt32) : UInt32 := (x &&& y) ||| (~~~x &&& z)
def orNotLast (x y z : UInt32) : UInt32 := (x ||| ~~~y) ^^^ z
def chooseByLast (x y z : UInt32) : UInt32 := (x &&& z) ||| (y &&& ~~~z)
def orNotFirst (x y z : UInt32) : UInt32 := x ^^^ (y ||| ~~~z)

/-- Sixteen steps that share a mixing function and a constant. -/
structure Pass where
  mixing : UInt32 → UInt32 → UInt32 → UInt32
  constant : UInt32
  /-- The word that each step reads. -/
  order : List Nat
  /-- How far each step rotates. -/
  rotation : List UInt32

def leftLine : List Pass := [
  ⟨parity, 0x00000000,
    [0, 1, 2, 3, 4, 5, 6, 7, 8, 9, 10, 11, 12, 13, 14, 15],
    [11, 14, 15, 12, 5, 8, 7, 9, 11, 13, 14, 15, 6, 7, 9, 8]⟩,
  ⟨choose, 0x5a827999,
    [7, 4, 13, 1, 10, 6, 15, 3, 12, 0, 9, 5, 2, 14, 11, 8],
    [7, 6, 8, 13, 11, 9, 7, 15, 7, 12, 15, 9, 11, 7, 13, 12]⟩,
  ⟨orNotLast, 0x6ed9eba1,
    [3, 10, 14, 4, 9, 15, 8, 1, 2, 7, 0, 6, 13, 11, 5, 12],
    [11, 13, 6, 7, 14, 9, 13, 15, 14, 8, 13, 6, 5, 12, 7, 5]⟩,
  ⟨chooseByLast, 0x8f1bbcdc,
    [1, 9, 11, 10, 0, 8, 12, 4, 13, 3, 7, 15, 14, 5, 6, 2],
    [11, 12, 14, 15, 14, 15, 9, 8, 9, 14, 5, 6, 8, 6, 5, 12]⟩,
  ⟨orNotFirst, 0xa953fd4e,
    [4, 0, 5, 9, 7, 12, 2, 10, 14, 1, 3, 8, 11, 6, 15, 13],
    [9, 15, 5, 11, 6, 8, 13, 12, 5, 12, 13, 14, 11, 8, 5, 6]⟩]

def rightLine : List Pass := [
  ⟨orNotFirst, 0x50a28be6,
    [5, 14, 7, 0, 9, 2, 11, 4, 13, 6, 15, 8, 1, 10, 3, 12],
    [8, 9, 9, 11, 13, 15, 15, 5, 7, 7, 8, 11, 14, 14, 12, 6]⟩,
  ⟨chooseByLast, 0x5c4dd124,
    [6, 11, 3, 7, 0, 13, 5, 10, 14, 15, 8, 12, 4, 9, 1, 2],
    [9, 13, 15, 7, 12, 8, 9, 11, 7, 7, 12, 7, 6, 15, 13, 11]⟩,
  ⟨orNotLast, 0x6d703ef3,
    [15, 5, 1, 3, 7, 14, 6, 9, 11, 8, 12, 2, 10, 0, 4, 13],
    [9, 7, 15, 11, 8, 6, 6, 14, 12, 13, 5, 14, 13, 13, 7, 5]⟩,
  ⟨choose, 0x7a6d76e9,
    [8, 6, 4, 1, 3, 11, 15, 0, 5, 12, 2, 13, 9, 7, 10, 14],
    [15, 5, 8, 11, 14, 14, 6, 14, 6, 9, 12, 9, 12, 5, 15, 8]⟩,
  ⟨parity, 0x00000000,
    [12, 15, 10, 4, 1, 5, 8, 7, 6, 2, 13, 14, 0, 3, 9, 11],
    [8, 5, 12, 9, 12, 5, 14, 6, 8, 13, 6, 5, 15, 13, 11, 11]⟩]

/-- One step of a pass: the word it reads and how far it rotates. -/
def step (p : Pass) (words : List (UInt32)) (s : State) (choice : Nat × UInt32) : State :=
  let t := rotateLeft (s.a + p.mixing s.b s.c s.d + words.getD choice.1 0 + p.constant) choice.2
  ⟨s.e, t + s.e, s.b, rotateLeft s.c 10, s.d⟩

def runLine (line : List Pass) (words : List (UInt32)) (s : State) : State :=
  line.foldl (fun s p => (p.order.zip p.rotation).foldl (step p words) s) s

def absorb (s : State) (block : Bytes) : State :=
  let words := blockWords block
  let l := runLine leftLine words s
  let r := runLine rightLine words s
  ⟨s.b + l.c + r.d, s.c + l.d + r.e, s.d + l.e + r.a, s.e + l.a + r.b, s.a + l.b + r.c⟩

/-- The message, a single one bit, zeros and the bit length, filling whole blocks. -/
def pad (message : Bytes) : Bytes :=
  let filled := message.length + 9
  message ++ 0x80 :: List.replicate ((64 - filled % 64) % 64) 0 ++
    littleEndian 8 (8 * message.length)

def absorbAll (message : Bytes) : State :=
  let padded := pad message
  (chunks 64 (padded.length / 64) padded).foldl absorb start

end Ripemd160

def ripemd160 (message : Bytes) : KeyHash :=
  ⟨(Ripemd160.absorbAll message).words.flatMap fun x => littleEndian 4 x.toNat, by
    simp [Ripemd160.State.words]⟩

/-- RIPEMD-160 of the SHA-256 digest. -/
def hash160 (message : Bytes) : KeyHash := ripemd160 (sha256 message).bytes

end MasternodePayments
