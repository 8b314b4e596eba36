import MasternodePayments.Digest.Sha2
import MasternodePayments.Digest.Word

/-!
# BLAKE3

A message is cut into chunks of 1024 bytes and each chunk into blocks of 64. The blocks of a chunk
are chained; the chunks are the leaves of a binary tree. A `Node` is the last compression of a
chunk or of a parent, not yet carried out: only when it is known to be the root or not can its
flags be completed.

The tree is built level by level: neighbours are joined in pairs and an odd last node moves up as
it is. `blake3` is the digest of 32 bytes.
-/

namespace MasternodePayments
namespace Blake3

/-- Four words that the mixing step treats alike. -/
structure Row where
  w0 : UInt32
  w1 : UInt32
  w2 : UInt32
  w3 : UInt32

namespace Row

def zipWith (f : UInt32 → UInt32 → UInt32) (r s : Row) : Row :=
  ⟨f r.w0 s.w0, f r.w1 s.w1, f r.w2 s.w2, f r.w3 s.w3⟩

def add (r s : Row) : Row := zipWith (· + ·) r s

def xor (r s : Row) : Row := zipWith (· ^^^ ·) r s

def rotate (r : Row) (amount : UInt32) : Row :=
  ⟨rotateRight r.w0 amount, rotateRight r.w1 amount, rotateRight r.w2 amount,
    rotateRight r.w3 amount⟩

def shift (r : Row) : Row := ⟨r.w1, r.w2, r.w3, r.w0⟩

def words (r : Row) : List (UInt32) := [r.w0, r.w1, r.w2, r.w3]

def pick (m : List (UInt32)) (i j k l : Nat) : Row :=
  ⟨m.getD i 0, m.getD j 0, m.getD k 0, m.getD l 0⟩

end Row

/-- A chaining value: eight words in two rows. -/
structure Chaining where
  low : Row
  high : Row

def Chaining.words (c : Chaining) : List (UInt32) := c.low.words ++ c.high.words

/-- The start value: the first 32 bits that SHA-2 takes of the square roots. -/
def start : Chaining :=
  let s := Sha2.narrow.start
  ⟨⟨.ofBitVec s.a, .ofBitVec s.b, .ofBitVec s.c, .ofBitVec s.d⟩,
    ⟨.ofBitVec s.e, .ofBitVec s.f, .ofBitVec s.g, .ofBitVec s.h⟩⟩

structure State where
  a : Row
  b : Row
  c : Row
  d : Row

namespace State

/-- Mixes the four columns, each with two message words. -/
def mix (s : State) (x y : Row) : State :=
  let a := (s.a.add s.b).add x
  let d := (s.d.xor a).rotate 16
  let c := s.c.add d
  let b := (s.b.xor c).rotate 12
  let a := (a.add b).add y
  let d := (d.xor a).rotate 8
  let c := c.add d
  let b := (b.xor c).rotate 7
  ⟨a, b, c, d⟩

/-- Turns the diagonals into columns. -/
def diagonals (s : State) : State := ⟨s.a, s.b.shift, s.c.shift.shift, s.d.shift.shift.shift⟩

/-- Turns the columns back into diagonals. -/
def columns (s : State) : State := ⟨s.a, s.b.shift.shift.shift, s.c.shift.shift, s.d.shift⟩

/-- One round with sixteen message words: first the columns, then the diagonals. -/
def round (s : State) (m : List (UInt32)) : State :=
  let s := s.mix (Row.pick m 0 2 4 6) (Row.pick m 1 3 5 7)
  (s.diagonals.mix (Row.pick m 8 10 12 14) (Row.pick m 9 11 13 15)).columns

end State

/-- The order in which a round hands the message words to the next. -/
def schedule : List Nat := [2, 6, 3, 10, 7, 0, 4, 13, 1, 11, 12, 5, 9, 14, 15, 8]

/-- The given number of rounds, the message words reordered between them. -/
def rounds : Nat → List (UInt32) → State → State
  | 0, _, s => s
  | n + 1, m, s => rounds n (schedule.map fun i => m.getD i 0) (s.round m)

/-- Marks of a compression: first or last block of a chunk, parent, root. -/
def chunkStart : Nat := 1
def chunkEnd : Nat := 2
def parentMark : Nat := 4
def rootMark : Nat := 8

/-- A compression not yet carried out. -/
structure Node where
  chaining : Chaining
  block : List (UInt32)
  counter : Nat
  length : Nat
  marks : Nat

def Node.compress (n : Node) (marks : Nat) : Chaining :=
  let last : Row :=
    ⟨UInt32.ofNat n.counter, UInt32.ofNat (n.counter >>> 32), UInt32.ofNat n.length,
      UInt32.ofNat (n.marks + marks)⟩
  let s := rounds 7 n.block ⟨n.chaining.low, n.chaining.high, start.low, last⟩
  ⟨s.a.xor s.c, s.b.xor s.d⟩

/-- The last node of a chunk, from the blocks that are still to come. -/
def chainBlocks (counter : Nat) : Chaining → Nat → List Bytes → Node
  | c, marks, [] => ⟨c, blockWords [], counter, 0, marks + chunkEnd⟩
  | c, marks, [b] => ⟨c, blockWords b, counter, b.length, marks + chunkEnd⟩
  | c, marks, b :: bs =>
    let node : Node := ⟨c, blockWords b, counter, b.length, marks⟩
    chainBlocks counter (node.compress 0) 0 bs

/-- The node of the chunk with the given number. -/
def leaf (counter : Nat) (chunk : Bytes) : Node :=
  chainBlocks counter start chunkStart (chunks 64 ((chunk.length + 63) / 64) chunk)

def parent (left right : Node) : Node :=
  ⟨start, (left.compress 0).words ++ (right.compress 0).words, 0, 64, parentMark⟩

/-- Joins neighbours in pairs; an odd last node stays as it is. -/
def joinPairs : List Node → List Node
  | left :: right :: rest => parent left right :: joinPairs rest
  | rest => rest

def leaves (message : Bytes) : List Node :=
  (chunks 1024 ((message.length + 1023) / 1024 - 1 + 1) message).mapIdx leaf

/-- The words of the root's compression. -/
def digestWords (message : Bytes) : List (UInt32) :=
  let nodes := leaves message
  match Nat.repeat joinPairs nodes.length nodes with
  | root :: _ => (root.compress rootMark).words
  | [] => start.words

theorem length_digestWords (message : Bytes) : (digestWords message).length = 8 := by
  simp only [digestWords]
  split <;> rfl

end Blake3

def blake3 (message : Bytes) : Hash :=
  ⟨(Blake3.digestWords message).flatMap fun x => littleEndian 4 x.toNat, by
    rw [length_flatMap_of_forall (fun _ => length_littleEndian ..), Blake3.length_digestWords]⟩

end MasternodePayments
