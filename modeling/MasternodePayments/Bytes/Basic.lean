import Std.Data.ExtTreeMap
import Std.Data.ExtTreeSet

/-!
# Byte strings

`Bytes` is a byte string of any length and `FixedBytes n` one of exactly `n` bytes. Fixed byte
strings are compared byte by byte from the first on, which makes them keys of ordered maps:
a stored hash comes out of such a map in the order of its bytes.
-/

namespace MasternodePayments

abbrev Bytes := List UInt8

/-- The first `count` pieces of `size` elements. -/
def chunks {α : Type} (size : Nat) : Nat → List α → List (List α)
  | 0, _ => []
  | count + 1, xs => xs.take size :: chunks size count (xs.drop size)

theorem length_flatMap_of_forall {α β : Type} {f : α → List β} {k : Nat}
    (h : ∀ x, (f x).length = k) (xs : List α) : (xs.flatMap f).length = k * xs.length := by
  induction xs with
  | nil => simp
  | cons x xs ih => simp [h, ih, Nat.mul_succ, Nat.add_comm]

structure FixedBytes (n : Nat) where
  bytes : Bytes
  length_bytes : bytes.length = n
deriving DecidableEq

abbrev Hash := FixedBytes 32

/-- The encoding of a public key as it travels. -/
abbrev PublicKey := FixedBytes 32

/-- The 160-bit digest of a public key that a payout script names. -/
abbrev KeyHash := FixedBytes 20

namespace FixedBytes

variable {n : Nat}

@[ext] theorem ext {a b : FixedBytes n} (h : a.bytes = b.bytes) : a = b := by
  cases a; cases b; simp_all

/-- The byte string itself, if it has the right length. -/
def ofBytes? (n : Nat) (b : Bytes) : Option (FixedBytes n) :=
  if h : b.length = n then some ⟨b, h⟩ else none

theorem ofBytes?_eq_some {b : Bytes} {f : FixedBytes n} :
    ofBytes? n b = some f ↔ f.bytes = b := by
  unfold ofBytes?
  split
  · simp [FixedBytes.ext_iff, eq_comm]
  · next h =>
    constructor
    · simp
    · rintro rfl
      exact absurd f.length_bytes h

@[simp] theorem ofBytes?_bytes (f : FixedBytes n) : ofBytes? n f.bytes = some f :=
  ofBytes?_eq_some.2 rfl

def replicate (n : Nat) (b : UInt8) : FixedBytes n := ⟨List.replicate n b, by simp⟩

instance : Inhabited (FixedBytes n) := ⟨replicate n 0⟩

instance : Ord (FixedBytes n) := ⟨compareOn FixedBytes.bytes⟩

instance : Std.TransOrd (FixedBytes n) :=
  inferInstanceAs (Std.TransCmp (compareOn FixedBytes.bytes))

instance : Std.LawfulEqOrd (FixedBytes n) where
  eq_of_compare {a b} h := by
    have h : compare a.bytes b.bytes = .eq := h
    exact ext (Std.LawfulEqOrd.eq_of_compare h)

end FixedBytes

instance : Std.TransOrd Hash := inferInstanceAs (Std.TransOrd (FixedBytes 32))

instance : Std.LawfulEqOrd Hash := inferInstanceAs (Std.LawfulEqOrd (FixedBytes 32))

end MasternodePayments
