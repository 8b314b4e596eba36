import MasternodePayments.Bytes.LittleEndian

/-!
# The field of Ed25519

Elements are numbers modulo the prime `2 ^ 255 - 19`. Powers walk the bits of the exponent from
the most significant on; inverses and square roots are powers.
-/

namespace MasternodePayments.Ed25519

def prime : Nat := 1 <<< 255 - 19

abbrev Element := Fin prime

instance : @NeZero Nat Zero.ofOfNat0 prime := ⟨by decide⟩

/-- The last `count` bits of a number, most significant first. -/
def bits : Nat → Nat → List Bool
  | 0, _ => []
  | count + 1, n => n.testBit count :: bits count n

namespace Element

/-- The power of an element to an exponent below `2 ^ 256`. -/
def power (x : Element) (exponent : Nat) : Element :=
  (bits 256 exponent).foldl (fun r b => if b then r * r * x else r * r) 1

/-- The inverse of an element; zero has itself. -/
def inverse (x : Element) : Element := x.power (prime - 2)

def rootOfMinusOne : Element := power 2 ((prime - 1) / 4)

/-- Of an element and its negation, the even one. -/
def even (x : Element) : Element := if x.val % 2 = 0 then x else -x

/-- The even square root of `u / v`, if there is one; `v` is not zero. -/
def rootOfRatio? (u v : Element) : Option Element :=
  let v3 := v * v * v
  let r := u * v3 * power (u * v3 * v3 * v) ((prime - 5) / 8)
  if v * r * r = u then some (even r)
  else if v * r * r = -u then some (even (r * rootOfMinusOne))
  else none

end Element
end MasternodePayments.Ed25519
