import MasternodePayments.Ed25519.Field

/-!
# Points of the curve of Ed25519

The curve is `-x² + y² = 1 + d x² y²`. A point is kept as four field elements with `x = X / Z`,
`y = Y / Z` and `X Y = Z T`, for which one addition formula covers every pair of points.

An encoding is `y` in 32 bytes, least first, with the parity of `x` in the topmost bit. Reading is
liberal: `y` is taken modulo the prime, and `x = 0` may carry either parity.
-/

namespace MasternodePayments.Ed25519

structure Point where
  x : Element
  y : Element
  z : Element
  t : Element

def coefficient : Element :=
  37095705934669439343138083508754565189542113879843219016388785533085940283555

def order : Nat := 1 <<< 252 + 27742317777372353535851937790883648493

namespace Point

def zero : Point := ⟨0, 1, 1, 0⟩

/-- The point that all keys and signatures are multiples of. -/
def base : Point :=
  let x : Element :=
    15112221349535400772501151409588531511454012693041857206046113283949847762202
  let y : Element :=
    46316835694926478169428394003475163141307993866256225615783033603165251855960
  ⟨x, y, 1, x * y⟩

def add (p q : Point) : Point :=
  let a := (p.y - p.x) * (q.y - q.x)
  let b := (p.y + p.x) * (q.y + q.x)
  let c := 2 * coefficient * p.t * q.t
  let d := 2 * p.z * q.z
  let e := b - a
  let f := d - c
  let g := d + c
  let h := b + a
  ⟨e * f, g * h, f * g, e * h⟩

/-- The point with the opposite `x`. -/
def neg (p : Point) : Point := ⟨-p.x, p.y, p.z, -p.t⟩

/-- The multiple of a point by a number below `2 ^ 256`. -/
def scale (n : Nat) (p : Point) : Point :=
  (bits 256 n).foldl (fun q b => if b then (q.add q).add p else q.add q) zero

/-- The 32 bytes that stand for a point. -/
def encode (p : Point) : FixedBytes 32 :=
  let inverse := p.z.inverse
  let x := p.x * inverse
  let y := p.y * inverse
  ⟨littleEndian 32 (y.val + (x.val % 2) <<< 255), by simp⟩

/-- The point that 32 bytes stand for, if `y` belongs to a point of the curve. -/
def decode? (encoding : FixedBytes 32) : Option Point := do
  let n := ofLittleEndian encoding.bytes
  let y := Fin.ofNat prime (n % 1 <<< 255)
  let x ← Element.rootOfRatio? (y * y - 1) (coefficient * y * y + 1)
  let x := if n.testBit 255 then -x else x
  pure ⟨x, y, 1, x * y⟩

end Point
end MasternodePayments.Ed25519
