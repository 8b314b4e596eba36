import MasternodePayments.Codec.Reader

/-!
# Codecs

A `Codec` writes values as bytes and reads them back. Words have a fixed width and come least byte
first; lengths and counts are 64-bit words in front of what they count; an alternative is a 32-bit
index in front of its value. Everything larger is put together from these.
-/

namespace MasternodePayments

/-- A way to write values as bytes and to read them back. -/
structure Codec (α : Type) where
  write : α → Bytes
  read : Reader α

namespace Codec

variable {α β : Type}

def byte : Codec UInt8 where
  write b := [b]
  read := Reader.byte

def number (k : Nat) : Codec Nat where
  write n := littleEndian k n
  read := do
    let b ← Reader.block k
    return ofLittleEndian b

def word32 : Codec UInt32 where
  write w := (number 4).write w.toNat
  read := do
    let n ← (number 4).read
    return UInt32.ofNat n

def word64 : Codec UInt64 where
  write w := (number 8).write w.toNat
  read := do
    let n ← (number 8).read
    return UInt64.ofNat n

/-- Exactly `n` bytes, one by one. -/
def fixedBytes (n : Nat) : Codec (FixedBytes n) where
  write b := b.bytes
  read := Reader.fixedBytes n

/-- Bytes as one block, their number in front. -/
def blob : Codec Bytes where
  write b := (number 8).write b.length ++ b
  read := do
    let n ← (number 8).read
    Reader.block n

/-- Values one after the other, their number in front. -/
def sequence (c : Codec α) : Codec (List α) where
  write xs := (number 8).write xs.length ++ xs.flatMap c.write
  read := do
    let n ← (number 8).read
    Reader.many c.read n

def pair (c : Codec α) (d : Codec β) : Codec (α × β) where
  write p := c.write p.1 ++ d.write p.2
  read := do
    let a ← c.read
    let b ← d.read
    return (a, b)

def either (c : Codec α) (d : Codec β) : Codec (α ⊕ β) where
  write
    | .inl a => word32.write 0 ++ c.write a
    | .inr b => word32.write 1 ++ d.write b
  read := do
    let index ← word32.read
    if index = 0 then
      let a ← c.read
      return .inl a
    else if index = 1 then
      let b ← d.read
      return .inr b
    else Reader.fail (.unknownVariant index)

/-- The same bytes for values of another form. -/
def transport (c : Codec α) (ofRead : α → β) (toWrite : β → α) : Codec β where
  write b := c.write (toWrite b)
  read := do
    let a ← c.read
    return ofRead a

end Codec
end MasternodePayments
