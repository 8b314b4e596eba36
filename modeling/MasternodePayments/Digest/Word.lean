import MasternodePayments.Bytes.LittleEndian

/-!
# Words of digests

The 32-bit words that BLAKE3 and RIPEMD-160 work on: rotations, and the words of a block of 64
bytes, each with its least byte first.
-/

namespace MasternodePayments

def rotateRight (x amount : UInt32) : UInt32 := (x >>> amount) ||| (x <<< (32 - amount))

def rotateLeft (x amount : UInt32) : UInt32 := (x <<< amount) ||| (x >>> (32 - amount))

/-- The sixteen words of a block, zeros after its end. -/
def blockWords (block : Bytes) : List UInt32 :=
  (chunks 4 16 block).map fun b => UInt32.ofNat (ofLittleEndian b)

end MasternodePayments
