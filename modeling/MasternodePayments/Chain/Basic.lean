import MasternodePayments.Arithmetic
import MasternodePayments.Bytes.LittleEndian
import MasternodePayments.Chain.OutPoint
import MasternodePayments.Chain.Script
import MasternodePayments.Digest.Blake3

/-!
# The chain as the payment rules see it

Every height up to the tip has a block hash: the one recorded for it, or else one derived from the
height. Recorded hashes may also lie above the tip. While the chain is `busy` its tip cannot be
read; everything else can.

`Chain.hashAt?` and `Chain.heightOf?` are the two directions of the look-up.
-/

namespace MasternodePayments

structure Chain where
  tip : Option Height := none
  /-- The tip is being changed and cannot be read. -/
  busy : Bool := false
  recorded : Std.ExtTreeMap Height Hash := ∅
  outputs : Std.ExtTreeMap OutPoint Script := ∅
  blockValue : Amount

namespace Chain

/-- The hash of a height that none was recorded for. -/
def derivedHash (height : Height) : Hash := blake3 (word64 height)

/-- The height of the tip, if there is one and it can be read. -/
def tip? (c : Chain) : Option Height := if c.busy then none else c.tip

def setTip (c : Chain) (height : Height) : Chain := { c with tip := some height }

def record (c : Chain) (height : Height) (hash : Hash) : Chain :=
  { c with recorded := c.recorded.insert height hash }

def addOutput (c : Chain) (o : OutPoint) (script : Script) : Chain :=
  { c with outputs := c.outputs.insert o script }

def covers (c : Chain) (height : Height) : Bool :=
  match c.tip with
  | some tip => decide (height ≤ tip)
  | none => false

def hashAt? (c : Chain) (height : Height) : Option Hash :=
  match c.recorded[height]? with
  | some hash => some hash
  | none => if c.covers height then some (derivedHash height) else none

/-- The highest of the heights up to `n` that has the given derived hash. -/
def searchDown (hash : Hash) : Nat → Option Height
  | 0 => if derivedHash 0 = hash then some 0 else none
  | n + 1 =>
    if derivedHash (UInt64.ofNat (n + 1)) = hash then some (UInt64.ofNat (n + 1))
    else searchDown hash n

/-- A height at which the block has the given hash: a recorded one first. -/
def heightOf? (c : Chain) (hash : Hash) : Option Height :=
  match c.recorded.toList.find? (fun entry => entry.2 == hash) with
  | some entry => some entry.1
  | none => c.tip.bind fun tip => searchDown hash tip.toNat

def script? (c : Chain) (o : OutPoint) : Option Script := c.outputs[o]?

end Chain
end MasternodePayments
