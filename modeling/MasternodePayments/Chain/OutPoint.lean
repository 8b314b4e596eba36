import MasternodePayments.Bytes.Hex

/-!
# Outpoints

An outpoint names one output of one transaction. A masternode is identified by the outpoint that
holds its collateral. The text of an outpoint is the transaction's hash in hexadecimal, a hyphen
and the index in decimal.
-/

namespace MasternodePayments

/-- An output of a transaction, by the transaction's hash and its place there. -/
structure OutPoint where
  txid : Hash
  vout : UInt32
deriving DecidableEq, Inhabited

/-- The identity of a masternode: the outpoint of its collateral. -/
abbrev MasternodeId := OutPoint

namespace OutPoint

instance : Ord OutPoint := ⟨compareLex (compareOn OutPoint.txid) (compareOn OutPoint.vout)⟩

instance : Std.TransOrd OutPoint :=
  inferInstanceAs (Std.TransCmp (compareLex (compareOn OutPoint.txid) (compareOn OutPoint.vout)))

instance : Std.LawfulEqOrd OutPoint where
  eq_of_compare {a b} h := by
    cases a
    cases b
    have h := compareLex_eq_eq.1 h
    simpa [compareOn] using h

/-- The hash in hexadecimal and the index in decimal, a hyphen between them. -/
def text (o : OutPoint) : String := hex o.txid.bytes ++ "-" ++ toString o.vout.toNat

def ofText? (text : String) : Option OutPoint := do
  let digits := text.toList.takeWhile (· != '-')
  let bytes ← bytesOfDigits? digits
  let txid ← FixedBytes.ofBytes? 32 bytes
  let index ← (String.ofList (text.toList.drop (digits.length + 1))).toNat?
  if index < UInt32.size then some ⟨txid, UInt32.ofNat index⟩ else none

end OutPoint
end MasternodePayments
