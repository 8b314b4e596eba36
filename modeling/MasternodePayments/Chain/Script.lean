import MasternodePayments.Bytes.Hex
import MasternodePayments.Digest.Ripemd160

/-!
# Payout scripts

A script is a byte string. The one that matters most pays to the digest of a public key; it has one
form, built by `Script.payToKeyHash` and recognised by `Script.keyHash?`. The text of a script shows
the digest for that form and the bytes for any other.
-/

namespace MasternodePayments

abbrev Script := Bytes

namespace Script

/-- Duplicate, hash, push 20 bytes. -/
def opening : Bytes := [0x76, 0xa9, 0x14]

/-- Compare, check the signature. -/
def closing : Bytes := [0x88, 0xac]

def payToKeyHash (digest : KeyHash) : Script := opening ++ digest.bytes ++ closing

/-- The script that pays to a public key, by its digest. -/
def payToKey (key : PublicKey) : Script := payToKeyHash (hash160 key.bytes)

/-- The digest that a script pays to, if it has that form. -/
def keyHash? (script : Script) : Option KeyHash :=
  if script.take 3 = opening ∧ script.drop 23 = closing then
    FixedBytes.ofBytes? 20 ((script.drop 3).take 20)
  else none

/-- Whether the script marks the output as a mint, whose value is fixed. -/
def isMint (script : Script) : Bool := script.head? == some 0xc1

/-- A readable form: the digest where the script pays to one, else its bytes. -/
def text (script : Script) : String :=
  match keyHash? script with
  | some digest => "p2pkh:" ++ hex digest.bytes
  | none => if script.isEmpty then "<empty>" else hex script

end Script
end MasternodePayments
