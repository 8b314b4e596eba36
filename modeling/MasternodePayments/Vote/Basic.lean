import MasternodePayments.Arithmetic
import MasternodePayments.Bytes.LittleEndian
import MasternodePayments.Chain.OutPoint
import MasternodePayments.Chain.Script
import MasternodePayments.Digest.Blake3

/-!
# Votes

A vote is a masternode's signed claim of who is to be paid at a height. The payee is named by its
payout script or by the outpoint of its collateral.

Two byte strings are derived from a vote. `Vote.preimage` determines the identity that votes are
stored and announced under, `Vote.signingMessage` is what gets signed. Neither contains the
signature, so two signatures of one claim are one vote.
-/

namespace MasternodePayments

inductive Payee where
  | script (script : Script)
  | collateral (outpoint : OutPoint)
deriving DecidableEq

/-- A claim of who is to be paid at a height, with its signature. -/
structure Vote where
  voter : MasternodeId
  height : Height
  payee : Payee
  signature : Bytes := []
deriving DecidableEq

structure Announcement where
  identity : Hash
deriving DecidableEq

/-- The bytes of an outpoint: the hash, then the index. -/
def OutPoint.preimage (o : OutPoint) : Bytes := o.txid.bytes ++ word32 o.vout

namespace Payee

/-- The bytes of a payee: its form, then the script with its length or the outpoint. -/
def preimage : Payee → Bytes
  | script s => word32 0 ++ lengthWord s ++ s
  | collateral o => word32 1 ++ o.preimage

def text : Payee → String
  | script s => Script.text s
  | collateral o => "collateral:" ++ o.text

end Payee

namespace Vote

/-- The bytes that determine the identity: payee, height, voter. -/
def preimage (v : Vote) : Bytes := v.payee.preimage ++ word64 v.height ++ v.voter.preimage

/-- The digest that a vote is stored and announced under. -/
def identity (v : Vote) : Hash := blake3 v.preimage

def announcement (v : Vote) : Announcement := ⟨v.identity⟩

/-- Sets the messages that votes sign apart from all others. -/
def signingDomain : Bytes := "mnpayments/vote".toUTF8.toList

/-- The bytes that are signed: voter, height, payee. -/
def signingMessage (v : Vote) : Bytes :=
  signingDomain ++ v.voter.preimage ++ word64 v.height ++ v.payee.preimage

def text (v : Vote) : String :=
  v.voter.text ++ ", " ++ toString v.height.toNat ++ ", " ++ v.payee.text

end Vote
end MasternodePayments
