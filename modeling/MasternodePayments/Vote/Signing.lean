import MasternodePayments.Vote.Rejection

/-!
# Signed votes

A vote is signed with the key that its voter declared to the registry, and with no other.
-/

namespace MasternodePayments

/-- The masternode that this node runs: its identity and its key pair. -/
structure ActiveMasternode where
  id : MasternodeId
  keys : Ed25519.KeyPair
deriving DecidableEq

namespace Vote

def verify (v : Vote) (declared : PublicKey) : Except Ed25519.Failure Unit :=
  Ed25519.verify declared.bytes v.signingMessage v.signature

/-- Whether the signature belongs to the key that the voter declared. -/
def isSignedBy (v : Vote) (declared : PublicKey) : Bool := (v.verify declared).toBool

/-- The vote with a signature by the key pair, which has to be the declared one. -/
def sign (v : Vote) (keys : Ed25519.KeyPair) (declared : PublicKey) :
    Except SigningFailure Vote :=
  if keys.publicKey = declared then
    let signed := { v with signature := (keys.sign v.signingMessage).bytes }
    match signed.verify declared with
    | .ok _ => .ok signed
    | .error cause => .error (.unverified cause)
  else .error (.foreignKey keys.publicKey v.voter)

end Vote
end MasternodePayments
