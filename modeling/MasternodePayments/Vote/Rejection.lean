import MasternodePayments.Ed25519.Signature
import MasternodePayments.Vote.Basic

/-!
# Why a vote is refused

`Rejection` lists the causes for which a vote is not admitted, or for which this node casts none;
`Rejection.message` is their wording. `Fault` adds the overflow of a word, after which an operation
has no answer at all.
-/

namespace MasternodePayments

inductive SigningFailure where
  /-- The key is not the one that the voter declared. -/
  | foreignKey (key : PublicKey) (voter : MasternodeId)
  | unverified (cause : Ed25519.Failure)
deriving DecidableEq

def SigningFailure.message : SigningFailure → String
  | .foreignKey key voter =>
    "key " ++ hex key.bytes ++ " does not belong to masternode " ++ voter.text
  | .unverified cause => cause.message

/-- Why a vote is not admitted, or why this node casts none. -/
inductive Rejection where
  | duplicate (identity : Hash)
  | doubleVote (voter : MasternodeId) (tier : Tier) (height : Height)
  | outOfWindow (height first last : Height)
  | unknownVoter (voter : MasternodeId)
  | unknownPayee (payee : Payee)
  | badSignature (voter : MasternodeId)
  | notEligible (voter : MasternodeId) (rank : Option Nat) (limit : UInt64)
  | protocolTooOld (version required : UInt32)
  | chainBusy
  | unknownBlock (height : Height)
  | signing (cause : SigningFailure)
  | notRegistered
deriving DecidableEq

/-- Bytes in decimal, between brackets. -/
def decimalList (b : Bytes) : String :=
  "[" ++ ", ".intercalate (b.map fun x => toString x.toNat) ++ "]"

/-- A payee with every byte spelled out in decimal. -/
def Payee.detail : Payee → String
  | .script s => "DirectScript(" ++ decimalList s ++ ")"
  | .collateral o =>
    "CollateralReference(OutPoint \x7b txid: " ++ decimalList o.txid.bytes ++ ", vout: " ++
      toString o.vout.toNat ++ " \x7d)"

def rankText : Option Nat → String
  | some rank => "Some(" ++ toString rank ++ ")"
  | none => "None"

def Rejection.message : Rejection → String
  | .duplicate identity => "Vote " ++ hex identity.bytes ++ " already seen"
  | .doubleVote voter tier height =>
    "Masternode " ++ voter.text ++ " already voted for tier " ++ toString tier.toNat ++
      " at height " ++ toString height.toNat
  | .outOfWindow height first last =>
    "Vote height " ++ toString height.toNat ++ " outside window [" ++ toString first.toNat ++
      ", " ++ toString last.toNat ++ "]"
  | .unknownVoter voter => "Unknown masternode " ++ voter.text
  | .unknownPayee payee => "Could not resolve payee " ++ payee.detail
  | .badSignature voter => "Bad signature from masternode " ++ voter.text
  | .notEligible voter rank limit =>
    "Masternode " ++ voter.text ++ " is not in the top " ++ toString limit.toNat ++
      " (rank " ++ rankText rank ++ ")"
  | .protocolTooOld version required =>
    "Masternode protocol too old " ++ toString version.toNat ++ " - req " ++
      toString required.toNat
  | .chainBusy => "Chain state is busy or has no tip"
  | .unknownBlock height => "No block known at reference height " ++ toString height.toNat
  | .signing cause => "Signing failed: " ++ cause.message
  | .notRegistered => "Local node is not a registered masternode"

/-- Why an operation on votes has no result. -/
inductive Fault where
  | overflow (cause : Overflow)
  | rejected (cause : Rejection)
deriving DecidableEq

instance : MonadLift Checked (Except Fault) := ⟨Except.mapError .overflow⟩

/-- Tells the refusal of a vote, which is an answer, from an overflow, which is none. -/
def settle {α : Type} : Except Fault α → Checked (Except Rejection α)
  | .ok a => .ok (.ok a)
  | .error (.rejected cause) => .ok (.error cause)
  | .error (.overflow cause) => .error cause

def reject {α : Type} (cause : Rejection) : Except Fault α := .error (.rejected cause)

/-- Goes on if the condition holds and refuses the vote if not. -/
def require (condition : Bool) (cause : Rejection) : Except Fault Unit :=
  if condition then .ok () else reject cause

/-- Goes on with the value if there is one and refuses the vote if not. -/
def obtain? {α : Type} (value : Option α) (cause : Rejection) : Except Fault α :=
  match value with
  | some a => .ok a
  | none => reject cause

theorem require_eq_ok {condition : Bool} {cause : Rejection} {u : Unit} :
    require condition cause = .ok u ↔ condition = true := by
  unfold require
  split <;> simp_all [reject]

theorem obtain?_eq_ok {α : Type} {value : Option α} {cause : Rejection} {a : α} :
    obtain? value cause = .ok a ↔ value = some a := by
  cases value <;> simp [obtain?, reject]

theorem settle_eq_ok_ok {α : Type} {r : Except Fault α} {a : α} :
    settle r = .ok (.ok a) ↔ r = .ok a := by
  rcases r with (_ | _) | _ <;> simp [settle]

theorem settle_eq_ok_error {α : Type} {r : Except Fault α} {cause : Rejection} :
    settle r = .ok (.error cause) ↔ r = .error (.rejected cause) := by
  rcases r with (_ | _) | _ <;> simp [settle]

end MasternodePayments
