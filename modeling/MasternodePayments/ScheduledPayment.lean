import MasternodePayments.Arithmetic
import MasternodePayments.Chain.Script

/-!
# Scheduled payments

One line of a payment listing: who is to be paid, how many votes stand behind it and in which tier.
-/

namespace MasternodePayments

/-- A payee of some height, as it is listed to an operator. -/
structure ScheduledPayment where
  address : String
  votes : UInt32
  tier : Tier
deriving DecidableEq

def ScheduledPayment.ofScript (script : Script) (votes : UInt32) (tier : Tier) :
    ScheduledPayment :=
  ⟨Script.text script, votes, tier⟩

/-- The line for a height that nobody voted on. -/
def ScheduledPayment.unknown : ScheduledPayment := ⟨"Unknown", 0, unknownTier⟩

end MasternodePayments
