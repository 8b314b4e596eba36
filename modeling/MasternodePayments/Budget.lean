import MasternodePayments.Chain.Transaction
import MasternodePayments.ScheduledPayment

/-!
# The budget

On some heights, the superblocks, the block reward belongs to the budget and not to masternodes.
-/

namespace MasternodePayments

/-- What the budget says about the reward transaction of a superblock. -/
inductive Budget.Verdict where
  | valid
  | invalid
  | doublePayment
  /-- Too few votes stand behind the budget to enforce it. -/
  | voteThreshold
deriving DecidableEq, Repr

/-- The superblocks, the verdict on them and whom they pay, if anybody. -/
structure Budget where
  heights : List Height := []
  verdict : Budget.Verdict := .valid
  payee : Option (Script × Amount) := none
deriving DecidableEq

namespace Budget

def covers (b : Budget) (height : Height) : Bool := b.heights.contains height

/-- The transaction with the budget's payee added. -/
def fill (b : Budget) (t : Transaction) : Transaction :=
  match b.payee with
  | some (script, amount) => { t with outputs := t.outputs ++ [⟨amount, script, none⟩] }
  | none => t

def payments (b : Budget) (height : Height) : List ScheduledPayment :=
  match b.payee with
  | some (script, _) => if b.covers height then [.ofScript script 0 unknownTier] else []
  | none => []

end Budget
end MasternodePayments
