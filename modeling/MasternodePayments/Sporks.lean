/-!
# Sporks

Switches that the network turns on and off together.
-/

namespace MasternodePayments

inductive Spork where
  /-- Some heights belong to the budget. -/
  | superblocks
  /-- Blocks that do not pay the voted masternodes are refused. -/
  | paymentEnforcement
  /-- Superblocks that do not pay the budget are refused. -/
  | budgetEnforcement
  /-- Only masternodes that run the active protocol vote and are paid. -/
  | payUpdatedNodes
deriving DecidableEq, Repr

structure Sporks where
  active : List Spork := []
deriving DecidableEq

namespace Sporks

def isActive (s : Sporks) (spork : Spork) : Bool := s.active.contains spork

def set (s : Sporks) (spork : Spork) (on : Bool) : Sporks :=
  let others := s.active.filter (· != spork)
  ⟨if on then spork :: others else others⟩

theorem isActive_set (s : Sporks) (spork other : Spork) (on : Bool) :
    (s.set spork on).isActive other = if other = spork then on else s.isActive other := by
  cases on <;> by_cases h : other = spork <;> simp [set, isActive, h]

end Sporks
end MasternodePayments
