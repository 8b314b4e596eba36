import MasternodePayments.Arithmetic
import MasternodePayments.Chain.Script

/-!
# Transactions and blocks

Of a transaction only its kind and its outputs matter here, and of a block its predecessor and its
transactions. The reward of a block is carried by one of them: the first while blocks are made by
work, the second once they are made by stake.
-/

namespace MasternodePayments

structure Output where
  value : Amount
  script : Script
  memo : Option Bytes := none
deriving DecidableEq

inductive Transaction.Kind where
  | standard
  | coinbase
  | coinstake
deriving DecidableEq, Repr

/-- A transaction, as far as payments look at it. -/
structure Transaction where
  kind : Transaction.Kind
  outputs : List Output
deriving DecidableEq

/-- A block, as far as payments look at it. -/
structure Block where
  previous : Hash
  transactions : List Transaction
deriving DecidableEq

def Transaction.pays (t : Transaction) (script : Script) (amount : Amount) : Bool :=
  t.outputs.any fun o => o.script == script && decide (amount ≤ o.value)

/-- Which transaction of a block at the given height carries the reward. -/
def rewardPosition (height lastWorkHeight : Height) : Nat :=
  if lastWorkHeight < height then 1 else 0

/-- The transaction that carries the reward, if the block has it. -/
def Block.reward? (b : Block) (height lastWorkHeight : Height) : Option Transaction :=
  b.transactions[rewardPosition height lastWorkHeight]?

end MasternodePayments
