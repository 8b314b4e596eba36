import MasternodePayments.Ledger.Basic

/-!
# Block templates

The reward transaction of the next block gets one more output for each tier, and what is paid there
is taken out of its base output: output 0, or output 1 where the block is made by stake. On a
superblock the budget adds its payee instead.
-/

namespace MasternodePayments

/-- Which output the payments are taken from. -/
def baseIndex (staked : Bool) : Nat := if staked then 1 else 0

/-- An output with an amount taken out; the value of a mint is fixed. -/
def Output.deduct (o : Output) (amount : Amount) : Output :=
  if Script.isMint o.script then o else { o with value := monus o.value amount }

namespace Ledger

/-- Whom a tier pays at a height: the voted winner, else the current one of the registry. -/
def payee? (l : Ledger) (s : Setting) (height : Height) (tier : Tier) : Option Script :=
  (l.winner? height tier).or ((s.registry.currentWinner? tier).map (·.payout))

/-- The outputs after the payment of one tier. Where nobody can be paid, a block made by work
leaves the rest of the block value in its first output. -/
def payTier (l : Ledger) (s : Setting) (height : Height) (staked : Bool) (outputs : List Output)
    (tier : Tier) : Checked (List Output) := do
  let due ← s.schedule.payment tier s.chain.blockValue
  match l.payee? s height tier with
  | some script =>
    pure ((outputs ++ [(⟨due, script, none⟩ : Output)]).modify (baseIndex staked) (·.deduct due))
  | none =>
    if staked then pure outputs
    else pure (outputs.modify 0 fun o => { o with value := monus s.chain.blockValue due })

/-- The reward transaction of the block after `tip`, with one payment for each tier. -/
def payTiers (l : Ledger) (s : Setting) (tx : Transaction) (tip : Height) (staked : Bool) :
    Checked Transaction := do
  let height ← add64 tip 1
  let outputs ← s.schedule.tiers.foldlM (l.payTier s height staked) tx.outputs
  pure { tx with outputs := outputs }

/-- The reward transaction of the next block, with its payees. -/
def fillReward (l : Ledger) (s : Setting) (tx : Transaction) (staked : Bool) :
    Checked Transaction :=
  match s.chain.tip? with
  | none => .ok tx
  | some tip => do
    let height ← add64 tip 1
    if s.isSuperblock height then pure (s.budget.fill tx) else l.payTiers s tx tip staked

end Ledger
end MasternodePayments
