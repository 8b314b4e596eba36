import MasternodePayments.Ledger.Answers

/-!
# Validation of received blocks

`Ledger.acceptsPayees` judges whom a block pays and `Setting.acceptsValue` how much it mints. A
node that is not synchronised cannot judge payees, and enforcement can be switched off.
-/

namespace MasternodePayments

/-- Heights less than this far into a budget cycle may be superblocks. -/
def superblockGrace : UInt64 := 100

namespace Ledger

/-- Whether the reward transaction pays the voted masternodes, or nobody enforces that. -/
def acceptsMasternodes (l : Ledger) (s : Setting) (tx : Transaction) (height : Height) :
    Checked Bool := do
  let paid ← l.accepts s tx height
  pure (paid || !s.sporks.isActive .paymentEnforcement)

/-- Whether a block pays whom the network agreed on. A block without its reward transaction is
never accepted by a synchronised node. -/
def acceptsPayees (l : Ledger) (s : Setting) (synced : Bool) (block : Block) (height : Height) :
    Checked Bool :=
  if synced then
    match block.reward? height s.config.network.lastWorkHeight with
    | none => .ok false
    | some tx =>
      if s.isSuperblock height then
        match s.budget.verdict with
        | .valid => .ok true
        | .invalid =>
          if s.sporks.isActive .budgetEnforcement then .ok false
          else l.acceptsMasternodes s tx height
        | .doublePayment => l.acceptsMasternodes s tx height
        | .voteThreshold => l.acceptsMasternodes s tx height
      else l.acceptsMasternodes s tx height
  else .ok true

end Ledger

namespace Setting

/-- The height of a block, by its predecessor; zero if that is unknown. -/
def heightAfter (s : Setting) (tip : Height) (previous : Hash) : Checked Height :=
  if s.chain.hashAt? tip = some previous then add64 tip 1
  else
    match s.chain.heightOf? previous with
    | some height => add64 height 1
    | none => .ok 0

/-- Whether a block may mint what it mints. While synchronising, the first heights of every budget
cycle are let through. -/
def acceptsValue (s : Setting) (synced : Bool) (block : Block) (expected minted : Amount) :
    Checked Bool :=
  match s.chain.tip? with
  | none => .ok true
  | some tip => do
    let height ← s.heightAfter tip block.previous
    let inBounds := decide (minted ≤ expected)
    if synced then pure (s.isSuperblock height || inBounds)
    else
      let cycle := max s.config.network.budgetCycle 1
      pure (decide (height % cycle < superblockGrace) || inBounds)

end Setting
end MasternodePayments
