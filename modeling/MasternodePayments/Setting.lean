import MasternodePayments.Budget
import MasternodePayments.Chain.Basic
import MasternodePayments.Config
import MasternodePayments.Registry
import MasternodePayments.Schedule
import MasternodePayments.Sporks
import MasternodePayments.Vote.Rejection

/-!
# What votes are judged by

A `Setting` is everything that the payment rules consult and do not own: the parameters, the chain,
the registry, the reward schedule, the budget and the sporks. The questions about a single vote that
need no stored votes are answered here: whom it pays, whether its height is within reach and whether
its voter may vote at all.
-/

namespace MasternodePayments

structure Setting where
  config : Config := {}
  chain : Chain
  registry : Registry := {}
  schedule : Schedule
  budget : Budget := {}
  sporks : Sporks := {}

namespace Setting

/-- The least protocol of a masternode that votes or is paid. -/
def minProtocol (s : Setting) : UInt32 :=
  if s.sporks.isActive .payUpdatedNodes then s.config.network.activeProtocol
  else s.config.network.oldestProtocol

/-- The script that a payee stands for, if it is known yet. -/
def payeeScript? (s : Setting) : Payee → Option Script
  | .script script => some script
  | .collateral o =>
    match s.registry.find? o with
    | some m => some m.payout
    | none => s.chain.script? o

/-- The masternode that a payee with the given script pays. -/
def payeeNode? (s : Setting) (payee : Payee) (script : Script) : Option Masternode :=
  match payee with
  | .script _ => s.registry.findByScript? script
  | .collateral o => (s.registry.find? o).or (s.registry.findByScript? script)

/-- The tier of the masternode that a payee with the given script pays. -/
def payeeTier? (s : Setting) (payee : Payee) (script : Script) : Option Tier :=
  (s.payeeNode? payee script).map (·.tier)

/-- The script and the tier that a payee stands for, if both are known. -/
def resolve? (s : Setting) (payee : Payee) : Option (Script × Tier) := do
  let script ← s.payeeScript? payee
  let tier ← s.payeeTier? payee script
  pure (script, tier)

/-- The height at which the rank of a vote's voter is taken. -/
def reference (s : Setting) (height : Height) : Height := monus height s.config.referenceOffset

/-- The first and the last height that a vote for a tier may name. -/
def window (s : Setting) (tier : Tier) (tip : Height) : Checked (Height × Height) := do
  let span ← s.config.scaledPopulation (s.registry.countInTier tier)
  let last ← add64 tip s.config.futureWindow
  pure (monus tip span, last)

def checkWindow (s : Setting) (height : Height) (tier : Tier) (tip : Height) :
    Except Fault Unit := do
  let (first, last) ← s.window tier tip
  require (decide (first ≤ height ∧ height ≤ last)) (.outOfWindow height first last)

def withinLimit (s : Setting) : Option Nat → Bool
  | some rank => decide (rank ≤ s.config.signaturesTotal.toNat)
  | none => false

/-- Refuses a voter that runs an old protocol or is not among the first in rank. Ranks up to twice
the limit are near misses, so that bound has to be a word as well. -/
def checkEligibility (s : Setting) (voter : Masternode) : Except Fault Unit := do
  let required := s.minProtocol
  require (decide (required ≤ voter.protocol)) (.protocolTooOld voter.protocol required)
  let limit := s.config.signaturesTotal
  let rank := s.registry.rank? voter.id required
  if s.withinLimit rank then pure ()
  else
    if rank.isSome then
      let _ ← mul64 limit 2
    reject (.notEligible voter.id rank limit)

/-- Whether a height is a superblock that is in force. -/
def isSuperblock (s : Setting) (height : Height) : Bool :=
  s.sporks.isActive .superblocks && s.budget.covers height

end Setting
end MasternodePayments
