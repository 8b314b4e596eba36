import MasternodePayments.Ledger.Basic
import MasternodePayments.Vote.Signing

/-!
# Admission of votes

`Ledger.check` decides on a vote and `Ledger.record` enters one that passed. The checks run in a
fixed order, and the first that fails is the answer: the cheap ones come before the signature.
-/

namespace MasternodePayments

/-- What a vote that passed all checks counts for. -/
structure Admission where
  identity : Hash
  script : Script
  tier : Tier
deriving DecidableEq

namespace Ledger

/-- Decides on a vote: what it counts for, or why it is refused. -/
def check (l : Ledger) (s : Setting) (v : Vote) : Except Fault Admission := do
  let identity := v.identity
  require (!l.votes.contains identity) (.duplicate identity)
  let voter ← obtain? (s.registry.find? v.voter) (.unknownVoter v.voter)
  let (script, tier) ← obtain? (s.resolve? v.payee) (.unknownPayee v.payee)
  let tip ← obtain? s.chain.tip? .chainBusy
  s.checkWindow v.height tier tip
  s.checkEligibility voter
  require (!l.ballots.contains ⟨v.voter, tier, v.height⟩) (.doubleVote v.voter tier v.height)
  require (v.isSignedBy voter.operatorKey) (.badSignature v.voter)
  let reference := s.reference v.height
  require (s.chain.hashAt? reference).isSome (.unknownBlock reference)
  pure ⟨identity, script, tier⟩

/-- Enters a vote: the vote itself, its ballot and one unit of weight for its candidate. -/
def record (l : Ledger) (v : Vote) (a : Admission) : Checked Ledger := do
  let tally ← (l.tallyAt v.height).add a.script a.tier 1
  pure { l with
    votes := l.votes.insert a.identity v
    ballots := l.ballots.insert ⟨v.voter, a.tier, v.height⟩
    tallies := l.tallies.insert v.height tally }

def admitVote (l : Ledger) (s : Setting) (v : Vote) : Except Fault Ledger := do
  let a ← l.check s v
  l.record v a

end Ledger
end MasternodePayments
