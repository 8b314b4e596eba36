import MasternodePayments.Ledger.Admission

/-!
# Casting votes of one's own

A node that runs a masternode votes once for each height: in every tier for the masternode that was
paid longest ago. Its votes go through the same checks as any other.
-/

namespace MasternodePayments

/-- This node's vote for a tier of a height, if somebody can be paid and the keys are right. -/
def Setting.proposal? (s : Setting) (active : ActiveMasternode) (declared : PublicKey)
    (height : Height) (tier : Tier) : Option Vote := do
  let payee ← s.registry.nextInQueue? tier
  let vote : Vote := ⟨active.id, height, .collateral payee.id, []⟩
  (vote.sign active.keys declared).toOption

namespace Ledger

/-- Admits those of the votes that pass the checks; also gives them in order. -/
def admitSome (l : Ledger) (s : Setting) : List Vote → Checked (Ledger × List Vote)
  | [] => .ok (l, [])
  | v :: vs => do
    match ← settle (l.admitVote s v) with
    | .ok admitted =>
      let (final, others) ← admitted.admitSome s vs
      pure (final, v :: others)
    | .error _ => l.admitSome s vs

/-- Casts this node's votes for a height, one in each tier; also gives those that were admitted.
A height that was already voted on, or that belongs to the budget, gets none. -/
def cast (l : Ledger) (s : Setting) (height : Height) (active : ActiveMasternode) :
    Except Fault (Ledger × List Vote) := do
  let node ← obtain? (s.registry.find? active.id) .notRegistered
  let rank := s.registry.rank? active.id s.minProtocol
  require (s.withinLimit rank) (.notEligible active.id rank s.config.signaturesTotal)
  if height ≤ l.lastCast then pure (l, [])
  else if s.budget.covers height then pure ({ l with lastCast := height }, [])
  else
    let proposals := s.schedule.tiers.filterMap (s.proposal? active node.operatorKey height)
    let (final, votes) ← l.admitSome s proposals
    if votes.isEmpty then pure (final, [])
    else pure ({ final with lastCast := height }, votes)

end Ledger
end MasternodePayments
