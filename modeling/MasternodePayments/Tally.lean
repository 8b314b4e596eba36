import MasternodePayments.Chain.Transaction
import MasternodePayments.Schedule
import MasternodePayments.ScheduledPayment

/-!
# The tally of a height

The votes for one height are added up per candidate, a candidate being a script in a tier.
Candidates stay in the order of their first vote, and the first one wins a tie.

* `Tally.add`: one more vote, or several.
* `Tally.leader?`: the winner of a tier.
* `Tally.accepts`: whether a reward transaction pays what the confirmed candidates are due.
-/

namespace MasternodePayments

structure Candidate where
  script : Script
  tier : Tier
  votes : UInt32
deriving DecidableEq

/-- The candidates of a height, in the order of their first vote. -/
structure Tally where
  height : Height
  candidates : List Candidate := []
deriving DecidableEq

/-- What a reward transaction is measured against. -/
structure PaymentRules where
  schedule : Schedule
  blockValue : Amount
  /-- Votes that confirm a candidate. -/
  required : UInt32
deriving DecidableEq

namespace Candidate

def isFor (c : Candidate) (script : Script) (tier : Tier) : Bool :=
  c.tier == tier && c.script == script

end Candidate

namespace Tally

/-- The tally with a candidate's votes raised, at its place or at the end. -/
def addTo (script : Script) (tier : Tier) (weight : UInt32) :
    List Candidate → Checked (List Candidate)
  | [] => .ok [⟨script, tier, weight⟩]
  | c :: cs =>
    if c.isFor script tier then do
      let votes ← add32 c.votes weight
      pure ({ c with votes := votes } :: cs)
    else do
      let rest ← addTo script tier weight cs
      pure (c :: rest)

def add (t : Tally) (script : Script) (tier : Tier) (weight : UInt32) : Checked Tally := do
  let candidates ← addTo script tier weight t.candidates
  pure { t with candidates := candidates }

def inTier (t : Tally) (tier : Tier) : List Candidate := t.candidates.filter (·.tier == tier)

/-- The candidate of a tier with the most votes, the first one on a tie. -/
def leader? (t : Tally) (tier : Tier) : Option Candidate := (t.inTier tier).maxOn? (·.votes)

def winner? (t : Tally) (tier : Tier) : Option Script := (t.leader? tier).map (·.script)

def mostVotes (t : Tally) (tier : Tier) : UInt32 :=
  (t.inTier tier).foldl (fun most c => max most c.votes) 0

def hasVotes (t : Tally) (script : Script) (required : UInt32) : Bool :=
  t.candidates.any fun c => decide (required ≤ c.votes) && c.script == script

def sumVotes (cs : List Candidate) : Nat := cs.foldr (fun c votes => c.votes.toNat + votes) 0

def totalVotes (t : Tally) : Nat := sumVotes t.candidates

def payments (t : Tally) : List ScheduledPayment :=
  t.candidates.map fun c => .ofScript c.script c.votes c.tier

def confirmed (t : Tally) (tier : Tier) (required : UInt32) : List Candidate :=
  (t.inTier tier).filter fun c => decide (required ≤ c.votes)

/-- Whether a transaction pays one of a tier's confirmed candidates what the tier is due. Nothing
is asked of a tier in which no candidate is confirmed. -/
def acceptsTier (t : Tally) (rules : PaymentRules) (tx : Transaction) (tier : Tier) :
    Checked Bool :=
  if t.mostVotes tier < rules.required then .ok true
  else do
    let due ← rules.schedule.payment tier rules.blockValue
    pure ((t.confirmed tier rules.required).any fun c => tx.pays c.script due)

/-- Whether a condition holds of every tier, looked at in order up to the first that fails. -/
def allTiers (p : Tier → Checked Bool) : List Tier → Checked Bool
  | [] => .ok true
  | tier :: tiers => do
    let holds ← p tier
    if holds then allTiers p tiers else pure false

/-- Whether a reward transaction pays what the confirmed candidates are due. -/
def accepts (t : Tally) (rules : PaymentRules) (tx : Transaction) : Checked Bool :=
  allTiers (t.acceptsTier rules tx) rules.schedule.tiers

end Tally
end MasternodePayments
