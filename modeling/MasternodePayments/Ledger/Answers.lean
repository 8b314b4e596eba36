import MasternodePayments.Ledger.Basic

/-!
# What the ledger answers

* `Ledger.announcements?`: the votes to announce to a peer that asks for them.
* `Ledger.isScheduled`: whether a masternode already leads one of the next heights.
* `Ledger.accepts`: whether a reward transaction pays what was voted for.
-/

namespace MasternodePayments

/-- The masternode count with its allowance. Payments of a flat schedule do not depend on it, but
it has to be a word. -/
def Setting.countWithDrift (s : Setting) : Checked Nat :=
  let count :=
    if s.sporks.isActive .paymentEnforcement then s.registry.enabledCount else s.registry.size
  if count + s.config.countDrift.toNat < UInt64.size then .ok (count + s.config.countDrift.toNat)
  else .error .addition

def Setting.rules (s : Setting) : PaymentRules :=
  ⟨s.schedule, s.chain.blockValue, s.config.signaturesRequired⟩

namespace Ledger

/-- The votes from `count` heights behind the tip up to the end of the window, in the order of
their identities; nothing while the tip cannot be read. At most one population bound is looked
back. -/
def announcements? (l : Ledger) (s : Setting) (count : UInt64) :
    Checked (Option (List Announcement)) :=
  match s.chain.tip? with
  | none => .ok none
  | some tip => do
    let bound ← s.config.scaledPopulation s.registry.enabledCount
    let first := monus tip (min count bound)
    let last ← add64 tip s.config.futureWindow
    let votes := l.voteList.filter fun v => decide (first ≤ v.height ∧ v.height ≤ last)
    pure (some (votes.map (·.announcement)))

def heightsFrom (first : Height) (count : Nat) : List Height :=
  (List.range count).map fun i => first + UInt64.ofNat i

/-- Whether a masternode leads its tier at one of the next heights, `except` left out. As many of
the last heights of the lookahead are looked at as its tier has other enabled masternodes. -/
def isScheduled (l : Ledger) (s : Setting) (node : Masternode) (except : Height) :
    Checked Bool :=
  match s.chain.tip? with
  | none => .ok false
  | some tip => do
    let lookahead := s.config.scheduleLookahead
    let upper ← add64 tip lookahead
    let others := s.registry.countInTier node.tier - 1
    let count := min lookahead.toNat others
    let heights := heightsFrom (upper - UInt64.ofNat count) count
    pure ((heights.filter (· != except)).any fun h =>
      l.winner? h node.tier == some node.payout)

/-- Whether a reward transaction pays what was voted for at a height. Heights that nobody voted on
accept every transaction. -/
def accepts (l : Ledger) (s : Setting) (tx : Transaction) (height : Height) : Checked Bool := do
  let _ ← s.countWithDrift
  match l.tallies[height]? with
  | some tally => tally.accepts s.rules tx
  | none => pure true

end Ledger
end MasternodePayments
