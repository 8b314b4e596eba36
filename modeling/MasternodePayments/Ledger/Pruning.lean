import MasternodePayments.Ledger.Basic

/-!
# Pruning

Votes, ballots and tallies of heights that fell behind the retention horizon are dropped together.
-/

namespace MasternodePayments.Ledger

/-- The identities of the votes for heights below a cutoff, in order. -/
def expired (l : Ledger) (cutoff : Height) : List Hash :=
  (l.votes.filter fun _ v => decide (v.height < cutoff)).keys

/-- The ledger without anything about heights below a cutoff. -/
def dropBelow (l : Ledger) (cutoff : Height) : Ledger :=
  { l with
    votes := l.votes.filter fun _ v => decide (cutoff ≤ v.height)
    ballots := l.ballots.filter fun b => decide (cutoff ≤ b.height)
    tallies := l.tallies.filter fun height _ => decide (cutoff ≤ height) }

/-- The lowest height that is kept when the chain has reached `current`. -/
def cutoff (s : Setting) (current : Height) : Checked Height := do
  let horizon ← s.config.retentionHorizon s.registry.enabledCount
  pure (monus current horizon)

/-- Drops what fell behind the horizon of `current`; also gives the identities of the dropped
votes. -/
def prune (l : Ledger) (s : Setting) (current : Height) : Checked (Ledger × List Hash) := do
  let lowest ← cutoff s current
  pure (l.dropBelow lowest, l.expired lowest)

/-- Prunes at the tip; without one, nothing happens. -/
def clean (l : Ledger) (s : Setting) : Checked (Ledger × List Hash) :=
  match s.chain.tip? with
  | some tip => l.prune s tip
  | none => .ok (l, [])

end MasternodePayments.Ledger
