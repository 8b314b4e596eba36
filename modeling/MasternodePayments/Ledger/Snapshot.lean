import MasternodePayments.Ledger.Pruning

/-!
# Snapshots

A snapshot holds the votes and the tallies of a ledger. The ballots are not part of it: they are
found again from the votes whose payee can be resolved at the time of the restoration.
-/

namespace MasternodePayments

/-- What is kept of a ledger over a restart. -/
structure Snapshot where
  votes : Std.ExtTreeMap Hash Vote := ∅
  tallies : Std.ExtTreeMap Height Tally := ∅
deriving DecidableEq

def Snapshot.summary (s : Snapshot) : String := Ledger.summary s.votes.size s.tallies.size

def Snapshot.voteList (s : Snapshot) : List Vote := s.votes.toList.map (·.2)

/-- The ballot that a vote uses up, if its payee can be resolved. -/
def Setting.ballot? (s : Setting) (v : Vote) : Option Ballot :=
  (s.resolve? v.payee).map fun (_, tier) => ⟨v.voter, tier, v.height⟩

namespace Ledger

def snapshot (l : Ledger) : Snapshot := ⟨l.votes, l.tallies⟩

/-- The ledger with the contents of a snapshot. The last height voted on stays. -/
def restore (l : Ledger) (s : Setting) (snapshot : Snapshot) : Ledger :=
  { votes := snapshot.votes
    ballots := .ofList (snapshot.voteList.filterMap s.ballot?)
    tallies := snapshot.tallies
    lastCast := l.lastCast }

end Ledger
end MasternodePayments
