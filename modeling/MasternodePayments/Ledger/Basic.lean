import MasternodePayments.Setting
import MasternodePayments.Tally

/-!
# The payment ledger

The ledger holds the admitted votes by identity, the ballots cast, which keep anybody from voting
twice for one tier of one height, and a tally for each height. It also remembers the last height
that this node cast votes for.

This module has the type and what can be read off it. Votes come in by `Ledger.Admission`, leave by
`Ledger.Pruning` and are carried over a restart by `Ledger.Snapshot`.
-/

namespace MasternodePayments

/-- The right to one vote: a voter, a tier and a height. -/
structure Ballot where
  voter : MasternodeId
  tier : Tier
  height : Height
deriving DecidableEq

namespace Ballot

instance : Ord Ballot :=
  ⟨compareLex (compareOn Ballot.voter)
    (compareLex (compareOn Ballot.tier) (compareOn Ballot.height))⟩

instance : Std.TransOrd Ballot :=
  inferInstanceAs (Std.TransCmp (compareLex (compareOn Ballot.voter)
    (compareLex (compareOn Ballot.tier) (compareOn Ballot.height))))

instance : Std.LawfulEqOrd Ballot where
  eq_of_compare {a b} h := by
    cases a
    cases b
    have h := compareLex_eq_eq.1 h
    rw [compareLex_eq_eq] at h
    simpa [compareOn] using h

end Ballot

/-- The admitted votes with everything derived from them. -/
structure Ledger where
  votes : Std.ExtTreeMap Hash Vote := ∅
  ballots : Std.ExtTreeSet Ballot := ∅
  tallies : Std.ExtTreeMap Height Tally := ∅
  /-- The last height that this node cast votes for. -/
  lastCast : Height := 0
deriving DecidableEq

namespace Ledger

/-- The stored votes in the order of their identities. -/
def voteList (l : Ledger) : List Vote := l.votes.toList.map (·.2)

def voteCount (l : Ledger) : Nat := l.votes.size

def tallyCount (l : Ledger) : Nat := l.tallies.size

def oldest? (l : Ledger) : Option Height := l.tallies.minKey?

def newest? (l : Ledger) : Option Height := l.tallies.maxKey?

/-- The tally of a height, empty if nobody voted on it. -/
def tallyAt (l : Ledger) (height : Height) : Tally := l.tallies[height]?.getD ⟨height, []⟩

def winner? (l : Ledger) (height : Height) (tier : Tier) : Option Script :=
  l.tallies[height]?.bind (·.winner? tier)

def payments (l : Ledger) (height : Height) : List ScheduledPayment :=
  (l.tallies[height]?.map (·.payments)).getD []

/-- The votes for the heights from the first to the last given one, lowest first and then in the
order of their identities. -/
def votesBetween (l : Ledger) (first last : Height) : List Vote :=
  (l.voteList.filter fun v => decide (first ≤ v.height ∧ v.height ≤ last)).mergeSort
    fun v w => decide (v.height ≤ w.height)

def summary (votes heights : Nat) : String :=
  "Votes: " ++ toString votes ++ ", Blocks: " ++ toString heights

/-- The ledger without votes. The last height voted on stays. -/
def clear (l : Ledger) : Ledger := { lastCast := l.lastCast }

end Ledger
end MasternodePayments
