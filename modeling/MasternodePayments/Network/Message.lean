import MasternodePayments.Vote.Basic

/-!
# Messages between nodes

What nodes send each other about payment votes.
-/

namespace MasternodePayments

/-- What a status count counts. -/
inductive SyncItem where
  | masternodeList
  | masternodeWinners
  | budget
deriving DecidableEq, Repr

inductive Message where
  /-- Asks for the votes up to `count` heights back. -/
  | getVotes (count : UInt64)
  | vote (vote : Vote)
  /-- Says, after the answer to such a request, how many items were announced. -/
  | statusCount (item : SyncItem) (count : UInt64)
deriving DecidableEq

def Message.command : Message → String
  | .getVotes _ => "mnget"
  | .vote _ => "mnw"
  | .statusCount _ _ => "ssc"

end MasternodePayments
