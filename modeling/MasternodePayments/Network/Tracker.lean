import MasternodePayments.Bytes.Basic

/-!
# Synchronisation

How far this node is with its synchronisation, and which votes it has come across.
-/

namespace MasternodePayments

structure Tracker where
  /-- The chain is complete. -/
  chainSynced : Bool := true
  /-- Everything is complete. -/
  synced : Bool := true
  seen : Std.ExtTreeSet Hash := ∅
deriving DecidableEq

namespace Tracker

/-- Notes a vote as come across. -/
def mark (t : Tracker) (identity : Hash) : Tracker :=
  { t with seen := t.seen.insert identity }

def forget (t : Tracker) (identities : List Hash) : Tracker :=
  { t with seen := identities.foldl (·.erase ·) t.seen }

end Tracker
end MasternodePayments
