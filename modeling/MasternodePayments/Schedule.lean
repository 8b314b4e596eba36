import MasternodePayments.Arithmetic

/-!
# The reward schedule

Each tier is paid a fixed percentage of the block value, rounded down.
-/

namespace MasternodePayments

/-- The percentage of each tier, tier 1 first. -/
structure Schedule where
  shares : List UInt64
deriving DecidableEq

namespace Schedule

def tierCount (s : Schedule) : UInt32 := UInt32.ofNat s.shares.length

def tiers (s : Schedule) : List Tier :=
  (List.range s.tierCount.toNat).map fun i => UInt32.ofNat (i + 1)

/-- The percentage of a tier, zero outside the schedule. -/
def share (s : Schedule) (tier : Tier) : UInt64 :=
  if tier = 0 then 0 else s.shares.getD (tier.toNat - 1) 0

def payment (s : Schedule) (tier : Tier) (blockValue : Amount) : Checked Amount := do
  let scaled ← mul64 blockValue (s.share tier)
  pure (scaled / 100)

end Schedule
end MasternodePayments
