import MasternodePayments.Arithmetic
import MasternodePayments.Chain.OutPoint
import MasternodePayments.Chain.Script

/-!
# The masternode registry

Masternodes stand in the order in which they were registered. That order decides ranks and the
current winner of a tier, and it breaks ties in the payment queue, which is sorted by the height of
the last payment.
-/

namespace MasternodePayments

structure Masternode where
  id : MasternodeId
  protocol : UInt32
  /-- The key that signs the votes. -/
  operatorKey : PublicKey
  /-- The key that owns the collateral and receives the payments. -/
  collateralKey : PublicKey
  tier : Tier
deriving DecidableEq

def Masternode.payout (m : Masternode) : Script := Script.payToKey m.collateralKey

/-- A masternode with its standing in the registry. -/
structure Registration where
  node : Masternode
  enabled : Bool := true
  lastPaid : Height := 0
deriving DecidableEq

/-- The registered masternodes, first registered first. -/
structure Registry where
  entries : List Registration := []
deriving DecidableEq

namespace Registry

/-- Adds a masternode, enabled and never paid. -/
def register (r : Registry) (m : Masternode) : Registry := ⟨r.entries ++ [⟨m, true, 0⟩]⟩

/-- Changes the first entry with the given identity. -/
def modify (r : Registry) (id : MasternodeId) (f : Registration → Registration) : Registry :=
  ⟨r.entries.modify (r.entries.findIdx (·.node.id == id)) f⟩

def setEnabled (r : Registry) (id : MasternodeId) (on : Bool) : Registry :=
  r.modify id fun e => { e with enabled := on }

def markPaid (r : Registry) (id : MasternodeId) (height : Height) : Registry :=
  r.modify id fun e => { e with lastPaid := height }

def find? (r : Registry) (id : MasternodeId) : Option Masternode :=
  (r.entries.find? (·.node.id == id)).map (·.node)

def findByScript? (r : Registry) (script : Script) : Option Masternode :=
  (r.entries.find? (·.node.payout == script)).map (·.node)

def enabled (r : Registry) : List Registration := r.entries.filter (·.enabled)

def enabledInTier (r : Registry) (tier : Tier) : List Registration :=
  r.entries.filter fun e => e.enabled && e.node.tier == tier

/-- The enabled entries that run at least the given protocol. -/
def eligible (r : Registry) (protocol : UInt32) : List Registration :=
  r.entries.filter fun e => e.enabled && decide (protocol ≤ e.node.protocol)

/-- The place of a masternode among the eligible ones, counted from 1. -/
def rank? (r : Registry) (id : MasternodeId) (protocol : UInt32) : Option Nat :=
  ((r.eligible protocol).findIdx? (·.node.id == id)).map (· + 1)

def size (r : Registry) : Nat := r.entries.length

def enabledCount (r : Registry) : Nat := r.enabled.length

def countInTier (r : Registry) (tier : Tier) : Nat := (r.enabledInTier tier).length

/-- The enabled masternode of a tier that was paid longest ago, the first one on a tie. -/
def nextInQueue? (r : Registry) (tier : Tier) : Option Masternode :=
  ((r.enabledInTier tier).minOn? (·.lastPaid)).map (·.node)

/-- The enabled masternode of a tier that was registered first. -/
def currentWinner? (r : Registry) (tier : Tier) : Option Masternode :=
  (r.enabledInTier tier).head?.map (·.node)

end Registry
end MasternodePayments
