import MasternodePayments.Arithmetic
import MasternodePayments.Bytes.Basic

/-!
# Parameters

`Network` holds what differs from network to network and `Config` the tunables of the payment
rules. A population bound is a percentage of a number of masternodes, rounded up; it says how far
back votes reach and, with a floor, how long they are kept.
-/

namespace MasternodePayments

structure Network where
  /-- Marks the files and messages of the network. -/
  magic : FixedBytes 4
  /-- Only the main network answers one sync request per peer. -/
  isMain : Bool
  /-- The last height whose block is made by work. -/
  lastWorkHeight : Height
  activeProtocol : UInt32
  /-- The least protocol accepted while updates are not enforced. -/
  oldestProtocol : UInt32
  /-- The distance of superblocks. -/
  budgetCycle : UInt64
deriving DecidableEq

namespace Network

def main : Network := ⟨⟨[0x91, 0xc4, 0xfd, 0xe9], rfl⟩, true, 200, 70920, 70910, 43200⟩

/-- The public test network. -/
def test : Network := ⟨⟨[0x45, 0x76, 0x65, 0xba], rfl⟩, false, 200, 70920, 70910, 144⟩

/-- The network of local tests. -/
def regression : Network := ⟨⟨[0xa1, 0xcf, 0x7e, 0xac], rfl⟩, false, 250, 70920, 70910, 144⟩

def byName? (name : String) : Option Network :=
  if name = "mainnet" ∨ name = "main" then some main
  else if name = "testnet" ∨ name = "test" then some test
  else if name = "regtest" then some regression
  else none

end Network

structure Config where
  /-- Votes that confirm a candidate. -/
  signaturesRequired : UInt32 := 6
  /-- The last rank that may vote. -/
  signaturesTotal : UInt64 := 10
  /-- How far beyond the tip votes reach. -/
  futureWindow : UInt64 := 20
  /-- The percentage behind the population bounds. -/
  populationPercent : UInt64 := 125
  /-- The least number of blocks that votes are kept for. -/
  minRetention : UInt64 := 1000
  /-- How far ahead a payment counts as scheduled. -/
  scheduleLookahead : UInt64 := 10
  /-- How far below the voted height the reference block lies. -/
  referenceOffset : UInt64 := 100
  /-- What a protocol violation adds to the score of a peer. -/
  misbehaviourScore : Int32 := 20
  /-- The allowance on the number of masternodes. -/
  countDrift : UInt64 := 20
  /-- Leaves payments alone. -/
  liteMode : Bool := false
  network : Network := .main
deriving DecidableEq

namespace Config

/-- The population bound of a number of masternodes: its percentage, rounded up. -/
def scaledPopulation (c : Config) (count : Nat) : Checked UInt64 :=
  let scaled := count * c.populationPercent.toNat
  if UInt64.size ≤ scaled then .error .multiplication
  else if UInt64.size ≤ scaled + 99 then .error .addition
  else .ok (UInt64.ofNat ((scaled + 99) / 100))

/-- How many blocks behind the current one votes are kept. -/
def retentionHorizon (c : Config) (enabledCount : Nat) : Checked UInt64 := do
  let scaled ← c.scaledPopulation enabledCount
  pure (max scaled c.minRetention)

theorem scaledPopulation_eq_ok {c : Config} {count : Nat} {n : UInt64} :
    c.scaledPopulation count = .ok n ↔
      count * c.populationPercent.toNat + 99 < UInt64.size ∧
        n.toNat = (count * c.populationPercent.toNat + 99) / 100 := by
  have hn := n.toNat_lt_size
  simp only [scaledPopulation]
  split
  · simp only [reduceCtorEq, false_iff]
    omega
  · split
    · simp only [reduceCtorEq, false_iff]
      omega
    · next h =>
      rw [Except.ok.injEq, ← UInt64.toNat_inj, UInt64.toNat_ofNat_of_lt' (by omega)]
      constructor
      · intro h'
        exact ⟨by omega, h'.symm⟩
      · exact fun h' => h'.2.symm

end Config
end MasternodePayments
