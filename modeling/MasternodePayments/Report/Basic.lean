import MasternodePayments.Ledger.Snapshot
import MasternodePayments.Report.Document

/-!
# Reports on snapshots

A report lists the candidates and the voters of the newest heights of a snapshot, together with
its size and its bounds.
-/

namespace MasternodePayments

/-- The candidates of a height and those who voted for it. -/
structure HeightReport where
  height : Height
  payees : List ScheduledPayment
  voters : List String
deriving DecidableEq

structure Report where
  summary : String
  votes : Nat
  blocks : Nat
  oldest : Option Height
  newest : Option Height
  heights : List HeightReport
deriving DecidableEq

namespace Snapshot

/-- The masternodes with a vote for a height, as text and in the order of the text. -/
def votersAt (s : Snapshot) (height : Height) : List String :=
  ((s.voteList.filter (·.height == height)).map (·.voter.text)).mergeSort
    fun a b => (compare a b).isLE

def reportAt (s : Snapshot) (entry : Height × Tally) : HeightReport :=
  ⟨entry.1, entry.2.payments, s.votersAt entry.1⟩

/-- The report on a snapshot with its newest `last` heights, or with all. -/
def report (s : Snapshot) (last : Option Nat) : Report where
  summary := s.summary
  votes := s.votes.size
  blocks := s.tallies.size
  oldest := s.tallies.minKey?
  newest := s.tallies.maxKey?
  heights :=
    let skipped := match last with
      | some n => s.tallies.size - n
      | none => 0
    (s.tallies.toList.drop skipped).map s.reportAt

end Snapshot

def ScheduledPayment.document (p : ScheduledPayment) : Document :=
  .record [("address", .text p.address), ("votes", .number p.votes.toNat),
    ("tier", .number p.tier.toNat)]

def HeightReport.document (h : HeightReport) : Document :=
  .record [("height", .number h.height.toNat),
    ("payees", .list (h.payees.map (·.document))),
    ("voters", .list (h.voters.map .text))]

def Report.document (r : Report) : Document :=
  .record [("summary", .text r.summary), ("votes", .number r.votes),
    ("blocks", .number r.blocks), ("oldest_block", .ofNumber? (r.oldest.map (·.toNat))),
    ("newest_block", .ofNumber? (r.newest.map (·.toNat))),
    ("heights", .list (r.heights.map (·.document)))]

end MasternodePayments
