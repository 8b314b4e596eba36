import Mathlib.Algebra.BigOperators.Group.List.Basic
import Mathlib.Algebra.Order.Ring.Nat
import MasternodePayments.Listing
import MasternodePayments.Proofs.Ledger.Reflection
import MasternodePayments.Report.Basic

/-!
# What reports and listings show

A report takes the heights and their candidates from the tallies, and the voters from the votes. A
listing shows the tallies of the heights around the tip. In a ledger whose tallies count its votes
(`Ledger.Counts`) all of these agree: `Report.Agrees` says so for a report, `Ledger.Lists` for a
listing, and `Node.run_views` for the ledgers that a node reaches.
-/

namespace MasternodePayments

/-- Counted by a key, everything is counted once. -/
theorem sum_countP_eq_length {α κ : Type} [DecidableEq κ] {keys : List κ} (hn : keys.Nodup)
    {xs : List α} {f : α → κ} (h : ∀ x ∈ xs, f x ∈ keys) :
    (keys.map fun k => xs.countP fun x => f x = k).sum = xs.length := by
  induction xs with
  | nil => simp
  | cons x xs ih =>
    obtain ⟨hx, hxs⟩ := List.forall_mem_cons.1 h
    have hone : (keys.map fun k => if f x = k then 1 else 0).sum = 1 := by
      rw [List.sum_map_eq_nsmul_single (f x) _ (fun k hk _ => if_neg (Ne.symm hk)), hn.count,
        if_pos hx, if_pos rfl, one_nsmul]
    simp only [List.countP_cons, decide_eq_true_eq, List.sum_map_add, ih hxs, hone,
      List.length_cons]

theorem Tally.sum_payments (t : Tally) : (t.payments.map (·.votes.toNat)).sum = t.totalVotes := by
  unfold payments totalVotes
  induction t.candidates with
  | nil => rfl
  | cons c cs ih => simp_all [ScheduledPayment.ofScript]

namespace Ledger

/-! ## Reports -/

theorem length_votersAt (l : Ledger) (height : Height) :
    (l.snapshot.votersAt height).length = l.votesAt height := by
  simp only [Snapshot.votersAt, List.length_mergeSort, List.length_map, Snapshot.voteList, snapshot,
    votesAt, countVotes, ← List.countP_eq_length_filter, List.countP_map]
  rfl

end Ledger

/-- A report on a whole ledger tells what is stored there. -/
structure Report.Agrees (r : Report) (l : Ledger) : Prop where
  increasing : r.heights.Pairwise (·.height < ·.height)
  /-- The heights are those of the stored votes. -/
  present : ∀ height, height ∈ r.heights.map (·.height) ↔ ∃ v ∈ l.voteList, v.height = height
  voters : ∀ h ∈ r.heights, h.voters.length = (h.payees.map (·.votes.toNat)).sum
  total : (r.heights.map (·.voters.length)).sum = l.voteCount

namespace Ledger

variable {l : Ledger} {o : Origins}

theorem heights_report (l : Ledger) :
    (l.snapshot.report none).heights = l.tallies.toList.map l.snapshot.reportAt := rfl

/-- Every vote for a height counts for one of its candidates. -/
theorem Counts.voters (hc : l.Counts o) {entry : Height × Tally} (h : entry ∈ l.tallies.toList) :
    (l.snapshot.reportAt entry).voters.length =
      ((l.snapshot.reportAt entry).payees.map (·.votes.toNat)).sum := by
  have htally : l.tallyAt entry.1 = entry.2 :=
    tallyAt_eq (Std.ExtTreeMap.mem_toList_iff_getElem?_eq_some.1 h)
  show (l.snapshot.votersAt entry.1).length = (entry.2.payments.map (·.votes.toNat)).sum
  rw [length_votersAt, Tally.sum_payments, ← htally, hc.total]

theorem Counts.report (hc : l.Counts o) : (l.snapshot.report none).Agrees l where
  increasing := by
    rw [heights_report, List.pairwise_map]
    exact Std.ExtTreeMap.ordered_keys_toList.imp Std.compare_eq_lt.1
  present height := by
    rw [heights_report, List.map_map, ← votesAt_pos, ← hc.present, ← Std.ExtTreeMap.mem_keys,
      ← Std.ExtTreeMap.map_fst_toList_eq_keys]
    rfl
  voters h hm := by
    obtain ⟨entry, hentry, rfl⟩ := List.mem_map.1 hm
    exact hc.voters hentry
  total := by
    have hvoters : (l.snapshot.report none).heights.map (·.voters.length) =
        l.tallies.keys.map fun height => l.votes.toList.countP fun e => e.2.height = height := by
      rw [heights_report, ← Std.ExtTreeMap.map_fst_toList_eq_keys, List.map_map, List.map_map]
      exact List.map_congr_left fun entry _ => l.length_votersAt entry.1
    -- A vote for a height without a tally would be missing from the report.
    have hall : ∀ e ∈ l.votes.toList, e.2.height ∈ l.tallies.keys := by
      intro e he
      rw [Std.ExtTreeMap.mem_keys, hc.present, votesAt_pos]
      exact ⟨e.2, List.mem_map_of_mem he, rfl⟩
    have hnodup : l.tallies.keys.Nodup := Std.ExtTreeMap.nodup_keys
    rw [hvoters, sum_countP_eq_length hnodup hall, Std.ExtTreeMap.length_toList]
    rfl

/-- The newest heights of a report are listed as they are in the report on all of them. -/
theorem report_newest (l : Ledger) (count : Nat) :
    (l.snapshot.report (some count)).heights <:+ (l.snapshot.report none).heights ∧
      (l.snapshot.report (some count)).heights.length =
        min count (l.snapshot.report none).blocks := by
  have hheights : (l.snapshot.report (some count)).heights =
      (l.snapshot.report none).heights.drop (l.tallies.size - count) := List.map_drop
  have hblocks : (l.snapshot.report none).blocks = l.tallies.size := rfl
  have hlength : (l.snapshot.report none).heights.length = l.tallies.size := by
    simp [heights_report]
  rw [hheights, List.length_drop, hlength, hblocks]
  exact ⟨List.drop_suffix .., by omega⟩

end Ledger

/-! ## Listings -/

/-- A text stands somewhere in the address of one of the payments. -/
def HeightPayments.Mentions (h : HeightPayments) (part : String) : Prop :=
  ∃ p ∈ h.payments, part.toList <:+: p.address.toList

theorem occursIn_iff {part text : List Char} : occursIn part text = true ↔ part <:+: text := by
  induction text with
  | nil => simp [occursIn]
  | cons c text ih => simp [occursIn, List.infix_cons_iff, ih]

theorem HeightPayments.mentions_iff {h : HeightPayments} {part : String} :
    h.mentions part = true ↔ h.Mentions part := by
  simp [mentions, Mentions, occursIn_iff]

instance (h : HeightPayments) (part : String) : Decidable (h.Mentions part) :=
  decidable_of_iff _ HeightPayments.mentions_iff

namespace Ledger

variable {l : Ledger} {o : Origins} {s : Setting} {height tip : Height}

theorem map_toNat_heightsFrom {first : Height} {count : Nat}
    (h : first.toNat + count ≤ UInt64.size) :
    (heightsFrom first count).map (·.toNat) = List.range' first.toNat count := by
  rw [heightsFrom, List.map_map, List.range'_eq_map_range]
  refine List.map_congr_left fun i hi => ?_
  have hlt := List.mem_range.1 hi
  have hsize : UInt64.size = 2 ^ 64 := rfl
  simp only [Function.comp_apply, UInt64.toNat_add, UInt64.toNat_ofNat']
  omega

/-- The lines of a listing, from `back` heights behind the tip up to the end of the window, tell
what is stored for their heights, superblocks apart, which the budget pays. -/
structure Lists (l : Ledger) (s : Setting) (tip : Height) (back : UInt64)
    (lines : List HeightPayments) : Prop where
  all : l.listing? s back none = .ok (some lines)
  some : ∀ part, l.listing? s back (some part) =
    .ok (some (lines.filter fun line => line.Mentions part))
  heights : lines.map (·.height.toNat) = List.range' (tip.toNat - back.toNat)
    (tip.toNat + s.config.futureWindow.toNat - (tip.toNat - back.toNat))
  votes : ∀ line ∈ lines, s.isSuperblock line.height = false →
    (line.payments.map (·.votes.toNat)).sum = l.votesAt line.height
  unknown : ∀ line ∈ lines, s.isSuperblock line.height = false →
    (line.payments = [.unknown] ↔ l.votesAt line.height = 0)

theorem Counts.sum_payments (hc : l.Counts o) (height : Height) :
    ((l.payments height).map (·.votes.toNat)).sum = l.votesAt height := by
  rw [← hc.total, ← Tally.sum_payments, Ledger.payments, tallyAt]
  cases l.tallies[height]? <;> rfl

theorem Counts.sum_listingAt (hc : l.Counts o) (h : s.isSuperblock height = false) :
    ((l.listingAt s height).payments.map (·.votes.toNat)).sum = l.votesAt height := by
  rw [← hc.sum_payments]
  cases hpayments : l.payments height <;>
    simp [listingAt, expectedPayments, h, hpayments, ScheduledPayment.unknown]

/-- Nobody is expected exactly where nobody voted: what has votes is no unknown payee. -/
theorem Counts.listingAt_eq_unknown (hc : l.Counts o) (h : s.isSuperblock height = false) :
    (l.listingAt s height).payments = [.unknown] ↔ l.votesAt height = 0 := by
  constructor
  · intro hunknown
    rw [← hc.sum_listingAt h, hunknown]
    rfl
  · intro hzero
    have habsent : height ∉ l.tallies := by simp [hc.present, hzero]
    simp [listingAt, expectedPayments, h, payments, Std.ExtTreeMap.getElem?_eq_none habsent]

theorem listing?_eq (htip : s.chain.tip? = some tip) {last : Height}
    (hlast : add64 tip s.config.futureWindow = .ok last) (back : UInt64) (part : Option String) :
    l.listing? s back part = .ok (some
      (((heightsFrom (monus tip back) (last.toNat - (monus tip back).toNat)).map
        (l.listingAt s)).filter fun line => part.all line.mentions)) := by
  simp only [listing?, htip, hlast]
  rfl

/-- **A listing tells what is stored**, whatever height the tip is at, as long as the end of the
window is a word. -/
theorem Counts.exists_lists (hc : l.Counts o) (htip : s.chain.tip? = some tip) (back : UInt64)
    (hfits : tip.toNat + s.config.futureWindow.toNat < UInt64.size) :
    ∃ lines, l.Lists s tip back lines := by
  obtain ⟨last, hlast⟩ : ∃ last, add64 tip s.config.futureWindow = .ok last := ⟨_, if_pos hfits⟩
  have hsum := add64_eq_ok.1 hlast
  have hword := last.toNat_lt_size
  have hbound : (monus tip back).toNat + (last.toNat - (monus tip back).toNat) ≤ UInt64.size := by
    simp only [toNat_monus]
    omega
  refine ⟨(heightsFrom (monus tip back) (last.toNat - (monus tip back).toNat)).map (l.listingAt s),
    ?_, fun part => ?_, ?_, ?_, ?_⟩
  case refine_1 => simp [listing?_eq htip hlast]
  case refine_2 => simp [listing?_eq htip hlast, ← HeightPayments.mentions_iff]
  case refine_3 =>
    rw [List.map_map, hsum, ← toNat_monus tip back]
    exact map_toNat_heightsFrom hbound
  case refine_4 =>
    simp only [List.forall_mem_map]
    exact fun height _ h => hc.sum_listingAt h
  case refine_5 =>
    simp only [List.forall_mem_map]
    exact fun height _ h => hc.listingAt_eq_unknown h

theorem listing?_of_overflow (htip : s.chain.tip? = some tip)
    (h : UInt64.size ≤ tip.toNat + s.config.futureWindow.toNat) (back : UInt64)
    (part : Option String) : l.listing? s back part = .error .addition := by
  have hlast : add64 tip s.config.futureWindow = .error .addition := add64_eq_error.2 ⟨h, rfl⟩
  simp only [listing?, htip, hlast]
  rfl

end Ledger

/-! ## Runs -/

/-- **Reports and listings agree with the stored votes**, in every ledger that is reached from an
empty one without a restoration. A report on the newest heights is the end of the report on all of
them. A listing fails if the window ends beyond the last word, and only then. -/
theorem Node.run_views {n m : Node} {es : List Event} (hl : n.ledger = {})
    (hes : ∀ snapshot, .restore snapshot ∉ es) (h : n.run es = .ok m) :
    (m.ledger.snapshot.report none).Agrees m.ledger ∧
    (∀ count, (m.ledger.snapshot.report (some count)).heights <:+
        (m.ledger.snapshot.report none).heights ∧
      (m.ledger.snapshot.report (some count)).heights.length =
        min count (m.ledger.snapshot.report none).blocks) ∧
    ∀ s tip back, s.chain.tip? = some tip →
      (tip.toNat + s.config.futureWindow.toNat < UInt64.size →
        ∃ lines, m.ledger.Lists s tip back lines) ∧
      (UInt64.size ≤ tip.toNat + s.config.futureWindow.toNat →
        ∀ part, m.ledger.listing? s back part = .error .addition) := by
  obtain ⟨o, -, hc⟩ := run_counts hl hes h
  exact ⟨hc.report, m.ledger.report_newest, fun s tip back htip =>
    ⟨hc.exists_lists htip back, fun ho => Ledger.listing?_of_overflow htip ho back⟩⟩

/-- Both of two votes for height 1005 are reported, and listed while the tip is at 1004. -/
theorem Node.run_views_twoVotes : ∃ m lines,
    ({ setting := Sample.setting {} [0] 1000 } : Node).run Sample.twoVotes = .ok m ∧
    (m.ledger.snapshot.report none).heights.map
      (fun h => (h.height, h.payees.map (·.votes))) = [(1005, [2])] ∧
    (m.ledger.snapshot.report none).Agrees m.ledger ∧
    m.ledger.Lists (Sample.setting {} [0] 1004) 1004 1 lines ∧
    m.ledger.listing? (Sample.setting {} [0] (-1)) 1 none = .error .addition := by
  obtain ⟨m, hm, htallies⟩ := Sample.run_twoVotes
  obtain ⟨hagrees, -, hlistings⟩ := run_views rfl (by simp [Sample.twoVotes]) hm
  obtain ⟨lines, hlines⟩ := (hlistings (Sample.setting {} [0] 1004) 1004 1 rfl).1 (by decide)
  refine ⟨m, lines, hm, ?_, hagrees, hlines,
    (hlistings (Sample.setting {} [0] (-1)) (-1) 1 rfl).2 (by decide) none⟩
  rw [Ledger.heights_report, htallies]
  rfl

end MasternodePayments
