import MasternodePayments.Proofs.Checked
import MasternodePayments.Proofs.Tally.Order

/-!
# The verdict of a tally on a transaction

What the tiers of a height are due can come from any schedule (`Dues`), also from one that has a due
for other tiers than it counts or that overflows for some. A tally accepts a transaction exactly if
every tier is satisfied by itself: nobody in it has enough votes, or somebody who has is paid
(`Tally.meets_iff`). More outputs, larger ones and another order of them can only help
(`Tally.TierMet.mono`).

* `Dues.mem_tiers`: the tiers are counted from 1.
* `Tally.exists_leader`: a tier in which somebody has enough votes is led by a confirmed candidate.
* `Tally.meetsTier_eq_true`, `Tally.tierMet_iff`: what is asked of a tier, by its most votes and by
  its candidates.
-/

namespace MasternodePayments

/-- What a reward transaction is measured against, whatever the schedule. -/
structure Dues where
  tierCount : UInt32
  /-- What a tier is due at the height, unless that overflows. -/
  due : Tier → Checked Amount
  /-- Votes that confirm a candidate. -/
  required : UInt32

namespace Dues

def tiers (d : Dues) : List Tier :=
  (List.range d.tierCount.toNat).map fun i => UInt32.ofNat (i + 1)

theorem mem_tiers {d : Dues} {tier : Tier} : tier ∈ d.tiers ↔ 1 ≤ tier ∧ tier ≤ d.tierCount := by
  have hcount := d.tierCount.toNat_lt_size
  simp only [tiers, List.mem_map, List.mem_range, UInt32.le_iff_toNat_le]
  constructor
  · rintro ⟨i, hi, rfl⟩
    rw [UInt32.toNat_ofNat_of_lt' (by omega)]
    exact ⟨Nat.succ_le_succ (Nat.zero_le i), hi⟩
  · rintro ⟨hone, hle⟩
    have hone : 1 ≤ tier.toNat := hone
    refine ⟨tier.toNat - 1, by omega, ?_⟩
    rw [Nat.sub_add_cancel hone, UInt32.ofNat_toNat]

end Dues

/-- The dues of a schedule of fixed percentages. -/
def PaymentRules.dues (rules : PaymentRules) : Dues where
  tierCount := rules.schedule.tierCount
  due tier := rules.schedule.payment tier rules.blockValue
  required := rules.required

/-- Every output of a transaction has one in the other that pays as much or more to its script. -/
def Transaction.MatchedBy (tx tx' : Transaction) : Prop :=
  ∀ o ∈ tx.outputs, ∃ o' ∈ tx'.outputs, o'.script = o.script ∧ o.value ≤ o'.value

theorem Transaction.pays_eq_true {tx : Transaction} {script : Script} {amount : Amount} :
    tx.pays script amount = true ↔ ∃ o ∈ tx.outputs, o.script = script ∧ amount ≤ o.value := by
  simp only [pays, List.any_eq_true, Bool.and_eq_true, beq_iff_eq, decide_eq_true_eq]

theorem Transaction.MatchedBy.pays {tx tx' : Transaction} {script : Script} {amount : Amount}
    (h : tx.MatchedBy tx') (hpays : tx.pays script amount = true) :
    tx'.pays script amount = true := by
  obtain ⟨o, ho, rfl, hvalue⟩ := pays_eq_true.1 hpays
  obtain ⟨o', ho', hscript, hle⟩ := h o ho
  exact pays_eq_true.2 ⟨o', ho', hscript, UInt64.le_trans hvalue hle⟩

namespace Tally

variable {t : Tally} {d : Dues} {tx tx' : Transaction} {tier : Tier} {tiers : List Tier}
  {p : Tier → Checked Bool} {c : Candidate}

/-! ## Conditions on all tiers -/

theorem allTiers_eq_true : allTiers p tiers = .ok true ↔ ∀ tier ∈ tiers, p tier = .ok true := by
  induction tiers with
  | nil => simp [allTiers]
  | cons tier tiers ih =>
    rw [List.forall_mem_cons, ← ih, allTiers, bind_eq_ok]
    constructor
    · rintro ⟨holds, hp, h⟩
      cases holds with
      | true => exact ⟨hp, h⟩
      | false => cases h
    · rintro ⟨hp, h⟩
      exact ⟨true, hp, h⟩

theorem exists_allTiers (h : ∀ tier ∈ tiers, ∃ b, p tier = .ok b) :
    ∃ b, allTiers p tiers = .ok b := by
  induction tiers with
  | nil => exact ⟨true, rfl⟩
  | cons tier tiers ih =>
    obtain ⟨hp, hps⟩ := List.forall_mem_cons.1 h
    obtain ⟨holds, hp⟩ := hp
    cases holds with
    | true =>
      obtain ⟨b, hb⟩ := ih hps
      exact ⟨b, bind_eq_ok.2 ⟨true, hp, hb⟩⟩
    | false => exact ⟨false, bind_eq_ok.2 ⟨false, hp, rfl⟩⟩

/-! ## Confirmed tiers -/

theorem le_mostVotes_of_confirmed {required : UInt32} (h : c ∈ t.confirmed tier required) :
    required ≤ t.mostVotes tier := by
  obtain ⟨hm, htier, hvotes⟩ := mem_confirmed.1 h
  exact UInt32.le_trans hvotes (votes_le_mostVotes (mem_inTier.2 ⟨hm, htier⟩))

/-- A tier in which somebody has enough votes is led by a confirmed candidate. -/
theorem exists_leader {required : UInt32} (hpos : 0 < required)
    (h : required ≤ t.mostVotes tier) :
    ∃ c, t.leader? tier = some c ∧ c ∈ t.confirmed tier required := by
  cases hc : t.leader? tier with
  | none =>
    rw [mostVotes, leader?_eq_none.1 hc] at h
    exact absurd (UInt32.lt_of_lt_of_le hpos h) (UInt32.lt_irrefl 0)
  | some c =>
    obtain ⟨hm, htier⟩ := mem_inTier.1 (mem_of_leader? hc)
    exact ⟨c, rfl, mem_confirmed.2 ⟨hm, htier, votes_leader? hc ▸ h⟩⟩

/-- The most votes of a tier are too few exactly if those of every candidate are. -/
theorem mostVotes_lt_iff {required : UInt32} (hpos : 0 < required) :
    t.mostVotes tier < required ↔ ∀ c ∈ t.candidates, c.tier = tier → c.votes < required := by
  constructor
  · intro h c hc htier
    exact UInt32.lt_of_le_of_lt (votes_le_mostVotes (mem_inTier.2 ⟨hc, htier⟩)) h
  · intro h
    by_contra hle
    obtain ⟨c, -, hc⟩ := exists_leader hpos (UInt32.not_lt.1 hle)
    obtain ⟨hc, htier, hvotes⟩ := mem_confirmed.1 hc
    exact UInt32.not_lt.2 hvotes (h c hc htier)

/-! ## The verdict -/

/-- `Tally.acceptsTier` for any dues. -/
def meetsTier (t : Tally) (d : Dues) (tx : Transaction) (tier : Tier) : Checked Bool :=
  if t.mostVotes tier < d.required then .ok true
  else do
    let due ← d.due tier
    pure ((t.confirmed tier d.required).any fun c => tx.pays c.script due)

/-- `Tally.accepts` for any dues. -/
def meets (t : Tally) (d : Dues) (tx : Transaction) : Checked Bool :=
  allTiers (t.meetsTier d tx) d.tiers

theorem acceptsTier_eq_meetsTier (t : Tally) (rules : PaymentRules) (tx : Transaction)
    (tier : Tier) : t.acceptsTier rules tx tier = t.meetsTier rules.dues tx tier := rfl

theorem accepts_eq_meets (t : Tally) (rules : PaymentRules) (tx : Transaction) :
    t.accepts rules tx = t.meets rules.dues tx := rfl

/-- The transaction satisfies a tier: nobody has enough votes, or somebody who has is paid. -/
def TierMet (t : Tally) (d : Dues) (tx : Transaction) (tier : Tier) : Prop :=
  (∀ c ∈ t.candidates, c.tier = tier → c.votes < d.required) ∨
    ∃ due, d.due tier = .ok due ∧ ∃ c ∈ t.candidates, c.tier = tier ∧ d.required ≤ c.votes ∧
      tx.pays c.script due = true

theorem TierMet.mono (h : t.TierMet d tx tier) (hmatch : tx.MatchedBy tx') :
    t.TierMet d tx' tier := by
  rcases h with hnone | ⟨due, hdue, c, hc, htier, hvotes, hpays⟩
  · exact .inl hnone
  · exact .inr ⟨due, hdue, c, hc, htier, hvotes, hmatch.pays hpays⟩

theorem meetsTier_eq_true : t.meetsTier d tx tier = .ok true ↔
    (d.required ≤ t.mostVotes tier → ∃ due, d.due tier = .ok due ∧
      ∃ c ∈ t.confirmed tier d.required, tx.pays c.script due = true) := by
  unfold meetsTier
  split
  · next hfew =>
    refine ⟨fun _ h => ?_, fun _ => rfl⟩
    exact absurd hfew (UInt32.not_lt.2 h)
  · next hmany =>
    rw [imp_iff_right (UInt32.not_lt.1 hmany)]
    simp only [bind_eq_ok, pure_eq_ok, List.any_eq_true]

theorem tierMet_iff (hpos : 0 < d.required) :
    t.meetsTier d tx tier = .ok true ↔ t.TierMet d tx tier := by
  rw [meetsTier_eq_true, TierMet, ← mostVotes_lt_iff hpos, ← UInt32.not_lt, ← or_iff_not_imp_left]
  simp only [mem_confirmed, and_assoc]

/-- A tier gets an answer if its due is defined, or if nobody in it has enough votes. -/
theorem exists_meetsTier (h : d.required ≤ t.mostVotes tier → ∃ due, d.due tier = .ok due) :
    ∃ answer, t.meetsTier d tx tier = .ok answer := by
  unfold meetsTier
  split
  · exact ⟨true, rfl⟩
  · next hmany =>
    obtain ⟨due, hdue⟩ := h (UInt32.not_lt.1 hmany)
    exact ⟨_, bind_eq_ok.2 ⟨due, hdue, rfl⟩⟩

/-- **The verdict of a tally.** It accepts the transactions that satisfy every tier by itself. It
has an answer if the dues of the tiers with a confirmed candidate are defined. A transaction that
has as much or more for every output of an accepted one is accepted. -/
theorem meets_iff (t : Tally) (hpos : 0 < d.required) :
    (∀ tx, t.meets d tx = .ok true ↔
      ∀ tier, 1 ≤ tier → tier ≤ d.tierCount →
        (∀ c ∈ t.candidates, c.tier = tier → c.votes < d.required) ∨
        ∃ due, d.due tier = .ok due ∧ ∃ c ∈ t.candidates, c.tier = tier ∧ d.required ≤ c.votes ∧
          ∃ o ∈ tx.outputs, o.script = c.script ∧ due ≤ o.value) ∧
    ((∀ tier, 1 ≤ tier → tier ≤ d.tierCount →
        (∃ c ∈ t.candidates, c.tier = tier ∧ d.required ≤ c.votes) →
        ∃ due, d.due tier = .ok due) →
      ∀ tx, ∃ answer, t.meets d tx = .ok answer) ∧
    (∀ tx tx', t.meets d tx = .ok true → tx.MatchedBy tx' → t.meets d tx' = .ok true) ∧
    ∀ rules tx, PaymentRules.dues rules = d → t.accepts rules tx = t.meets d tx := by
  have hmeets : ∀ tx, t.meets d tx = .ok true ↔ ∀ tier ∈ d.tiers, t.TierMet d tx tier := fun tx =>
    by simp only [meets, allTiers_eq_true, tierMet_iff hpos]
  refine ⟨fun tx => ?_, fun hdue tx => ?_, fun tx tx' htx hmatch => ?_, ?_⟩
  · simp only [hmeets, Dues.mem_tiers, TierMet, Transaction.pays_eq_true, and_imp]
  · refine exists_allTiers fun tier htier => exists_meetsTier fun hmany => ?_
    obtain ⟨hone, hle⟩ := Dues.mem_tiers.1 htier
    obtain ⟨c, -, hc⟩ := exists_leader hpos hmany
    exact hdue tier hone hle ⟨c, mem_confirmed.1 hc⟩
  · exact (hmeets tx').2 fun tier htier => ((hmeets tx).1 htx tier htier).mono hmatch
  · rintro rules tx rfl
    exact t.accepts_eq_meets rules tx

end Tally

/-! ## Two candidates of one tier -/

namespace Sample

/-- In the first tier two candidates are confirmed by two votes, in the second one nobody is. -/
def rivals : Tally := ⟨1001, [⟨[0x53], 1, 2⟩, ⟨[0x54], 2, 1⟩, ⟨[0x55], 1, 3⟩]⟩

/-- Only the first tier has a due. -/
def firstDue : Dues := ⟨2, fun tier => if tier = 1 then .ok 50 else .error .multiplication, 2⟩

/-- The candidate with fewer votes is paid. -/
def paysOne : Transaction := ⟨.coinbase, [⟨30, [0x51], none⟩, ⟨50, [0x53], none⟩]⟩

/-- More is paid, in another order. -/
def paysMore : Transaction :=
  ⟨.coinstake, [⟨60, [0x53], none⟩, ⟨1, [0x56], none⟩, ⟨30, [0x51], some [1]⟩]⟩

end Sample

open Sample in
theorem Tally.meets_iff_rivals : 0 < firstDue.required ∧ paysOne.MatchedBy paysMore ∧
    rivals.meets firstDue paysOne = .ok true ∧ rivals.meets firstDue paysMore = .ok true ∧
    rivals.meets firstDue ⟨.coinbase, [⟨49, [0x53], none⟩]⟩ = .ok false := by
  have hpos : 0 < firstDue.required := by decide
  obtain ⟨-, -, hmono, -⟩ := rivals.meets_iff hpos
  have hone : rivals.meets firstDue paysOne = .ok true := by decide
  have hmatch : paysOne.MatchedBy paysMore := by
    unfold Transaction.MatchedBy
    decide
  exact ⟨hpos, hmatch, hone, hmono _ _ hone hmatch, by decide⟩

end MasternodePayments
