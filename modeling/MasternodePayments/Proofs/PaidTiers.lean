import Mathlib.Algebra.BigOperators.Group.Finset.Basic
import Mathlib.Algebra.Order.BigOperators.Group.Finset
import Mathlib.Algebra.Order.Ring.Nat
import MasternodePayments.Proofs.Acceptance
import MasternodePayments.Proofs.Ledger.Tallied

/-!
# What confirmed tiers are paid

An accepted transaction pays every confirmed tier, but each tier is looked at by itself. So one
output can serve several tiers, if a script is confirmed in all of them.

* `Ledger.due_le_paidTo`: each confirmed tier is paid what it is due.
* `Ledger.sum_due_le_paidTo`: tiers that share no script are paid separately.
* `Ledger.Tallied.disjoint_confirmedScripts`: while masternodes with the same payout are of the same
  tier, no tiers share a script.
* `Ledger.confirmed_tiers_paid`: both together.
* `Node.not_confirmed_tiers_paid`: tiers that share a script can be paid by one output.
-/

namespace MasternodePayments

/-! ## The outputs to some scripts -/

namespace Transaction

/-- What a transaction pays to some scripts in all. -/
def paidTo (tx : Transaction) (scripts : Finset Script) : Nat :=
  ((tx.outputs.filter (·.script ∈ scripts)).map (·.value.toNat)).sum

variable {tx : Transaction} {scripts others : Finset Script}

theorem paidTo_cons (kind : Kind) (o : Output) (os : List Output) (scripts : Finset Script) :
    paidTo ⟨kind, o :: os⟩ scripts =
      (if o.script ∈ scripts then o.value.toNat else 0) + paidTo ⟨kind, os⟩ scripts := by
  by_cases h : o.script ∈ scripts <;> simp [paidTo, h]

theorem paidTo_union (h : Disjoint scripts others) :
    tx.paidTo (scripts ∪ others) = tx.paidTo scripts + tx.paidTo others := by
  obtain ⟨kind, outputs⟩ := tx
  induction outputs with
  | nil => rfl
  | cons o os ih =>
    rw [paidTo_cons, paidTo_cons, paidTo_cons, ih]
    by_cases hs : o.script ∈ scripts
    · have ho : o.script ∉ others := Finset.disjoint_left.1 h hs
      simp only [Finset.mem_union, hs, ho, or_false, if_true, if_false]
      omega
    · simp only [Finset.mem_union, hs, false_or, if_false]
      omega

theorem paidTo_mono (h : scripts ⊆ others) : tx.paidTo scripts ≤ tx.paidTo others := by
  rw [← Finset.union_sdiff_of_subset h, paidTo_union Finset.disjoint_sdiff]
  exact Nat.le_add_right ..

/-- What is paid to scripts that no two of some tiers share adds up. -/
theorem sum_paidTo {tiers : Finset Tier} {scripts : Tier → Finset Script}
    (h : (tiers : Set Tier).PairwiseDisjoint scripts) :
    ∑ tier ∈ tiers, tx.paidTo (scripts tier) = tx.paidTo (tiers.biUnion scripts) := by
  induction tiers using Finset.induction_on with
  | empty =>
    obtain ⟨kind, outputs⟩ := tx
    simp [paidTo]
  | insert tier tiers hnew ih =>
    rw [Finset.coe_insert, Set.pairwiseDisjoint_insert_of_notMem (by simpa using hnew)] at h
    obtain ⟨htiers, htier⟩ := h
    rw [Finset.sum_insert hnew, ih htiers, Finset.biUnion_insert, paidTo_union]
    rw [Finset.disjoint_biUnion_right]
    intro t ht
    exact htier t (by simpa using ht)

theorem le_paidTo_of_pays {script : Script} {amount : Amount} (hs : script ∈ scripts)
    (h : tx.pays script amount = true) : amount.toNat ≤ tx.paidTo scripts := by
  obtain ⟨kind, outputs⟩ := tx
  obtain ⟨o, ho, hpays⟩ := List.any_eq_true.1 h
  simp only [Bool.and_eq_true, beq_iff_eq, decide_eq_true_eq] at hpays
  obtain ⟨rfl, hvalue⟩ := hpays
  obtain ⟨pre, post, rfl⟩ := List.append_of_mem ho
  rw [UInt64.le_iff_toNat_le] at hvalue
  simp only [paidTo, List.filter_append, List.filter_cons, hs, decide_true, if_true,
    List.map_append, List.map_cons, List.sum_append, List.sum_cons]
  omega

end Transaction

/-! ## The confirmed tiers -/

namespace Ledger

variable {l : Ledger} {s : Setting} {tx : Transaction} {height : Height} {tier : Tier}
  {tiers : Finset Tier} {c : Candidate} {script : Script}

/-- The scripts that are confirmed in a tier of a height. -/
def confirmedScripts (l : Ledger) (s : Setting) (height : Height) (tier : Tier) : Finset Script :=
  (((l.tallyAt height).confirmed tier s.config.signaturesRequired).map (·.script)).toFinset

/-- The tiers in which some script is confirmed. -/
def confirmedTiers (l : Ledger) (s : Setting) (height : Height) : Finset Tier :=
  s.schedule.tiers.toFinset.filter fun tier => (l.confirmedScripts s height tier).Nonempty

/-- The scripts that are confirmed in any tier. -/
def confirmedPayees (l : Ledger) (s : Setting) (height : Height) : Finset Script :=
  (l.confirmedTiers s height).biUnion (l.confirmedScripts s height)

theorem mem_confirmedScripts : script ∈ l.confirmedScripts s height tier ↔
    ∃ c ∈ (l.tallyAt height).confirmed tier s.config.signaturesRequired, c.script = script := by
  rw [confirmedScripts, List.mem_toFinset, List.mem_map]

theorem mem_confirmedTiers : tier ∈ l.confirmedTiers s height ↔ tier ∈ s.schedule.tiers ∧
    ∃ c, c ∈ (l.tallyAt height).confirmed tier s.config.signaturesRequired := by
  rw [confirmedTiers, Finset.mem_filter, List.mem_toFinset]
  apply and_congr_right
  intro _
  constructor
  · rintro ⟨script, hscript⟩
    obtain ⟨c, hc, -⟩ := mem_confirmedScripts.1 hscript
    exact ⟨c, hc⟩
  · rintro ⟨c, hc⟩
    exact ⟨c.script, mem_confirmedScripts.2 ⟨c, hc, rfl⟩⟩

/-- Where somebody is confirmed there is a tally. -/
theorem tallies_of_confirmed {required : UInt32}
    (h : c ∈ (l.tallyAt height).confirmed tier required) :
    ∃ t, l.tallies[height]? = some t ∧ c ∈ t.confirmed tier required := by
  cases ht : l.tallies[height]? with
  | none => simp [tallyAt, ht, Tally.mem_confirmed] at h
  | some t => exact ⟨t, rfl, tallyAt_eq ht ▸ h⟩

theorem accepts_confirmed (h : l.accepts s tx height = .ok true)
    (htier : tier ∈ l.confirmedTiers s height) : s.schedule.Fits tier s.chain.blockValue ∧
      (l.tallyAt height).PaysTier s.rules tx tier := by
  obtain ⟨hmem, c, hc⟩ := mem_confirmedTiers.1 htier
  obtain ⟨t, ht, hc⟩ := tallies_of_confirmed hc
  rw [tallyAt_eq ht]
  exact Tally.accepts_eq_true.1 (accepts_tally ht h) tier hmem (Tally.le_mostVotes_of_confirmed hc)

/-- Each confirmed tier is paid what it is due. -/
theorem due_le_paidTo (h : l.accepts s tx height = .ok true)
    (htier : tier ∈ l.confirmedTiers s height) :
    (s.schedule.due tier s.chain.blockValue).toNat ≤
      tx.paidTo (l.confirmedScripts s height tier) := by
  obtain ⟨-, c, hc, hpays⟩ := accepts_confirmed h htier
  exact Transaction.le_paidTo_of_pays (mem_confirmedScripts.2 ⟨c, hc, rfl⟩) hpays

/-- **Tiers that share no confirmed script are paid separately.** -/
theorem sum_due_le_paidTo (h : l.accepts s tx height = .ok true)
    (hsub : tiers ⊆ l.confirmedTiers s height)
    (hdisjoint : (tiers : Set Tier).PairwiseDisjoint (l.confirmedScripts s height)) :
    ∑ tier ∈ tiers, (s.schedule.due tier s.chain.blockValue).toNat ≤
      tx.paidTo (l.confirmedPayees s height) := calc
  _ ≤ ∑ tier ∈ tiers, tx.paidTo (l.confirmedScripts s height tier) :=
    Finset.sum_le_sum fun _ htier => due_le_paidTo h (hsub htier)
  _ = tx.paidTo (tiers.biUnion (l.confirmedScripts s height)) := Transaction.sum_paidTo hdisjoint
  _ ≤ tx.paidTo (l.confirmedPayees s height) :=
    Transaction.paidTo_mono (Finset.biUnion_subset_biUnion_of_subset_left _ hsub)

end Ledger

/-! ## Payouts and tiers -/

namespace Registry

/-- Masternodes with the same payout are of the same tier. -/
def OneTierPerPayout (r : Registry) : Prop :=
  ∀ e ∈ r.entries, ∀ e' ∈ r.entries, e.node.payout = e'.node.payout → e.node.tier = e'.node.tier

theorem OneTierPerPayout.tier_eq {r : Registry} (h : r.OneTierPerPayout) {script : Script}
    {tier tier' : Tier} (hp : r.Pays script tier) (hp' : r.Pays script tier') : tier = tier' := by
  obtain ⟨e, he, rfl, rfl⟩ := hp
  obtain ⟨e', he', hpayout, rfl⟩ := hp'
  exact h e he e' he' hpayout.symm

end Registry

namespace Ledger

variable {l : Ledger} {s : Setting} {tx : Transaction} {height : Height} {c : Candidate}

/-- The ledger of a node that started without votes and ran under the rules of a setting. -/
def FilledUnder (l : Ledger) (s : Setting) : Prop :=
  ∃ (n m : Node) (es : List Node.Event), n.ledger = {} ∧ s.SameRules n.setting ∧
    (∀ e ∈ es, e.Fixes s) ∧ n.run es = .ok m ∧ m.ledger = l

theorem FilledUnder.tallied (h : l.FilledUnder s) : l.Tallied s := by
  obtain ⟨n, m, es, hl, hs, hes, hrun, rfl⟩ := h
  exact Node.run_tallied hl hs hes hrun

/-- Every candidate stands for a registered masternode. -/
theorem Tallied.pays_candidate (h : l.Tallied s) (hc : c ∈ (l.tallyAt height).candidates) :
    s.registry.Pays c.script c.tier := by
  have hlength := h.weightIn_eq height c.key
  rw [Tally.weightIn_key (h.nodup_keys height) hc] at hlength
  have hpos : 0 < c.votes.toNat := by
    obtain ⟨o, hcounts, -⟩ := h
    exact hcounts.positive height c hc
  obtain ⟨v, hv⟩ := List.exists_mem_of_length_pos (hlength ▸ hpos)
  obtain ⟨-, -, horigin⟩ := mem_supporters.1 hv
  exact Setting.pays_of_resolve? horigin

theorem Tallied.disjoint_confirmedScripts (h : l.Tallied s) (hone : s.registry.OneTierPerPayout)
    (tiers : Set Tier) : tiers.PairwiseDisjoint (l.confirmedScripts s height) := by
  intro tier _ tier' _ hne
  apply Finset.disjoint_left.2
  intro script hscript hscript'
  obtain ⟨c, hc, rfl⟩ := mem_confirmedScripts.1 hscript
  obtain ⟨c', hc', hsame⟩ := mem_confirmedScripts.1 hscript'
  obtain ⟨hm, rfl, -⟩ := Tally.mem_confirmed.1 hc
  obtain ⟨hm', rfl, -⟩ := Tally.mem_confirmed.1 hc'
  have hpays := h.pays_candidate hm'
  rw [hsame] at hpays
  exact hne (hone.tier_eq (h.pays_candidate hm) hpays)

/-- **Confirmed tiers are paid.** What an accepted transaction pays to confirmed payees is at least
what any confirmed tiers are due together that share no confirmed script. If masternodes with the
same payout are of the same tier, it is at least what all confirmed tiers are due. -/
theorem confirmed_tiers_paid (h : l.accepts s tx height = .ok true) :
    (∀ tier ∈ l.confirmedTiers s height, s.schedule.payment tier s.chain.blockValue =
      .ok (s.schedule.due tier s.chain.blockValue)) ∧
    (∀ tiers ⊆ l.confirmedTiers s height,
      (tiers : Set Tier).PairwiseDisjoint (l.confirmedScripts s height) →
      ∑ tier ∈ tiers, (s.schedule.due tier s.chain.blockValue).toNat ≤
        tx.paidTo (l.confirmedPayees s height)) ∧
    (l.FilledUnder s → s.registry.OneTierPerPayout →
      ∑ tier ∈ l.confirmedTiers s height, (s.schedule.due tier s.chain.blockValue).toNat ≤
        tx.paidTo (l.confirmedPayees s height)) := by
  refine ⟨fun tier htier => ?_, fun tiers hsub hdisjoint => ?_, fun hfilled hone => ?_⟩
  · exact Schedule.payment_eq_ok.2 ⟨(accepts_confirmed h htier).1, rfl⟩
  · exact sum_due_le_paidTo h hsub hdisjoint
  · apply sum_due_le_paidTo h (Finset.Subset.refl _)
    exact hfilled.tallied.disjoint_confirmedScripts hone _

end Ledger

/-- Three tiers with one masternode each. Those of the first two share a collateral key. -/
def Sample.sharedKey : Setting :=
  { setting { signaturesRequired := 1 } [] 1000 with
    registry := ⟨[⟨masternode 0, true, 0⟩,
      ⟨{ masternode 1 with collateralKey := (masternode 0).collateralKey, tier := 2 }, true, 0⟩,
      ⟨{ masternode 2 with tier := 3 }, true, 0⟩]⟩
    schedule := ⟨[50, 20, 10]⟩ }

/-- One masternode votes for a payee of each tier. -/
def Sample.threeTiers : List Node.Event :=
  [.admitVote (vote 0 0 1005), .admitVote (vote 0 1 1005), .admitVote (vote 0 2 1005)]

/-- A reward with one payment for the first two tiers and one for the third. -/
def Sample.twoPayments : Transaction :=
  ⟨.coinbase, [⟨50, (masternode 0).payout, none⟩, ⟨10, (masternode 2).payout, none⟩]⟩

/-- The first two tiers have the same script. -/
def Sample.sharedTally : Tally :=
  ⟨1005, [⟨(masternode 0).payout, 1, 1⟩, ⟨(masternode 0).payout, 2, 1⟩,
    ⟨(masternode 2).payout, 3, 1⟩]⟩

theorem Sample.run_sharedKey : ∃ m,
    ({ setting := sharedKey } : Node).run threeTiers = .ok m ∧
      m.ledger.tallyAt 1005 = sharedTally ∧
      m.ledger.accepts sharedKey twoPayments 1005 = .ok true := by
  have hrun : (fun m => (m.ledger.tallyAt 1005,
        m.ledger.accepts sharedKey twoPayments 1005)) <$>
      ({ setting := sharedKey } : Node).run threeTiers = .ok (sharedTally, .ok true) := by
    decide +kernel
  obtain ⟨m, hm, he⟩ := map_eq_ok.1 hrun
  obtain ⟨htally, haccepts⟩ := Prod.mk.inj he
  exact ⟨m, hm, htally, haccepts⟩

theorem Sample.confirmedScripts_sharedKey {l : Ledger} (h : l.tallyAt 1005 = sharedTally)
    (tier : Tier) : l.confirmedScripts sharedKey 1005 tier =
      ((sharedTally.confirmed tier 1).map (·.script)).toFinset := by
  rw [Ledger.confirmedScripts, h]
  rfl

/-- Two tiers with one masternode each, and each with a collateral key of its own. -/
def Sample.ownKeys : Setting :=
  { setting { signaturesRequired := 1 } [] 1000 with
    registry := ⟨[⟨masternode 0, true, 0⟩, ⟨{ masternode 1 with tier := 2 }, true, 0⟩]⟩
    schedule := ⟨[50, 20]⟩ }

/-- A reward with a payment for each of the two tiers. -/
def Sample.ownPayments : Transaction :=
  ⟨.coinbase, [⟨50, (masternode 0).payout, none⟩, ⟨20, (masternode 1).payout, none⟩]⟩

/-- With a shared key the first and the third tier are paid separately, and with keys of their own
all tiers are. -/
theorem Ledger.confirmed_tiers_paid_keys :
    (∃ m, ({ setting := Sample.sharedKey } : Node).run Sample.threeTiers = .ok m ∧
      m.ledger.accepts Sample.sharedKey Sample.twoPayments 1005 = .ok true ∧
      ∑ tier ∈ {1, 3}, (Sample.sharedKey.schedule.due tier 100).toNat ≤
        Sample.twoPayments.paidTo (m.ledger.confirmedPayees Sample.sharedKey 1005)) ∧
    ∃ m, ({ setting := Sample.ownKeys } : Node).run
        [.admitVote (Sample.vote 0 0 1005), .admitVote (Sample.vote 0 1 1005)] = .ok m ∧
      m.ledger.accepts Sample.ownKeys Sample.ownPayments 1005 = .ok true ∧
      ∑ tier ∈ m.ledger.confirmedTiers Sample.ownKeys 1005,
          (Sample.ownKeys.schedule.due tier 100).toNat ≤
        Sample.ownPayments.paidTo (m.ledger.confirmedPayees Sample.ownKeys 1005) := by
  constructor
  · obtain ⟨m, hm, htally, haccepts⟩ := Sample.run_sharedKey
    have hscripts := funext (Sample.confirmedScripts_sharedKey htally)
    obtain ⟨-, hpaid, -⟩ := confirmed_tiers_paid haccepts
    refine ⟨m, hm, haccepts, hpaid {1, 3} ?_ ?_⟩
    · rw [confirmedTiers, hscripts]
      decide +kernel
    · rw [hscripts, Finset.coe_pair]
      apply (Set.pairwise_pair_of_symm (r := Function.onFun Disjoint _)).2
      intro _
      rw [Function.onFun]
      decide +kernel
  · have hrun : (fun m => m.ledger.accepts Sample.ownKeys Sample.ownPayments 1005) <$>
        ({ setting := Sample.ownKeys } : Node).run
          [.admitVote (Sample.vote 0 0 1005), .admitVote (Sample.vote 0 1 1005)] =
          .ok (.ok true) := by
      decide +kernel
    have hone : Sample.ownKeys.registry.OneTierPerPayout := by
      unfold Registry.OneTierPerPayout
      decide +kernel
    obtain ⟨m, hm, haccepts⟩ := map_eq_ok.1 hrun
    have hfilled : m.ledger.FilledUnder Sample.ownKeys :=
      ⟨_, m, _, rfl, .refl _, by simp [Node.Event.Fixes], hm, rfl⟩
    obtain ⟨-, -, hpaid⟩ := confirmed_tiers_paid haccepts
    exact ⟨m, hm, haccepts, hpaid hfilled hone⟩

/-- **One output can serve two confirmed tiers**: what is paid to confirmed payees can be less than
what the confirmed tiers are due together. -/
theorem Node.not_confirmed_tiers_paid : ¬∀ (n m : Node) (es : List Event) (tx : Transaction)
    (height : Height), n.ledger = {} → (∀ e ∈ es, ∃ v, e = .admitVote v) → n.run es = .ok m →
      m.ledger.accepts n.setting tx height = .ok true →
      ∑ tier ∈ m.ledger.confirmedTiers n.setting height,
          (n.setting.schedule.due tier n.setting.chain.blockValue).toNat ≤
        tx.paidTo (m.ledger.confirmedPayees n.setting height) := by
  intro h
  obtain ⟨m, hm, htally, haccepts⟩ := Sample.run_sharedKey
  have hle := h _ m _ _ 1005 rfl (by simp [Sample.threeTiers]) hm haccepts
  have hscripts := funext (Sample.confirmedScripts_sharedKey htally)
  rw [Ledger.confirmedPayees, Ledger.confirmedTiers, hscripts] at hle
  revert hle
  decide +kernel

end MasternodePayments
