import MasternodePayments.Proofs.Acceptance
import MasternodePayments.Proofs.Ledger.Admission
import MasternodePayments.Node.Run
import MasternodePayments.Validation

/-!
# A node and its own templates

A template pays the leaders of all tiers, and validation asks for one confirmed candidate in every
confirmed tier. The leader of a confirmed tier is confirmed, so a node accepts its own template,
whatever its tallies hold (`own_template_accepted`).

On a superblock a template pays the budget and nobody else. If the budget is valid, validation asks
for nothing more. But the budget may be unsettled (a double payment, or too few votes): then
masternodes are to be paid after all, and only the validation knows. A node that enforces payments
accepts its own template there exactly if the transaction paid the confirmed tiers already
(`superblock_template_accepted_iff`), which it need not do (`not_superblock_template_accepted`).
-/

namespace MasternodePayments

namespace Ledger

variable {l : Ledger} {s : Setting} {tx filled : Transaction} {block : Block} {tip height : Height}
  {staked synced answer : Bool}

/-! ## The template -/

theorem fillReward_eq_payTiers (htip : s.chain.tip? = some tip) (hheight : add64 tip 1 = .ok height)
    (hsuper : s.isSuperblock height = false) :
    l.fillReward s tx staked = l.payTiers s tx tip staked := by
  unfold fillReward
  simp only [htip, hheight]
  show (if s.isSuperblock height then _ else _) = _
  rw [hsuper, if_neg Bool.false_ne_true]

theorem fillReward_eq_fill (htip : s.chain.tip? = some tip) (hheight : add64 tip 1 = .ok height)
    (hsuper : s.isSuperblock height = true) :
    l.fillReward s tx staked = .ok (s.budget.fill tx) := by
  unfold fillReward
  simp only [htip, hheight]
  show (if s.isSuperblock height then _ else _) = _
  rw [hsuper, if_pos rfl]
  rfl

/-- **A template pays what its own tallies ask for.** -/
theorem paysConfirmed_payTiers (hrequired : 0 < s.config.signaturesRequired)
    (hbase : baseIndex staked < tx.outputs.length) (hheight : add64 tip 1 = .ok height)
    (hfill : l.payTiers s tx tip staked = .ok filled) : l.PaysConfirmed s filled height := by
  intro t ht tier htier hvotes
  obtain ⟨c, hleader, hc⟩ := Tally.exists_leader hrequired hvotes
  have hwinner : l.winner? height tier = some c.script := by
    rw [winner?, ht, Option.bind_some, Tally.winner?, hleader, Option.map_some]
  exact ⟨c, hc, pays_of_payTiers hbase hheight hfill htier hwinner⟩

/-! ## The verdict -/

theorem acceptsMasternodes_eq_ok : l.acceptsMasternodes s tx height = .ok answer ↔
    ∃ paid, l.accepts s tx height = .ok paid ∧
      (paid || !s.sporks.isActive .paymentEnforcement) = answer := by
  simp only [acceptsMasternodes, bind_eq_ok, pure_eq_ok]

/-- Outside of superblocks, and on those with an unsettled budget, masternodes are to be paid. -/
theorem acceptsPayees_eq_acceptsMasternodes
    (hblock : block.reward? height s.config.network.lastWorkHeight = some tx)
    (hunsettled : s.isSuperblock height = true → s.budget.verdict ≠ .valid ∧
      s.budget.verdict ≠ .invalid) :
    l.acceptsPayees s true block height = l.acceptsMasternodes s tx height := by
  simp only [acceptsPayees, if_true, hblock]
  split
  · next hsuper =>
    obtain ⟨hvalid, hinvalid⟩ := hunsettled hsuper
    cases hverdict : s.budget.verdict with
    | valid => exact absurd hverdict hvalid
    | invalid => exact absurd hverdict hinvalid
    | doublePayment => rfl
    | voteThreshold => rfl
  · rfl

/-- A valid budget settles a superblock. -/
theorem acceptsPayees_of_valid
    (hblock : block.reward? height s.config.network.lastWorkHeight = some tx)
    (hsuper : s.isSuperblock height = true) (hverdict : s.budget.verdict = .valid) :
    l.acceptsPayees s true block height = .ok true := by
  simp only [acceptsPayees, if_true, hblock, hsuper, hverdict]

/-- **A node accepts its own template.** The block after the tip is no superblock, and it carries
the template where its reward is looked for. -/
theorem own_template_accepted (htip : s.chain.tip? = some tip)
    (hheight : add64 tip 1 = .ok height) (hsuper : s.isSuperblock height = false)
    (hrequired : 0 < s.config.signaturesRequired)
    (hbase : baseIndex staked < tx.outputs.length)
    (hfill : l.fillReward s tx staked = .ok filled)
    (hblock : block.reward? height s.config.network.lastWorkHeight = some filled)
    (hcount : synced = true → ∃ count, s.countWithDrift = .ok count) :
    l.acceptsPayees s synced block height = .ok true := by
  cases synced with
  | false => rfl
  | true =>
    obtain ⟨count, hcount⟩ := hcount rfl
    rw [fillReward_eq_payTiers htip hheight hsuper] at hfill
    have hpays := paysConfirmed_payTiers hrequired hbase hheight hfill
    have haccepts := accepts_of_paysConfirmed hcount (fits_of_payTiers hbase hfill) hpays
    rw [acceptsPayees_eq_acceptsMasternodes hblock fun h => by simp [hsuper] at h]
    exact acceptsMasternodes_eq_ok.2 ⟨true, haccepts, rfl⟩

end Ledger

/-! ## A restored tally -/

/-- A reward of the stake, with its base output. -/
def Sample.coinstake : Transaction := ⟨.coinstake, [⟨0, [], none⟩, ⟨100, [0x51], none⟩]⟩

/-- A block made by stake. -/
def Sample.block (reward : Transaction) : Block := ⟨.replicate 32 0, [⟨.coinbase, []⟩, reward]⟩

/-- Payments are enforced, and three votes confirm. -/
def Sample.enforcing : Setting :=
  { setting { signaturesRequired := 3 } [0] 1004 with sporks := ⟨[.paymentEnforcement]⟩ }

/-- Both candidates are confirmed, and the second one leads. -/
def Sample.twoConfirmed : Tally := ⟨1005, [⟨[0x52], 1, 3⟩, ⟨[0x53], 1, 7⟩]⟩

/-- A ledger after a restart. -/
def Sample.restored : Ledger :=
  ({} : Ledger).restore enforcing ⟨∅, .ofList [((1005 : Height), twoConfirmed)]⟩

theorem Ledger.own_template_accepted_restored : ∃ filled,
    Sample.enforcing.isSuperblock 1005 = false ∧
      Sample.restored.acceptsPayees Sample.enforcing true (Sample.block Sample.coinstake) 1005 =
        .ok false ∧
      Sample.restored.fillReward Sample.enforcing Sample.coinstake true = .ok filled ∧
      filled.outputs = [⟨0, [], none⟩, ⟨50, [0x51], none⟩, ⟨50, [0x53], none⟩] ∧
      Sample.restored.acceptsPayees Sample.enforcing true (Sample.block filled) 1005 =
        .ok true := by
  have hfill : Sample.restored.fillReward Sample.enforcing Sample.coinstake true =
      .ok ⟨.coinstake, [⟨0, [], none⟩, ⟨50, [0x51], none⟩, ⟨50, [0x53], none⟩]⟩ := by
    decide +kernel
  refine ⟨_, by decide, by decide +kernel, hfill, rfl, ?_⟩
  have htip : Sample.enforcing.chain.tip? = some 1004 := rfl
  exact own_template_accepted htip rfl (by decide) (by decide) (by decide) hfill rfl
    fun _ => ⟨21, by decide⟩

/-! ## Superblocks -/

namespace Ledger

variable {l : Ledger} {s : Setting} {tx filled : Transaction} {block : Block} {tip height : Height}
  {staked synced : Bool} {count : Nat}

/-- **When a node accepts its own template of a superblock**: the template pays the budget only, so
an unsettled budget leaves it to the transaction to have paid the confirmed tiers. -/
theorem superblock_template_accepted_iff (htip : s.chain.tip? = some tip)
    (hheight : add64 tip 1 = .ok height) (hsuper : s.isSuperblock height = true)
    (hverdict : s.budget.verdict ≠ .invalid)
    (hfill : l.fillReward s tx staked = .ok filled)
    (hblock : block.reward? height s.config.network.lastWorkHeight = some filled)
    (hcount : s.countWithDrift = .ok count)
    (hfits : ∀ tier ∈ s.schedule.tiers, s.schedule.Fits tier s.chain.blockValue) :
    ∃ answer, l.acceptsPayees s synced block height = .ok answer ∧
      (answer = true ↔ synced = false ∨ s.budget.verdict = .valid ∨
        s.sporks.isActive .paymentEnforcement = false ∨
        l.PaysConfirmed s (s.budget.fill tx) height) := by
  rw [fillReward_eq_fill htip hheight hsuper] at hfill
  cases hfill
  cases synced with
  | false => exact ⟨true, rfl, by simp⟩
  | true =>
    by_cases hvalid : s.budget.verdict = .valid
    · exact ⟨true, acceptsPayees_of_valid hblock hsuper hvalid, by simp [hvalid]⟩
    · obtain ⟨paid, haccepts, hpaid⟩ : ∃ paid, l.accepts s (s.budget.fill tx) height = .ok paid ∧
          (paid = true ↔ l.PaysConfirmed s (s.budget.fill tx) height) :=
        exists_accepts hcount hfits
      rw [acceptsPayees_eq_acceptsMasternodes hblock fun _ => ⟨hvalid, hverdict⟩]
      refine ⟨_, acceptsMasternodes_eq_ok.2 ⟨paid, haccepts, rfl⟩, ?_⟩
      simp [hvalid, hpaid, or_comm]

end Ledger

/-- The next height is a superblock with too few votes for the budget, and one vote confirms a
masternode. -/
def Sample.unsettled : Setting :=
  { setting { signaturesRequired := 1, signaturesTotal := 1 } [0, 1] 1004 with
    budget := ⟨[1005], .voteThreshold, some ([0x52], 20)⟩
    sporks := ⟨[.superblocks, .paymentEnforcement]⟩ }

/-- The template pays the budget but not the masternode that was voted for. -/
def Sample.budgetOnly : Transaction :=
  ⟨.coinstake, [⟨0, [], none⟩, ⟨100, [0x51], none⟩, ⟨20, [0x52], none⟩]⟩

theorem Sample.step_unsettled : ∃ m,
    ({ setting := unsettled } : Node).step (.admitVote (vote 0 1 1005)) = .ok m ∧
      m.ledger.fillReward unsettled coinstake true = .ok budgetOnly ∧
      m.ledger.acceptsPayees unsettled true (block budgetOnly) 1005 = .ok false := by
  have hstep : (fun m => (m.ledger.fillReward unsettled coinstake true,
        m.ledger.acceptsPayees unsettled true (block budgetOnly) 1005)) <$>
      ({ setting := unsettled } : Node).step (.admitVote (vote 0 1 1005)) =
        .ok (.ok budgetOnly, .ok false) := by
    decide +kernel
  obtain ⟨m, hm, he⟩ := map_eq_ok.1 hstep
  obtain ⟨hfill, hanswer⟩ := Prod.mk.inj he
  exact ⟨m, hm, hfill, hanswer⟩

theorem Ledger.superblock_template_accepted_iff_unsettled : ∃ m,
    ({ setting := Sample.unsettled } : Node).step (.admitVote (Sample.vote 0 1 1005)) = .ok m ∧
      m.ledger.fillReward Sample.unsettled Sample.coinstake true = .ok Sample.budgetOnly ∧
      m.ledger.acceptsPayees Sample.unsettled true (Sample.block Sample.budgetOnly) 1005 =
        .ok false ∧
      ¬m.ledger.PaysConfirmed Sample.unsettled
        (Sample.unsettled.budget.fill Sample.coinstake) 1005 := by
  obtain ⟨m, hm, hfill, hanswer⟩ := Sample.step_unsettled
  have hblock : (Sample.block Sample.budgetOnly).reward? 1005
      Sample.unsettled.config.network.lastWorkHeight = some Sample.budgetOnly := rfl
  have hcount : Sample.unsettled.countWithDrift = .ok 22 := by decide
  have hfits : ∀ tier ∈ Sample.unsettled.schedule.tiers,
      Sample.unsettled.schedule.Fits tier Sample.unsettled.chain.blockValue := by
    have htiers : Sample.unsettled.schedule.tiers = [1] := by decide
    rw [htiers, List.forall_mem_singleton]
    decide
  have htip : Sample.unsettled.chain.tip? = some 1004 := rfl
  obtain ⟨answer, haccepts, hiff⟩ := superblock_template_accepted_iff htip rfl (by decide)
    (by decide) hfill hblock hcount hfits
  cases hanswer.symm.trans haccepts
  refine ⟨m, hm, hfill, hanswer, fun hpays => ?_⟩
  exact absurd (hiff.2 (.inr (.inr (.inr hpays)))) Bool.false_ne_true

/-- **A node can refuse its own template of a superblock.** -/
theorem Ledger.not_superblock_template_accepted : ¬∀ (l : Ledger) (s : Setting)
    (tx filled : Transaction) (block : Block) (tip height : Height) (staked : Bool),
      s.chain.tip? = some tip → add64 tip 1 = .ok height → s.isSuperblock height = true →
      s.budget.verdict ≠ .invalid → baseIndex staked < tx.outputs.length →
      l.fillReward s tx staked = .ok filled →
      block.reward? height s.config.network.lastWorkHeight = some filled →
      l.acceptsPayees s true block height = .ok true := by
  intro h
  obtain ⟨m, -, hfill, hanswer⟩ := Sample.step_unsettled
  have htrue := h m.ledger Sample.unsettled _ _ (Sample.block Sample.budgetOnly) 1004 1005 true
    rfl rfl (by decide) (by decide) (by decide) hfill rfl
  cases hanswer.symm.trans htrue

end MasternodePayments
