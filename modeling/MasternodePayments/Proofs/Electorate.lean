import Mathlib.Data.Finset.Card
import Mathlib.Order.Interval.Finset.Nat
import MasternodePayments.Ledger.Snapshot

/-!
# Who votes and whom votes pay

Two settings have the `SamePayees` if they agree on the parameters, on the roster of the registry
and on the known outputs, and the `SameRules` if moreover the same switches are on. The tip, the
recorded blocks, the budget and the heights of past payments may differ.

* `pays_of_resolve?`: votes pay registered masternodes.
* `SamePayees.resolve?_eq`: votes pay the same scripts and tiers.
* `SameRules.mayVote_iff`: the same masternodes may vote.
* `card_le_signaturesTotal`: there are never more of them than ranks within the limit.
-/

namespace MasternodePayments

/-! ## The roster -/

namespace Registry

/-- The masternodes and whether they are enabled, in order; when they were paid is left out. -/
def roster (r : Registry) : List (Masternode × Bool) := r.entries.map fun e => (e.node, e.enabled)

theorem find?_eq_roster (r : Registry) (id : MasternodeId) :
    r.find? id = (r.roster.find? (·.1.id == id)).map (·.1) := by
  simp [find?, roster, List.find?_map, Function.comp_def]

theorem findByScript?_eq_roster (r : Registry) (script : Script) :
    r.findByScript? script = (r.roster.find? (·.1.payout == script)).map (·.1) := by
  simp [findByScript?, roster, List.find?_map, Function.comp_def]

theorem rank?_eq_roster (r : Registry) (id : MasternodeId) (protocol : UInt32) :
    r.rank? id protocol =
      ((r.roster.filter fun e => e.2 && decide (protocol ≤ e.1.protocol)).findIdx?
        (·.1.id == id)).map (· + 1) := by
  simp [rank?, eligible, roster, List.filter_map, List.findIdx?_map, Function.comp_def]

theorem countInTier_eq_roster (r : Registry) (tier : Tier) :
    r.countInTier tier = r.roster.countP fun e => e.2 && e.1.tier == tier := by
  rw [countInTier, enabledInTier, ← List.countP_eq_length_filter, roster, List.countP_map]
  rfl

theorem enabledCount_eq_roster (r : Registry) : r.enabledCount = r.roster.countP (·.2) := by
  rw [enabledCount, enabled, ← List.countP_eq_length_filter, roster, List.countP_map]
  rfl

theorem countInTier_le (r : Registry) (tier : Tier) : r.countInTier tier ≤ r.enabledCount := by
  rw [countInTier_eq_roster, enabledCount_eq_roster]
  exact List.countP_mono_left fun e _ h => by simp_all

theorem rank?_inj {r : Registry} {protocol : UInt32} {id id' : MasternodeId} {rank : Nat}
    (h : r.rank? id protocol = some rank) (h' : r.rank? id' protocol = some rank) : id = id' := by
  obtain ⟨i, hi, rfl⟩ := Option.map_eq_some_iff.1 h
  obtain ⟨j, hj, hij⟩ := Option.map_eq_some_iff.1 h'
  obtain rfl : j = i := by omega
  obtain ⟨_, hid, -⟩ := List.findIdx?_eq_some_iff_getElem.1 hi
  obtain ⟨_, hid', -⟩ := List.findIdx?_eq_some_iff_getElem.1 hj
  exact (beq_iff_eq.1 hid).symm.trans (beq_iff_eq.1 hid')

theorem rank?_pos {r : Registry} {protocol : UInt32} {id : MasternodeId} {rank : Nat}
    (h : r.rank? id protocol = some rank) : 0 < rank := by
  obtain ⟨i, -, rfl⟩ := Option.map_eq_some_iff.1 h
  exact Nat.succ_pos i

theorem id_of_find? {r : Registry} {id : MasternodeId} {m : Masternode}
    (h : r.find? id = some m) : m.id = id := by
  obtain ⟨e, he, rfl⟩ := Option.map_eq_some_iff.1 h
  have hid := List.find?_some he
  exact beq_iff_eq.1 hid

/-! ## Whom votes pay -/

/-- A masternode with this payout and this tier is registered. -/
def Pays (r : Registry) (script : Script) (tier : Tier) : Prop :=
  ∃ e ∈ r.entries, e.node.payout = script ∧ e.node.tier = tier

theorem pays_of_find? {r : Registry} {id : MasternodeId} {m : Masternode}
    (h : r.find? id = some m) : r.Pays m.payout m.tier := by
  obtain ⟨e, he, rfl⟩ := Option.map_eq_some_iff.1 h
  exact ⟨e, List.mem_of_find?_eq_some he, rfl, rfl⟩

theorem pays_of_findByScript? {r : Registry} {script : Script} {m : Masternode}
    (h : r.findByScript? script = some m) : r.Pays script m.tier := by
  obtain ⟨e, he, rfl⟩ := Option.map_eq_some_iff.1 h
  have hscript := List.find?_some he
  exact ⟨e, List.mem_of_find?_eq_some he, beq_iff_eq.1 hscript, rfl⟩

end Registry

/-- What a payee stands for is paid by a registered masternode. -/
theorem Setting.pays_of_resolve? {s : Setting} {payee : Payee} {script : Script} {tier : Tier}
    (h : s.resolve? payee = some (script, tier)) : s.registry.Pays script tier := by
  simp only [resolve?, Option.bind_eq_bind, Option.bind_eq_some_iff, Option.pure_def,
    Option.some.injEq, Prod.mk.injEq] at h
  obtain ⟨_, hscript, _, htier, rfl, rfl⟩ := h
  obtain ⟨m, hm, rfl⟩ := Option.map_eq_some_iff.1 htier
  cases payee with
  | script script =>
    cases hscript
    exact Registry.pays_of_findByScript? hm
  | collateral o =>
    simp only [payeeScript?] at hscript
    simp only [payeeNode?] at hm
    cases hfind : s.registry.find? o with
    | some found =>
      rw [hfind] at hscript hm
      cases hscript
      cases hm
      exact Registry.pays_of_find? hfind
    | none =>
      rw [hfind, Option.none_or] at hm
      exact Registry.pays_of_findByScript? hm

namespace Setting

/-! ## Settings that judge votes alike -/

/-- Two settings in which votes pay the same scripts and tiers. -/
structure SamePayees (s t : Setting) : Prop where
  config : s.config = t.config
  roster : s.registry.roster = t.registry.roster
  outputs : s.chain.outputs = t.chain.outputs

/-- Two settings in which, besides, the same masternodes may vote. -/
structure SameRules (s t : Setting) : Prop extends SamePayees s t where
  sporks : ∀ spork, s.sporks.isActive spork = t.sporks.isActive spork

variable {s t : Setting}

namespace SamePayees

theorem refl (s : Setting) : s.SamePayees s := ⟨rfl, rfl, rfl⟩

theorem find?_eq (h : s.SamePayees t) (id : MasternodeId) :
    s.registry.find? id = t.registry.find? id := by
  rw [Registry.find?_eq_roster, Registry.find?_eq_roster, h.roster]

theorem findByScript?_eq (h : s.SamePayees t) (script : Script) :
    s.registry.findByScript? script = t.registry.findByScript? script := by
  rw [Registry.findByScript?_eq_roster, Registry.findByScript?_eq_roster, h.roster]

theorem countInTier_eq (h : s.SamePayees t) (tier : Tier) :
    s.registry.countInTier tier = t.registry.countInTier tier := by
  rw [Registry.countInTier_eq_roster, Registry.countInTier_eq_roster, h.roster]

theorem enabledCount_eq (h : s.SamePayees t) :
    s.registry.enabledCount = t.registry.enabledCount := by
  rw [Registry.enabledCount_eq_roster, Registry.enabledCount_eq_roster, h.roster]

theorem resolve?_eq (h : s.SamePayees t) (payee : Payee) : s.resolve? payee = t.resolve? payee := by
  have hscript : s.payeeScript? payee = t.payeeScript? payee := by
    cases payee with
    | script script => rfl
    | collateral o => simp only [payeeScript?, h.find?_eq, Chain.script?, h.outputs]
  have htier : ∀ script, s.payeeTier? payee script = t.payeeTier? payee script := by
    intro script
    cases payee <;> simp only [payeeTier?, payeeNode?, h.find?_eq, h.findByScript?_eq]
  simp only [resolve?, hscript, htier]

theorem ballot?_eq (h : s.SamePayees t) (v : Vote) : s.ballot? v = t.ballot? v := by
  rw [ballot?, ballot?, h.resolve?_eq]

end SamePayees

namespace SameRules

theorem refl (s : Setting) : s.SameRules s := ⟨.refl s, fun _ => rfl⟩

theorem symm (h : s.SameRules t) : t.SameRules s :=
  ⟨⟨h.config.symm, h.roster.symm, h.outputs.symm⟩, fun spork => (h.sporks spork).symm⟩

theorem minProtocol_eq (h : s.SameRules t) : s.minProtocol = t.minProtocol := by
  simp only [minProtocol, h.sporks, h.config]

end SameRules

/-! ## The voters -/

/-- Whether a masternode ranks high enough to vote. -/
def MayVote (s : Setting) (voter : MasternodeId) : Prop :=
  s.withinLimit (s.registry.rank? voter s.minProtocol) = true

theorem SameRules.mayVote_iff (h : s.SameRules t) (voter : MasternodeId) :
    s.MayVote voter ↔ t.MayVote voter := by
  rw [MayVote, MayVote, withinLimit.eq_def, withinLimit.eq_def, Registry.rank?_eq_roster,
    Registry.rank?_eq_roster, h.roster, h.minProtocol_eq, h.config]

theorem mayVote_iff {voter : MasternodeId} : s.MayVote voter ↔
    ∃ rank, s.registry.rank? voter s.minProtocol = some rank ∧
      rank ≤ s.config.signaturesTotal.toNat := by
  unfold MayVote
  cases s.registry.rank? voter s.minProtocol <;> simp [withinLimit]

/-- There are no more voters than ranks within the limit. -/
theorem card_le_signaturesTotal {voters : Finset MasternodeId} (h : ∀ v ∈ voters, s.MayVote v) :
    voters.card ≤ s.config.signaturesTotal.toNat := by
  have hrank : ∀ v ∈ voters, ∃ rank, s.registry.rank? v s.minProtocol = some rank ∧
      rank ≤ s.config.signaturesTotal.toNat := fun v hv => mayVote_iff.1 (h v hv)
  let rank := fun v => (s.registry.rank? v s.minProtocol).getD 0
  have hmem : ∀ v ∈ voters, rank v ∈ Finset.Icc 1 s.config.signaturesTotal.toNat := by
    intro v hv
    obtain ⟨k, hk, hle⟩ := hrank v hv
    simp only [rank, hk, Option.getD_some, Finset.mem_Icc]
    exact ⟨Registry.rank?_pos hk, hle⟩
  have hinj : Set.InjOn rank voters := by
    intro v hv w hw he
    obtain ⟨k, hk, -⟩ := hrank v hv
    obtain ⟨j, hj, -⟩ := hrank w hw
    simp only [rank, hk, hj, Option.getD_some] at he
    exact Registry.rank?_inj hk (he ▸ hj)
  simpa using Finset.card_le_card_of_injOn rank hmem hinj

end Setting
end MasternodePayments
