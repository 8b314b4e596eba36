import Mathlib.Data.List.Basic
import MasternodePayments.Proofs.Casting
import MasternodePayments.Proofs.Template.Payments

/-!
# Whom the registry has paid

A node votes for the masternode of a tier that was paid longest ago, and where a tier has no voted
winner a template pays the masternode that was registered first. Who votes has to run the least
protocol, but neither choice of a payee asks for it: an enabled masternode that is outdated keeps its
place in both. So the payees are up to date in a tier of which all enabled masternodes are
(`Ledger.registry_payees`), and need not be otherwise (`Ledger.not_payees_upToDate`).

* `Ledger.mem_votes_of_cast`: who casts a vote, and for whom.
* `Ledger.added_payTiers`: the scripts that a template adds.
-/

namespace MasternodePayments

/-! ## The choices of the registry -/

namespace Registry

variable {r : Registry} {tier : Tier} {m : Masternode} {e : Registration}

/-- An enabled masternode of the tier that was paid no later than any other one. -/
def PaidLongestAgo (r : Registry) (tier : Tier) (m : Masternode) : Prop :=
  ∃ e ∈ r.enabledInTier tier, e.node = m ∧ ∀ e' ∈ r.enabledInTier tier, e.lastPaid ≤ e'.lastPaid

/-- The enabled masternode of the tier that was registered before all others. -/
def RegisteredFirst (r : Registry) (tier : Tier) (m : Masternode) : Prop :=
  ∃ e later, r.enabledInTier tier = e :: later ∧ e.node = m

theorem mem_enabledInTier : e ∈ r.enabledInTier tier ↔
    e ∈ r.entries ∧ e.enabled = true ∧ e.node.tier = tier := by
  rw [enabledInTier, List.mem_filter, Bool.and_eq_true, beq_iff_eq]

theorem paidLongestAgo_of_nextInQueue? (h : r.nextInQueue? tier = some m) :
    r.PaidLongestAgo tier m := by
  obtain ⟨e, he, rfl⟩ := Option.map_eq_some_iff.1 h
  refine ⟨e, List.minOn?_mem he, rfl, fun e' he' => ?_⟩
  have hle := List.apply_get_minOn?_le_of_mem (f := Registration.lastPaid) he'
  simpa only [he, Option.get_some] using hle

theorem currentWinner?_eq_some : r.currentWinner? tier = some m ↔ r.RegisteredFirst tier m := by
  simp only [currentWinner?, RegisteredFirst, Option.map_eq_some_iff, List.head?_eq_some_iff,
    exists_and_right]

theorem PaidLongestAgo.exists_mem (h : r.PaidLongestAgo tier m) :
    ∃ e ∈ r.enabledInTier tier, e.node = m := by
  obtain ⟨e, he, hm, -⟩ := h
  exact ⟨e, he, hm⟩

theorem RegisteredFirst.exists_mem (h : r.RegisteredFirst tier m) :
    ∃ e ∈ r.enabledInTier tier, e.node = m := by
  obtain ⟨e, later, he, hm⟩ := h
  exact ⟨e, he ▸ List.mem_cons_self, hm⟩

end Registry

/-! ## Who is up to date -/

namespace Setting

variable {s : Setting} {tier : Tier} {m : Masternode}

/-- The masternode runs at least the protocol that voters and payees need. -/
def UpToDate (s : Setting) (m : Masternode) : Prop := s.minProtocol ≤ m.protocol

/-- All enabled masternodes of a tier are up to date. -/
def TierUpToDate (s : Setting) (tier : Tier) : Prop :=
  ∀ e ∈ s.registry.enabledInTier tier, s.UpToDate e.node

/-- The payee is the collateral of a registered masternode that is up to date. -/
def NamesUpToDate (s : Setting) (payee : Payee) : Prop :=
  ∃ e ∈ s.registry.entries, payee = .collateral e.node.id ∧ s.UpToDate e.node

/-- The script is the payout of a registered masternode that is up to date. -/
def PaysUpToDate (s : Setting) (script : Script) : Prop :=
  ∃ e ∈ s.registry.entries, e.node.payout = script ∧ s.UpToDate e.node

instance : Decidable (s.UpToDate m) := inferInstanceAs (Decidable (s.minProtocol ≤ m.protocol))

theorem TierUpToDate.exists_entry (h : s.TierUpToDate tier)
    (hm : ∃ e ∈ s.registry.enabledInTier tier, e.node = m) :
    ∃ e ∈ s.registry.entries, e.node = m ∧ s.UpToDate e.node := by
  obtain ⟨e, he, rfl⟩ := hm
  exact ⟨e, (Registry.mem_enabledInTier.1 he).1, rfl, h e he⟩

theorem proposal?_eq_some {active : ActiveMasternode} {declared : PublicKey} {height : Height}
    {v : Vote} (h : s.proposal? active declared height tier = some v) :
    ∃ m, s.registry.nextInQueue? tier = some m ∧ v.payee = .collateral m.id := by
  obtain ⟨m, hm, hsigned⟩ := Option.bind_eq_some_iff.1 h
  refine ⟨m, hm, ?_⟩
  unfold Vote.sign at hsigned
  split at hsigned
  · dsimp only at hsigned
    split at hsigned <;> cases hsigned
    rfl
  · cases hsigned

end Setting

/-- The scripts of the outputs that a template adds to a transaction. -/
def Transaction.added (tx filled : Transaction) : List Script :=
  (filled.outputs.drop tx.outputs.length).map (·.script)

namespace Ledger

variable {l k : Ledger} {s : Setting} {height tip : Height} {tier : Tier} {staked : Bool}
  {outputs after : List Output} {tx filled : Transaction} {votes : List Vote} {v : Vote}

/-! ## Votes -/

/-- The votes that pass the checks are among the proposed ones. -/
theorem mem_of_admitSome {proposals : List Vote} (h : AdmitsSome s l proposals k votes)
    (hv : v ∈ votes) : v ∈ proposals := by
  induction h with
  | nil => cases hv
  | refused _ _ ih => exact List.mem_cons_of_mem _ (ih hv)
  | admitted _ _ ih =>
    exact (List.mem_cons.1 hv).elim (fun he => he ▸ List.mem_cons_self)
      fun hv => List.mem_cons_of_mem _ (ih hv)

/-- **Who casts a vote, and for whom**: the voter is up to date, and the payee was paid longest
ago. -/
theorem mem_votes_of_cast {active : ActiveMasternode}
    (h : l.cast s height active = .ok (k, votes)) (hv : v ∈ votes) :
    (∃ voter, s.registry.find? v.voter = some voter ∧ s.UpToDate voter) ∧
      ∃ tier ∈ s.schedule.tiers, ∃ m, s.registry.PaidLongestAgo tier m ∧
        v.payee = .collateral m.id := by
  obtain ⟨j, a, -, ha⟩ := (newlyAdmits_of_cast h hv).admitted
  obtain ⟨voter, hvoter, hprotocol, -⟩ := ha.voter
  refine ⟨⟨voter, hvoter, hprotocol⟩, ?_⟩
  obtain ⟨node, -, -, h⟩ := cast_eq_ok.1 h
  cases h with
  | past => cases hv
  | budget => cases hv
  | refused => cases hv
  | some _ _ hadmit =>
    obtain ⟨tier, htier, hproposal⟩ := List.mem_filterMap.1 (mem_of_admitSome hadmit hv)
    obtain ⟨m, hm, hpayee⟩ := Setting.proposal?_eq_some hproposal
    exact ⟨tier, htier, m, Registry.paidLongestAgo_of_nextInQueue? hm, hpayee⟩

/-! ## Outputs -/

theorem map_script_modify {f : Output → Output} (hf : ∀ o, (f o).script = o.script)
    (outputs : List Output) (i : Nat) :
    (outputs.modify i f).map (·.script) = outputs.map (·.script) := by
  induction outputs generalizing i with
  | nil => rw [List.modify_nil]
  | cons o os ih => cases i <;> simp [hf, ih]

/-- A tier keeps all scripts and adds the one of its payee. -/
theorem script_payTier (h : l.payTier s height staked outputs tier = .ok after) :
    after.map (·.script) =
      outputs.map (·.script) ++ (l.payee? s height tier).toList := by
  obtain ⟨due, -, h⟩ := bind_eq_ok.1 h
  split at h
  · next script hpayee =>
    cases h
    rw [map_script_modify (Output.script_deduct · due), List.map_append, hpayee]
    rfl
  · next hpayee =>
    rw [hpayee, Option.toList_none, List.append_nil]
    split at h <;> cases h
    · rfl
    · exact map_script_modify (fun _ => by rfl) outputs 0

theorem script_foldlM_payTier {tiers : List Tier}
    (h : tiers.foldlM (l.payTier s height staked) outputs = .ok after) :
    after.map (·.script) = outputs.map (·.script) ++ tiers.filterMap (l.payee? s height) := by
  induction tiers generalizing outputs with
  | nil =>
    cases h
    rw [List.filterMap_nil, List.append_nil]
  | cons tier tiers ih =>
    rw [List.foldlM_cons, bind_eq_ok] at h
    obtain ⟨paid, hpaid, h⟩ := h
    rw [ih h, script_payTier hpaid, List.append_assoc]
    cases hpayee : l.payee? s height tier <;> simp [hpayee]

theorem added_payTiers (hheight : add64 tip 1 = .ok height)
    (h : l.payTiers s tx tip staked = .ok filled) :
    tx.added filled = s.schedule.tiers.filterMap (l.payee? s height) := by
  obtain ⟨height', hheight', h⟩ := bind_eq_ok.1 h
  cases hheight.symm.trans hheight'
  obtain ⟨outputs, houtputs, h⟩ := bind_eq_ok.1 h
  cases h
  rw [Transaction.added, List.map_drop, script_foldlM_payTier houtputs,
    List.drop_left' (List.length_map _)]

/-- Who is paid where nobody was voted for. -/
theorem payee?_of_no_winner {script : Script} (hwinner : l.winner? height tier = none)
    (h : l.payee? s height tier = some script) :
    ∃ m, s.registry.RegisteredFirst tier m ∧ m.payout = script := by
  rw [payee?, hwinner, Option.none_or, Option.map_eq_some_iff] at h
  obtain ⟨m, hm, hpayout⟩ := h
  exact ⟨m, Registry.currentWinner?_eq_some.1 hm, hpayout⟩

/-- **The payees that the registry chooses.** Every vote that a node casts has a voter that is up to
date, and names the masternode of some tier that was paid longest ago. A template adds the payees of
the tiers in their order; for a tier without a voted winner it is the masternode that was registered
first. Either choice is up to date if all enabled masternodes of the tier are. -/
theorem registry_payees (l : Ledger) (s : Setting) :
    (∀ height active k votes, l.cast s height active = .ok (k, votes) → ∀ v ∈ votes,
      (∃ voter, s.registry.find? v.voter = some voter ∧ s.UpToDate voter) ∧
      ∃ tier ∈ s.schedule.tiers, ∃ m, s.registry.PaidLongestAgo tier m ∧
        v.payee = .collateral m.id ∧ (s.TierUpToDate tier → s.NamesUpToDate v.payee)) ∧
    ∀ tx tip height staked filled, add64 tip 1 = .ok height →
      l.payTiers s tx tip staked = .ok filled →
      tx.added filled = s.schedule.tiers.filterMap (l.payee? s height) ∧
      ∀ tier script, l.winner? height tier = none → l.payee? s height tier = some script →
        ∃ m, s.registry.RegisteredFirst tier m ∧ m.payout = script ∧
          (s.TierUpToDate tier → s.PaysUpToDate script) := by
  constructor
  · intro height active k votes hcast v hv
    obtain ⟨hvoter, tier, htier, m, hm, hpayee⟩ := mem_votes_of_cast hcast hv
    refine ⟨hvoter, tier, htier, m, hm, hpayee, fun hall => ?_⟩
    obtain ⟨e, he, rfl, hdate⟩ := hall.exists_entry hm.exists_mem
    exact ⟨e, he, hpayee, hdate⟩
  · intro tx tip height staked filled hheight hfill
    refine ⟨added_payTiers hheight hfill, fun tier script hwinner hscript => ?_⟩
    obtain ⟨m, hm, hpayout⟩ := payee?_of_no_winner hwinner hscript
    refine ⟨m, hm, hpayout, fun hall => ?_⟩
    obtain ⟨e, he, rfl, hdate⟩ := hall.exists_entry hm.exists_mem
    exact ⟨e, he, hpayout, hdate⟩

end Ledger

/-! ## An outdated payee -/

namespace Sample

/-- A masternode that runs less than the oldest protocol that is accepted. -/
def outdated : Masternode := { masternode 0 with protocol := Network.main.oldestProtocol - 1 }

/-- The only masternode of the first tier is outdated. The one of the second tier casts votes. -/
def outdatedTier : Setting where
  chain := { tip := some 1000, blockValue := 100 }
  registry := ⟨[⟨outdated, true, 0⟩, ⟨{ signer with tier := 2 }, true, 0⟩]⟩
  schedule := ⟨[50, 20]⟩

theorem cast_outdatedTier : ∃ k votes,
    ({} : Ledger).cast outdatedTier 1005 ⟨signer.id, keys⟩ = .ok (k, votes) ∧
      votes.map (·.payee) = [.collateral outdated.id, .collateral signer.id] := by
  have hcast : (fun r => r.2.map (·.payee)) <$>
      ({} : Ledger).cast outdatedTier 1005 ⟨signer.id, keys⟩ =
        .ok [.collateral outdated.id, .collateral signer.id] := by
    decide +kernel
  obtain ⟨⟨k, votes⟩, hk, hpayees⟩ := map_eq_ok.1 hcast
  exact ⟨k, votes, hk, hpayees⟩

theorem payTiers_outdatedTier :
    ({} : Ledger).payTiers outdatedTier coinbase 1000 false =
      .ok ⟨.coinbase, [⟨30, [0x51], none⟩, ⟨50, outdated.payout, none⟩,
        ⟨20, signer.payout, none⟩]⟩ := by
  decide +kernel

theorem tierUpToDate_two : outdatedTier.TierUpToDate 2 := by
  unfold Setting.TierUpToDate
  decide +kernel

/-- Only the masternode of the second tier is up to date. -/
theorem eq_signer_of_upToDate {e : Registration} (he : e ∈ outdatedTier.registry.entries)
    (hdate : outdatedTier.UpToDate e.node) : e.node = { signer with tier := 2 } := by
  obtain rfl | rfl : e = ⟨outdated, true, 0⟩ ∨ e = ⟨{ signer with tier := 2 }, true, 0⟩ := by
    simpa [outdatedTier] using he
  · exact absurd hdate (by decide)
  · rfl

theorem not_namesUpToDate : ¬outdatedTier.NamesUpToDate (.collateral outdated.id) := by
  rintro ⟨e, he, hid, hdate⟩
  rw [eq_signer_of_upToDate he hdate] at hid
  exact absurd hid (by decide)

theorem not_paysUpToDate : ¬outdatedTier.PaysUpToDate outdated.payout := by
  rintro ⟨e, he, hpayout, hdate⟩
  rw [eq_signer_of_upToDate he hdate] at hpayout
  exact absurd hpayout (by decide +kernel)

end Sample

namespace Ledger

open Sample

theorem registry_payees_outdatedTier :
    (∃ k votes, ({} : Ledger).cast outdatedTier 1005 ⟨signer.id, keys⟩ = .ok (k, votes) ∧
      votes.map (·.payee) = [.collateral outdated.id, .collateral signer.id] ∧
      ∀ v ∈ votes, ∃ tier ∈ outdatedTier.schedule.tiers, ∃ m,
        outdatedTier.registry.PaidLongestAgo tier m ∧ v.payee = .collateral m.id) ∧
    ∃ filled, ({} : Ledger).payTiers outdatedTier coinbase 1000 false = .ok filled ∧
      coinbase.added filled = [outdated.payout, signer.payout] ∧
      outdatedTier.PaysUpToDate signer.payout := by
  obtain ⟨hvotes, hfills⟩ := registry_payees {} outdatedTier
  obtain ⟨k, votes, hcast, hpayees⟩ := cast_outdatedTier
  obtain ⟨-, hfallback⟩ := hfills coinbase 1000 1001 false _ rfl payTiers_outdatedTier
  obtain ⟨m, -, -, hpays⟩ := hfallback 2 signer.payout (by decide) (by decide +kernel)
  refine ⟨⟨k, votes, hcast, hpayees, fun v hv => ?_⟩, _, payTiers_outdatedTier, rfl,
    hpays tierUpToDate_two⟩
  obtain ⟨-, tier, htier, m, hm, hpayee, -⟩ := hvotes _ _ _ _ hcast v hv
  exact ⟨tier, htier, m, hm, hpayee⟩

/-- **The payees need not be up to date**, neither those that a node votes for nor those that a
template pays for want of a vote. -/
theorem not_payees_upToDate :
    (¬∀ (l k : Ledger) (s : Setting) (height : Height) (active : ActiveMasternode)
      (votes : List Vote), l.cast s height active = .ok (k, votes) →
        ∀ v ∈ votes, s.NamesUpToDate v.payee) ∧
    ¬∀ (l : Ledger) (s : Setting) (tx filled : Transaction) (tip height : Height) (staked : Bool),
      add64 tip 1 = .ok height → l.payTiers s tx tip staked = .ok filled →
        ∀ tier ∈ s.schedule.tiers, l.winner? height tier = none →
          ∀ script ∈ tx.added filled, l.payee? s height tier = some script →
            s.PaysUpToDate script := by
  constructor
  · intro h
    obtain ⟨k, votes, hcast, hpayees⟩ := cast_outdatedTier
    have hnames : ∀ payee ∈ votes.map (·.payee), outdatedTier.NamesUpToDate payee :=
      List.forall_mem_map.2 (h _ _ _ _ _ _ hcast)
    rw [hpayees] at hnames
    exact not_namesUpToDate (hnames _ List.mem_cons_self)
  · intro h
    have hpays := h _ _ _ _ _ 1001 _ rfl payTiers_outdatedTier 1 (by decide) (by decide)
      outdated.payout List.mem_cons_self (by decide +kernel)
    exact not_paysUpToDate hpays

end Ledger
end MasternodePayments
