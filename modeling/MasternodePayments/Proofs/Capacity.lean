import MasternodePayments.Proofs.Horizon
import MasternodePayments.Proofs.Node.Fixed

/-!
# How many votes a ledger holds

Nobody can fill a ledger with votes. Each stored vote uses up a ballot of its own, that is, a voter,
a tier and a height: the voters are limited by rank, the tiers by the registry, and the heights by
the admission window and the horizon once the ledger was pruned (`Node.votes_bounded`).

* `Ledger.SoundIn.length_le`: the count, for any heights and tiers.
* `Setting.Precedes`: what may have changed since a vote was admitted.
-/

namespace MasternodePayments

/-! ## The tiers there are -/

/-- The tiers of the registered masternodes. -/
def Registry.tiers (r : Registry) : Finset Tier := (r.entries.map (·.node.tier)).toFinset

namespace Setting

variable {s t : Setting} {v : Vote} {script : Script} {tier : Tier}

theorem mem_tiers_of_resolve? {payee : Payee} (h : s.resolve? payee = some (script, tier)) :
    tier ∈ s.registry.tiers := by
  obtain ⟨e, he, -, rfl⟩ := pays_of_resolve? h
  exact List.mem_toFinset.2 (List.mem_map_of_mem he)

/-- The tier of the masternode that a vote pays. -/
def tierOf? (s : Setting) (v : Vote) : Option Tier := (s.resolve? v.payee).map (·.2)

/-! ## What may have changed since a vote was admitted -/

/-- In `t` votes are judged as in `s`, and the tip is at least as high. -/
structure Precedes (s t : Setting) : Prop extends SameRules s t where
  upTo : s.chain.UpTo t.chain

/-- What is left of the checks of a vote when the tip has moved on: its payee is known, and its
height is not beyond the end of the window. -/
structure Bounds (s : Setting) (v : Vote) : Prop where
  payee : ∃ tier ∈ s.registry.tiers, s.tierOf? v = some tier
  ahead : ∃ tip, s.chain.tip = some tip ∧
    v.height.toNat ≤ tip.toNat + s.config.futureWindow.toNat

theorem Precedes.bounds (h : s.Precedes t) {l : Ledger} {a : Admission} (ha : l.Admits s v a) :
    t.Bounds v where
  payee := by
    have hp : t.resolve? v.payee = some (a.script, a.tier) := by rw [← h.resolve?_eq, ha.payee]
    exact ⟨a.tier, mem_tiers_of_resolve? hp, by rw [tierOf?, hp, Option.map_some]⟩
  ahead := by
    obtain ⟨tip, first, last, htip, hw, -, hlast⟩ := ha.window
    obtain ⟨span, -, hl, -⟩ := window_eq_ok.1 hw
    obtain ⟨tip', htip', hle⟩ := h.upTo (Chain.tip_of_tip? htip)
    refine ⟨tip', htip', ?_⟩
    rw [UInt64.le_iff_toNat_le] at hlast hle
    rw [← h.config]
    have := add64_eq_ok.1 hl
    omega

end Setting

/-! ## Counting ballots -/

namespace Ledger

variable {s : Setting} {l : Ledger}

/-- The stored votes for a height that pay masternodes of a tier. -/
def votesIn (l : Ledger) (s : Setting) (height : Height) (tier : Tier) : List Vote :=
  l.voteList.filter fun v => v.height = height ∧ s.tierOf? v = some tier

/-- **No more votes than ballots.** Of stored votes for some heights and tiers there are as many as
there can be voters, for each height and tier. -/
theorem SoundIn.length_le (h : l.SoundIn s) {vs : List Vote} (hvs : vs.Sublist l.voteList)
    {heights : Finset Height} {tiers : Finset Tier} (hheight : ∀ v ∈ vs, v.height ∈ heights)
    (htier : ∀ v ∈ vs, ∃ tier ∈ tiers, s.tierOf? v = some tier) :
    vs.length ≤ heights.card * s.config.signaturesTotal.toNat * tiers.card := by
  let voters := (vs.map (·.voter)).toFinset
  have hvoters : voters.card ≤ s.config.signaturesTotal.toNat := by
    refine Setting.card_le_signaturesTotal (s := s) fun voter hvoter => ?_
    obtain ⟨v, hv, rfl⟩ := List.mem_map.1 (List.mem_toFinset.1 hvoter)
    exact h.eligible v (hvs.subset hv)
  have hballots : (vs.map s.ballot?).toFinset ⊆
      (heights ×ˢ voters ×ˢ tiers).image fun (height, voter, tier) => some ⟨voter, tier, height⟩ := by
    intro b hb
    obtain ⟨v, hv, rfl⟩ := List.mem_map.1 (List.mem_toFinset.1 hb)
    obtain ⟨tier, ht, hpays⟩ := htier v hv
    refine Finset.mem_image.2 ⟨(v.height, v.voter, tier), ?_, ?_⟩
    · simp only [Finset.mem_product]
      exact ⟨hheight v hv, List.mem_toFinset.2 (List.mem_map_of_mem hv), ht⟩
    · exact (Setting.ballot?_eq_some (b := ⟨v.voter, tier, v.height⟩).2 ⟨hpays, rfl, rfl⟩).symm
  have hdistinct : (vs.map s.ballot?).Nodup := h.ballots.sublist (hvs.map _)
  calc vs.length = (vs.map s.ballot?).toFinset.card := by
        rw [List.toFinset_card_of_nodup hdistinct, List.length_map]
    _ ≤ (heights ×ˢ voters ×ˢ tiers).card :=
        (Finset.card_le_card hballots).trans Finset.card_image_le
    _ = heights.card * voters.card * tiers.card := by
        rw [Finset.card_product, Finset.card_product, Nat.mul_assoc]
    _ ≤ heights.card * s.config.signaturesTotal.toNat * tiers.card :=
        Nat.mul_le_mul_right _ (Nat.mul_le_mul_left _ hvoters)

/-- A tier of a height holds one vote of each voter at most. -/
theorem SoundIn.length_votesIn_le (h : l.SoundIn s) (height : Height) (tier : Tier) :
    (l.votesIn s height tier).length ≤ s.config.signaturesTotal.toNat := by
  have hmem : ∀ v ∈ l.votesIn s height tier, v.height = height ∧ s.tierOf? v = some tier :=
    fun v hv => of_decide_eq_true (List.mem_filter.1 hv).2
  have hheight : ∀ v ∈ l.votesIn s height tier, v.height ∈ ({height} : Finset Height) :=
    fun v hv => Finset.mem_singleton.2 (hmem v hv).1
  have htier : ∀ v ∈ l.votesIn s height tier, ∃ t ∈ ({tier} : Finset Tier), s.tierOf? v = some t :=
    fun v hv => ⟨tier, Finset.mem_singleton_self tier, (hmem v hv).2⟩
  have hsub : (l.votesIn s height tier).Sublist l.voteList := List.filter_sublist
  simpa using h.length_le hsub hheight htier

/-- The heights from `first` to `last`. -/
def heightsIn (first last : Nat) : Finset Height := (Finset.Icc first last).image UInt64.ofNat

theorem mem_heightsIn {first last : Nat} {height : Height} (hfirst : first ≤ height.toNat)
    (hlast : height.toNat ≤ last) : height ∈ heightsIn first last :=
  Finset.mem_image.2 ⟨height.toNat, Finset.mem_Icc.2 ⟨hfirst, hlast⟩, UInt64.ofNat_toNat⟩

theorem card_heightsIn_le (first last : Nat) : (heightsIn first last).card ≤ last + 1 - first := by
  simpa [heightsIn] using Finset.card_image_le (s := Finset.Icc first last) (f := UInt64.ofNat)

/-- The whole of a ledger without votes beyond some first and last height. -/
theorem SoundIn.voteCount_le (h : l.SoundIn s) {first last : Nat}
    (hheight : ∀ v ∈ l.voteList, first ≤ v.height.toNat ∧ v.height.toNat ≤ last)
    (htier : ∀ v ∈ l.voteList, ∃ tier ∈ s.registry.tiers, s.tierOf? v = some tier) :
    l.voteCount ≤
      (last + 1 - first) * s.config.signaturesTotal.toNat * s.registry.tiers.card := by
  rw [voteCount, ← Std.ExtTreeMap.length_toList, ← List.length_map (·.2)]
  refine (h.length_le (List.Sublist.refl _)
    (fun v hv => mem_heightsIn (hheight v hv).1 (hheight v hv).2) htier).trans ?_
  exact Nat.mul_le_mul_right _ (Nat.mul_le_mul_right _ (card_heightsIn_le first last))

/-! ## Pruned ledgers -/

theorem cutoff_eq_ok {tip lowest : Height} : cutoff s tip = .ok lowest ↔
    ∃ horizon, s.config.retentionHorizon s.registry.enabledCount = .ok horizon ∧
      monus tip horizon = lowest := by
  simp only [cutoff, bind_eq_ok, pure_eq_ok]

/-- A ledger that was pruned at the tip keeps nothing from below the horizon. -/
theorem le_height_of_clean {k : Ledger} {dropped : List Hash} {tip : Height}
    (htip : s.chain.tip? = some tip) (h : l.clean s = .ok (k, dropped)) :
    ∃ horizon, s.config.retentionHorizon s.registry.enabledCount = .ok horizon ∧
      ∀ v ∈ k.voteList, tip.toNat - horizon.toNat ≤ v.height.toNat := by
  obtain ⟨hnone, -⟩ | ⟨tip', lowest, htip', hlowest, rfl, -⟩ := clean_cases h
  · cases hnone.symm.trans htip
  · cases htip'.symm.trans htip
    obtain ⟨horizon, hhorizon, rfl⟩ := cutoff_eq_ok.1 hlowest
    refine ⟨horizon, hhorizon, fun v hv => ?_⟩
    obtain ⟨id, hid⟩ := mem_voteList.1 hv
    rw [← toNat_monus, ← UInt64.le_iff_toNat_le]
    exact (stored_dropBelow.1 hid).2

end Ledger

/-! ## After a run -/

namespace Node

variable {n m k : Node} {es : List Event} {dropped : List Hash} {tip : Height}

/-- What is left of the checks holds of every vote of a run. -/
theorem run_bounds (hl : n.ledger = {}) {s : Setting} (hn : n.setting.Precedes s)
    (hes : ∀ e ∈ es, e.Under (·.Precedes s)) (h : n.run es = .ok m) :
    ∀ v ∈ m.ledger.voteList, s.Bounds v := by
  have hempty : ∀ {id : Hash} {v}, n.ledger.votes[id]? = some v → s.Bounds v := by simp [hl]
  obtain ⟨-, -, hbounds⟩ := run_under
    (Notes.stored_kept (fun _ _ => ()) fun ht ha => Setting.Precedes.bounds ht ha) hn hes h
    (o := fun _ => ()) hempty
  intro v hv
  obtain ⟨id, hid⟩ := Ledger.mem_voteList.1 hv
  exact hbounds hid

/-- **Nobody can fill a ledger with votes.** A ledger was empty, and since then the rules stayed the
same and the tip was never higher than now. Right after it was pruned at the tip, its votes are for
heights between the horizon and the end of the window; each tier of a height has as many of them as
there are voters at most, and so the total is bounded. -/
theorem votes_bounded (hl : n.ledger = {}) (hn : n.setting.Precedes m.setting)
    (hes : ∀ e ∈ es, e.Under (·.Precedes m.setting)) (h : n.run es = .ok m)
    (htip : m.setting.chain.tip? = some tip) (hk : m.clean = .ok (k, dropped)) :
    ∃ horizon,
      m.setting.config.retentionHorizon m.setting.registry.enabledCount = .ok horizon ∧
      (∀ v ∈ k.ledger.voteList, tip.toNat - horizon.toNat ≤ v.height.toNat ∧
        v.height.toNat ≤ tip.toNat + m.setting.config.futureWindow.toNat) ∧
      (∀ height tier, (k.ledger.votesIn m.setting height tier).length ≤
        m.setting.config.signaturesTotal.toNat) ∧
      k.ledger.voteCount ≤
        (horizon.toNat + m.setting.config.futureWindow.toNat + 1) *
          m.setting.config.signaturesTotal.toNat * m.setting.registry.tiers.card := by
  -- Pruning is one more event of the run, so that what runs keep holds of the pruned ledger too.
  have hrun : n.run (es ++ [.clean]) = .ok k :=
    (run_append_of_ok h).trans (run_cons_of_ok (e := .clean) (map_fst_eq_ok.2 ⟨_, hk⟩))
  have hunder : ∀ e ∈ es ++ [.clean], e.Under (·.Precedes m.setting) := by
    intro e he
    rcases List.mem_append.1 he with he | he
    · exact hes e he
    · obtain rfl := List.mem_singleton.1 he
      trivial
  have hsound : k.ledger.SoundIn m.setting := run_sound hl hn.toSameRules.symm
    (fun e he => (hunder e he).fixes fun t ht => ht.toSameRules.symm) hrun
  have hbounds := run_bounds hl hn hunder hrun
  obtain ⟨⟨ledger, expired⟩, hc, hcleaned⟩ := bind_eq_ok.1 hk
  cases hcleaned
  obtain ⟨horizon, hhorizon, hlow⟩ := Ledger.le_height_of_clean htip hc
  have hheights : ∀ v ∈ ledger.voteList, tip.toNat - horizon.toNat ≤ v.height.toNat ∧
      v.height.toNat ≤ tip.toNat + m.setting.config.futureWindow.toNat := by
    intro v hv
    obtain ⟨tip', htip', hahead⟩ := (hbounds v hv).ahead
    cases (Chain.tip_of_tip? htip).symm.trans htip'
    exact ⟨hlow v hv, hahead⟩
  refine ⟨horizon, hhorizon, hheights, hsound.length_votesIn_le, ?_⟩
  refine (hsound.voteCount_le hheights fun v hv => (hbounds v hv).payee).trans ?_
  exact Nat.mul_le_mul_right _ (Nat.mul_le_mul_right _ (by omega))

end Node

/-! ## A pruned sample -/

namespace Sample

/-- Two masternodes vote for each other, one of them much later. -/
def farApart : List Node.Event :=
  [.admitVote (vote 0 1 1005), .surroundings (setting {} [0, 1] 2010),
    .admitVote (scriptVote 1 0 2020)]

theorem clean_farApart :
    (fun m => (fun (k, dropped) => (k.ledger.voteList, dropped)) <$> m.clean) <$>
      Node.run { setting := setting {} [0, 1] 1000 } farApart =
    .ok (.ok ([scriptVote 1 0 2020], [(vote 0 1 1005).identity])) := by decide +kernel

end Sample

theorem Node.votes_bounded_farApart : ∃ m k,
    Node.run { setting := Sample.setting {} [0, 1] 1000 } Sample.farApart = .ok m ∧
    m.clean = .ok (k, [(Sample.vote 0 1 1005).identity]) ∧
    k.ledger.voteList = [Sample.scriptVote 1 0 2020] ∧ k.ledger.voteCount ≤ 1021 * 10 * 1 := by
  obtain ⟨m, hm, he⟩ := map_eq_ok.1 Sample.clean_farApart
  obtain ⟨⟨k, dropped⟩, hk, he⟩ := map_eq_ok.1 he
  obtain ⟨hvotes, rfl⟩ := Prod.mk.inj he
  have hset : m.setting = Sample.setting {} [0, 1] 2010 := run_setting hm
  have grows : (Sample.setting {} [0, 1] 1000).Precedes m.setting := by
    rw [hset]
    refine ⟨⟨⟨rfl, rfl, rfl⟩, fun _ => rfl⟩, fun htip => ?_⟩
    cases htip
    exact ⟨2010, rfl, by decide⟩
  have stays : (Sample.setting {} [0, 1] 2010).Precedes m.setting := by
    rw [hset]
    exact ⟨.refl _, fun htip => ⟨_, htip, UInt64.le_refl _⟩⟩
  have hunder : ∀ e ∈ Sample.farApart, e.Under (·.Precedes m.setting) := by
    simpa [Sample.farApart, Event.Under] using stays
  have htip : m.setting.chain.tip? = some 2010 := by
    rw [hset]
    rfl
  obtain ⟨horizon, hhorizon, -, -, hcount⟩ := votes_bounded rfl grows hunder hm htip hk
  rw [hset] at hhorizon hcount
  cases hhorizon
  exact ⟨m, k, hm, hk, hvotes, hcount⟩

end MasternodePayments
