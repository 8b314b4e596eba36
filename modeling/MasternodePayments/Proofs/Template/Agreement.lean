import MasternodePayments.Proofs.Acceptance
import MasternodePayments.Proofs.Ledger.Tallied
import MasternodePayments.Proofs.Quorum

/-!
# Templates are accepted elsewhere

One node pays the leading candidates of its own tallies, another one asks for any confirmed
candidate of its own. Under the same rules, if the first has all votes of the second and quorums
always overlap, what is confirmed at the second is confirmed at the first
(`Covers.exists_confirmed`) and leads there (`SoundIn.winner?_eq`). So it is paid, and the template
is accepted (`Node.template_accepted`).
-/

namespace MasternodePayments

theorem Config.required_pos {c : Config} (h : 0 < c.overlap) : 0 < c.signaturesRequired := by
  unfold overlap at h
  rw [UInt32.lt_iff_toNat_lt]
  show 0 < c.signaturesRequired.toNat
  omega

namespace Ledger

variable {s : Setting} {l k : Ledger} {t u : Tally} {c : Candidate} {height : Height} {tier : Tier}
  {key : Script × Tier}

/-- One ledger has all votes that another one has for a height, signatures apart. -/
def Covers (l k : Ledger) (height : Height) : Prop :=
  ∀ v ∈ k.voteList, v.height = height →
    ∃ w ∈ l.voteList, w.voter = v.voter ∧ w.height = height ∧ w.payee = v.payee

theorem Covers.voters_subset (h : l.Covers k height) (key : Script × Tier) :
    k.voters s height key ⊆ l.voters s height key := by
  intro voter hv
  obtain ⟨v, hm, hheight, ho, rfl⟩ := mem_voters.1 hv
  obtain ⟨w, hw, hvoter, hwh, hpayee⟩ := h v hm hheight
  have ho' : s.origin? w = some key := (congrArg s.resolve? hpayee).trans ho
  exact mem_voters.2 ⟨w, hw, hwh, ho', hvoter⟩

/-- Every voter for a script in a tier counts for it. -/
theorem Tallied.card_voters_le (h : l.Tallied s) (height : Height) (key : Script × Tier) :
    (l.voters s height key).card ≤ Tally.weightIn (l.tallyAt height).candidates key := by
  rw [h.weightIn_eq]
  simpa [voters] using List.toFinset_card_le ((l.supporters s height key).map (·.voter))

/-- What has weight at a height is a candidate there, with this weight. -/
theorem Tallied.exists_candidate (h : l.Tallied s)
    (hpos : 0 < Tally.weightIn (l.tallyAt height).candidates key) :
    ∃ t d, l.tallies[height]? = some t ∧ d ∈ t.candidates ∧ d.key = key ∧
      d.votes.toNat = Tally.weightIn (l.tallyAt height).candidates key := by
  obtain ⟨d, hd, rfl⟩ := Tally.exists_of_weightIn_pos hpos
  have hweight := Tally.weightIn_key (h.nodup_keys height) hd
  cases ht : l.tallies[height]? with
  | none => simp [tallyAt, ht] at hd
  | some t => exact ⟨t, d, rfl, tallyAt_eq ht ▸ hd, rfl, hweight.symm⟩

/-- **What is confirmed at one node is confirmed wherever all its votes are known.** -/
theorem Covers.exists_confirmed (h : l.Covers k height) (hl : l.Tallied s) (hk : k.SoundIn s)
    (hu : k.tallies[height]? = some u) {required : UInt32} (hpos : 0 < required)
    (hc : c ∈ u.confirmed tier required) :
    ∃ t d, l.tallies[height]? = some t ∧ d ∈ t.confirmed tier required ∧ d.script = c.script := by
  obtain ⟨hm, rfl, hrequired⟩ := Tally.mem_confirmed.1 hc
  have hvotes : c.votes.toNat ≤ Tally.weightIn (l.tallyAt height).candidates c.key := calc
    c.votes.toNat = (k.voters s height c.key).card := (hk.card_voters hu hm).symm
    _ ≤ (l.voters s height c.key).card := Finset.card_le_card (h.voters_subset c.key)
    _ ≤ Tally.weightIn (l.tallyAt height).candidates c.key := hl.card_voters_le height c.key
  rw [UInt32.lt_iff_toNat_lt] at hpos
  rw [UInt32.le_iff_toNat_le] at hrequired
  obtain ⟨t, d, ht, hd, hkey, hweight⟩ := hl.exists_candidate
    (Nat.lt_of_lt_of_le hpos (hrequired.trans hvotes))
  obtain ⟨hscript, htier⟩ := Prod.mk.inj hkey
  refine ⟨t, d, ht, Tally.mem_confirmed.2 ⟨hd, htier, ?_⟩, hscript⟩
  rw [UInt32.le_iff_toNat_le]
  omega

/-- If quorums always overlap, the confirmed candidate of a tier is its winner. -/
theorem SoundIn.winner?_eq (h : l.SoundIn s) (ho : 0 < s.config.overlap)
    (ht : l.tallies[height]? = some t) (hc : c ∈ t.confirmed tier s.config.signaturesRequired) :
    l.winner? height tier = some c.script := by
  have hpos : 0 < s.config.signaturesRequired := Config.required_pos ho
  obtain ⟨hm, htier, hrequired⟩ := Tally.mem_confirmed.1 hc
  have hin : c ∈ t.inTier tier := Tally.mem_inTier.2 ⟨hm, htier⟩
  obtain ⟨d, hd, hconfirmed⟩ := Tally.exists_leader hpos
    (UInt32.le_trans hrequired (Tally.votes_le_mostVotes hin))
  have hone : (t.confirmed tier s.config.signaturesRequired).length ≤ 1 :=
    h.length_confirmed_le ho ht
  obtain ⟨x, hx⟩ := List.length_eq_one_iff.1
    (Nat.le_antisymm hone (List.length_pos_of_mem hc))
  rw [hx, List.mem_singleton] at hc hconfirmed
  rw [winner?, ht, Option.bind_some, Tally.winner?, hd, Option.map_some, hc, hconfirmed]

end Ledger

namespace Node

/-- **Templates are accepted elsewhere.** Two nodes were filled under the same rules, and quorums
always overlap. If the first has all votes for the next height that the second has, then the second
accepts every template of the first that had its base output. -/
theorem template_accepted {s : Setting} {n₁ n₂ m₁ m₂ : Node} {es₁ es₂ : List Event}
    {tx filled : Transaction} {tip height : Height} {staked : Bool} {count : Nat}
    (hl₁ : n₁.ledger = {}) (hl₂ : n₂.ledger = {})
    (hs₁ : s.SameRules n₁.setting) (hs₂ : s.SameRules n₂.setting)
    (hes₁ : ∀ e ∈ es₁, e.Fixes s) (hes₂ : ∀ e ∈ es₂, e.Fixes s)
    (h₁ : n₁.run es₁ = .ok m₁) (h₂ : n₂.run es₂ = .ok m₂)
    (ho : 0 < s.config.overlap) (hrules : m₁.setting.rules = m₂.setting.rules)
    (hheight : add64 tip 1 = .ok height) (hcovers : m₁.ledger.Covers m₂.ledger height)
    (hbase : baseIndex staked < tx.outputs.length)
    (hfill : m₁.ledger.payTiers m₁.setting tx tip staked = .ok filled)
    (hcount : m₂.setting.countWithDrift = .ok count) :
    m₂.ledger.accepts m₂.setting filled height = .ok true := by
  have tallied₁ := run_tallied hl₁ hs₁ hes₁ h₁
  have sound₁ := run_sound hl₁ hs₁ hes₁ h₁
  have sound₂ := run_sound hl₂ hs₂ hes₂ h₂
  have hrequired : m₂.setting.rules.required = s.config.signaturesRequired := by
    rw [(run_sameRules hs₂ hes₂ h₂).config]
    rfl
  have hpos : 0 < m₂.setting.rules.required := by
    rw [hrequired]
    exact Config.required_pos ho
  rw [Ledger.accepts, hcount]
  cases hu : m₂.ledger.tallies[height]? with
  | none => rfl
  | some u =>
    show u.accepts m₂.setting.rules filled = .ok true
    have hdue : ∀ tier ∈ m₂.setting.rules.schedule.tiers,
        m₂.setting.rules.schedule.Fits tier m₂.setting.rules.blockValue := by
      rw [← hrules]
      exact Ledger.fits_of_payTiers hbase hfill
    refine Tally.accepts_of_pays hpos hdue fun tier htier c hc => ?_
    rw [hrequired] at hc
    obtain ⟨t, d, ht, hd, hscript⟩ := hcovers.exists_confirmed tallied₁ sound₂ hu
      (Config.required_pos ho) hc
    have hwinner := sound₁.winner?_eq ho ht hd
    rw [← hrules] at htier ⊢
    exact Ledger.pays_of_payTiers hbase hheight hfill htier (hscript ▸ hwinner)

end Node

/-- Rules under which two of three votes are a quorum. -/
def Sample.twoOfThree : Setting :=
  setting { signaturesRequired := 2, signaturesTotal := 3 } [0, 1, 2] 1004

/-- Two voters agree, after the third one has named somebody else. -/
def Sample.outvoted : List Node.Event :=
  [.admitVote (vote 2 2 1005), .admitVote (vote 0 0 1005), .admitVote (vote 1 0 1005)]

theorem Node.template_accepted_outvoted : ∃ m₁ m₂ filled,
    ({ setting := Sample.twoOfThree } : Node).run Sample.outvoted = .ok m₁ ∧
      ({ setting := Sample.twoOfThree } : Node).run
        [.admitVote (Sample.vote 1 0 1005), .admitVote (Sample.vote 0 0 1005)] = .ok m₂ ∧
      m₂.ledger.accepts m₂.setting Sample.coinbase 1005 = .ok false ∧
      m₁.ledger.payTiers m₁.setting Sample.coinbase 1004 false = .ok filled ∧
      filled.outputs = [⟨50, [0x51], none⟩, ⟨50, (Sample.masternode 0).payout, none⟩] ∧
      m₂.ledger.accepts m₂.setting filled 1005 = .ok true := by
  have hrun₁ : (fun m => (m.ledger.voteList, m.setting.rules,
        m.ledger.payTiers m.setting Sample.coinbase 1004 false)) <$>
      ({ setting := Sample.twoOfThree } : Node).run Sample.outvoted =
        .ok ([Sample.vote 0 0 1005, Sample.vote 2 2 1005, Sample.vote 1 0 1005],
          Sample.twoOfThree.rules,
          .ok ⟨.coinbase, [⟨50, [0x51], none⟩, ⟨50, (Sample.masternode 0).payout, none⟩]⟩) := by
    decide +kernel
  have hrun₂ : (fun m => (m.ledger.voteList, m.setting.rules, m.setting.countWithDrift,
        m.ledger.accepts m.setting Sample.coinbase 1005)) <$>
      ({ setting := Sample.twoOfThree } : Node).run
        [.admitVote (Sample.vote 1 0 1005), .admitVote (Sample.vote 0 0 1005)] =
        .ok ([Sample.vote 0 0 1005, Sample.vote 1 0 1005], Sample.twoOfThree.rules, .ok 23,
          .ok false) := by
    decide +kernel
  obtain ⟨m₁, hm₁, he₁⟩ := map_eq_ok.1 hrun₁
  obtain ⟨m₂, hm₂, he₂⟩ := map_eq_ok.1 hrun₂
  simp only [Prod.mk.injEq] at he₁ he₂
  obtain ⟨hlist₁, hrules₁, hfill⟩ := he₁
  obtain ⟨hlist₂, hrules₂, hcount, hrejected⟩ := he₂
  have hcovers : m₁.ledger.Covers m₂.ledger 1005 := by
    intro v hv hheight
    refine ⟨v, ?_, rfl, hheight, rfl⟩
    rw [hlist₂] at hv
    rw [hlist₁]
    exact List.Sublist.subset (by simp) hv
  have haccepted := template_accepted (s := Sample.twoOfThree) rfl rfl (.refl _) (.refl _)
    (by simp [Sample.outvoted, Event.Fixes]) (by simp [Event.Fixes]) hm₁ hm₂ (by decide)
    (hrules₁.trans hrules₂.symm) rfl hcovers (by decide) hfill hcount
  exact ⟨m₁, m₂, _, hm₁, hm₂, hrejected, hfill, rfl, haccepted⟩

end MasternodePayments
