import MasternodePayments.Proofs.Node.Fixed
import MasternodePayments.Proofs.Tally.Order

/-!
# Quorums

Two nodes under the same rules need not have received the same votes. If both confirm a candidate
for the same tier of the same height, but not the same one, then many voters voted differently at
the two nodes (`quorum_agreement`): any two quorums overlap (`overlap_le_card`), and a voter in both
has one stored vote for the tier at each node (`SoundIn.votesOf_eq`).
-/

namespace MasternodePayments

/-- In how many voters two quorums overlap at least. -/
def Config.overlap (c : Config) : Nat := 2 * c.signaturesRequired.toNat - c.signaturesTotal.toNat

namespace Ledger

variable {s : Setting} {l l' : Ledger} {t t' : Tally} {c c' : Candidate} {height : Height}
  {tier : Tier} {key key' : Script × Tier}

/-- Who voted for a script in a tier of a height. -/
def voters (l : Ledger) (s : Setting) (height : Height) (key : Script × Tier) :
    Finset MasternodeId :=
  ((l.supporters s height key).map (·.voter)).toFinset

/-- Both ledgers have a vote that uses up a ballot, but not the same one: the two votes do not even
name the same payee. -/
def Differ (s : Setting) (l l' : Ledger) (b : Ballot) : Prop :=
  ∃ v w, l.votesOf s b = [v] ∧ l'.votesOf s b = [w] ∧ v.payee ≠ w.payee

theorem mem_voters {voter : MasternodeId} : voter ∈ l.voters s height key ↔
    ∃ v ∈ l.voteList, v.height = height ∧ s.origin? v = some key ∧ v.voter = voter := by
  simp [voters, mem_supporters, and_assoc]

theorem SoundIn.card_voters (h : l.SoundIn s) (ht : l.tallies[height]? = some t)
    (hc : c ∈ t.candidates) : (l.voters s height c.key).card = c.votes.toNat := by
  rw [voters, List.toFinset_card_of_nodup (h.nodup_voters height c.key), List.length_map,
    h.counted ht hc]

theorem SoundIn.mayVote (h : l.SoundIn s) : ∀ voter ∈ l.voters s height key, s.MayVote voter := by
  intro voter hv
  obtain ⟨v, hm, -, -, rfl⟩ := mem_voters.1 hv
  exact h.eligible v hm

/-- **Two quorums overlap.** -/
theorem overlap_le_card (h : l.SoundIn s) (h' : l'.SoundIn s) (ht : l.tallies[height]? = some t)
    (ht' : l'.tallies[height]? = some t') (hc : c ∈ t.confirmed tier s.config.signaturesRequired)
    (hc' : c' ∈ t'.confirmed tier s.config.signaturesRequired) :
    s.config.overlap ≤ (l.voters s height c.key ∩ l'.voters s height c'.key).card := by
  obtain ⟨hm, -, hr⟩ := Tally.mem_confirmed.1 hc
  obtain ⟨hm', -, hr'⟩ := Tally.mem_confirmed.1 hc'
  have hcard := h.card_voters ht hm
  have hcard' := h'.card_voters ht' hm'
  have hunion : (l.voters s height c.key ∪ l'.voters s height c'.key).card ≤
      s.config.signaturesTotal.toNat := by
    refine Setting.card_le_signaturesTotal (s := s) fun voter hv => ?_
    rcases Finset.mem_union.1 hv with hv | hv
    · exact h.mayVote voter hv
    · exact h'.mayVote voter hv
  have hsum := Finset.card_union_add_card_inter (l.voters s height c.key)
    (l'.voters s height c'.key)
  rw [UInt32.le_iff_toNat_le] at hr hr'
  unfold Config.overlap
  omega

/-- A voter in two quorums for different scripts voted differently. -/
theorem differ_of_mem (h : l.SoundIn s) (h' : l'.SoundIn s) {voter : MasternodeId}
    {script script' : Script} (hne : script ≠ script')
    (hv : voter ∈ l.voters s height (script, tier))
    (hw : voter ∈ l'.voters s height (script', tier)) : Differ s l l' ⟨voter, tier, height⟩ := by
  obtain ⟨v, hvm, rfl, hvo, rfl⟩ := mem_voters.1 hv
  obtain ⟨w, hwm, hwh, hwo, hwv⟩ := mem_voters.1 hw
  have hb := ballot?_eq_of_origin? hvo
  have hb' : s.ballot? w = some ⟨v.voter, tier, v.height⟩ := by
    rw [ballot?_eq_of_origin? hwo, hwv, hwh]
  refine ⟨v, w, h.votesOf_eq hvm hb, h'.votesOf_eq hwm hb', fun he => hne ?_⟩
  have : s.origin? v = s.origin? w := congrArg s.resolve? he
  rw [hvo, hwo] at this
  exact congrArg Prod.fst (Option.some.inj this)

theorem SoundIn.disjoint_voters (h : l.SoundIn s) {script script' : Script}
    (hne : script ≠ script') :
    Disjoint (l.voters s height (script, tier)) (l.voters s height (script', tier)) := by
  rw [Finset.disjoint_left]
  intro voter hv hw
  obtain ⟨v, w, hvl, hwl, hp⟩ := differ_of_mem h h hne hv hw
  rw [hvl] at hwl
  exact hp (congrArg Vote.payee (List.cons.inj hwl).1)

/-- If quorums always overlap, no tier of a height has two confirmed candidates. -/
theorem SoundIn.length_confirmed_le (h : l.SoundIn s) (ho : 0 < s.config.overlap)
    (ht : l.tallies[height]? = some t) :
    (t.confirmed tier s.config.signaturesRequired).length ≤ 1 := by
  match hcs : t.confirmed tier s.config.signaturesRequired with
  | [] => exact Nat.zero_le 1
  | [_] => exact Nat.le_refl 1
  | c :: d :: cs =>
    exfalso
    have hc : c ∈ t.confirmed tier s.config.signaturesRequired := by simp [hcs]
    have hd : d ∈ t.confirmed tier s.config.signaturesRequired := by simp [hcs]
    obtain ⟨-, hct, -⟩ := Tally.mem_confirmed.1 hc
    obtain ⟨-, hdt, -⟩ := Tally.mem_confirmed.1 hd
    have hn : ((t.confirmed tier s.config.signaturesRequired).map (·.key)).Nodup :=
      (h.distinct ht).sublist ((List.filter_sublist.trans List.filter_sublist).map _)
    have hkey : c.key ≠ d.key := by
      rw [hcs] at hn
      intro he
      simp [he] at hn
    have hscript : c.script ≠ d.script := fun he =>
      hkey (Prod.ext he (hct.trans hdt.symm))
    have hle := overlap_le_card h h ht ht hc hd
    have hdis : Disjoint (l.voters s height (c.script, tier))
        (l.voters s height (d.script, tier)) := h.disjoint_voters hscript
    rw [Candidate.key, Candidate.key, hct, hdt, Finset.disjoint_iff_inter_eq_empty.1 hdis,
      Finset.card_empty] at hle
    omega

end Ledger

/-- **Quorum agreement.** If two nodes under the same fixed rules confirm different scripts for a
tier of a height, at least as many voters as two quorums have in common voted differently at the
two. Quorums that always overlap leave every tier of a height at most one confirmed candidate. -/
theorem Node.quorum_agreement {s : Setting} {n₁ n₂ m₁ m₂ : Node} {es₁ es₂ : List Event}
    (hl₁ : n₁.ledger = {}) (hl₂ : n₂.ledger = {})
    (hs₁ : s.SameRules n₁.setting) (hs₂ : s.SameRules n₂.setting)
    (hes₁ : ∀ e ∈ es₁, e.Fixes s) (hes₂ : ∀ e ∈ es₂, e.Fixes s)
    (h₁ : n₁.run es₁ = .ok m₁) (h₂ : n₂.run es₂ = .ok m₂) :
    (∀ {height : Height} {tier t₁ t₂ c₁ c₂},
      m₁.ledger.tallies[height]? = some t₁ → m₂.ledger.tallies[height]? = some t₂ →
      c₁ ∈ t₁.confirmed tier s.config.signaturesRequired →
      c₂ ∈ t₂.confirmed tier s.config.signaturesRequired → c₁.script ≠ c₂.script →
      ∃ voters : Finset MasternodeId, s.config.overlap ≤ voters.card ∧
        ∀ voter ∈ voters, Ledger.Differ s m₁.ledger m₂.ledger ⟨voter, tier, height⟩) ∧
    (0 < s.config.overlap → ∀ {height : Height} {tier t}, m₁.ledger.tallies[height]? = some t →
      (t.confirmed tier s.config.signaturesRequired).length ≤ 1) := by
  have sound₁ := run_sound hl₁ hs₁ hes₁ h₁
  have sound₂ := run_sound hl₂ hs₂ hes₂ h₂
  constructor
  · intro height tier t₁ t₂ c₁ c₂ ht₁ ht₂ hc₁ hc₂ hne
    refine ⟨_, Ledger.overlap_le_card sound₁ sound₂ ht₁ ht₂ hc₁ hc₂, fun voter hv => ?_⟩
    obtain ⟨hv₁, hv₂⟩ := Finset.mem_inter.1 hv
    rw [Candidate.key, (Tally.mem_confirmed.1 hc₁).2.1] at hv₁
    rw [Candidate.key, (Tally.mem_confirmed.1 hc₂).2.1] at hv₂
    exact Ledger.differ_of_mem sound₁ sound₂ hne hv₁ hv₂
  · exact fun ho _ _ _ ht => sound₁.length_confirmed_le ho ht

/-- The rules under which one masternode may vote, and its vote is a quorum. -/
def Sample.oneVoter : Setting :=
  setting { signaturesRequired := 1, signaturesTotal := 1 } [0, 1] 1000

/-- The one voter told two nodes different things. -/
theorem Node.quorum_agreement_oneVoter : ∃ m₁ m₂ : Node,
    ({ setting := Sample.oneVoter } : Node).run [.admitVote (Sample.vote 0 0 1005)] = .ok m₁ ∧
      ({ setting := Sample.oneVoter } : Node).run
        [.admitVote (Sample.vote 0 1 1005), .admitVote (Sample.vote 0 0 1005)] = .ok m₂ ∧
      (∃ voters : Finset MasternodeId, 1 ≤ voters.card ∧ ∀ voter ∈ voters,
        Ledger.Differ Sample.oneVoter m₁.ledger m₂.ledger ⟨voter, 1, 1005⟩) ∧
      ∀ {height : Height} {tier t}, m₁.ledger.tallies[height]? = some t →
        (t.confirmed tier 1).length ≤ 1 := by
  have hrun₁ : (fun m => m.ledger.tallies[(1005 : Height)]?) <$>
      ({ setting := Sample.oneVoter } : Node).run [.admitVote (Sample.vote 0 0 1005)] =
        .ok (some ⟨1005, [⟨(Sample.masternode 0).payout, 1, 1⟩]⟩) := by decide +kernel
  have hrun₂ : (fun m => m.ledger.tallies[(1005 : Height)]?) <$>
      ({ setting := Sample.oneVoter } : Node).run
        [.admitVote (Sample.vote 0 1 1005), .admitVote (Sample.vote 0 0 1005)] =
        .ok (some ⟨1005, [⟨(Sample.masternode 1).payout, 1, 1⟩]⟩) := by decide +kernel
  have hne : (Sample.masternode 0).payout ≠ (Sample.masternode 1).payout := by decide +kernel
  obtain ⟨m₁, hm₁, ht₁⟩ := map_eq_ok.1 hrun₁
  obtain ⟨m₂, hm₂, ht₂⟩ := map_eq_ok.1 hrun₂
  obtain ⟨hdiffer, hone⟩ := quorum_agreement rfl rfl (.refl _) (.refl _)
    (by simp [Event.Fixes]) (by simp [Event.Fixes]) hm₁ hm₂
  refine ⟨m₁, m₂, hm₁, hm₂, ?_, fun ht => hone (by decide) ht⟩
  exact hdiffer ht₁ ht₂ (Tally.mem_confirmed.2 ⟨List.mem_singleton_self _, rfl, by decide⟩)
    (Tally.mem_confirmed.2 ⟨List.mem_singleton_self _, rfl, by decide⟩) hne

end MasternodePayments
