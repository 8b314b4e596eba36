import MasternodePayments.Proofs.Ledger.Batch

/-!
# The order of arrival

Votes of which none is in the way of another may come in in any order: each of them fares the same,
the same votes and ballots are stored, and the tallies have the same candidates with the same votes
(`Node.admitEach_perm`). So the same transactions are accepted. Only the place of a candidate among
those with as many votes depends on the order, and with it the winner of a tie.
-/

namespace MasternodePayments

namespace Node

/-- Two nodes whose ledgers differ at most in the order of the candidates. -/
structure SameButOrder (m k : Node) : Prop where
  votes : m.ledger.votes = k.ledger.votes
  ballots : m.ledger.ballots = k.ledger.ballots
  tallies : ∀ height, m.ledger.AgreeAt k.ledger height
  accepts : ∀ tx height, m.ledger.accepts m.setting tx height = k.ledger.accepts k.setting tx height
  mostVotes : ∀ height tier,
    (m.ledger.tallyAt height).mostVotes tier = (k.ledger.tallyAt height).mostVotes tier
  winner : ∀ height tier, (m.ledger.tallyAt height).Decided tier →
    m.ledger.winner? height tier = k.ledger.winner? height tier

variable {n m k j : Node} {es : List Event} {vs ws : List Vote}
  {rs qs : List (Vote × Except Rejection Unit)}

/-- Under the same rules, the same votes and ballots make ledgers the same but for the order. -/
theorem sameButOrder_of_votes (hs : m.setting = k.setting) (hm : m.ledger.Tallied m.setting)
    (hk : k.ledger.Tallied m.setting) (hvotes : m.ledger.votes = k.ledger.votes)
    (hballots : m.ledger.ballots = k.ledger.ballots) : m.SameButOrder k := by
  have hagree : ∀ height, m.ledger.AgreeAt k.ledger height := fun height =>
    hm.agreeAt hk fun v _ => by rw [hm.mem_voteList_iff, hk.mem_voteList_iff, hvotes]
  exact {
    votes := hvotes
    ballots := hballots
    tallies := hagree
    accepts := fun tx height => by rw [← hs, (hagree height).accepts_eq rfl rfl]
    mostVotes := fun height tier => (hagree height).tallyAt_alike.mostVotes_eq tier
    winner := fun height _ hd => (hagree height).winner?_eq hd }

/-- Two orders of independent votes, if both have an outcome, have the same one. -/
theorem sameButOrder_of_perm (hn : n.ledger.Tallied n.setting) (hvs : n.setting.Independent vs)
    (hp : vs.Perm ws) (hk : n.admitEach vs = .ok (k, rs)) (hj : n.admitEach ws = .ok (j, qs)) :
    rs.Perm qs ∧ k.SameButOrder j := by
  obtain ⟨hset, hv⟩ := settles_admitEach hvs hk
  obtain ⟨hset', hw⟩ := settles_admitEach (hvs.perm hp) hj
  have hvotes : k.ledger.votes = j.ledger.votes := by
    refine Std.ExtTreeMap.ext_getElem? fun id => Option.ext fun w => ?_
    rw [hv.votes, hw.votes, hp.mem_iff]
  have hballots : k.ledger.ballots = j.ledger.ballots := by
    refine Std.ExtTreeSet.ext_mem fun b => ?_
    rw [hv.ballots, hw.ballots]
    exact or_congr_right (exists_congr fun w => and_congr_left fun _ => hp.mem_iff)
  have hresults : ∀ {us : List Vote} {m : Node} {ps : List (Vote × Except Rejection Unit)},
      n.ledger.Settles n.setting us m.ledger ps →
      ∀ p, p ∈ ps ↔ p.1 ∈ us ∧ n.ledger.verdict n.setting p.1 = .ok p.2 := by
    intro us m ps h p
    refine ⟨fun hm => ⟨h.offered ▸ List.mem_map_of_mem hm, h.verdict p hm⟩, ?_⟩
    rintro ⟨hm, hverdict⟩
    rw [← h.offered] at hm
    obtain ⟨q, hq, he⟩ := List.mem_map.1 hm
    have hsame : q.2 = p.2 := Except.ok.inj ((h.verdict q hq).symm.trans (he ▸ hverdict))
    exact Prod.ext he hsame ▸ hq
  have hnodup : (rs.map (·.1)).Nodup := hv.offered ▸ hvs.identities.of_map
  have hnodup' : (qs.map (·.1)).Nodup := hw.offered ▸ (hvs.perm hp).identities.of_map
  constructor
  · refine (List.perm_ext_iff_of_nodup hnodup.of_map hnodup'.of_map).2 fun p => ?_
    rw [hresults hv, hresults hw, hp.mem_iff]
  · refine sameButOrder_of_votes (hset.trans hset'.symm) ?_ ?_ hvotes hballots
    · exact hset ▸ hn.takesIn hv.takesIn
    · exact hset ▸ hn.takesIn hw.takesIn

/-- **The order of arrival does not matter.** Take any ledger that was filled under the present
rules, and votes of which no two are the same or use up the same ballot. If they can be offered in
one order without an overflow, they can be in any other, each vote fares the same, and the ledgers
differ at most in the order of the candidates. -/
theorem admitEach_perm (hl : n.ledger = {}) (hs : m.setting.SameRules n.setting)
    (hes : ∀ e ∈ es, e.Fixes m.setting) (h : n.run es = .ok m) (hvs : m.setting.Independent vs)
    (hp : vs.Perm ws) (hk : m.admitEach vs = .ok (k, rs)) :
    ∃ j qs, m.admitEach ws = .ok (j, qs) ∧ rs.Perm qs ∧ k.SameButOrder j := by
  have hm : m.ledger.Tallied m.setting := run_tallied hl hs hes h
  obtain ⟨-, hv⟩ := settles_admitEach hvs hk
  have hkl : k.ledger.Tallied m.setting := hm.takesIn hv.takesIn
  -- The ledger of the first order has room for all votes, so it has room for them in any order.
  have hsub : ∀ w ∈ m.ledger.voteList, w ∈ k.ledger.voteList := fun w hw =>
    hkl.mem_voteList_iff.2 (hv.votes.2 (.inl (hm.mem_voteList_iff.1 hw)))
  obtain ⟨j, qs, hj⟩ : ∃ j qs, m.admitEach ws = .ok (j, qs) := by
    refine exists_admitEach hm hkl hsub (hvs.perm hp) fun w hw => ?_
    have hin : w ∈ vs := hp.mem_iff.2 hw
    obtain ⟨p, hmem, rfl⟩ := List.mem_map.1 (hv.offered.symm ▸ hin)
    refine ⟨p.2, hv.verdict p hmem, fun hadmitted => ?_⟩
    exact hkl.mem_voteList_iff.2 (hv.votes.2 (.inr ⟨hin, rfl, hadmitted ▸ hv.verdict p hmem⟩))
  exact ⟨j, qs, hj, sameButOrder_of_perm hm hvs hp hk hj⟩

end Node

/-- Two votes for one height by different masternodes, each for itself. -/
def Sample.rivalVotes : List Vote := [vote 0 0 1005, vote 1 1 1005]

/-- A third masternode voted before. Which of the two others comes next in the tally depends on the
order of their votes. -/
theorem Node.admitEach_perm_rivalVotes : ∃ m k j rs qs,
    ({ setting := Sample.setting {} [0, 1, 2] 1000 } : Node).run
        [.admitVote (Sample.vote 2 2 1005)] = .ok m ∧
      m.admitEach Sample.rivalVotes = .ok (k, rs) ∧
      m.admitEach Sample.rivalVotes.reverse = .ok (j, qs) ∧
      k.ledger.tallies[(1005 : Height)]? ≠ j.ledger.tallies[(1005 : Height)]? ∧
      rs.Perm qs ∧ k.SameButOrder j := by
  have hrun : (fun m => ((fun p => p.1.ledger.tallies[(1005 : Height)]?) <$>
        m.admitEach Sample.rivalVotes,
      (fun p => p.1.ledger.tallies[(1005 : Height)]?) <$>
        m.admitEach Sample.rivalVotes.reverse)) <$>
      ({ setting := Sample.setting {} [0, 1, 2] 1000 } : Node).run
        [.admitVote (Sample.vote 2 2 1005)] =
      .ok (.ok (some ⟨1005, [⟨(Sample.masternode 2).payout, 1, 1⟩,
          ⟨(Sample.masternode 0).payout, 1, 1⟩, ⟨(Sample.masternode 1).payout, 1, 1⟩]⟩),
        .ok (some ⟨1005, [⟨(Sample.masternode 2).payout, 1, 1⟩,
          ⟨(Sample.masternode 1).payout, 1, 1⟩, ⟨(Sample.masternode 0).payout, 1, 1⟩]⟩)) := by
    decide +kernel
  have hvs : (Sample.setting {} [0, 1, 2] 1000).Independent Sample.rivalVotes :=
    ⟨by decide +kernel, by decide +kernel⟩
  obtain ⟨m, hm, he⟩ := map_eq_ok.1 hrun
  obtain ⟨hk, hj⟩ := Prod.mk.inj he
  obtain ⟨⟨k, rs⟩, hk, hkt⟩ := map_eq_ok.1 hk
  obtain ⟨⟨j, qs⟩, hj, hjt⟩ := map_eq_ok.1 hj
  have hset : m.setting = Sample.setting {} [0, 1, 2] 1000 :=
    (step_effect (by simpa [run] using hm)).1
  obtain ⟨j', qs', hj', hsame⟩ := admitEach_perm rfl (hset ▸ .refl _) (by simp [Event.Fixes]) hm
    (hset ▸ hvs) (List.reverse_perm _).symm hk
  cases hj.symm.trans hj'
  refine ⟨m, k, j, rs, qs, hm, hk, hj, ?_, hsame⟩
  rw [hkt, hjt]
  decide +kernel

end MasternodePayments
