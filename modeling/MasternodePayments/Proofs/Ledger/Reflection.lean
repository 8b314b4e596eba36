import MasternodePayments.Proofs.Node.Notes
import MasternodePayments.Proofs.Tally.Weight

/-!
# The tallies reflect the votes

In every state that a node reaches from a ledger without votes, each stored vote is counted once, by
the candidate that it was admitted for, and nothing else is counted (`run_reflects`). It does not
matter what the vote would count for by now.

The invariant behind it, `Ledger.Counts`, speaks of the tally of every height, empty where nobody
voted, and compares the weight of every script in every tier with the stored votes. A recorded vote
raises both sides by one (`counts_record`), dropped heights lose both (`counts_dropBelow`).
-/

namespace MasternodePayments

namespace Ledger

/-! ## Counting votes -/

/-- How many of the stored votes have a property. -/
def countVotes (l : Ledger) (p : Hash → Vote → Bool) : Nat :=
  l.votes.toList.countP fun e => p e.1 e.2

/-- How many votes for a height are stored. -/
def votesAt (l : Ledger) (height : Height) : Nat := l.countVotes fun _ v => v.height = height

/-- How many votes for a height are stored that were admitted for a script in a tier. -/
def votesFor (l : Ledger) (o : Origins) (height : Height) (key : Script × Tier) : Nat :=
  l.countVotes fun id v => v.height = height ∧ o id = some key

section
variable {l l' : Ledger} {v : Vote} {a : Admission} {p q : Hash → Vote → Bool}

theorem countVotes_record (ha : a.identity ∉ l.votes) (h : l.record v a = .ok l') :
    l'.countVotes p = l.countVotes p + if p a.identity v then 1 else 0 := by
  rw [countVotes, (toList_votes_record ha h).countP_eq, List.countP_cons]
  rfl

theorem countVotes_congr (h : ∀ id v, l.votes[id]? = some v → p id v = q id v) :
    l.countVotes p = l.countVotes q :=
  List.countP_congr fun ⟨id, v⟩ he => by
    rw [h id v (Std.ExtTreeMap.mem_toList_iff_getElem?_eq_some.1 he)]

theorem countVotes_pos : 0 < l.countVotes p ↔ ∃ id v, l.votes[id]? = some v ∧ p id v = true := by
  simp [countVotes, List.countP_pos_iff, Std.ExtTreeMap.mem_toList_iff_getElem?_eq_some]

theorem countVotes_empty (h : l.votes = ∅) : l.countVotes p = 0 :=
  Nat.eq_zero_of_not_pos fun hp => by
    obtain ⟨id, v, hv, -⟩ := countVotes_pos.1 hp
    simp [h] at hv

/-- Dropping heights does not change how many votes for the others have a property. -/
theorem countVotes_dropBelow {lowest : Height} (h : ∀ id v, p id v = true → lowest ≤ v.height) :
    (l.dropBelow lowest).countVotes p = l.countVotes p := by
  rw [countVotes, toList_votes_dropBelow, List.countP_filter]
  refine List.countP_congr fun ⟨id, v⟩ _ => ?_
  simp only [Bool.and_eq_true, decide_eq_true_eq, and_iff_left_iff_imp]
  exact h id v

theorem votesAt_pos {height : Height} :
    0 < l.votesAt height ↔ ∃ v ∈ l.voteList, v.height = height := by
  simp only [votesAt, countVotes_pos, mem_voteList, decide_eq_true_eq]
  constructor
  · rintro ⟨id, v, hv, hh⟩
    exact ⟨v, ⟨id, hv⟩, hh⟩
  · rintro ⟨v, ⟨id, hv⟩, hh⟩
    exact ⟨id, v, hv, hh⟩

end

/-! ## The invariant -/

/-- The tallies count exactly the stored votes, each for what it was admitted for. -/
structure Counts (l : Ledger) (o : Origins) : Prop where
  keyed : ∀ {id : Hash} {v}, l.votes[id]? = some v → v.identity = id
  known : ∀ {id : Hash} {v}, l.votes[id]? = some v → (o id).isSome = true
  present : ∀ {height}, height ∈ l.tallies ↔ 0 < l.votesAt height
  height : ∀ height, (l.tallyAt height).height = height
  distinct : ∀ height, ((l.tallyAt height).candidates.map (·.key)).Nodup
  positive : ∀ height, ∀ c ∈ (l.tallyAt height).candidates, 0 < c.votes.toNat
  weight : ∀ height key, Tally.weightIn (l.tallyAt height).candidates key = l.votesFor o height key
  total : ∀ height, (l.tallyAt height).totalVotes = l.votesAt height

variable {s : Setting} {l l' : Ledger} {o : Origins} {v : Vote} {a : Admission} {height : Height}

theorem counts_empty (hv : l.votes = ∅) (ht : l.tallies = ∅) : l.Counts o where
  keyed h := by simp [hv] at h
  known h := by simp [hv] at h
  present := by simp [ht, votesAt, countVotes_empty hv]
  height _ := by simp [tallyAt, ht]
  distinct _ := by simp [tallyAt, ht]
  positive _ _ hc := by simp [tallyAt, ht] at hc
  weight _ _ := by simp [tallyAt, ht, votesFor, countVotes_empty hv]
  total _ := by simp [tallyAt, ht, votesAt, countVotes_empty hv, Tally.totalVotes]

theorem tallyAt_record (h : l.record v a = .ok l') :
    ∃ tally, (l.tallyAt v.height).add a.script a.tier 1 = .ok tally ∧
      l'.tallyAt v.height = tally ∧ ∀ height, height ≠ v.height →
        l'.tallyAt height = l.tallyAt height := by
  obtain ⟨tally, hadd, ht⟩ := getElem?_tallies_record h
  refine ⟨tally, hadd, by simp [tallyAt, ht], fun height hne => ?_⟩
  simp [tallyAt, ht, hne]

theorem votesAt_record (ha : a.identity ∉ l.votes) (h : l.record v a = .ok l') (height : Height) :
    l'.votesAt height = l.votesAt height + if v.height = height then 1 else 0 := by
  simp only [votesAt, countVotes_record ha h, decide_eq_true_eq]

theorem votesFor_record (ha : a.identity ∉ l.votes) (h : l.record v a = .ok l') (height : Height)
    (key key' : Script × Tier) :
    l'.votesFor (Function.update o a.identity (some key)) height key' =
      l.votesFor o height key' + if v.height = height ∧ key = key' then 1 else 0 := by
  simp only [votesFor, countVotes_record ha h, Function.update_self, Option.some.injEq,
    decide_eq_true_eq]
  congr 1
  refine countVotes_congr fun id w hw => ?_
  have hne : id ≠ a.identity := by
    rintro rfl
    exact ha (mem_votes_iff.2 ⟨w, hw⟩)
  rw [Function.update_of_ne hne]

/-- **One more vote**: the tally of its height and the stored votes grow alike. -/
theorem counts_record (hc : l.Counts o) (ha : l.Admits s v a) (h : l.record v a = .ok l') :
    l'.Counts (Function.update o a.identity (some (a.script, a.tier))) := by
  have hfresh := ha.not_mem
  obtain ⟨tally, hadd, hat, hother⟩ := tallyAt_record h
  obtain ⟨hth, hcs⟩ := Tally.add_eq_ok.1 hadd
  constructor
  case keyed =>
    intro id w hw
    rcases (stored_record hfresh h).1 hw with ⟨rfl, rfl⟩ | hw
    · exact ha.identity.symm
    · exact hc.keyed hw
  case known =>
    intro id w hw
    rcases Notes.stored_record _ hfresh h hw with ⟨-, -, he⟩ | ⟨hw, he⟩
    · rw [he]
      rfl
    · rw [he]
      exact hc.known hw
  case present =>
    intro height
    obtain ⟨_, -, ht⟩ := getElem?_tallies_record h
    rw [votesAt_record hfresh h, Std.ExtTreeMap.mem_iff_isSome_getElem?, ht]
    by_cases he : height = v.height
    · simp [he]
    · rw [if_neg he, if_neg (Ne.symm he), ← Std.ExtTreeMap.mem_iff_isSome_getElem?, hc.present]
      rfl
  case height =>
    intro height
    by_cases he : height = v.height
    · rw [he, hat, hth, hc.height]
    · rw [hother height he, hc.height]
  case distinct =>
    intro height
    by_cases he : height = v.height
    · rw [he, hat]
      exact Tally.nodup_keys_addTo hcs (hc.distinct v.height)
    · rw [hother height he]
      exact hc.distinct height
  case positive =>
    intro height
    by_cases he : height = v.height
    · rw [he, hat]
      exact Tally.votes_pos_addTo hcs Nat.one_pos (hc.positive v.height)
    · rw [hother height he]
      exact hc.positive height
  case weight =>
    intro height key
    rw [votesFor_record hfresh h]
    by_cases he : height = v.height
    · rw [he, hat, Tally.weight_addTo hcs, hc.weight]
      simp [eq_comm]
    · rw [hother height he, hc.weight, if_neg fun h => he h.1.symm]
      rfl
  case total =>
    intro height
    rw [votesAt_record hfresh h]
    by_cases he : height = v.height
    · rw [he, hat, Tally.totalVotes, Tally.sumVotes_addTo hcs, if_pos rfl, ← hc.total v.height]
      rfl
    · rw [hother height he, hc.total, if_neg (Ne.symm he)]
      rfl

/-! ## Dropped heights -/

/-- A kept height keeps its tally and its votes, a dropped one has neither. -/
theorem dropBelow_cases (l : Ledger) (o : Origins) (lowest height : Height) :
    (lowest ≤ height ∧ (l.dropBelow lowest).tallyAt height = l.tallyAt height ∧
      (l.dropBelow lowest).votesAt height = l.votesAt height ∧
      ∀ key, (l.dropBelow lowest).votesFor o height key = l.votesFor o height key) ∨
    (¬lowest ≤ height ∧ (l.dropBelow lowest).tallyAt height = ⟨height, []⟩ ∧
      (l.dropBelow lowest).votesAt height = 0 ∧
      ∀ key, (l.dropBelow lowest).votesFor o height key = 0) := by
  by_cases hle : lowest ≤ height
  · refine .inl ⟨hle, ?_, ?_, fun key => ?_⟩
    · rw [tallyAt, getElem?_tallies_dropBelow, if_pos hle]
      rfl
    · exact countVotes_dropBelow fun _ _ h => of_decide_eq_true h ▸ hle
    · exact countVotes_dropBelow fun _ _ h => (of_decide_eq_true h).1 ▸ hle
  · have none_left : ∀ p : Hash → Vote → Bool, (∀ id v, p id v = true → v.height = height) →
        (l.dropBelow lowest).countVotes p = 0 := by
      intro p hp
      refine Nat.eq_zero_of_not_pos fun hpos => ?_
      obtain ⟨id, v, hv, hpv⟩ := countVotes_pos.1 hpos
      exact hle (hp id v hpv ▸ (stored_dropBelow.1 hv).2)
    refine .inr ⟨hle, ?_, ?_, fun key => ?_⟩
    · rw [tallyAt, getElem?_tallies_dropBelow, if_neg hle]
      rfl
    · exact none_left _ fun _ _ h => of_decide_eq_true h
    · exact none_left _ fun _ _ h => (of_decide_eq_true h).1

/-- **Pruning**: what is kept of the tallies still counts what is kept of the votes. -/
theorem counts_dropBelow {lowest : Height} (hc : l.Counts o) : (l.dropBelow lowest).Counts o := by
  have hcases := dropBelow_cases l o lowest
  constructor
  case keyed => exact fun hw => hc.keyed (stored_dropBelow.1 hw).1
  case known => exact fun hw => hc.known (stored_dropBelow.1 hw).1
  case present =>
    intro height
    rw [Std.ExtTreeMap.mem_iff_isSome_getElem?, getElem?_tallies_dropBelow]
    rcases hcases height with ⟨hle, -, hat, -⟩ | ⟨hlt, -, hat, -⟩
    · rw [if_pos hle, hat, ← Std.ExtTreeMap.mem_iff_isSome_getElem?, hc.present]
    · simp [hlt, hat]
  case height =>
    intro height
    rcases hcases height with ⟨-, ht, -⟩ | ⟨-, ht, -⟩ <;> rw [ht]
    exact hc.height height
  case distinct =>
    intro height
    rcases hcases height with ⟨-, ht, -⟩ | ⟨-, ht, -⟩ <;> rw [ht]
    · exact hc.distinct height
    · exact List.nodup_nil
  case positive =>
    intro height
    rcases hcases height with ⟨-, ht, -⟩ | ⟨-, ht, -⟩ <;> rw [ht]
    · exact hc.positive height
    · exact fun c hm => absurd hm List.not_mem_nil
  case weight =>
    intro height key
    rcases hcases height with ⟨-, ht, -, hfor⟩ | ⟨-, ht, -, hfor⟩ <;> rw [ht, hfor]
    · exact hc.weight height key
    · exact Tally.weightIn_nil key
  case total =>
    intro height
    rcases hcases height with ⟨-, ht, hat, -⟩ | ⟨-, ht, hat, -⟩ <;> rw [ht, hat]
    · exact hc.total height
    · rfl

/-- Whatever happens between restorations, the tallies count the votes. -/
theorem counts_kept : Notes.Kept Setting.origin? (fun _ => True) Counts where
  record _ hc ha h := by
    have horigin := ha.payee
    rw [Setting.origin?, horigin]
    exact counts_record hc ha h
  noteCast _ hc := ⟨hc.keyed, hc.known, hc.present, hc.height, hc.distinct, hc.positive,
    hc.weight, hc.total⟩
  dropBelow _ hc := counts_dropBelow hc
  clear _ := counts_empty rfl rfl

/-! ## The statement -/

/-- Each stored vote is reflected exactly once in the tallies. -/
structure Reflects (l : Ledger) (o : Origins) : Prop where
  /-- Votes are stored under their own identity. -/
  keyed : ∀ {id : Hash} {v}, l.votes[id]? = some v → v.identity = id
  /-- There is a tally exactly for the heights that have votes. -/
  present : ∀ {height}, height ∈ l.tallies ↔ ∃ v ∈ l.voteList, v.height = height
  height : ∀ {height : Height} {t}, l.tallies[height]? = some t → t.height = height
  distinct : ∀ {height : Height} {t}, l.tallies[height]? = some t →
    (t.candidates.map (·.key)).Nodup
  /-- A candidate has as many votes as were admitted for it and are stored. -/
  counted : ∀ {height : Height} {t c}, l.tallies[height]? = some t → c ∈ t.candidates →
    0 < c.votes.toNat ∧ c.votes.toNat = l.votesFor o height c.key
  /-- Every vote counts for a candidate of its height. -/
  counts : ∀ {id : Hash} {v}, l.votes[id]? = some v → ∃ t, l.tallies[v.height]? = some t ∧
    ∃ c ∈ t.candidates, o id = some c.key
  total : ∀ {height : Height} {t}, l.tallies[height]? = some t → t.totalVotes = l.votesAt height

theorem tallyAt_eq {t : Tally} (h : l.tallies[height]? = some t) : l.tallyAt height = t := by
  rw [tallyAt, h]
  rfl

theorem Counts.reflects (hc : l.Counts o) : l.Reflects o where
  keyed := hc.keyed
  present := by
    intro height
    rw [hc.present, votesAt_pos]
  height {height t} h := by
    rw [← tallyAt_eq h]
    exact hc.height height
  distinct {height t} h := by
    rw [← tallyAt_eq h]
    exact hc.distinct height
  counted {height t c} h hm := by
    rw [← tallyAt_eq h] at hm
    refine ⟨hc.positive height c hm, ?_⟩
    rw [← hc.weight, Tally.weightIn_key (hc.distinct height) hm]
  counts {id v} h := by
    obtain ⟨key, hkey⟩ := Option.isSome_iff_exists.1 (hc.known h)
    have hin : v.height ∈ l.tallies :=
      hc.present.2 (votesAt_pos.2 ⟨v, mem_voteList.2 ⟨id, h⟩, rfl⟩)
    obtain ⟨t, ht⟩ := Option.isSome_iff_exists.1 (Std.ExtTreeMap.mem_iff_isSome_getElem?.1 hin)
    refine ⟨t, ht, ?_⟩
    -- Were there no such candidate, the key would have no weight, but `v` counts for it.
    have hpos : 0 < Tally.weightIn t.candidates key := by
      rw [← tallyAt_eq ht, hc.weight]
      exact countVotes_pos.2 ⟨id, v, h, by simp [hkey]⟩
    obtain ⟨c, hm, rfl⟩ := Tally.exists_of_weightIn_pos hpos
    exact ⟨c, hm, hkey⟩
  total {height t} h := by
    rw [← tallyAt_eq h]
    exact hc.total height

end Ledger

theorem Node.run_counts {n m : Node} {es : List Event} (hl : n.ledger = {})
    (hes : ∀ snapshot, .restore snapshot ∉ es) (h : n.run es = .ok m) :
    ∃ origins, n.trace es = .ok (m, origins) ∧ m.ledger.Counts origins := by
  obtain ⟨origins, ht⟩ : ∃ origins, n.trace es = .ok (m, origins) := exists_traceFrom h _
  have hstart : n.ledger.Counts fun _ => none := hl ▸ Ledger.counts_empty rfl rfl
  exact ⟨origins, ht, (traceFrom_keeps Ledger.counts_kept trivial hstart
    (fun e he => ⟨fun snapshot hr => hes snapshot (hr ▸ he), fun _ _ => trivial⟩) ht).2⟩

/-- **Every admitted vote is reflected exactly once in the tallies**, whatever happens to the node
and to its surroundings, restorations apart. -/
theorem Node.run_reflects {n m : Node} {es : List Event} (hl : n.ledger = {})
    (hes : ∀ snapshot, .restore snapshot ∉ es) (h : n.run es = .ok m) :
    ∃ origins, n.trace es = .ok (m, origins) ∧ m.ledger.Reflects origins := by
  obtain ⟨origins, ht, hcounts⟩ := run_counts hl hes h
  exact ⟨origins, ht, hcounts.reflects⟩

/-- Two votes for one script, named in two ways, under two registries, and then a tip that puts the
height behind the window but not behind the horizon. -/
def Sample.twoVotes : List Node.Event :=
  [.admitVote (vote 0 0 1005), .surroundings (setting {} [1, 0] 1001),
    .admitVote (scriptVote 1 0 1005), .surroundings (setting {} [0] 1900), .clean]

theorem Sample.run_twoVotes : ∃ m,
    ({ setting := setting {} [0] 1000 } : Node).run twoVotes = .ok m ∧
      m.ledger.tallies.toList = [(1005, ⟨1005, [⟨(masternode 0).payout, 1, 2⟩]⟩)] := by
  have hrun : (fun m => m.ledger.tallies.toList) <$>
      ({ setting := setting {} [0] 1000 } : Node).run twoVotes =
        .ok [(1005, ⟨1005, [⟨(masternode 0).payout, 1, 2⟩]⟩)] := by decide +kernel
  exact map_eq_ok.1 hrun

theorem Node.run_reflects_twoVotes :
    ∃ m origins, ({ setting := Sample.setting {} [0] 1000 } : Node).run Sample.twoVotes = .ok m ∧
      m.ledger.tallies[(1005 : Height)]? = some ⟨1005, [⟨(Sample.masternode 0).payout, 1, 2⟩]⟩ ∧
      m.ledger.Reflects origins := by
  obtain ⟨m, hm, ht⟩ := Sample.run_twoVotes
  obtain ⟨origins, -, hr⟩ := run_reflects rfl (by simp [Sample.twoVotes]) hm
  exact ⟨m, origins, hm, Std.ExtTreeMap.mem_toList_iff_getElem?_eq_some.1 (by simp [ht]), hr⟩

end MasternodePayments
