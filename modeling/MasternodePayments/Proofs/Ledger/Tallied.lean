import Mathlib.Data.List.Perm.Subperm
import MasternodePayments.Ledger.Answers
import MasternodePayments.Proofs.Node.Fixed
import MasternodePayments.Proofs.Tally.Order

/-!
# Tallies under fixed rules

A ledger that was filled under fixed rules is `Tallied`: its tallies count the stored votes, each
for what it counts for under these rules. So the stored votes decide everything but the order of the
candidates, and two such ledgers with the same votes for a height `AgreeAt` it, however the votes
came in.

* `Tallied.takesIn`, `Node.run_tallied`: which ledgers are tallied.
* `Tallied.agreeAt`: tallies are determined by the votes.
* `Tallied.exists_record`: a vote that another tallied ledger holds can be recorded.
* `AgreeAt.accepts_eq`: what is accepted at a height depends on its tally only.
-/

namespace MasternodePayments

namespace Ledger

/-- The tallies count the stored votes, each for what it counts for under the rules of `s`. -/
def Tallied (s : Setting) (l : Ledger) : Prop :=
  ∃ o : Origins, l.Counts o ∧ Notes.Current s.origin? l o

/-- Two ledgers have the same candidates with the same votes for a height. -/
def AgreeAt (l k : Ledger) (height : Height) : Prop :=
  Option.Rel Tally.Alike l.tallies[height]? k.tallies[height]?

variable {s t : Setting} {l l' k : Ledger} {v w : Vote} {a : Admission} {height : Height}
  {key : Script × Tier} {id : Hash}

/-! ## Tallied ledgers -/

theorem tallied_kept : Notes.Kept Setting.origin? s.SameRules
    fun l o => l.Counts o ∧ Notes.Current s.origin? l o :=
  (counts_kept.mono fun _ _ => trivial).and
    (Notes.current_kept fun _ ht v => (ht.origin?_eq v).symm)

theorem tallied_empty (hv : l.votes = ∅) (ht : l.tallies = ∅) : l.Tallied s :=
  ⟨fun _ => none, counts_empty hv ht, fun h => by simp [hv] at h⟩

namespace Tallied

theorem takesIn (h : l.Tallied s) (hk : TakesIn s l k) : k.Tallied s := by
  obtain ⟨o, ho⟩ := h
  exact ⟨_, tallied_kept.takesIn (.refl s) ho hk⟩

theorem identity_eq (h : l.Tallied s) (hv : l.votes[id]? = some v) : v.identity = id := by
  obtain ⟨o, hc, -⟩ := h
  exact hc.keyed hv

theorem mem_voteList_iff (h : l.Tallied s) : v ∈ l.voteList ↔ l.votes[v.identity]? = some v := by
  rw [mem_voteList]
  constructor
  · rintro ⟨id, hid⟩
    rwa [h.identity_eq hid]
  · exact fun hv => ⟨_, hv⟩

theorem nodup_identities (h : l.Tallied s) : (l.voteList.map (·.identity)).Nodup := by
  have hkeys : l.voteList.map (·.identity) = l.votes.keys := by
    rw [voteList, List.map_map, ← Std.ExtTreeMap.map_fst_toList_eq_keys]
    refine List.map_congr_left fun e he => ?_
    exact h.identity_eq (Std.ExtTreeMap.mem_toList_iff_getElem?_eq_some.1 he)
  rw [hkeys]
  exact Std.ExtTreeMap.nodup_keys

theorem nodup_supporters (h : l.Tallied s) (height : Height) (key : Script × Tier) :
    (l.supporters s height key).Nodup :=
  h.nodup_identities.of_map.filter _

theorem nodup_keys (h : l.Tallied s) (height : Height) :
    ((l.tallyAt height).candidates.map (·.key)).Nodup := by
  obtain ⟨o, hc, -⟩ := h
  exact hc.distinct height

/-- The weight of a key is the number of stored votes that count for it. -/
theorem weightIn_eq (h : l.Tallied s) (height : Height) (key : Script × Tier) :
    Tally.weightIn (l.tallyAt height).candidates key = (l.supporters s height key).length := by
  obtain ⟨o, hc, ho⟩ := h
  rw [hc.weight, votesFor_eq_length ho]

/-- Votes that somebody else stores too count for at least as much there. -/
theorem weightIn_le (h : l.Tallied s) (hk : k.Tallied s)
    (hsub : ∀ v ∈ l.supporters s height key, v ∈ k.voteList) :
    Tally.weightIn (l.tallyAt height).candidates key ≤
      Tally.weightIn (k.tallyAt height).candidates key := by
  rw [h.weightIn_eq, hk.weightIn_eq]
  refine ((h.nodup_supporters height key).subperm fun v hv => ?_).length_le
  exact mem_supporters.2 ⟨hsub v hv, (mem_supporters.1 hv).2⟩

/-! ## Agreement -/

theorem perm_candidates (h : l.Tallied s) (hk : k.Tallied s)
    (hv : ∀ v, v.height = height → (v ∈ l.voteList ↔ v ∈ k.voteList)) :
    (l.tallyAt height).candidates.Perm (k.tallyAt height).candidates := by
  have hle : ∀ key, Tally.weightIn (l.tallyAt height).candidates key =
      Tally.weightIn (k.tallyAt height).candidates key := by
    intro key
    refine Nat.le_antisymm (h.weightIn_le hk fun v hm => ?_) (hk.weightIn_le h fun v hm => ?_)
    · obtain ⟨hm, hh, -⟩ := mem_supporters.1 hm
      exact (hv v hh).1 hm
    · obtain ⟨hm, hh, -⟩ := mem_supporters.1 hm
      exact (hv v hh).2 hm
  have hn := h.nodup_keys height
  have hn' := hk.nodup_keys height
  obtain ⟨o, hc, -⟩ := h
  obtain ⟨o', hc', -⟩ := hk
  exact Tally.perm_of_weightIn hn hn' (hc.positive height) (hc'.positive height) hle

theorem mem_tallies_iff (h : l.Tallied s) :
    height ∈ l.tallies ↔ ∃ v ∈ l.voteList, v.height = height := by
  obtain ⟨o, hc, -⟩ := h
  rw [hc.present, votesAt_pos]

/-- **The votes for a height decide its tally**, but for the order of the candidates. -/
theorem agreeAt (h : l.Tallied s) (hk : k.Tallied s)
    (hv : ∀ v, v.height = height → (v ∈ l.voteList ↔ v ∈ k.voteList)) : l.AgreeAt k height := by
  have hperm := h.perm_candidates hk hv
  have hpresent : height ∈ l.tallies ↔ height ∈ k.tallies := by
    rw [h.mem_tallies_iff, hk.mem_tallies_iff]
    exact exists_congr fun v => and_congr_left fun hh => hv v hh
  have hheight : (l.tallyAt height).height = (k.tallyAt height).height := by
    obtain ⟨o, hc, -⟩ := h
    obtain ⟨o', hc', -⟩ := hk
    rw [hc.height, hc'.height]
  unfold AgreeAt
  cases ht : l.tallies[height]? with
  | none =>
    have habsent : ¬height ∈ l.tallies := by simp [Std.ExtTreeMap.mem_iff_isSome_getElem?, ht]
    rw [Std.ExtTreeMap.getElem?_eq_none fun hm => habsent (hpresent.2 hm)]
    exact .none
  | some t =>
    have hin : height ∈ l.tallies := by simp [Std.ExtTreeMap.mem_iff_isSome_getElem?, ht]
    obtain ⟨u, hu⟩ := Option.isSome_iff_exists.1
      (Std.ExtTreeMap.mem_iff_isSome_getElem?.1 (hpresent.1 hin))
    rw [tallyAt_eq ht, tallyAt_eq hu] at hperm hheight
    rw [hu]
    exact .some ⟨hheight, hperm⟩

/-! ## Room for one more vote -/

/-- **A vote can be recorded** if some other ledger holds it together with all votes stored so far:
what is counted there is a word, so it is one here. -/
theorem exists_record (h : l.Tallied s) (hk : k.Tallied s) (hsub : ∀ w ∈ l.voteList, w ∈ k.voteList)
    (ha : l.Admits s v a) (hv : v ∈ k.voteList) : ∃ l', l.record v a = .ok l' := by
  have hfresh : v ∉ l.voteList := fun hm =>
    ha.fresh (mem_votes_iff.2 ⟨v, h.mem_voteList_iff.1 hm⟩)
  have horigin : s.origin? v = some (a.script, a.tier) := ha.payee
  have hlt : (v :: l.supporters s v.height (a.script, a.tier)).length ≤
      (k.supporters s v.height (a.script, a.tier)).length := by
    refine (List.Nodup.subperm (List.nodup_cons.2 ⟨fun hm => ?_, h.nodup_supporters _ _⟩)
      fun w hw => ?_).length_le
    · exact hfresh (mem_supporters.1 hm).1
    · rcases List.mem_cons.1 hw with rfl | hw
      · exact mem_supporters.2 ⟨hv, rfl, horigin⟩
      · exact mem_supporters.2 ⟨hsub w (mem_supporters.1 hw).1, (mem_supporters.1 hw).2⟩
  have hroom : Tally.weightIn (l.tallyAt v.height).candidates (a.script, a.tier) +
      (1 : UInt32).toNat < UInt32.size := by
    have hword := Tally.weightIn_lt (hk.nodup_keys v.height) (a.script, a.tier)
    rw [hk.weightIn_eq] at hword
    rw [h.weightIn_eq]
    exact Nat.lt_of_le_of_lt hlt hword
  obtain ⟨cs, hcs⟩ := Tally.exists_addTo hroom
  exact ⟨_, record_eq_ok.2
    ⟨{ l.tallyAt v.height with candidates := cs }, Tally.add_eq_ok.2 ⟨rfl, hcs⟩, rfl⟩⟩

end Tallied

/-! ## What follows from agreement -/

namespace AgreeAt

theorem accepts_eq (h : l.AgreeAt k height) (hcount : s.countWithDrift = t.countWithDrift)
    (hrules : s.rules = t.rules) (tx : Transaction) :
    l.accepts s tx height = k.accepts t tx height := by
  unfold AgreeAt at h
  unfold accepts
  rw [hcount, hrules]
  generalize l.tallies[height]? = t at h
  generalize k.tallies[height]? = u at h
  cases h with
  | some h => simp only [h.accepts_eq]
  | none => rfl

theorem tallyAt_alike (h : l.AgreeAt k height) : (l.tallyAt height).Alike (k.tallyAt height) := by
  unfold AgreeAt at h
  unfold tallyAt
  generalize l.tallies[height]? = t at h
  generalize k.tallies[height]? = u at h
  cases h with
  | some h => exact h
  | none => exact ⟨rfl, .refl _⟩

theorem winner?_eq (h : l.AgreeAt k height) {tier : Tier} (hd : (l.tallyAt height).Decided tier) :
    l.winner? height tier = k.winner? height tier := by
  have hwinner : ∀ l : Ledger, l.winner? height tier = (l.tallyAt height).winner? tier := by
    intro l
    unfold winner? tallyAt
    cases l.tallies[height]? <;> rfl
  rw [hwinner, hwinner, h.tallyAt_alike.winner?_eq hd]

end AgreeAt

end Ledger

/-! ## Runs -/

/-- A ledger that was filled under fixed rules is tallied. -/
theorem Node.run_tallied {s : Setting} {n m : Node} {es : List Node.Event} (hl : n.ledger = {})
    (hs : s.SameRules n.setting) (hes : ∀ e ∈ es, e.Fixes s) (h : n.run es = .ok m) :
    m.ledger.Tallied s := by
  obtain ⟨o, ho⟩ := Ledger.tallied_empty (s := s) (l := n.ledger) (by rw [hl]) (by rw [hl])
  exact run_keeps Ledger.tallied_kept hs hes h ho

end MasternodePayments
