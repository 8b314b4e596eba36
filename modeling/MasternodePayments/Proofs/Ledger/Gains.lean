import MasternodePayments.Proofs.Horizon
import MasternodePayments.Proofs.Ledger.Batch
import MasternodePayments.Proofs.Ledger.Refusal

/-!
# What a ledger gains and what it loses

The votes that a ledger takes in are new: each is stored under an identity that was free before, and
nothing else comes in (`Ledger.TakesIn.count_announcement`). What it drops are the votes that it
says have expired. So the number of stored votes can be kept account of
(`Ledger.TakesIn.voteCount_eq`, `Ledger.voteCount_dropBelow`).
-/

namespace MasternodePayments.Ledger

variable {s : Setting} {j k l : Ledger} {v : Vote} {id : Hash} {lowest : Height}

/-! ## Votes taken in -/

theorem newVotes_self (l : Ledger) : l.newVotes l = [] := newVotes_eq_nil fun _ hid => hid

theorem TakesIn.newVotes_trans (h : TakesIn s l j) (h' : TakesIn s j k) :
    (l.newVotes k).Perm (l.newVotes j ++ j.newVotes k) := by
  induction h' with
  | refl => rw [newVotes_self, List.append_nil]
  | @vote k k' v a ht ha hr ih =>
    have hfirst : (l.newVotes k').Perm (v :: l.newVotes k) :=
      newVotes_record (fun _ => (h.trans ht).mem_votes) ha.not_mem hr
    have hlater : (j.newVotes k').Perm (v :: j.newVotes k) :=
      newVotes_record (fun _ => ht.mem_votes) ha.not_mem hr
    exact hfirst.trans ((ih.cons v).trans (List.perm_middle.symm.trans (hlater.symm.append_left _)))
  | noteCast height _ ih => exact ih

/-- A vote is announced once if it is new, and else not at all. -/
theorem TakesIn.count_announcement (h : TakesIn s l k) (id : Hash) :
    ((l.newVotes k).map (·.announcement)).count ⟨id⟩ =
      if id ∈ k.votes ∧ id ∉ l.votes then 1 else 0 := by
  induction h with
  | refl => simp [newVotes_self]
  | @vote k k' v a ht ha hr ih =>
    have hfree : a.identity ∉ k.votes := ha.not_mem
    rw [((newVotes_record (fun _ => ht.mem_votes) hfree hr).map _).count_eq, List.map_cons,
      List.count_cons, ih]
    simp only [mem_votes_record hr]
    by_cases hid : id = a.identity
    · subst hid
      have hold : a.identity ∉ l.votes := fun hm => hfree (ht.mem_votes hm)
      have hself : v.announcement = ⟨a.identity⟩ := congrArg Announcement.mk ha.identity.symm
      simp only [hself, hfree, hold, beq_self_eq_true, false_and, true_or, not_false_eq_true,
        true_and, if_true, if_false]
    · have hne : v.announcement ≠ ⟨id⟩ := fun he =>
        hid ((congrArg Announcement.identity he).symm.trans ha.identity.symm)
      simp only [hid, beq_iff_eq, hne, if_false, false_or, Nat.add_zero]
  | noteCast height _ ih => exact ih

theorem TakesIn.voteCount_eq (h : TakesIn s l k) :
    k.voteCount = l.voteCount + (l.newVotes k).length := by
  induction h with
  | refl => simp [newVotes_self]
  | @vote k k' v a ht ha hr ih =>
    rw [(newVotes_record (fun _ => ht.mem_votes) ha.not_mem hr).length_eq, List.length_cons,
      voteCount, ← Std.ExtTreeMap.length_toList, (toList_votes_record ha.not_mem hr).length_eq,
      List.length_cons, Std.ExtTreeMap.length_toList, ← voteCount, ih, Nat.add_assoc]
  | noteCast height _ ih => exact ih

theorem newVotes_admitSome {vs ws : List Vote} (h : AdmitsSome s l vs k ws) :
    (l.newVotes k).Perm ws := by
  induction h with
  | nil => rw [newVotes_self]
  | refused _ _ ih => exact ih
  | @admitted l j k v vs ws hv hothers ih =>
    have hnew := (takesIn_admitVote hv).newVotes_trans (takesIn_admitSome hothers)
    rw [newVotes_admitVote hv] at hnew
    exact hnew.trans (ih.cons v)

/-- The votes that this node casts are the new ones. -/
theorem newVotes_cast {height : Height} {active : ActiveMasternode} {votes : List Vote}
    (h : l.cast s height active = .ok (k, votes)) : (l.newVotes k).Perm votes := by
  obtain ⟨node, -, -, h⟩ := cast_eq_ok.1 h
  cases h with
  | past => rw [newVotes_self]
  | budget =>
    show (l.newVotes l).Perm []
    rw [newVotes_self]
  | refused _ _ hadmit => exact newVotes_admitSome hadmit
  | @some final _ _ _ _ hadmit => exact newVotes_admitSome (k := final) hadmit

/-- Of the checks only the first one is about duplicates. -/
theorem mem_votes_of_duplicate (h : l.admitVote s v = .error (.rejected (.duplicate id))) :
    v.identity ∈ l.votes := by
  cases check_eq_rejected.1 (admitVote_eq_rejected.1 h) with
  | duplicate hstored => exact hstored
  | window _ hout =>
    obtain ⟨_, _, -, -, hcause⟩ := Setting.checkWindow_eq_rejected.1 hout
    cases hcause
  | eligibility _ _ hbarred =>
    obtain ⟨-, hcause⟩ | ⟨-, -, -, hcause⟩ := Setting.checkEligibility_eq_rejected.1 hbarred <;>
      cases hcause

/-! ## Votes dropped -/

theorem mem_expired :
    id ∈ l.expired lowest ↔ ∃ v, l.votes[id]? = some v ∧ ¬lowest ≤ v.height := by
  simp [expired, Std.ExtTreeMap.mem_filter, Std.ExtTreeMap.getElem?_eq_some_iff, UInt64.not_le]

theorem mem_votes_dropBelow :
    id ∈ (l.dropBelow lowest).votes ↔ id ∈ l.votes ∧ id ∉ l.expired lowest := by
  simp only [mem_votes_iff, stored_dropBelow, mem_expired]
  constructor
  · rintro ⟨v, hv, hle⟩
    refine ⟨⟨v, hv⟩, fun ⟨w, hw, hlt⟩ => hlt ?_⟩
    rwa [← Option.some.inj (hv.symm.trans hw)]
  · rintro ⟨⟨v, hv⟩, hkept⟩
    exact ⟨v, hv, not_not.1 fun hlt => hkept ⟨v, hv, hlt⟩⟩

theorem voteCount_dropBelow (l : Ledger) (lowest : Height) :
    (l.dropBelow lowest).voteCount + (l.expired lowest).length = l.voteCount := by
  have hexpired : (l.expired lowest).length =
      (l.votes.toList.filter fun e => !decide (lowest ≤ e.2.height)).length := by
    rw [expired, Std.ExtTreeMap.length_keys, ← Std.ExtTreeMap.length_toList,
      Std.ExtTreeMap.toList_filter]
    simp only [← decide_not, UInt64.not_le]
  rw [hexpired, voteCount, ← Std.ExtTreeMap.length_toList, toList_votes_dropBelow,
    voteCount, ← Std.ExtTreeMap.length_toList]
  exact (List.length_eq_length_filter_add _).symm

end MasternodePayments.Ledger
