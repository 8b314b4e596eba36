import Mathlib.Data.List.Perm.Basic
import MasternodePayments.Ledger.Pruning
import MasternodePayments.Proofs.Ledger.Admission

/-!
# What is stored after an operation

The look-ups in a ledger that recorded a vote (`votes_record` and on) or dropped everything below a
cutoff (`stored_dropBelow` and on), in terms of the look-ups before. A vote for a height that is not
dropped may be recorded before or after (`record_dropBelow`).
-/

namespace MasternodePayments

theorem nodup_toList {κ β : Type} [Ord κ] [Std.TransOrd κ] (m : Std.ExtTreeMap κ β) :
    m.toList.Nodup :=
  m.distinct_keys_toList.imp fun hab he => hab (by rw [he]; exact Std.ReflCmp.compare_self)

theorem toList_insert_perm {κ β : Type} [Ord κ] [Std.TransOrd κ] [Std.LawfulEqOrd κ]
    {m : Std.ExtTreeMap κ β} {k : κ} (h : k ∉ m) (v : β) :
    (m.insert k v).toList.Perm ((k, v) :: m.toList) := by
  have absent : m[k]? = none := Std.ExtTreeMap.getElem?_eq_none h
  refine (List.perm_ext_iff_of_nodup (nodup_toList _) ?_).2 fun ⟨j, w⟩ => ?_
  · refine List.nodup_cons.2 ⟨fun hm => ?_, nodup_toList m⟩
    rw [Std.ExtTreeMap.mem_toList_iff_getElem?_eq_some, absent] at hm
    cases hm
  · rw [List.mem_cons, Std.ExtTreeMap.mem_toList_iff_getElem?_eq_some,
      Std.ExtTreeMap.mem_toList_iff_getElem?_eq_some, Std.ExtTreeMap.getElem?_insert]
    by_cases he : j = k
    · subst he
      simp [absent, eq_comm]
    · simp [he, Ne.symm he]

section
variable {κ β : Type} [Ord κ] [Std.TransOrd κ] [Std.LawfulEqOrd κ]

theorem filter_filter_map (m : Std.ExtTreeMap κ β) (p q : κ → β → Bool) :
    (m.filter p).filter q = m.filter fun k b => p k b && q k b := by
  apply Std.ExtTreeMap.ext_getElem?
  intro k
  simp only [Std.ExtTreeMap.getElem?_filter', Option.filter_filter]

theorem filter_filter_set (m : Std.ExtTreeSet κ) (p q : κ → Bool) :
    (m.filter p).filter q = m.filter fun k => p k && q k := by
  apply Std.ExtTreeSet.ext_mem
  intro k
  simp [Std.ExtTreeSet.mem_filter, and_assoc, and_left_comm]

/-- What passes a filter can be inserted before or after it. -/
theorem insert_filter_map (m : Std.ExtTreeMap κ β) {p : κ → β → Bool} {k : κ} {b : β}
    (h : p k b = true) : (m.filter p).insert k b = (m.insert k b).filter p := by
  apply Std.ExtTreeMap.ext_getElem?
  intro j
  simp only [Std.ExtTreeMap.getElem?_insert, Std.ExtTreeMap.getElem?_filter',
    Std.compare_eq_iff_eq]
  by_cases hj : k = j
  · subst hj
    simp [Option.filter, h]
  · simp [hj]

theorem insert_filter_set (m : Std.ExtTreeSet κ) {p : κ → Bool} {k : κ} (h : p k = true) :
    (m.filter p).insert k = (m.insert k).filter p := by
  apply Std.ExtTreeSet.ext_mem
  intro j
  simp only [Std.ExtTreeSet.mem_insert, Std.ExtTreeSet.mem_filter, Std.ExtTreeSet.get_eq,
    Std.compare_eq_iff_eq, exists_prop]
  by_cases hj : k = j
  · subst hj
    simp [h]
  · simp [hj]

end

namespace Ledger

section
variable {l l' : Ledger} {v w : Vote} {a : Admission} {id : Hash} {height lowest : Height}
  {b : Ballot}

theorem mem_voteList : v ∈ l.voteList ↔ ∃ id : Hash, l.votes[id]? = some v := by
  simp [voteList, Std.ExtTreeMap.mem_toList_iff_getElem?_eq_some]

theorem mem_votes_iff : id ∈ l.votes ↔ ∃ v, l.votes[id]? = some v := by
  rw [Std.ExtTreeMap.mem_iff_isSome_getElem?, Option.isSome_iff_exists]

/-! ## A recorded vote -/

theorem votes_record (h : l.record v a = .ok l') : l'.votes = l.votes.insert a.identity v := by
  obtain ⟨tally, -, rfl⟩ := record_eq_ok.1 h
  rfl

theorem mem_ballots_record (h : l.record v a = .ok l') :
    b ∈ l'.ballots ↔ b = ⟨v.voter, a.tier, v.height⟩ ∨ b ∈ l.ballots := by
  obtain ⟨tally, -, rfl⟩ := record_eq_ok.1 h
  rw [Std.ExtTreeSet.mem_insert, Std.compare_eq_iff_eq, eq_comm]

theorem getElem?_votes_record (h : l.record v a = .ok l') (id : Hash) :
    l'.votes[id]? = if id = a.identity then some v else l.votes[id]? := by
  rw [votes_record h, Std.ExtTreeMap.getElem?_insert]
  by_cases he : id = a.identity
  · simp [he]
  · simp [he, Ne.symm he]

/-- The stored votes are the recorded one and those of before. -/
theorem stored_record (ha : a.identity ∉ l.votes) (h : l.record v a = .ok l') :
    l'.votes[id]? = some w ↔ id = a.identity ∧ w = v ∨ l.votes[id]? = some w := by
  rw [getElem?_votes_record h]
  by_cases he : id = a.identity
  · subst he
    simp [Std.ExtTreeMap.getElem?_eq_none ha, eq_comm]
  · simp [he]

theorem toList_votes_record (ha : a.identity ∉ l.votes) (h : l.record v a = .ok l') :
    l'.votes.toList.Perm ((a.identity, v) :: l.votes.toList) := by
  rw [votes_record h]
  exact toList_insert_perm ha v

theorem mem_votes_record (h : l.record v a = .ok l') :
    id ∈ l'.votes ↔ id = a.identity ∨ id ∈ l.votes := by
  rw [votes_record h, Std.ExtTreeMap.mem_insert, Std.compare_eq_iff_eq, eq_comm]

theorem getElem?_tallies_record (h : l.record v a = .ok l') :
    ∃ tally, (l.tallyAt v.height).add a.script a.tier 1 = .ok tally ∧
      ∀ height, l'.tallies[height]? =
        if height = v.height then some tally else l.tallies[height]? := by
  obtain ⟨tally, ht, rfl⟩ := record_eq_ok.1 h
  refine ⟨tally, ht, fun height => ?_⟩
  by_cases he : height = v.height
  · simp [he]
  · simp [Std.ExtTreeMap.getElem?_insert, he, Ne.symm he]

/-! ## Dropped heights -/

theorem stored_dropBelow :
    (l.dropBelow lowest).votes[id]? = some v ↔ l.votes[id]? = some v ∧ lowest ≤ v.height := by
  simp [dropBelow]

theorem mem_of_mem_dropBelow (h : id ∈ (l.dropBelow lowest).votes) : id ∈ l.votes := by
  obtain ⟨v, hv⟩ := mem_votes_iff.1 h
  exact mem_votes_iff.2 ⟨v, (stored_dropBelow.1 hv).1⟩

theorem toList_votes_dropBelow :
    (l.dropBelow lowest).votes.toList =
      l.votes.toList.filter fun p => decide (lowest ≤ p.2.height) := by
  simp [dropBelow, Std.ExtTreeMap.toList_filter]

theorem mem_ballots_dropBelow :
    b ∈ (l.dropBelow lowest).ballots ↔ b ∈ l.ballots ∧ lowest ≤ b.height := by
  simp [dropBelow]

theorem getElem?_tallies_dropBelow :
    (l.dropBelow lowest).tallies[height]? =
      if lowest ≤ height then l.tallies[height]? else none := by
  by_cases hle : lowest ≤ height
  · cases h : l.tallies[height]? <;> simp [dropBelow, hle, h]
  · simp [dropBelow, hle]

/-- Of two cutoffs the higher one counts. -/
theorem dropBelow_dropBelow (l : Ledger) (lowest lowest' : Height) :
    (l.dropBelow lowest).dropBelow lowest' = l.dropBelow (max lowest lowest') := by
  have hmax : ∀ height : Height, (decide (lowest ≤ height) && decide (lowest' ≤ height)) =
      decide (max lowest lowest' ≤ height) := by
    intro height
    rw [← Bool.decide_and, decide_eq_decide, UInt64.le_iff_toNat_le, UInt64.le_iff_toNat_le,
      UInt64.le_iff_toNat_le, UInt64.toNat_max]
    omega
  unfold dropBelow
  simp only [filter_filter_map, filter_filter_set, hmax]

theorem dropBelow_self (l : Ledger) (lowest : Height) :
    (l.dropBelow lowest).dropBelow lowest = l.dropBelow lowest := by
  have hmax : max lowest lowest = lowest := by simp [← UInt64.toNat_inj, UInt64.toNat_max]
  rw [dropBelow_dropBelow, hmax]

/-- **A vote for a height that is kept** has the same effect before the drop and after it. -/
theorem record_dropBelow (hle : lowest ≤ v.height) :
    (l.dropBelow lowest).record v a = (·.dropBelow lowest) <$> l.record v a := by
  have htally : (l.dropBelow lowest).tallyAt v.height = l.tallyAt v.height := by
    unfold tallyAt
    rw [getElem?_tallies_dropBelow, if_pos hle]
  unfold record
  rw [htally]
  cases (l.tallyAt v.height).add a.script a.tier 1 with
  | error o => rfl
  | ok tally =>
    show Except.ok _ = Except.ok _
    unfold dropBelow
    rw [insert_filter_map _ (by simpa using hle), insert_filter_map _ (by simpa using hle),
      insert_filter_set _ (by simpa using hle)]

end

end Ledger
end MasternodePayments
