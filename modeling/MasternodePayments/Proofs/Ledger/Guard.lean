import MasternodePayments.Ledger.Snapshot
import MasternodePayments.Proofs.Node.Notes

/-!
# The guard against double votes

Every stored vote used up a ballot when it was admitted. As long as the ledger holds this ballot, a
second vote for the same voter, tier and height is refused. So where two such votes are stored, the
earlier one had lost its ballot before the later one came (`Timely.ordered`).

* `Ledger.Guards`: the ledger holds the ballots that were not lost, and all pairs are so ordered.
* `guards_kept`: that withstands everything but a restoration. `guards_restore`: a restoration also
  keeps it, if the ballots that it does not find again count as lost from then on.
-/

namespace MasternodePayments

theorem Setting.ballot?_eq_some {s : Setting} {v : Vote} {b : Ballot} :
    s.ballot? v = some b ↔
      (s.resolve? v.payee).map (·.2) = some b.tier ∧ v.voter = b.voter ∧ v.height = b.height := by
  cases h : s.resolve? v.payee with
  | none => simp [ballot?, h]
  | some p =>
    obtain ⟨script, tier⟩ := p
    obtain ⟨voter, btier, height⟩ := b
    simp only [ballot?, h, Option.map_some, Option.some.injEq, Ballot.mk.injEq]
    exact and_left_comm

/-- What is noted of a vote at its admission, and of its ballot since then. Moments are numbered. -/
structure Standing where
  /-- The tier that the vote was admitted for. -/
  tier : Option Tier
  /-- When the vote was admitted. -/
  since : Nat
  /-- When a restoration lost the ballot for the first time. -/
  lost : Option Nat := none

def Setting.standing (now : Nat) (s : Setting) (v : Vote) : Standing :=
  ⟨(s.resolve? v.payee).map (·.2), now, none⟩

/-- Two votes of one voter for one height that were admitted for the same tier. -/
def Vote.Rivals (v w : Vote) (p q : Standing) : Prop :=
  v.voter = w.voter ∧ v.height = w.height ∧ p.tier = q.tier

/-- The ballot of the first vote was lost after its admission and before the second one came. -/
def Standing.LostBefore (p q : Standing) : Prop :=
  ∃ time, p.lost = some time ∧ p.since ≤ time ∧ time < q.since

/-- The votes were admitted by now, and of two rivals the earlier one had lost its ballot. -/
structure Timely (now : Nat) (votes : Std.ExtTreeMap Hash Vote) (o : Notes Standing) : Prop where
  placed : ∀ {id : Hash} {v}, votes[id]? = some v → ∃ tier, (o id).tier = some tier
  by_now : ∀ {id : Hash} {v}, votes[id]? = some v → (o id).since ≤ now
  lost_before : ∀ {id : Hash} {v time}, votes[id]? = some v → (o id).lost = some time →
    (o id).since ≤ time ∧ time < now
  ordered : ∀ {id id' : Hash} {v w}, votes[id]? = some v → votes[id']? = some w → id ≠ id' →
    v.Rivals w (o id) (o id') → (o id).since ≤ (o id').since → (o id).LostBefore (o id')

theorem Timely.lostBefore {now : Nat} {votes : Std.ExtTreeMap Hash Vote} {o : Notes Standing}
    (h : Timely now votes o) {id id' : Hash} {v w : Vote} (hv : votes[id]? = some v)
    (hw : votes[id']? = some w) (hne : id ≠ id') (hr : v.Rivals w (o id) (o id')) :
    (o id).LostBefore (o id') ∨ (o id').LostBefore (o id) := by
  rcases Nat.le_total (o id).since (o id').since with hle | hle
  · exact .inl (h.ordered hv hw hne hr hle)
  · exact .inr (h.ordered hw hv hne.symm ⟨hr.1.symm, hr.2.1.symm, hr.2.2.symm⟩ hle)

theorem Timely.later {now : Nat} {votes : Std.ExtTreeMap Hash Vote} {o : Notes Standing}
    (h : Timely now votes o) : Timely (now + 1) votes o where
  placed := h.placed
  by_now hv := Nat.le_succ_of_le (h.by_now hv)
  lost_before hv hlost := (h.lost_before hv hlost).imp_right Nat.lt_succ_of_lt
  ordered := h.ordered

namespace Ledger

/-- The ballot of every vote that did not lose it is held. -/
structure Guards (now : Nat) (l : Ledger) (o : Notes Standing) : Prop
    extends Timely now l.votes o where
  held : ∀ {id : Hash} {v tier}, l.votes[id]? = some v → (o id).tier = some tier →
    (o id).lost = none → ⟨v.voter, tier, v.height⟩ ∈ l.ballots

variable {now : Nat} {s : Setting} {l l' : Ledger} {o : Notes Standing} {v : Vote} {a : Admission}

theorem Admits.ballot?_eq (h : l.Admits s v a) :
    s.ballot? v = some ⟨v.voter, a.tier, v.height⟩ := by
  refine Setting.ballot?_eq_some.2 ⟨?_, rfl, rfl⟩
  rw [h.payee]
  rfl

theorem guards_empty (hv : l.votes = ∅) : l.Guards now o where
  placed h := by simp [hv] at h
  by_now h := by simp [hv] at h
  lost_before h := by simp [hv] at h
  ordered h := by simp [hv] at h
  held h := by simp [hv] at h

/-- A rival of a vote that is admitted now has lost its ballot. -/
theorem Guards.lost (hg : l.Guards now o) (ha : l.Admits s v a) {id : Hash} {w : Vote}
    (hw : l.votes[id]? = some w) (hr : v.Rivals w (s.standing now v) (o id)) :
    ∃ time, (o id).lost = some time := by
  obtain ⟨hvoter, hheight, htier⟩ := hr
  have hstands : (s.standing now v).tier = some a.tier := by
    rw [Setting.standing, ha.payee]
    rfl
  rw [← Option.ne_none_iff_exists']
  intro hkept
  have hheld := hg.held hw (htier.symm.trans hstands) hkept
  rw [← hvoter, ← hheight] at hheld
  exact ha.ballot hheld

theorem guards_record (hg : l.Guards now o) (ha : l.Admits s v a) (h : l.record v a = .ok l') :
    l'.Guards now (Function.update o a.identity (s.standing now v)) := by
  have hcases : ∀ {id : Hash} {w}, l'.votes[id]? = some w →
      id = a.identity ∧ w = v ∧
        Function.update o a.identity (s.standing now v) id = s.standing now v ∨
      l.votes[id]? = some w ∧ Function.update o a.identity (s.standing now v) id = o id :=
    fun hw => Notes.stored_record (s.standing now v) ha.not_mem h hw
  have hstands : (s.standing now v).tier = some a.tier := by
    rw [Setting.standing, ha.payee]
    rfl
  constructor
  case held =>
    intro id w tier hw htier hkept
    rw [mem_ballots_record h]
    rcases hcases hw with ⟨-, rfl, he⟩ | ⟨hw, he⟩ <;> rw [he] at htier
    · rw [Option.some.inj (htier.symm.trans hstands)]
      exact .inl rfl
    · exact .inr (hg.held hw htier (he ▸ hkept))
  constructor
  case placed =>
    intro id w hw
    rcases hcases hw with ⟨-, -, he⟩ | ⟨hw, he⟩ <;> rw [he]
    · exact ⟨a.tier, hstands⟩
    · exact hg.placed hw
  case by_now =>
    intro id w hw
    rcases hcases hw with ⟨-, -, he⟩ | ⟨hw, he⟩ <;> rw [he]
    · exact Nat.le_refl now
    · exact hg.by_now hw
  case lost_before =>
    intro id w time hw
    rcases hcases hw with ⟨-, -, he⟩ | ⟨hw, he⟩ <;> rw [he]
    · intro hlost
      cases hlost
    · exact hg.lost_before hw
  case ordered =>
    intro id id' w w' hw hw' hne hr hle
    rcases hcases hw with ⟨hid, rfl, he⟩ | ⟨hw, he⟩ <;>
      rcases hcases hw' with ⟨hid', rfl, he'⟩ | ⟨hw', he'⟩
    · exact absurd (hid.trans hid'.symm) hne
    · -- The new vote cannot be the earlier one: its rival lost the ballot before now.
      rw [he, he'] at hr hle
      obtain ⟨time, hlost⟩ := hg.lost ha hw' hr
      obtain ⟨hsince, hbefore⟩ := hg.lost_before hw' hlost
      have hnow : now ≤ (o id').since := hle
      omega
    · rw [he, he'] at hr
      rw [he, he']
      obtain ⟨time, hlost⟩ := hg.lost ha hw ⟨hr.1.symm, hr.2.1.symm, hr.2.2.symm⟩
      exact ⟨time, hlost, hg.lost_before hw hlost⟩
    · rw [he, he'] at hr hle
      rw [he, he']
      exact hg.ordered hw hw' hne hr hle

theorem guards_dropBelow {lowest : Height} (hg : l.Guards now o) :
    (l.dropBelow lowest).Guards now o where
  placed h := hg.placed (stored_dropBelow.1 h).1
  by_now h := hg.by_now (stored_dropBelow.1 h).1
  lost_before h := hg.lost_before (stored_dropBelow.1 h).1
  ordered h h' := hg.ordered (stored_dropBelow.1 h).1 (stored_dropBelow.1 h').1
  held h htier hkept := by
    obtain ⟨h, hle⟩ := stored_dropBelow.1 h
    exact mem_ballots_dropBelow.2 ⟨hg.held h htier hkept, hle⟩

/-- **The guard withstands** everything but a restoration. -/
theorem guards_kept : Notes.Kept (Setting.standing now) (fun _ => True) (Guards now) where
  record _ := guards_record
  noteCast _ hg := ⟨hg.toTimely, hg.held⟩
  dropBelow _ := guards_dropBelow
  clear _ := guards_empty rfl

end Ledger

/-! ## Restorations -/

/-- The tier that the payee of a saved vote stands for. -/
def Snapshot.tierOf? (snapshot : Snapshot) (s : Setting) (id : Hash) : Option Tier :=
  (snapshot.votes[id]?.bind fun v => s.resolve? v.payee).map (·.2)

/-- The standings after a restoration: a vote whose payee does not stand for the tier that it was
admitted for loses its ballot. -/
def Notes.restored (now : Nat) (s : Setting) (snapshot : Snapshot) (o : Notes Standing) :
    Notes Standing := fun id =>
  { o id with
    lost := (o id).lost.or (if snapshot.tierOf? s id = (o id).tier then none else some now) }

section
variable {now time : Nat} {s : Setting} {l : Ledger} {snapshot : Snapshot} {o : Notes Standing}
  {id : Hash}

theorem Notes.lost_restored : (o.restored now s snapshot id).lost = some time ↔
    (o id).lost = some time ∨
      (o id).lost = none ∧ snapshot.tierOf? s id ≠ (o id).tier ∧ now = time := by
  cases h : (o id).lost <;> simp [restored, h]

theorem Notes.kept_restored : (o.restored now s snapshot id).lost = none ↔
    (o id).lost = none ∧ snapshot.tierOf? s id = (o id).tier := by
  cases h : (o id).lost <;> simp [restored, h]

/-- **A restoration** puts the ballots of all votes back that did not lose them by then. -/
theorem Ledger.guards_restore (h : Timely now snapshot.votes o) :
    (l.restore s snapshot).Guards (now + 1) (o.restored now s snapshot) where
  placed := h.placed
  by_now hv := Nat.le_succ_of_le (h.by_now hv)
  lost_before hv hlost := by
    rcases Notes.lost_restored.1 hlost with hlost | ⟨-, -, rfl⟩
    · exact (h.lost_before hv hlost).imp_right Nat.lt_succ_of_lt
    · exact ⟨h.by_now hv, Nat.lt_succ_self _⟩
  ordered hv hw hne hr hle := by
    obtain ⟨time, hlost, hbetween⟩ := h.ordered hv hw hne hr hle
    exact ⟨time, Notes.lost_restored.2 (.inl hlost), hbetween⟩
  held {id v tier} hv htier hkept := by
    obtain ⟨-, hnow⟩ := Notes.kept_restored.1 hkept
    have hstored : snapshot.votes[id]? = some v := hv
    have hballot : s.ballot? v = some ⟨v.voter, tier, v.height⟩ := by
      refine Setting.ballot?_eq_some.2 ⟨?_, rfl, rfl⟩
      rw [Snapshot.tierOf?, hstored] at hnow
      exact hnow.trans htier
    have hmem : v ∈ snapshot.voteList := by
      rw [Snapshot.voteList, List.mem_map]
      exact ⟨(id, v), Std.ExtTreeMap.mem_toList_iff_getElem?_eq_some.2 hstored, rfl⟩
    rw [restore, Std.ExtTreeSet.mem_ofList, List.contains_iff_mem]
    exact List.mem_filterMap.2 ⟨v, hmem, hballot⟩

end

end MasternodePayments
