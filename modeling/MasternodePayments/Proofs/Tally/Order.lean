import Mathlib.Data.List.Nodup
import Mathlib.Data.List.Perm.Basic
import MasternodePayments.Proofs.Tally.Weight

/-!
# The order of candidates

Two tallies are `Alike` if they have the same candidates with the same votes, whatever order the
first votes came in. Only the winner of a tie depends on that order.

* `perm_of_weightIn`: the votes for each script in each tier say what the candidates are.
* `Alike.mostVotes_eq`, `Alike.accepts_eq`: alike tallies accept the same transactions.
* `Alike.winner?_eq`: and they have the same winner in a tier, unless candidates tie for the most
  votes.
* `exists_first_minOn`, `exists_first_maxOn`: which of several extreme entries a search finds.
-/

namespace MasternodePayments

section
variable {α β : Type} [le : LE β] [DecidableLE β] [Std.IsLinearPreorder β] {f : α → β} {x : α}
  {xs : List α}

/-- The search for a least entry finds the first one. -/
theorem exists_first_minOn (h : xs.minOn? f = some x) :
    ∃ pre post, xs = pre ++ x :: post ∧ (∀ y ∈ pre, ¬f y ≤ f x) ∧ ∀ y ∈ post, f x ≤ f y := by
  induction xs generalizing x with
  | nil => cases h
  | cons y xs ih =>
    rw [List.minOn?_cons, Option.some.injEq] at h
    cases hmin : xs.minOn? f with
    | none =>
      have hnil : xs = [] := by
        cases xs with
        | nil => rfl
        | cons z xs => simp [List.minOn?_cons] at hmin
      rw [hmin] at h
      exact ⟨[], xs, by rw [← h]; rfl, by simp, by simp [hnil]⟩
    | some least =>
      obtain ⟨pre, post, hxs, hpre, hpost⟩ := ih hmin
      rw [hmin] at h
      by_cases hle : f y ≤ f least
      · obtain rfl : y = x := (minOn_eq_left hle).symm.trans h
        refine ⟨[], xs, rfl, by simp, fun z hz => ?_⟩
        have hleast := List.apply_get_minOn?_le_of_mem (f := f) hz
        simp only [hmin, Option.get_some] at hleast
        exact Std.le_trans hle hleast
      · obtain rfl : least = x := (minOn_eq_right hle).symm.trans h
        refine ⟨y :: pre, post, by rw [hxs]; rfl, ?_, hpost⟩
        exact List.forall_mem_cons.2 ⟨hle, hpre⟩

open Std.OppositeOrderInstances in
/-- The search for a greatest entry is the search for a least one in the opposite order. -/
theorem exists_first_maxOn (h : xs.maxOn? f = some x) :
    ∃ pre post, xs = pre ++ x :: post ∧ (∀ y ∈ pre, ¬f x ≤ f y) ∧ ∀ y ∈ post, f y ≤ f x := by
  have hleast := @exists_first_minOn α β le.opposite _ inferInstance f x xs h
  simpa only [LE.le_opposite_iff] using hleast

end

end MasternodePayments

namespace MasternodePayments.Tally

/-- The same candidates with the same votes, in any order. -/
structure Alike (t u : Tally) : Prop where
  height : t.height = u.height
  candidates : t.candidates.Perm u.candidates

/-! ## Candidates by their weight -/

section
variable {cs ds : List Candidate}

theorem mem_of_weightIn (hcs : (cs.map (·.key)).Nodup) (hds : (ds.map (·.key)).Nodup)
    (hpos : ∀ c ∈ cs, 0 < c.votes.toNat) (h : ∀ key, weightIn cs key = weightIn ds key)
    {c : Candidate} (hc : c ∈ cs) : c ∈ ds := by
  have hw : weightIn ds c.key = c.votes.toNat := by rw [← h, weightIn_key hcs hc]
  obtain ⟨d, hd, hk⟩ := exists_of_weightIn_pos (hw ▸ hpos c hc)
  have hv : d.votes.toNat = c.votes.toNat := by rw [← weightIn_key hds hd, hk, hw]
  obtain ⟨hscript, htier⟩ := Prod.mk.inj hk
  have he : d = c := by
    cases c
    cases d
    simp_all [UInt32.toNat_inj]
  exact he ▸ hd

/-- Candidates with votes are known, but for their order, by the weight of each key. -/
theorem perm_of_weightIn (hcs : (cs.map (·.key)).Nodup) (hds : (ds.map (·.key)).Nodup)
    (hpcs : ∀ c ∈ cs, 0 < c.votes.toNat) (hpds : ∀ d ∈ ds, 0 < d.votes.toNat)
    (h : ∀ key, weightIn cs key = weightIn ds key) : cs.Perm ds :=
  (List.perm_ext_iff_of_nodup hcs.of_map hds.of_map).2 fun _ =>
    ⟨mem_of_weightIn hcs hds hpcs h, mem_of_weightIn hds hcs hpds fun key => (h key).symm⟩

theorem weightIn_lt (hcs : (cs.map (·.key)).Nodup) (key : Script × Tier) :
    weightIn cs key < UInt32.size := by
  rcases Nat.eq_zero_or_pos (weightIn cs key) with h | h
  · rw [h]
    decide
  · obtain ⟨c, hc, rfl⟩ := exists_of_weightIn_pos h
    rw [weightIn_key hcs hc]
    exact c.votes.toNat_lt_size

/-- Votes can be added as long as the weight of their candidate stays a word. -/
theorem exists_addTo {script : Script} {tier : Tier} {weight : UInt32}
    (h : weightIn cs (script, tier) + weight.toNat < UInt32.size) :
    ∃ ds, addTo script tier weight cs = .ok ds := by
  induction cs with
  | nil => exact ⟨_, rfl⟩
  | cons c cs ih =>
    rw [weightIn_cons] at h
    by_cases hc : c.isFor script tier = true
    · rw [if_pos (Candidate.isFor_iff.1 hc)] at h
      have hadd : add32 c.votes weight = .ok (c.votes + weight) := if_pos (by omega)
      exact ⟨_, by rw [addTo, if_pos hc, hadd]; rfl⟩
    · obtain ⟨ds, hds⟩ := ih (by omega)
      exact ⟨_, by rw [addTo, if_neg hc, hds]; rfl⟩

end

/-! ## The most votes -/

section
variable {t u : Tally} {tier : Tier} {n : UInt32} {c : Candidate}

theorem foldl_max_le {cs : List Candidate} {a : UInt32} :
    cs.foldl (fun most c => max most c.votes) a ≤ n ↔ a ≤ n ∧ ∀ c ∈ cs, c.votes ≤ n := by
  have max_le : ∀ a b : UInt32, max a b ≤ n ↔ a ≤ n ∧ b ≤ n := by
    intro a b
    show (if a ≤ b then b else a) ≤ n ↔ _
    split <;> simp only [UInt32.le_iff_toNat_le] at * <;> omega
  induction cs generalizing a with
  | nil => simp
  | cons c cs ih => simp only [List.foldl_cons, ih, max_le, List.forall_mem_cons, and_assoc]

theorem mostVotes_le : t.mostVotes tier ≤ n ↔ ∀ c ∈ t.inTier tier, c.votes ≤ n := by
  rw [mostVotes, foldl_max_le, and_iff_right (UInt32.le_iff_toNat_le.2 (Nat.zero_le _))]

theorem votes_le_mostVotes (h : c ∈ t.inTier tier) : c.votes ≤ t.mostVotes tier :=
  mostVotes_le.1 (UInt32.le_refl _) c h

theorem mem_inTier : c ∈ t.inTier tier ↔ c ∈ t.candidates ∧ c.tier = tier := by
  rw [inTier, List.mem_filter, beq_iff_eq]

theorem mem_confirmed {required : UInt32} :
    c ∈ t.confirmed tier required ↔ c ∈ t.candidates ∧ c.tier = tier ∧ required ≤ c.votes := by
  simp only [confirmed, inTier, List.mem_filter, beq_iff_eq, decide_eq_true_eq, and_assoc]

theorem leader?_eq_none : t.leader? tier = none ↔ t.inTier tier = [] := by
  cases h : t.inTier tier with
  | nil => simp [leader?, h]
  | cons c cs => simp [leader?, h, List.maxOn?_cons]

theorem mem_of_leader? (h : t.leader? tier = some c) : c ∈ t.inTier tier := List.maxOn?_mem h

/-- The leader has the most votes of its tier. -/
theorem votes_leader? (h : t.leader? tier = some c) : c.votes = t.mostVotes tier := by
  refine UInt32.le_antisymm (votes_le_mostVotes (mem_of_leader? h)) (mostVotes_le.2 fun d hd => ?_)
  have hle := List.le_apply_get_maxOn?_of_mem (f := (·.votes)) hd
  have hget : (t.inTier tier).maxOn? (·.votes) = some c := h
  simpa [hget] using hle

end

/-! ## Alike tallies -/

/-- No two candidates of a tier tie for the most votes. -/
def Decided (t : Tally) (tier : Tier) : Prop :=
  ∀ c ∈ t.inTier tier, ∀ d ∈ t.inTier tier,
    c.votes = t.mostVotes tier → d.votes = t.mostVotes tier → c = d

namespace Alike

variable {t u : Tally} {tier : Tier}

theorem inTier_perm (h : t.Alike u) (tier : Tier) : (t.inTier tier).Perm (u.inTier tier) :=
  h.candidates.filter _

theorem mostVotes_eq (h : t.Alike u) (tier : Tier) : t.mostVotes tier = u.mostVotes tier := by
  refine UInt32.le_antisymm (mostVotes_le.2 fun c hc => ?_) (mostVotes_le.2 fun c hc => ?_)
  · exact votes_le_mostVotes ((h.inTier_perm tier).mem_iff.1 hc)
  · exact votes_le_mostVotes ((h.inTier_perm tier).mem_iff.2 hc)

theorem confirmed_perm (h : t.Alike u) (tier : Tier) (required : UInt32) :
    (t.confirmed tier required).Perm (u.confirmed tier required) :=
  (h.inTier_perm tier).filter _

theorem acceptsTier_eq (h : t.Alike u) (rules : PaymentRules) (tx : Transaction) (tier : Tier) :
    t.acceptsTier rules tx tier = u.acceptsTier rules tx tier := by
  simp only [acceptsTier, h.mostVotes_eq, (h.confirmed_perm tier rules.required).any_eq]

theorem accepts_eq (h : t.Alike u) (rules : PaymentRules) (tx : Transaction) :
    t.accepts rules tx = u.accepts rules tx := by
  rw [accepts, accepts, funext (h.acceptsTier_eq rules tx)]

theorem winner?_eq (h : t.Alike u) (hd : t.Decided tier) : t.winner? tier = u.winner? tier := by
  have hnil : t.inTier tier = [] ↔ u.inTier tier = [] := by
    rw [← List.length_eq_zero_iff, (h.inTier_perm tier).length_eq, List.length_eq_zero_iff]
  unfold winner?
  cases hc : t.leader? tier with
  | none => rw [leader?_eq_none.2 (hnil.1 (leader?_eq_none.1 hc))]
  | some c =>
    cases hc' : u.leader? tier with
    | none => simp [leader?_eq_none.2 (hnil.2 (leader?_eq_none.1 hc'))] at hc
    | some d =>
      have hmem := (h.inTier_perm tier).mem_iff.2 (mem_of_leader? hc')
      have hvotes := (votes_leader? hc').trans (h.mostVotes_eq tier).symm
      rw [hd c (mem_of_leader? hc) d hmem (votes_leader? hc) hvotes]

end Alike
end MasternodePayments.Tally
