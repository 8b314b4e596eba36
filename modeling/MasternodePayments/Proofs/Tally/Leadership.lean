import Mathlib.Algebra.BigOperators.Group.List.Basic
import Mathlib.Algebra.Order.Ring.Nat
import MasternodePayments.Proofs.Checked
import MasternodePayments.Proofs.Tally.Order

/-!
# Who leads after any sequence of votes

The candidates of a tally are a record of the votes that were added to it: each script that was
voted for in a tier once, in the order of the first votes, with the sum of the weights
(`Tally.Records`). So the leader of a tier can be read off the sequence of votes (`Leads`): most
weight in all, and of several such scripts the one that was voted for first
(`Tally.leader?_addAll`). Votes for other tiers do not matter.

* `Records.addAll`: what one vote keeps, all of them do.
* `leads_of_leader?`: the search for the leader stops at the first one with the most votes.
* `inTier_addAll`: the candidates of a tier come from the votes for this tier.
* `winner?_add`: only the script that is voted for can take the lead.
-/

namespace MasternodePayments

/-- Votes of some weight for a script in a tier, as they are added to a tally. -/
structure Addition where
  script : Script
  tier : Tier
  weight : UInt32
deriving DecidableEq

namespace Addition

def key (a : Addition) : Script × Tier := (a.script, a.tier)

/-- The weight that was added for a key. -/
def total (as : List Addition) (key : Script × Tier) : Nat :=
  ((as.filter (·.key = key)).map (·.weight.toNat)).sum

/-- When a key was added first. -/
def first (as : List Addition) (key : Script × Tier) : Nat := (as.map (·.key)).idxOf key

variable {as : List Addition} {a : Addition} {key : Script × Tier}

theorem total_concat (as : List Addition) (a : Addition) (key : Script × Tier) :
    total (as ++ [a]) key = total as key + if key = a.key then a.weight.toNat else 0 := by
  by_cases h : a.key = key
  · simp [total, h]
  · simp [total, h, Ne.symm h]

theorem total_le_append (as bs : List Addition) (key : Script × Tier) :
    total as key ≤ total (as ++ bs) key := by
  simp [total]

theorem first_append (h : key ∈ as.map (·.key)) (bs : List Addition) :
    first (as ++ bs) key = first as key := by
  rw [first, List.map_append, List.idxOf_append_of_mem h, first]

theorem first_lt_length (h : key ∈ as.map (·.key)) : first as key < as.length := by
  have hlt := List.idxOf_lt_length_of_mem h
  rwa [List.length_map] at hlt

theorem first_concat (h : a.key ∉ as.map (·.key)) : first (as ++ [a]) a.key = as.length := by
  simp [first, List.idxOf_append_of_notMem h]

end Addition

open Addition

/-- The candidate that a tier should have for its leader after some additions. -/
structure Leads (as : List Addition) (tier : Tier) (c : Candidate) : Prop where
  ofTier : c.tier = tier
  named : c.key ∈ as.map (·.key)
  votes : c.votes.toNat = total as c.key
  most : ∀ a ∈ as, a.tier = tier → total as a.key ≤ total as c.key
  first : ∀ a ∈ as, a.tier = tier → total as a.key = total as c.key →
    Addition.first as c.key ≤ Addition.first as a.key

namespace Leads

variable {as : List Addition} {a : Addition} {tier : Tier} {c d : Candidate}

theorem exists_addition (h : Leads as tier c) : ∃ a ∈ as, a.tier = tier ∧ a.key = c.key := by
  obtain ⟨a, ha, hkey⟩ := List.mem_map.1 h.named
  exact ⟨a, ha, (congrArg Prod.snd hkey).trans h.ofTier, hkey⟩

/-- At most one candidate leads. -/
theorem eq (hc : Leads as tier c) (hd : Leads as tier d) : c = d := by
  obtain ⟨a, ha, hatier, hakey⟩ := hc.exists_addition
  obtain ⟨b, hb, hbtier, hbkey⟩ := hd.exists_addition
  have hle := hd.most a ha hatier
  have hge := hc.most b hb hbtier
  rw [hakey] at hle
  rw [hbkey] at hge
  have htotal := Nat.le_antisymm hle hge
  have hfirst : Addition.first as c.key = Addition.first as d.key := by
    refine Nat.le_antisymm ?_ ?_
    · rw [← hbkey]
      exact hc.first b hb hbtier (by rw [hbkey, htotal])
    · rw [← hakey]
      exact hd.first a ha hatier (by rw [hakey, htotal])
  have hkey : c.key = d.key := (List.idxOf_inj hc.named).1 hfirst
  obtain ⟨hscript, htier⟩ := Prod.mk.inj hkey
  have hvotes : c.votes = d.votes := by
    rw [← UInt32.toNat_inj, hc.votes, hd.votes, htotal]
  cases c
  cases d
  simp_all

/-- The lead goes to the script that was added, if it changes at all. -/
theorem script_concat (hc : Leads as tier c) (hd : Leads (as ++ [a]) tier d) :
    d.script = c.script ∨ d.script = a.script := by
  by_cases hda : d.key = a.key
  · exact .inr (congrArg Prod.fst hda)
  refine .inl (congrArg Prod.fst (?_ : d.key = c.key))
  obtain ⟨b, hb, hbtier, hbkey⟩ := hc.exists_addition
  have hnamed : d.key ∈ as.map (·.key) := by
    have hnamed := hd.named
    rw [List.map_append, List.mem_append, List.map_singleton, List.mem_singleton] at hnamed
    exact hnamed.resolve_right hda
  obtain ⟨e, he, hekey⟩ := List.mem_map.1 hnamed
  have hetier : e.tier = tier := (congrArg Prod.snd hekey).trans hd.ofTier
  have hmem {x : Addition} (hx : x ∈ as) : x ∈ as ++ [a] := List.mem_append_left _ hx
  -- The leader before had as much weight, and has no less now.
  have hsame : total (as ++ [a]) d.key = total as d.key := by
    rw [total_concat, if_neg hda, Nat.add_zero]
  have hgrow := total_le_append as [a] c.key
  have hbefore := hc.most e he hetier
  have hafter := hd.most b (hmem hb) hbtier
  rw [hekey] at hbefore
  rw [hbkey] at hafter
  have hle := hc.first e he hetier (by rw [hekey]; omega)
  have hge := hd.first b (hmem hb) hbtier (by rw [hbkey]; omega)
  rw [hbkey, first_append hnamed, first_append hc.named] at hge
  rw [hekey] at hle
  exact (List.idxOf_inj hnamed).1 (Nat.le_antisymm hge hle)

end Leads

namespace Tally

variable {as bs done : List Addition} {a : Addition} {cs cs' : List Candidate} {c d : Candidate}
  {t t' u : Tally} {tier : Tier} {script : Script} {weight : UInt32} {height : Height}

/-- A tally after some additions. -/
def addAll (t : Tally) (as : List Addition) : Checked Tally :=
  as.foldlM (fun t a => t.add a.script a.tier a.weight) t

/-- The candidates record what was added: in the order of the first additions, with their weight. -/
structure Records (as : List Addition) (cs : List Candidate) : Prop where
  order : (cs.map (·.key)).Pairwise fun key key' => first as key < first as key'
  named : ∀ key, key ∈ cs.map (·.key) ↔ key ∈ as.map (·.key)
  weight : ∀ key, weightIn cs key = total as key

/-! ## Additions, one by one -/

namespace Records

theorem nil : Records [] [] := ⟨.nil, fun _ => Iff.rfl, fun _ => rfl⟩

theorem nodup (h : Records as cs) : (cs.map (·.key)).Nodup :=
  h.order.imp fun hlt heq => absurd (heq ▸ hlt) (Nat.lt_irrefl _)

theorem votes (h : Records as cs) (hc : c ∈ cs) : c.votes.toNat = total as c.key := by
  rw [← weightIn_key h.nodup hc, h.weight]

/-- One more addition is recorded, too. -/
theorem concat (h : Records as cs) (ha : addTo a.script a.tier a.weight cs = .ok cs') :
    Records (as ++ [a]) cs' := by
  have hold : cs.map (·.key) |>.Pairwise fun key key' =>
      first (as ++ [a]) key < first (as ++ [a]) key' := by
    refine h.order.imp_of_mem fun hkey hkey' hlt => ?_
    rwa [first_append ((h.named _).1 hkey), first_append ((h.named _).1 hkey')]
  have hkeys := keys_addTo ha
  refine ⟨?_, fun key => ?_, fun key => ?_⟩
  · rw [hkeys]
    split
    · exact hold
    · next hnew =>
      refine List.pairwise_append.2 ⟨hold, by simp, fun key hkey key' hkey' => ?_⟩
      obtain rfl : key' = a.key := List.mem_singleton.1 hkey'
      rw [first_append ((h.named _).1 hkey), first_concat fun hmem => hnew ((h.named _).2 hmem)]
      exact first_lt_length ((h.named _).1 hkey)
  · rw [hkeys, List.map_append, List.mem_append, List.map_singleton, ← h.named]
    split
    · next hmem =>
      refine ⟨.inl, fun hkey => hkey.elim id fun hkey => ?_⟩
      rw [List.mem_singleton.1 hkey]
      exact hmem
    · exact List.mem_append
  · rw [weight_addTo ha, total_concat, h.weight]
    rfl

/-- What was added is recorded after any sequence of additions. -/
theorem addAll (h : Records done t.candidates) (hadd : t.addAll as = .ok t') :
    Records (done ++ as) t'.candidates := by
  induction as generalizing done t with
  | nil =>
    cases hadd
    rwa [List.append_nil]
  | cons a as ih =>
    obtain ⟨mid, hmid, hadd⟩ := bind_eq_ok.1 hadd
    have hall := ih (h.concat (add_eq_ok.1 hmid).2) hadd
    rwa [List.append_assoc] at hall

/-- Votes can be added as long as the weight of every candidate is a word. -/
theorem exists_addAll (h : Records done t.candidates)
    (hfits : ∀ key, total (done ++ as) key < UInt32.size) : ∃ t', t.addAll as = .ok t' := by
  induction as generalizing done t with
  | nil => exact ⟨t, rfl⟩
  | cons a as ih =>
    rw [List.append_cons] at hfits
    have hweight : weightIn t.candidates a.key + a.weight.toNat < UInt32.size := by
      have hlt := Nat.lt_of_le_of_lt (total_le_append (done ++ [a]) as a.key) (hfits a.key)
      rwa [total_concat, if_pos rfl, ← h.weight] at hlt
    obtain ⟨cs, hcs⟩ := exists_addTo hweight
    have hmid : t.add a.script a.tier a.weight = .ok { t with candidates := cs } :=
      add_eq_ok.2 ⟨rfl, hcs⟩
    have hrec : Records (done ++ [a]) ({ t with candidates := cs } : Tally).candidates :=
      h.concat hcs
    obtain ⟨t', ht'⟩ := ih hrec hfits
    exact ⟨t', bind_eq_ok.2 ⟨_, hmid, ht'⟩⟩

end Records

theorem records_addAll (h : addAll ⟨height, []⟩ as = .ok t) : Records as t.candidates := by
  have hrec : Records ([] ++ as) t.candidates := Records.addAll .nil h
  exact hrec

/-- No votes are lost. -/
theorem votes_le_of_addTo (h : addTo script tier weight cs = .ok cs') (hc : c ∈ cs) :
    ∃ c' ∈ cs', c'.key = c.key ∧ c.votes ≤ c'.votes := by
  rcases addTo_cases h with ⟨-, rfl⟩ | ⟨pre, d, post, votes, rfl, -, hvotes, rfl⟩
  · exact ⟨c, List.mem_append_left _ hc, rfl, UInt32.le_refl _⟩
  · rcases List.mem_append.1 hc with hc | hc
    · exact ⟨c, List.mem_append_left _ hc, rfl, UInt32.le_refl _⟩
    · rcases List.mem_cons.1 hc with rfl | hc
      · refine ⟨_, List.mem_append_right _ List.mem_cons_self, rfl, ?_⟩
        rw [UInt32.le_iff_toNat_le]
        show c.votes.toNat ≤ votes.toNat
        omega
      · exact ⟨c, List.mem_append_right _ (List.mem_cons_of_mem _ hc), rfl, UInt32.le_refl _⟩

/-! ## Other tiers -/

/-- The tally with the candidates of one tier only. -/
def only (t : Tally) (tier : Tier) : Tally := { t with candidates := t.inTier tier }

theorem addTo_filter (h : addTo script tier weight cs = .ok cs') :
    addTo script tier weight (cs.filter (·.tier == tier)) = .ok (cs'.filter (·.tier == tier)) := by
  induction cs generalizing cs' with
  | nil =>
    cases h
    simp [addTo]
  | cons c cs ih =>
    by_cases hc : c.isFor script tier = true
    · have htier : c.tier = tier := congrArg Prod.snd (Candidate.isFor_iff.1 hc)
      rw [addTo, if_pos hc, bind_eq_ok] at h
      obtain ⟨votes, hvotes, h⟩ := h
      cases h
      rw [List.filter_cons_of_pos (by simpa using htier), addTo, if_pos hc, hvotes,
        List.filter_cons_of_pos (by simpa using htier)]
      rfl
    · rw [addTo, if_neg hc, bind_eq_ok] at h
      obtain ⟨rest, hrest, h⟩ := h
      cases h
      by_cases htier : c.tier = tier
      · rw [List.filter_cons_of_pos (by simpa using htier), addTo, if_neg hc, ih hrest,
          List.filter_cons_of_pos (by simpa using htier)]
        rfl
      · rw [List.filter_cons_of_neg (by simpa using htier), ih hrest,
          List.filter_cons_of_neg (by simpa using htier)]

theorem filter_addTo_ne {other : Tier} (hne : tier ≠ other)
    (h : addTo script tier weight cs = .ok cs') :
    cs'.filter (·.tier == other) = cs.filter (·.tier == other) := by
  rcases addTo_cases h with ⟨-, rfl⟩ | ⟨pre, c, post, votes, rfl, hkey, -, rfl⟩
  · simp [List.filter_append, hne]
  · have htier : c.tier ≠ other := by
      rwa [show c.tier = tier from congrArg Prod.snd hkey]
    simp [List.filter_append, htier]

/-- The candidates of a tier are those of the additions for this tier. -/
theorem only_addAll (h : t.addAll as = .ok u) :
    (t.only tier).addAll (as.filter (·.tier == tier)) = .ok (u.only tier) := by
  induction as generalizing t with
  | nil =>
    cases h
    rfl
  | cons a as ih =>
    obtain ⟨mid, hmid, h⟩ := bind_eq_ok.1 h
    obtain ⟨hheight, hcs⟩ := add_eq_ok.1 hmid
    by_cases htier : a.tier = tier
    · subst htier
      have hadd : (t.only a.tier).add a.script a.tier a.weight = .ok (mid.only a.tier) :=
        add_eq_ok.2 ⟨hheight, addTo_filter hcs⟩
      rw [List.filter_cons_of_pos (by simp)]
      exact bind_eq_ok.2 ⟨_, hadd, ih h⟩
    · have hsame : mid.only tier = t.only tier := by
        rw [only, only, inTier, inTier, filter_addTo_ne htier hcs]
        cases t
        cases mid
        simp_all
      rw [List.filter_cons_of_neg (by simpa using htier), ← hsame]
      exact ih h

/-- Additions for other tiers make no difference to a tier. -/
theorem inTier_addAll (ht : addAll ⟨height, []⟩ as = .ok t) (hu : addAll ⟨height, []⟩ bs = .ok u)
    (h : as.filter (·.tier == tier) = bs.filter (·.tier == tier)) :
    t.inTier tier = u.inTier tier := by
  have hboth : (Except.ok (t.only tier) : Checked Tally) = .ok (u.only tier) := by
    rw [← only_addAll ht, ← only_addAll hu, h]
  exact congrArg Tally.candidates (Except.ok.inj hboth)

/-! ## The leader -/

theorem leads_of_leader? (h : Records as t.candidates) (hc : t.leader? tier = some c) :
    Leads as tier c := by
  obtain ⟨hmem, htier⟩ := mem_inTier.1 (mem_of_leader? hc)
  -- The leader is the first of those with the most votes.
  obtain ⟨pre, post, hsplit, hpre, -⟩ := exists_first_maxOn hc
  -- The candidate of an addition to the tier stands before the leader, after it, or is the leader.
  have hfind : ∀ a ∈ as, a.tier = tier → ∃ d ∈ t.inTier tier, d.key = a.key := by
    intro a ha hatier
    obtain ⟨d, hd, hkey⟩ := List.mem_map.1 ((h.named a.key).2 (List.mem_map_of_mem ha))
    exact ⟨d, mem_inTier.2 ⟨hd, (congrArg Prod.snd hkey).trans hatier⟩, hkey⟩
  have hvotes {d : Candidate} (hd : d ∈ t.inTier tier) : d.votes.toNat = total as d.key :=
    h.votes (mem_inTier.1 hd).1
  refine ⟨htier, (h.named _).1 (List.mem_map_of_mem hmem), h.votes hmem, fun a ha hatier => ?_,
    fun a ha hatier htotal => ?_⟩
  · obtain ⟨d, hd, hkey⟩ := hfind a ha hatier
    have hle := votes_leader? hc ▸ votes_le_mostVotes hd
    rw [← hkey, ← hvotes hd, ← h.votes hmem]
    exact UInt32.le_iff_toNat_le.1 hle
  · obtain ⟨d, hd, hkey⟩ := hfind a ha hatier
    have hsame : d.votes = c.votes := by
      rw [← UInt32.toNat_inj, hvotes hd, h.votes hmem, hkey, htotal]
    have horder : ((t.inTier tier).map (·.key)).Pairwise fun key key' =>
        first as key < first as key' :=
      h.order.sublist (List.filter_sublist.map _)
    rw [hsplit, List.map_append, List.map_cons, List.pairwise_append, List.pairwise_cons] at horder
    rw [← hkey]
    rw [hsplit, List.mem_append, List.mem_cons] at hd
    rcases hd with hd | rfl | hd
    · exact absurd (UInt32.le_of_eq hsame.symm) (hpre d hd)
    · exact Nat.le_refl _
    · exact Nat.le_of_lt (horder.2.1.1 d.key (List.mem_map_of_mem hd))

theorem leader?_eq_none_iff (h : Records as t.candidates) :
    t.leader? tier = none ↔ ∀ a ∈ as, a.tier ≠ tier := by
  rw [leader?_eq_none, List.eq_nil_iff_forall_not_mem]
  constructor
  · rintro hnone a ha rfl
    obtain ⟨d, hd, hkey⟩ := List.mem_map.1 ((h.named a.key).2 (List.mem_map_of_mem ha))
    exact hnone d (mem_inTier.2 ⟨hd, congrArg Prod.snd hkey⟩)
  · intro hnone d hd
    obtain ⟨hd, htier⟩ := mem_inTier.1 hd
    obtain ⟨a, ha, hkey⟩ := List.mem_map.1 ((h.named d.key).1 (List.mem_map_of_mem hd))
    exact hnone a ha ((congrArg Prod.snd hkey).trans htier)

theorem leader?_eq_some_iff (h : Records as t.candidates) :
    t.leader? tier = some c ↔ Leads as tier c := by
  refine ⟨leads_of_leader? h, fun hc => ?_⟩
  obtain ⟨a, ha, hatier, -⟩ := hc.exists_addition
  cases hd : t.leader? tier with
  | none => exact absurd hatier ((leader?_eq_none_iff h).1 hd a ha)
  | some d => rw [(leads_of_leader? h hd).eq hc]

/-- One more vote leaves the winner of its tier as it is, or makes its own script the winner. -/
theorem winner?_add (h : Records as t.candidates) (ha : t.add script tier weight = .ok t') :
    t'.winner? tier = t.winner? tier ∨ t'.winner? tier = some script := by
  have h' : Records (as ++ [⟨script, tier, weight⟩]) t'.candidates := h.concat (add_eq_ok.1 ha).2
  unfold winner?
  cases hd : t'.leader? tier with
  | none =>
    have hnone := (leader?_eq_none_iff h').1 hd ⟨script, tier, weight⟩ (by simp)
    exact absurd rfl hnone
  | some d =>
    have hlead := leads_of_leader? h' hd
    cases hc : t.leader? tier with
    | none =>
      obtain ⟨a, hmem, hatier, hkey⟩ := hlead.exists_addition
      rcases List.mem_append.1 hmem with hmem | hmem
      · exact absurd hatier ((leader?_eq_none_iff h).1 hc a hmem)
      · rw [List.mem_singleton.1 hmem] at hkey
        exact .inr (congrArg some (congrArg Prod.fst hkey).symm)
    | some c =>
      have hscript := (leads_of_leader? h hc).script_concat hlead
      exact hscript.imp (congrArg some) (congrArg some)

/-- **Who leads a tier after any additions to a new tally.** There is such a tally exactly if the
weight of every key is a word. A tier has no leader if nothing was added for it. Else it has the
candidate with the most weight, and of several the one that was added first, with its weight as its
votes. Additions for other tiers make no difference. One more addition loses no votes, and changes
the winner of its tier to its own script if at all. -/
theorem leader?_addAll (height : Height) (as : List Addition) :
    ((∃ t, addAll ⟨height, []⟩ as = .ok t) ↔ ∀ key, total as key < UInt32.size) ∧
    ∀ t, addAll ⟨height, []⟩ as = .ok t → ∀ tier,
      (t.leader? tier = none ↔ ∀ a ∈ as, a.tier ≠ tier) ∧
      (∀ c, t.leader? tier = some c ↔ Leads as tier c) ∧
      (∀ c, t.leader? tier = some c → c.votes = t.mostVotes tier) ∧
      (∀ bs u, addAll ⟨height, []⟩ bs = .ok u →
        as.filter (·.tier == tier) = bs.filter (·.tier == tier) →
        u.leader? tier = t.leader? tier ∧ u.mostVotes tier = t.mostVotes tier) ∧
      ∀ script weight t', t.add script tier weight = .ok t' →
        (t'.winner? tier = t.winner? tier ∨ t'.winner? tier = some script) ∧
        ∀ c ∈ t.candidates, ∃ c' ∈ t'.candidates, c'.key = c.key ∧ c.votes ≤ c'.votes := by
  refine ⟨⟨fun ⟨t, ht⟩ key => ?_, fun hfits => ?_⟩, fun t ht tier => ?_⟩
  · have hrec := records_addAll ht
    rw [← hrec.weight]
    exact weightIn_lt hrec.nodup key
  · have hrec : Records [] (⟨height, []⟩ : Tally).candidates := .nil
    exact hrec.exists_addAll hfits
  · have hrec := records_addAll ht
    refine ⟨leader?_eq_none_iff hrec, fun c => leader?_eq_some_iff hrec, fun c => votes_leader?,
      fun bs u hu hsame => ?_, fun script weight t' hadd => ⟨winner?_add hrec hadd, fun c hc => ?_⟩⟩
    · have htier := inTier_addAll ht hu hsame
      simp only [leader?, mostVotes, htier, and_self]
    · exact votes_le_of_addTo (add_eq_ok.1 hadd).2 hc

end Tally

/-! ## A tie -/

namespace Sample

/-- The second script of the first tier catches up with the first one. -/
def tie : List Addition :=
  [⟨[0x53], 1, 2⟩, ⟨[0x54], 1, 1⟩, ⟨[0x54], 2, 5⟩, ⟨[0x54], 1, 1⟩]

def tied : Tally := ⟨1001, [⟨[0x53], 1, 2⟩, ⟨[0x54], 1, 2⟩, ⟨[0x54], 2, 5⟩]⟩

end Sample

open Sample in
theorem Tally.leader?_addAll_tie : Tally.addAll ⟨1001, []⟩ tie = .ok tied ∧
    Leads tie 1 ⟨[0x53], 1, 2⟩ ∧ tied.mostVotes 1 = 2 ∧ tied.leader? 3 = none ∧
    ∃ t', tied.add [0x54] 1 1 = .ok t' ∧ t'.winner? 1 = some [0x54] := by
  obtain ⟨-, hlead⟩ := leader?_addAll 1001 tie
  have htied : Tally.addAll ⟨1001, []⟩ tie = .ok tied := by decide
  obtain ⟨-, hiff, hvotes, -, hmore⟩ := hlead tied htied 1
  have hfirst : tied.leader? 1 = some ⟨[0x53], 1, 2⟩ := by decide
  have hadd : ∃ t', tied.add [0x54] 1 1 = .ok t' ∧ t'.winner? 1 ≠ tied.winner? 1 :=
    ⟨_, rfl, by decide⟩
  obtain ⟨t', ht', hne⟩ := hadd
  refine ⟨htied, (hiff _).1 hfirst, (hvotes _ hfirst).symm, ?_, t', ht', ?_⟩
  · obtain ⟨hnone, -⟩ := hlead tied htied 3
    exact hnone.2 (by decide)
  · exact (hmore _ _ _ ht').1.resolve_left hne

end MasternodePayments
