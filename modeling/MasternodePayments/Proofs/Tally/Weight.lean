import MasternodePayments.Tally

/-!
# What one more vote does to a tally

A candidate is known by its script and its tier. Added votes either raise one candidate at its place
or put a new one at the end (`Adds`, `addTo_cases`); what they do to the tally follows from that:

* `keys_addTo`: the candidates stay where they are, a new one comes last.
* `weight_addTo`: only the candidate voted for gains weight, by as much as was added.
* `sumVotes_addTo`: all votes together grow by as much.
* `votes_pos_addTo`: no candidate is without votes.
-/

namespace MasternodePayments

/-- What a candidate is known by. -/
def Candidate.key (c : Candidate) : Script × Tier := (c.script, c.tier)

theorem Candidate.isFor_iff {c : Candidate} {script : Script} {tier : Tier} :
    c.isFor script tier = true ↔ c.key = (script, tier) := by
  simp [isFor, key, and_comm]

namespace Tally

@[simp] theorem sumVotes_nil : sumVotes [] = 0 := rfl

@[simp] theorem sumVotes_cons (c : Candidate) (cs : List Candidate) :
    sumVotes (c :: cs) = c.votes.toNat + sumVotes cs := rfl

@[simp] theorem sumVotes_append (cs ds : List Candidate) :
    sumVotes (cs ++ ds) = sumVotes cs + sumVotes ds := by
  induction cs with
  | nil => simp
  | cons c cs ih => simp [ih, Nat.add_assoc]

/-- The votes that a list of candidates has for a script in a tier. -/
def weightIn (cs : List Candidate) (key : Script × Tier) : Nat :=
  sumVotes (cs.filter (·.key = key))

@[simp] theorem weightIn_nil (key : Script × Tier) : weightIn [] key = 0 := rfl

theorem weightIn_cons (c : Candidate) (cs : List Candidate) (key : Script × Tier) :
    weightIn (c :: cs) key = (if c.key = key then c.votes.toNat else 0) + weightIn cs key := by
  by_cases h : c.key = key <;> simp [weightIn, h]

theorem weightIn_append (cs ds : List Candidate) (key : Script × Tier) :
    weightIn (cs ++ ds) key = weightIn cs key + weightIn ds key := by
  simp [weightIn]

/-- Weight comes from a candidate. -/
theorem exists_of_weightIn_pos {cs : List Candidate} {key : Script × Tier}
    (h : 0 < weightIn cs key) : ∃ c ∈ cs, c.key = key := by
  induction cs with
  | nil => exact absurd h (Nat.lt_irrefl 0)
  | cons d cs ih =>
    by_cases hd : d.key = key
    · exact ⟨d, List.mem_cons_self, hd⟩
    · rw [weightIn_cons, if_neg hd, Nat.zero_add] at h
      obtain ⟨c, hc, he⟩ := ih h
      exact ⟨c, List.mem_cons_of_mem d hc, he⟩

/-- A candidate that no other one shares the key with has all the weight of its key. -/
theorem weightIn_key {cs : List Candidate} (h : (cs.map (·.key)).Nodup) {c : Candidate}
    (hc : c ∈ cs) : weightIn cs c.key = c.votes.toNat := by
  obtain ⟨pre, post, rfl⟩ := List.append_of_mem hc
  rw [List.map_append, List.map_cons, List.nodup_append, List.nodup_cons] at h
  obtain ⟨-, ⟨hpost, -⟩, hpre⟩ := h
  have zero : ∀ ds : List Candidate, (∀ d ∈ ds, d.key ≠ c.key) → weightIn ds c.key = 0 := by
    intro ds hds
    rw [weightIn, List.filter_eq_nil_iff.2 fun d hd => by simpa using hds d hd]
    rfl
  have h1 : weightIn pre c.key = 0 := zero pre fun d hd =>
    hpre d.key (List.mem_map_of_mem hd) c.key List.mem_cons_self
  have h2 : weightIn post c.key = 0 := zero post fun d hd he =>
    hpost (he ▸ List.mem_map_of_mem hd)
  rw [weightIn_append, weightIn_cons, h1, h2]
  simp

/-! ## Adding votes -/

section
variable {script : Script} {tier : Tier} {weight : UInt32} {cs cs' : List Candidate}

/-- Added votes go to a new candidate at the end, or else to the first one that is there already. -/
inductive Adds (script : Script) (tier : Tier) (weight : UInt32) (cs : List Candidate) :
    List Candidate → Prop
  | joined (hne : ∀ c ∈ cs, c.key ≠ (script, tier)) :
    Adds script tier weight cs (cs ++ [⟨script, tier, weight⟩])
  | raised {pre post : List Candidate} {c : Candidate} {votes : UInt32} (hcs : cs = pre ++ c :: post)
      (hpre : ∀ d ∈ pre, d.key ≠ (script, tier)) (hkey : c.key = (script, tier))
      (hvotes : c.votes.toNat + weight.toNat = votes.toNat) :
    Adds script tier weight cs (pre ++ { c with votes := votes } :: post)

theorem adds_addTo (h : addTo script tier weight cs = .ok cs') : Adds script tier weight cs cs' := by
  induction cs generalizing cs' with
  | nil =>
    cases h
    exact .joined (by simp)
  | cons d cs ih =>
    by_cases hd : d.isFor script tier = true
    · cases hv : add32 d.votes weight with
      | error o => simp [addTo, hd, hv, bind, Except.bind] at h
      | ok votes =>
        simp only [addTo, hd, hv, ↓reduceIte, bind, Except.bind, pure, Except.pure,
          Except.ok.injEq] at h
        subst h
        have hcs : d :: cs = [] ++ d :: cs := rfl
        exact .raised hcs (by simp) (Candidate.isFor_iff.1 hd) (add32_eq_ok.1 hv)
    · have hd' : d.key ≠ (script, tier) := fun he => hd (Candidate.isFor_iff.2 he)
      cases hr : addTo script tier weight cs with
      | error o => simp [addTo, hd, hr, bind, Except.bind] at h
      | ok rest =>
        simp only [addTo, hd, hr, Bool.false_eq_true, ↓reduceIte, bind, Except.bind, pure,
          Except.pure, Except.ok.injEq] at h
        subst h
        cases ih hr with
        | joined hne => exact .joined (List.forall_mem_cons.2 ⟨hd', hne⟩)
        | raised hcs hpre hkey hvotes =>
          exact .raised (congrArg (d :: ·) hcs) (List.forall_mem_cons.2 ⟨hd', hpre⟩) hkey hvotes

theorem addTo_cases (h : addTo script tier weight cs = .ok cs') :
    ((∀ c ∈ cs, c.key ≠ (script, tier)) ∧ cs' = cs ++ [⟨script, tier, weight⟩]) ∨
    ∃ pre c post votes, cs = pre ++ c :: post ∧ c.key = (script, tier) ∧
      c.votes.toNat + weight.toNat = votes.toNat ∧
      cs' = pre ++ { c with votes := votes } :: post := by
  cases adds_addTo h with
  | joined hne => exact .inl ⟨hne, rfl⟩
  | raised hcs hpre hkey hvotes => exact .inr ⟨_, _, _, _, hcs, hkey, hvotes, rfl⟩

theorem keys_addTo (h : addTo script tier weight cs = .ok cs') :
    cs'.map (·.key) =
      if (script, tier) ∈ cs.map (·.key) then cs.map (·.key)
      else cs.map (·.key) ++ [(script, tier)] := by
  rcases addTo_cases h with ⟨hne, rfl⟩ | ⟨pre, c, post, votes, rfl, hk, -, rfl⟩
  · rw [if_neg]
    · simp [Candidate.key]
    · intro hm
      obtain ⟨c, hc, he⟩ := List.mem_map.1 hm
      exact hne c hc he
  · rw [if_pos (by simp [hk])]
    simp [Candidate.key]

theorem nodup_keys_addTo (h : addTo script tier weight cs = .ok cs')
    (hn : (cs.map (·.key)).Nodup) : (cs'.map (·.key)).Nodup := by
  rw [keys_addTo h]
  split
  · exact hn
  · next hm =>
    refine List.nodup_append.2 ⟨hn, by simp, fun a ha b hb hab => hm ?_⟩
    rwa [← List.mem_singleton.1 hb, ← hab]

theorem weight_addTo (h : addTo script tier weight cs = .ok cs') (key : Script × Tier) :
    weightIn cs' key = weightIn cs key + if key = (script, tier) then weight.toNat else 0 := by
  rcases addTo_cases h with ⟨-, rfl⟩ | ⟨pre, c, post, votes, rfl, hk, hv, rfl⟩
  · rw [weightIn_append, weightIn_cons]
    simp [Candidate.key, eq_comm]
  · have hk' : ({ c with votes := votes } : Candidate).key = (script, tier) := hk
    simp only [weightIn_append, weightIn_cons, hk, hk']
    by_cases he : key = (script, tier)
    · simp only [he, ↓reduceIte]
      omega
    · simp [he, Ne.symm he]

theorem sumVotes_addTo (h : addTo script tier weight cs = .ok cs') :
    sumVotes cs' = sumVotes cs + weight.toNat := by
  rcases addTo_cases h with ⟨-, rfl⟩ | ⟨pre, c, post, votes, rfl, -, hv, rfl⟩
  · simp
  · simp only [sumVotes_append, sumVotes_cons]
    omega

theorem votes_pos_addTo (h : addTo script tier weight cs = .ok cs') (hw : 0 < weight.toNat)
    (hp : ∀ c ∈ cs, 0 < c.votes.toNat) : ∀ c ∈ cs', 0 < c.votes.toNat := by
  rcases addTo_cases h with ⟨-, rfl⟩ | ⟨pre, c, post, votes, rfl, -, hv, rfl⟩
  · intro d hd
    rcases List.mem_append.1 hd with hd | hd
    · exact hp d hd
    · rw [List.mem_singleton.1 hd]
      exact hw
  · intro d hd
    rcases List.mem_append.1 hd with hd | hd
    · exact hp d (List.mem_append_left _ hd)
    · rcases List.mem_cons.1 hd with rfl | hd
      · simp only
        omega
      · exact hp d (List.mem_append_right _ (List.mem_cons_of_mem _ hd))

end

/-- A tally with added votes has the candidates with added votes, at the same height. -/
theorem add_eq_ok {t t' : Tally} {script : Script} {tier : Tier} {weight : UInt32} :
    t.add script tier weight = .ok t' ↔
      t'.height = t.height ∧ addTo script tier weight t.candidates = .ok t'.candidates := by
  unfold add
  cases addTo script tier weight t.candidates with
  | error o => simp [bind, Except.bind]
  | ok cs =>
    obtain ⟨height, candidates⟩ := t'
    simp [bind, Except.bind, pure, Except.pure, eq_comm]

end Tally
end MasternodePayments
