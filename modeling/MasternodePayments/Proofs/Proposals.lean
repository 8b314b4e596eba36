import MasternodePayments.Proofs.Casting
import MasternodePayments.Proofs.Ledger.Reflection
import MasternodePayments.Proofs.PayeeForms
import MasternodePayments.Proofs.Payees

/-!
# What a node votes for

Casting goes through the admission of one vote for each tier, and where one of them is refused the
others go on. If all that a node can see to is in order, none is refused: the votes differ in tier
and in payee, so no admission stands in the way of another one (`Ledger.admitSome_apart`). What is
left is the weight of the candidates. A weight is a word, and one that is at its limit already ends
the call in an overflow; that takes a snapshot from elsewhere.

* `Registry.comesNext_of_nextInQueue?`: the queue of a tier, first registered first on a tie.
* `Setting.dueVotes`: the votes that a masternode has to cast for a height.
* `Ledger.ReadyToCast.admits`: each of them passes the checks.
* `Node.cast_exact`: which votes are cast, in a single call and in a run.
-/

namespace MasternodePayments

/-! ## The queue of a tier -/

namespace Registry

variable {r : Registry} {tier : Tier} {m : Masternode} {e : Registration}

/-- The enabled masternode of a tier that is to be paid next: those registered before it were paid
later, and those after it no earlier. -/
def ComesNext (r : Registry) (tier : Tier) (m : Masternode) : Prop :=
  ∃ before e after, r.enabledInTier tier = before ++ e :: after ∧ e.node = m ∧
    (∀ x ∈ before, e.lastPaid < x.lastPaid) ∧ ∀ x ∈ after, e.lastPaid ≤ x.lastPaid

theorem comesNext_of_nextInQueue? (h : r.nextInQueue? tier = some m) : r.ComesNext tier m := by
  obtain ⟨e, he, rfl⟩ := Option.map_eq_some_iff.1 h
  obtain ⟨before, after, hes, hbefore, hafter⟩ := exists_first_minOn he
  exact ⟨before, e, after, hes, rfl, fun x hx => UInt64.not_le.1 (hbefore x hx), hafter⟩

theorem exists_mem_of_nextInQueue? (h : r.nextInQueue? tier = some m) :
    ∃ e ∈ r.entries, e.node = m ∧ m.tier = tier := by
  obtain ⟨e, he, rfl, -⟩ := paidLongestAgo_of_nextInQueue? h
  obtain ⟨hmem, -, htier⟩ := mem_enabledInTier.1 he
  exact ⟨e, hmem, rfl, htier⟩

theorem nextInQueue?_eq_none : r.nextInQueue? tier = none ↔ r.countInTier tier = 0 := by
  unfold nextInQueue? countInTier
  cases r.enabledInTier tier <;> simp [List.minOn?_cons]

/-- What the rank of a masternode says of it, if no other one has its identity. -/
theorem protocol_of_rank? {id : MasternodeId} {protocol : UInt32} {rank : Nat}
    (hids : (r.entries.map (·.node.id)).Nodup) (hm : r.find? id = some m)
    (h : r.rank? id protocol = some rank) : protocol ≤ m.protocol := by
  obtain ⟨i, hi, -⟩ := Option.map_eq_some_iff.1 h
  obtain ⟨hlt, hid, -⟩ := List.findIdx?_eq_some_iff_getElem.1 hi
  obtain ⟨e, he, rfl⟩ : ∃ e ∈ r.eligible protocol, e.node.id = id :=
    ⟨_, List.getElem_mem hlt, beq_iff_eq.1 hid⟩
  simp only [eligible, List.mem_filter, Bool.and_eq_true, decide_eq_true_eq] at he
  cases hm.symm.trans (find?_of_nodup_ids hids he.1)
  exact he.2.2

end Registry

theorem Schedule.nodup_tiers (s : Schedule) : s.tiers.Nodup := by
  refine List.Nodup.map_on (fun i hi j hj h => ?_) List.nodup_range
  have hcount := s.tierCount.toNat_lt_size
  rw [List.mem_range] at hi hj
  rw [← UInt32.toNat_inj, UInt32.toNat_ofNat_of_lt' (by omega),
    UInt32.toNat_ofNat_of_lt' (by omega)] at h
  omega

/-! ## The weight of a candidate -/

namespace Tally

variable {script script' : Script} {tier tier' : Tier} {weight : UInt32}
  {cs cs' : List Candidate} {c : Candidate}

/-- The weight of a candidate, if there is one yet, can be raised. -/
def HasRoom (cs : List Candidate) (script : Script) (tier : Tier) : Prop :=
  ∀ c, cs.find? (·.isFor script tier) = some c → c.votes.toNat + 1 < UInt32.size

theorem addTo_of_hasRoom (h : HasRoom cs script tier) :
    ∃ cs', addTo script tier 1 cs = .ok cs' := by
  induction cs with
  | nil => exact ⟨_, rfl⟩
  | cons c cs ih =>
    unfold HasRoom at h ih
    rw [List.find?_cons] at h
    by_cases hc : c.isFor script tier = true
    · have hadd : add32 c.votes 1 = .ok (c.votes + 1) := if_pos (h c (by simp [hc]))
      exact ⟨_, by rw [addTo, if_pos hc, hadd]; rfl⟩
    · obtain ⟨ds, hds⟩ := ih (by simpa [hc] using h)
      exact ⟨_, by rw [addTo, if_neg hc, hds]; rfl⟩

theorem addTo_of_not_hasRoom (h : ¬HasRoom cs script tier) :
    addTo script tier 1 cs = .error .addition := by
  induction cs with
  | nil => exact absurd (fun c hc => by cases hc) h
  | cons c cs ih =>
    unfold HasRoom at h ih
    rw [List.find?_cons] at h
    by_cases hc : c.isFor script tier = true
    · have hfull : ¬c.votes.toNat + 1 < UInt32.size := by simpa [hc] using h
      have hadd : add32 c.votes 1 = .error .addition := if_neg hfull
      rw [addTo, if_pos hc, hadd]
      rfl
    · rw [addTo, if_neg hc, ih (by simpa [hc] using h)]
      rfl

/-- Votes for one candidate leave the others as they are. -/
theorem find?_addTo (h : addTo script tier weight cs = .ok cs')
    (hne : (script, tier) ≠ (script', tier')) :
    cs'.find? (·.isFor script' tier') = cs.find? (·.isFor script' tier') := by
  have hother : ∀ d : Candidate, d.key = (script, tier) → d.isFor script' tier' = false := by
    intro d hd
    rw [Bool.eq_false_iff, ne_eq, Candidate.isFor_iff, hd]
    exact hne
  rcases addTo_cases h with ⟨-, rfl⟩ | ⟨pre, c, post, votes, rfl, hkey, -, rfl⟩
  · simp [List.find?_append, hother ⟨script, tier, weight⟩ rfl]
  · simp [List.find?_append, hother c hkey, hother { c with votes } hkey]

end Tally

/-! ## One admission after the other -/

namespace Ledger

variable {l k : Ledger} {s : Setting} {v w : Vote} {a b : Admission}
  {ps : List (Vote × Admission)}

/-- The weight that a vote adds to can be raised. -/
def HasRoom (l : Ledger) (v : Vote) (a : Admission) : Prop :=
  Tally.HasRoom (l.tallyAt v.height).candidates a.script a.tier

theorem record_of_hasRoom (h : l.HasRoom v a) : ∃ k, l.record v a = .ok k := by
  obtain ⟨cs, hcs⟩ := Tally.addTo_of_hasRoom h
  exact ⟨_, by rw [record, Tally.add, hcs]; rfl⟩

theorem record_of_not_hasRoom (h : ¬l.HasRoom v a) : l.record v a = .error .addition := by
  rw [record, Tally.add, Tally.addTo_of_not_hasRoom h]
  rfl

/-- Two votes that count for different tiers, under different identities. -/
def Apart (p q : Vote × Admission) : Prop :=
  p.2.identity ≠ q.2.identity ∧ p.2.tier ≠ q.2.tier

theorem hasRoom_record (hne : a.tier ≠ b.tier) (h : l.record v a = .ok k) :
    k.HasRoom w b ↔ l.HasRoom w b := by
  obtain ⟨tally, hadd, htally, hothers⟩ := tallyAt_record h
  unfold HasRoom
  by_cases hheight : w.height = v.height
  · have hfind : tally.candidates.find? (·.isFor b.script b.tier) =
        (l.tallyAt v.height).candidates.find? (·.isFor b.script b.tier) :=
      Tally.find?_addTo (Tally.add_eq_ok.1 hadd).2 fun he => hne (Prod.mk.inj he).2
    rw [hheight, htally]
    unfold Tally.HasRoom
    rw [hfind]
  · rw [hothers w.height hheight]

/-- An admission does not stand in the way of another one. -/
theorem Admits.record (hw : l.Admits s w b) (hapart : Apart (v, a) (w, b))
    (h : l.record v a = .ok k) : k.Admits s w b where
  identity := hw.identity
  fresh := by
    rw [mem_votes_record h, not_or, ← hw.identity]
    exact ⟨hapart.1.symm, hw.not_mem⟩
  payee := hw.payee
  voter := hw.voter
  window := hw.window
  ballot := by
    rw [mem_ballots_record h, not_or]
    exact ⟨fun he => hapart.2 (Ballot.mk.inj he).2.1.symm, hw.ballot⟩
  reference := hw.reference

/-- **Votes that are apart** are all admitted, if each of them is on its own and no weight is at its
limit. Else the call has no result. -/
theorem admitSome_apart (hadmits : ∀ p ∈ ps, l.Admits s p.1 p.2) (hapart : ps.Pairwise Apart) :
    (∀ p ∈ ps, l.HasRoom p.1 p.2) ∧
        (∃ k, l.admitSome s (ps.map (·.1)) = .ok (k, ps.map (·.1))) ∨
      (∃ p ∈ ps, ¬l.HasRoom p.1 p.2) ∧ l.admitSome s (ps.map (·.1)) = .error .addition := by
  induction ps generalizing l with
  | nil => exact .inl ⟨by simp, l, rfl⟩
  | cons p ps ih =>
    obtain ⟨hp, hps⟩ := List.forall_mem_cons.1 hadmits
    obtain ⟨hfirst, hrest⟩ := List.pairwise_cons.1 hapart
    by_cases hroom : l.HasRoom p.1 p.2
    · obtain ⟨k, hk⟩ := record_of_hasRoom hroom
      have hadmit : settle (l.admitVote s p.1) = .ok (.ok k) :=
        settle_eq_ok_ok.2 (admitVote_eq_ok.2 ⟨p.2, hp, hk⟩)
      have hsame : ∀ q ∈ ps, k.HasRoom q.1 q.2 ↔ l.HasRoom q.1 q.2 := fun q hq =>
        hasRoom_record (hfirst q hq).2 hk
      rw [List.map_cons, admitSome, hadmit, ok_bind]
      rcases ih (fun q hq => (hps q hq).record (hfirst q hq) hk) hrest with
        ⟨hrooms, final, hfinal⟩ | ⟨⟨q, hq, hfull⟩, herror⟩
      · refine .inl ⟨List.forall_mem_cons.2 ⟨hroom, fun q hq => (hsame q hq).1 (hrooms q hq)⟩,
          final, ?_⟩
        dsimp only
        rw [hfinal]
        rfl
      · refine .inr ⟨⟨q, List.mem_cons_of_mem p hq, (hsame q hq).not.1 hfull⟩, ?_⟩
        dsimp only
        rw [herror]
        rfl
    · refine .inr ⟨⟨p, List.mem_cons_self, hroom⟩, ?_⟩
      have hadmit : settle (l.admitVote s p.1) = .error .addition := by
        rw [admitVote, check_eq_ok.2 hp, ok_bind, record_of_not_hasRoom hroom]
        rfl
      rw [List.map_cons, admitSome, hadmit]
      rfl

end Ledger

/-! ## The votes that are due -/

/-- The vote of a masternode for another one, signed with its own key pair. -/
def ActiveMasternode.voteFor (active : ActiveMasternode) (height : Height)
    (payee : MasternodeId) : Vote :=
  let vote : Vote := { voter := active.id, height := height, payee := .collateral payee }
  { vote with signature := (active.keys.sign vote.signingMessage).bytes }

namespace Setting

variable {s : Setting} {active : ActiveMasternode} {height : Height} {p : Vote × Admission}

/-- The votes of a masternode for a height, with what they count for: one for each tier in which
somebody can be paid. -/
def dueVotes (s : Setting) (active : ActiveMasternode) (height : Height) :
    List (Vote × Admission) :=
  s.schedule.tiers.filterMap fun tier => (s.registry.nextInQueue? tier).map fun m =>
    let vote := active.voteFor height m.id
    (vote, ⟨vote.identity, m.payout, tier⟩)

theorem mem_dueVotes (h : p ∈ s.dueVotes active height) :
    ∃ tier ∈ s.schedule.tiers, ∃ m, s.registry.nextInQueue? tier = some m ∧
      p = (active.voteFor height m.id,
        ⟨(active.voteFor height m.id).identity, m.payout, tier⟩) := by
  obtain ⟨tier, htier, hp⟩ := List.mem_filterMap.1 h
  obtain ⟨m, hm, rfl⟩ := Option.map_eq_some_iff.1 hp
  exact ⟨tier, htier, m, hm, rfl⟩

/-- There is one for each tier that has an enabled masternode, in order. -/
theorem forall₂_dueVotes (s : Setting) (active : ActiveMasternode) (height : Height) :
    List.Forall₂
      (fun tier v => ∃ m, s.registry.ComesNext tier m ∧ v = active.voteFor height m.id)
      (s.schedule.tiers.filter fun tier => 0 < s.registry.countInTier tier)
      ((s.dueVotes active height).map (·.1)) := by
  unfold dueVotes
  induction s.schedule.tiers with
  | nil => exact .nil
  | cons tier tiers ih =>
    cases hm : s.registry.nextInQueue? tier with
    | none =>
      have hzero := Registry.nextInQueue?_eq_none.1 hm
      rw [List.filterMap_cons, hm, List.filter_cons_of_neg (by simp [hzero])]
      exact ih
    | some m =>
      have hpos : 0 < s.registry.countInTier tier := by
        refine Nat.pos_of_ne_zero fun hzero => ?_
        cases hm.symm.trans (Registry.nextInQueue?_eq_none.2 hzero)
      rw [List.filterMap_cons, hm, List.filter_cons_of_pos (by simpa using hpos)]
      exact .cons ⟨m, Registry.comesNext_of_nextInQueue? hm, rfl⟩ ih

end Setting

namespace Ledger

variable {l : Ledger} {s : Setting} {active : ActiveMasternode} {height : Height}

/-- Nothing keeps a masternode from voting for a height, in any tier. -/
structure ReadyToCast (l : Ledger) (s : Setting) (height : Height) (active : ActiveMasternode) :
    Prop where
  ids : (s.registry.entries.map (·.node.id)).Nodup
  registered : ∃ node, s.registry.find? active.id = some node ∧
    node.operatorKey = active.keys.publicKey
  rank : ∃ rank, s.registry.rank? active.id s.minProtocol = some rank ∧
    rank ≤ s.config.signaturesTotal.toNat
  unprocessed : l.lastCast < height
  not_budget : s.budget.covers height = false
  window : ∃ tip, s.chain.tip? = some tip ∧ ∀ tier ∈ s.schedule.tiers, ∃ first last,
    s.window tier tip = .ok (first, last) ∧ first ≤ height ∧ height ≤ last
  reference : (s.chain.hashAt? (s.reference height)).isSome = true
  ballot : ∀ tier, ⟨active.id, tier, height⟩ ∉ l.ballots
  fresh : ∀ p ∈ s.dueVotes active height, p.1.identity ∉ l.votes
  /-- The signatures of the new votes are right, and their identities tell them apart. -/
  genuine : s.Genuine ((s.dueVotes active height).map (·.1))

namespace ReadyToCast

theorem admits (h : l.ReadyToCast s height active) :
    ∀ p ∈ s.dueVotes active height, l.Admits s p.1 p.2 := by
  intro p hp
  have hsigned := h.genuine.signed p.1 (List.mem_map_of_mem hp)
  have hfresh := h.fresh p hp
  obtain ⟨tier, htier, m, hm, rfl⟩ := Setting.mem_dueVotes hp
  obtain ⟨e, he, rfl, hetier⟩ := Registry.exists_mem_of_nextInQueue? hm
  obtain ⟨node, hnode, -⟩ := h.registered
  obtain ⟨rank, hrank, hle⟩ := h.rank
  obtain ⟨tip, htip, hwindow⟩ := h.window
  obtain ⟨first, last, hwindow, hfirst, hlast⟩ := hwindow tier htier
  exact {
    identity := rfl
    fresh := hfresh
    payee := by
      rw [← hetier]
      exact Setting.resolve?_collateral h.ids he
    voter := ⟨node, hnode, Registry.protocol_of_rank? h.ids hnode hrank, by
      rw [Registry.id_of_find? hnode, hrank]
      exact decide_eq_true hle, hsigned node hnode⟩
    window := ⟨tip, first, last, htip, hwindow, hfirst, hlast⟩
    ballot := h.ballot tier
    reference := h.reference }

/-- The votes are for different tiers, so for different masternodes. -/
theorem apart (h : l.ReadyToCast s height active) :
    (s.dueVotes active height).Pairwise Apart := by
  have hpair : (s.dueVotes active height).Pairwise fun p q => p.2.tier ≠ q.2.tier := by
    refine List.Pairwise.filterMap _ (fun tier tier' hne p hp q hq => ?_) s.schedule.nodup_tiers
    obtain ⟨m, -, rfl⟩ := Option.map_eq_some_iff.1 hp
    obtain ⟨m', -, rfl⟩ := Option.map_eq_some_iff.1 hq
    exact hne
  refine hpair.imp_of_mem fun {p q} hp hq hne => ⟨fun hid => hne ?_, hne⟩
  have hvote := h.genuine.apart p.1 (List.mem_map_of_mem hp) q.1 (List.mem_map_of_mem hq)
  obtain ⟨tier, -, m, hm, rfl⟩ := Setting.mem_dueVotes hp
  obtain ⟨tier', -, m', hm', rfl⟩ := Setting.mem_dueVotes hq
  obtain ⟨-, -, hpayee⟩ := Vote.claim_of_preimage (hvote hid)
  have hids : m.id = m'.id := Payee.collateral.inj hpayee
  obtain ⟨e, he, rfl, htier⟩ := Registry.exists_mem_of_nextInQueue? hm
  obtain ⟨e', he', rfl, htier'⟩ := Registry.exists_mem_of_nextInQueue? hm'
  have hsame := Registry.find?_of_nodup_ids h.ids he
  rw [hids, Registry.find?_of_nodup_ids h.ids he', Option.some.injEq] at hsame
  rw [← htier, ← htier', hsame]

/-- What is proposed is what is due. -/
theorem proposals (h : l.ReadyToCast s height active) {node : Masternode}
    (hnode : s.registry.find? active.id = some node) :
    s.schedule.tiers.filterMap (s.proposal? active node.operatorKey height) =
      (s.dueVotes active height).map (·.1) := by
  obtain ⟨node', hnode', hkey⟩ := h.registered
  cases hnode.symm.trans hnode'
  rw [Setting.dueVotes, List.map_filterMap]
  refine List.filterMap_congr fun tier htier => ?_
  unfold Setting.proposal?
  cases hm : s.registry.nextInQueue? tier with
  | none => rfl
  | some m =>
    have hdue : (active.voteFor height m.id, _) ∈ s.dueVotes active height :=
      List.mem_filterMap.2 ⟨tier, htier, by rw [hm]; rfl⟩
    have hsigned : ((active.voteFor height m.id).verify node.operatorKey).toBool = true :=
      h.genuine.signed _ (List.mem_map_of_mem hdue) node hnode
    show (Vote.sign _ active.keys node.operatorKey).toOption = some (active.voteFor height m.id)
    cases hverify : (active.voteFor height m.id).verify node.operatorKey with
    | error cause =>
      rw [hverify] at hsigned
      cases hsigned
    | ok u =>
      unfold ActiveMasternode.voteFor at hverify
      unfold Vote.sign
      rw [if_pos hkey.symm]
      dsimp only at hverify ⊢
      rw [hverify]
      rfl

/-- **Nothing is left out**: every vote that is due is cast, unless a weight is at its limit. -/
theorem cast_cases (h : l.ReadyToCast s height active) :
    (∀ p ∈ s.dueVotes active height, l.HasRoom p.1 p.2) ∧
        (∃ k, l.cast s height active = .ok (k, (s.dueVotes active height).map (·.1))) ∨
      (∃ p ∈ s.dueVotes active height, ¬l.HasRoom p.1 p.2) ∧
        l.cast s height active = .error (.overflow .addition) := by
  obtain ⟨node, hnode, -⟩ := h.registered
  obtain ⟨rank, hrank, hle⟩ := h.rank
  have hnew : ¬height ≤ l.lastCast := UInt64.not_le.2 h.unprocessed
  have hlimit : s.withinLimit (s.registry.rank? active.id s.minProtocol) = true := by
    rw [hrank]
    exact decide_eq_true hle
  have hproposals := h.proposals hnode
  rcases admitSome_apart h.admits h.apart with ⟨hrooms, k, hk⟩ | ⟨hfull, herror⟩
  · refine .inl ⟨hrooms, ?_⟩
    simp only [cast_eq_ok]
    rw [← hproposals] at hk ⊢
    cases hdue : s.schedule.tiers.filterMap (s.proposal? active node.operatorKey height) with
    | nil =>
      rw [hdue] at hk
      exact ⟨k, node, hnode, hlimit, .refused hnew h.not_budget (by rw [hdue]; exact admitSome_eq_ok.1 hk)⟩
    | cons v vs =>
      rw [hdue] at hk
      exact ⟨_, node, hnode, hlimit, .some hnew h.not_budget (by rw [hdue]; exact admitSome_eq_ok.1 hk)⟩
  · refine .inr ⟨hfull, ?_⟩
    rw [cast, hnode, obtain?_some, ok_bind]
    dsimp only
    rw [hlimit, require_true, ok_bind, if_neg hnew, if_neg (by simp [h.not_budget]), hproposals,
      herror]
    rfl

end ReadyToCast

end Ledger

/-! ## Casting, exactly -/

namespace Node

/-- **When a node casts votes, and which.** In a run, whatever happens in it, votes are cast for one
height after the other, upwards. The votes that a call gives are the ones that it admitted, and
where it gives none, at most the last height is noted. A masternode that nothing keeps from voting
votes in every tier that has an enabled masternode, for the one that comes next in the queue; only
a weight at its limit can prevent that, and then the call has no result. -/
theorem cast_exact (n : Node) :
    (∀ es, (n.castings es).Pairwise fun p q => p.1 < q.1) ∧
    (∀ height active m r, n.cast height active = .ok (m, r) →
      (∀ votes, r = .ok votes → (n.ledger.newVotes m.ledger).Perm votes ∧
        ∀ v ∈ votes, Ledger.NewlyAdmits n.setting n.ledger m.ledger v) ∧
      ((∀ v vs, r ≠ .ok (v :: vs)) →
        m = { n with ledger := { n.ledger with lastCast := m.ledger.lastCast } })) ∧
    ∀ height active, n.ledger.ReadyToCast n.setting height active →
      ((∀ p ∈ n.setting.dueVotes active height, n.ledger.HasRoom p.1 p.2) →
        ∃ m votes, n.cast height active = .ok (m, .ok votes) ∧
          List.Forall₂
            (fun tier v => ∃ payee, n.setting.registry.ComesNext tier payee ∧
              v = active.voteFor height payee.id)
            (n.setting.schedule.tiers.filter fun tier => 0 < n.setting.registry.countInTier tier)
            votes) ∧
      ((∃ p ∈ n.setting.dueVotes active height, ¬n.ledger.HasRoom p.1 p.2) →
        n.cast height active = .error .addition) := by
  refine ⟨n.castings_increasing, fun height active m r h => ⟨fun votes hr => ?_, fun hr => ?_⟩,
    fun height active hready => ?_⟩
  · subst hr
    obtain ⟨cause, he, -⟩ | ⟨k, votes', he, hcast, rfl⟩ := cast_eq_ok h <;> cases he
    exact ⟨Ledger.newVotes_cast hcast, fun v => Ledger.newlyAdmits_of_cast hcast⟩
  · obtain ⟨cause, -, rfl⟩ | ⟨k, votes, rfl, hcast, rfl⟩ := cast_eq_ok h
    · rfl
    · cases votes with
      | nil => exact congrArg (fun l => { n with ledger := l }) (Ledger.eq_of_cast_nil hcast)
      | cons v vs => exact absurd rfl (hr v vs)
  · rcases hready.cast_cases with ⟨hrooms, k, hk⟩ | ⟨⟨p, hp, hfull⟩, herror⟩
    · refine ⟨fun _ => ?_, fun ⟨p, hp, hfull⟩ => absurd (hrooms p hp) hfull⟩
      refine ⟨{ n with ledger := k }, _, ?_, n.setting.forall₂_dueVotes active height⟩
      rw [cast, hk]
      rfl
    · refine ⟨fun hrooms => absurd (hrooms p hp) hfull, fun _ => ?_⟩
      rw [cast, herror]
      rfl

end Node

/-! ## A sample with three tiers -/

namespace Sample

def itself : ActiveMasternode := ⟨signer.id, keys⟩

/-- In tier 1 the signer was paid as long ago as another masternode, but registered before it. In
tier 2 nobody is enabled. -/
def queues : Setting where
  chain := { tip := some 1000, blockValue := 100 }
  registry := ⟨[⟨masternode 0, true, 900⟩, ⟨signer, true, 800⟩, ⟨masternode 1, true, 800⟩,
    ⟨{ masternode 2 with tier := 2 }, false, 0⟩, ⟨{ masternode 3 with tier := 3 }, true, 0⟩]⟩
  schedule := ⟨[50, 20, 10]⟩

/-- A ledger in which the signer cannot get another vote. -/
def crowded : Ledger where
  tallies := .ofList [((1005 : Height), (⟨1005, [⟨signer.payout, 1, 4294967295⟩]⟩ : Tally))]

theorem window_queues : ∀ tier ∈ queues.schedule.tiers, ∃ first last,
    queues.window tier 1000 = .ok (first, last) ∧ first ≤ 1005 ∧ 1005 ≤ last := by
  intro tier htier
  have hthree : tier = 1 ∨ tier = 2 ∨ tier = 3 := by
    simpa [queues, Schedule.tiers, Schedule.tierCount, List.range_succ] using htier
  rcases hthree with rfl | rfl | rfl
  · exact ⟨996, 1020, by decide +kernel, by decide, by decide⟩
  · exact ⟨1000, 1020, by decide +kernel, by decide, by decide⟩
  · exact ⟨998, 1020, by decide +kernel, by decide, by decide⟩

theorem ready_queues {l : Ledger} (hvotes : l.votes = ∅) (hballots : l.ballots = ∅)
    (hlast : l.lastCast = 0) : l.ReadyToCast queues 1005 itself where
  ids := by decide +kernel
  registered := ⟨signer, by decide +kernel, by decide +kernel⟩
  rank := ⟨2, by decide +kernel, by decide⟩
  unprocessed := by
    rw [hlast]
    decide
  not_budget := by decide +kernel
  window := ⟨1000, rfl, window_queues⟩
  reference := by decide +kernel
  ballot := by simp [hballots]
  fresh := by simp [hvotes]
  genuine := {
    signed := by decide +kernel
    apart := by decide +kernel }

theorem next_queues : queues.registry.nextInQueue? 1 = some signer := by decide +kernel

/-- The vote of the signer for itself, with what it counts for. -/
def ownVote : Vote × Admission :=
  let vote := itself.voteFor 1005 signer.id
  (vote, ⟨vote.identity, signer.payout, 1⟩)

theorem ownVote_mem : ownVote ∈ queues.dueVotes itself 1005 :=
  List.mem_filterMap.2 ⟨1, by decide, by rw [next_queues]; rfl⟩

theorem not_hasRoom_crowded : ¬crowded.HasRoom ownVote.1 ownVote.2 := by
  intro hroom
  have hlt := hroom ⟨signer.payout, 1, 4294967295⟩ (by decide +kernel)
  exact absurd hlt (by decide)

theorem hasRoom_empty (v : Vote) (a : Admission) : Ledger.HasRoom {} v a := by
  intro c hc
  simp [Ledger.tallyAt] at hc

end Sample

namespace Node

/-- A masternode that nothing keeps from voting may be left without an answer. -/
theorem not_cast_complete : ¬∀ (n : Node) height active,
    n.ledger.ReadyToCast n.setting height active →
      ∃ m votes, n.cast height active = .ok (m, .ok votes) := by
  intro h
  have hready : Sample.crowded.ReadyToCast Sample.queues 1005 Sample.itself :=
    Sample.ready_queues rfl rfl rfl
  obtain ⟨m, votes, hcast⟩ :=
    h { setting := Sample.queues, ledger := Sample.crowded } 1005 Sample.itself hready
  rcases hready.cast_cases with ⟨hrooms, -⟩ | ⟨-, herror⟩
  · exact Sample.not_hasRoom_crowded (hrooms _ Sample.ownVote_mem)
  · rw [cast, herror] at hcast
    cases hcast

theorem cast_exact_queues :
    (∃ m v w, cast { setting := Sample.queues } 1005 Sample.itself = .ok (m, .ok [v, w]) ∧
      (Ledger.newVotes {} m.ledger).Perm [v, w] ∧
      Ledger.NewlyAdmits Sample.queues {} m.ledger v ∧
      List.Forall₂
        (fun tier v => ∃ payee, Sample.queues.registry.ComesNext tier payee ∧
          v = Sample.itself.voteFor 1005 payee.id)
        [1, 3] [v, w]) ∧
    cast { setting := Sample.queues, ledger := Sample.crowded } 1005 Sample.itself =
      .error .addition ∧
    ∃ m, cast { setting := Sample.setting {} [] 1000 } 1005 Sample.itself =
        .ok (m, .error .notRegistered) ∧
      m.ledger = { lastCast := m.ledger.lastCast } := by
  have hready : Ledger.ReadyToCast {} Sample.queues 1005 Sample.itself :=
    Sample.ready_queues rfl rfl rfl
  obtain ⟨m, votes, hcast, hvotes⟩ :=
    ((cast_exact { setting := Sample.queues }).2.2 1005 Sample.itself hready).1
      fun p _ => Sample.hasRoom_empty p.1 p.2
  have htiers : (Sample.queues.schedule.tiers.filter
      fun tier => 0 < Sample.queues.registry.countInTier tier) = [1, 3] := by decide +kernel
  rw [htiers] at hvotes
  obtain ⟨v, w, rfl⟩ : ∃ v w, votes = [v, w] := List.length_eq_two.1 hvotes.length_eq.symm
  obtain ⟨hperm, hnewly⟩ :=
    ((cast_exact { setting := Sample.queues }).2.1 1005 Sample.itself m _ hcast).1 [v, w] rfl
  have hstranger : cast { setting := Sample.setting {} [] 1000 } 1005 Sample.itself =
      .ok ({ setting := Sample.setting {} [] 1000 }, .error .notRegistered) := rfl
  have hsame := ((cast_exact _).2.1 1005 Sample.itself _ _ hstranger).2 fun v vs he => by cases he
  refine ⟨⟨m, v, w, hcast, hperm, hnewly v List.mem_cons_self, hvotes⟩, ?_, _, hstranger,
    congrArg (·.ledger) hsame⟩
  exact ((cast_exact { setting := Sample.queues, ledger := Sample.crowded }).2.2 1005 Sample.itself
    (Sample.ready_queues rfl rfl rfl)).2 ⟨_, Sample.ownVote_mem, Sample.not_hasRoom_crowded⟩

end Node
end MasternodePayments
