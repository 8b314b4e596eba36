import MasternodePayments.Proofs.Capacity
import MasternodePayments.Proofs.Relay

/-!
# Pruning to the letter

Votes, ballots and tallies are dropped by three filters of different make, and the tracker forgets
one identity after the other. `Node.Pruned` says what all of them come to: everything below one
lowest height is gone and nothing else has changed.

* `Node.dropBelow`, `Node.prune_of_ok`: the node that pruning leads to.
* `Node.pruned_dropBelow`: what that node has.
* `Ledger.expired_perm`: what two cutoffs drop one after the other is what the higher one drops.
* `Node.prune_prune`: pruning twice is pruning once, at the higher of the two heights.
-/

namespace MasternodePayments

theorem monus_max (a b c : UInt64) : monus (max a b) c = max (monus a c) (monus b c) := by
  rw [← UInt64.toNat_inj, toNat_monus, UInt64.toNat_max, UInt64.toNat_max, toNat_monus, toNat_monus]
  omega

theorem Tracker.forget_forget (t : Tracker) (ids ids' : List Hash) :
    (t.forget ids).forget ids' = t.forget (ids ++ ids') := by
  simp only [forget, List.foldl_append]

/-- What is forgotten does not depend on the order. -/
theorem Tracker.forget_perm {ids ids' : List Hash} (t : Tracker) (h : ids.Perm ids') :
    t.forget ids = t.forget ids' := by
  have hseen : (t.forget ids).seen = (t.forget ids').seen := by
    apply Std.ExtTreeSet.ext_mem
    intro id
    rw [Tracker.mem_forget, Tracker.mem_forget, h.mem_iff]
  show { t with seen := (t.forget ids).seen } = { t with seen := (t.forget ids').seen }
  rw [hseen]

namespace Ledger

variable {l : Ledger} {lowest lowest' : Height} {id : Hash}

theorem nodup_expired : (l.expired lowest).Nodup := Std.ExtTreeMap.nodup_keys

/-- Of what one cutoff drops, nothing is left for another one to drop. -/
theorem disjoint_expired :
    (l.expired lowest).Disjoint ((l.dropBelow lowest).expired lowest') := by
  intro id hid hid'
  obtain ⟨v, hv, hlow⟩ := mem_expired.1 hid
  obtain ⟨w, hw, -⟩ := mem_expired.1 hid'
  obtain ⟨hw, hle⟩ := stored_dropBelow.1 hw
  cases hv.symm.trans hw
  exact hlow hle

theorem mem_expired_max :
    id ∈ l.expired (max lowest lowest') ↔
      id ∈ l.expired lowest ∨ id ∈ (l.dropBelow lowest).expired lowest' := by
  have hmax : ∀ v : Vote,
      max lowest lowest' ≤ v.height ↔ lowest ≤ v.height ∧ lowest' ≤ v.height := by
    intro v
    simp only [UInt64.le_iff_toNat_le, UInt64.toNat_max]
    omega
  simp only [mem_expired, stored_dropBelow, hmax]
  constructor
  · rintro ⟨v, hv, hlow⟩
    by_cases hle : lowest ≤ v.height
    · exact .inr ⟨v, ⟨hv, hle⟩, fun hle' => hlow ⟨hle, hle'⟩⟩
    · exact .inl ⟨v, hv, hle⟩
  · rintro (⟨v, hv, hlow⟩ | ⟨v, ⟨hv, -⟩, hlow⟩)
    · exact ⟨v, hv, fun hle => hlow hle.1⟩
    · exact ⟨v, hv, fun hle => hlow hle.2⟩

theorem expired_perm (l : Ledger) (lowest lowest' : Height) :
    (l.expired lowest ++ (l.dropBelow lowest).expired lowest').Perm
      (l.expired (max lowest lowest')) := by
  have hnodup : (l.expired lowest ++ (l.dropBelow lowest).expired lowest').Nodup :=
    nodup_expired.append nodup_expired disjoint_expired
  refine (List.perm_ext_iff_of_nodup hnodup nodup_expired).2 fun id => ?_
  rw [List.mem_append, mem_expired_max]

end Ledger

namespace Node

variable {n : Node}

/-- The node `m` is the node `n` without anything of heights below `lowest`, and `dropped` are the
identities of the votes that are gone. -/
structure Pruned (n : Node) (lowest : Nat) (m : Node) (dropped : List Hash) : Prop where
  vote : ∀ (id : Hash) v, m.ledger.votes[id]? = some v ↔
    n.ledger.votes[id]? = some v ∧ lowest ≤ v.height.toNat
  ballot : ∀ b, b ∈ m.ledger.ballots ↔ b ∈ n.ledger.ballots ∧ lowest ≤ b.height.toNat
  tally : ∀ (height : Height) t, m.ledger.tallies[height]? = some t ↔
    n.ledger.tallies[height]? = some t ∧ lowest ≤ height.toNat
  /-- Each of them comes once, in order. -/
  dropped_ordered : dropped.Pairwise fun id id' => compare id id' = .lt
  mem_dropped : ∀ id, id ∈ dropped ↔
    ∃ v, n.ledger.votes[id]? = some v ∧ v.height.toNat < lowest
  seen : ∀ id, id ∈ m.tracker.seen ↔ id ∈ n.tracker.seen ∧ id ∉ dropped
  rest : m = { n with
    ledger := { n.ledger with
      votes := m.ledger.votes
      ballots := m.ledger.ballots
      tallies := m.ledger.tallies }
    tracker := { n.tracker with seen := m.tracker.seen } }

/-- The node without anything below a cutoff. -/
def dropBelow (n : Node) (lowest : Height) : Node :=
  { n with
    ledger := n.ledger.dropBelow lowest
    tracker := n.tracker.forget (n.ledger.expired lowest) }

theorem pruned_dropBelow (n : Node) (lowest : Height) :
    n.Pruned lowest.toNat (n.dropBelow lowest) (n.ledger.expired lowest) where
  vote id v := by rw [← UInt64.le_iff_toNat_le]; exact Ledger.stored_dropBelow
  ballot b := by rw [← UInt64.le_iff_toNat_le]; exact Ledger.mem_ballots_dropBelow
  tally height t := by
    rw [← UInt64.le_iff_toNat_le]
    show (n.ledger.dropBelow lowest).tallies[height]? = some t ↔ _
    rw [Ledger.getElem?_tallies_dropBelow]
    split <;> simp [*]
  dropped_ordered := Std.ExtTreeMap.ordered_keys
  mem_dropped id := by
    simp only [Ledger.mem_expired, UInt64.le_iff_toNat_le, Nat.not_le]
  seen id := Tracker.mem_forget
  rest := rfl

theorem dropBelow_dropBelow (n : Node) (lowest lowest' : Height) :
    (n.dropBelow lowest).dropBelow lowest' = n.dropBelow (max lowest lowest') := by
  unfold dropBelow
  dsimp only
  rw [Ledger.dropBelow_dropBelow, Tracker.forget_forget,
    Tracker.forget_perm _ (Ledger.expired_perm n.ledger lowest lowest')]

theorem prune_of_error {o : Overflow} (height : Height)
    (h : n.setting.config.retentionHorizon n.setting.registry.enabledCount = .error o) :
    n.prune height = .error o := by
  unfold prune Ledger.prune Ledger.cutoff
  rw [h]
  rfl

theorem prune_of_ok {horizon : UInt64} (height : Height)
    (h : n.setting.config.retentionHorizon n.setting.registry.enabledCount = .ok horizon) :
    n.prune height =
      .ok (n.dropBelow (monus height horizon), n.ledger.expired (monus height horizon)) := by
  unfold prune Ledger.prune Ledger.cutoff
  rw [h]
  rfl

/-- **Pruning is exact and composes.** The horizon is a matter of the surroundings. If it
overflows, so does pruning at any height. Else pruning at a height drops what lies below that
height less the horizon, and nothing else; pruning at another height after that leads to the node
that pruning once leads to, at the higher of the two, and drops what was left to drop. -/
theorem prune_prune (n : Node) (a b : Height) :
    (∀ o, n.setting.config.retentionHorizon n.setting.registry.enabledCount = .error o →
      n.prune a = .error o) ∧
    ∀ horizon, n.setting.config.retentionHorizon n.setting.registry.enabledCount = .ok horizon →
      ∃ m k early late all,
        n.prune a = .ok (m, early) ∧ n.Pruned (a.toNat - horizon.toNat) m early ∧
        m.prune b = .ok (k, late) ∧ n.prune (max a b) = .ok (k, all) ∧
        early.Disjoint late ∧ (early ++ late).Perm all := by
  refine ⟨fun o ho => prune_of_error a ho, fun horizon hhorizon => ?_⟩
  have hpruned : n.Pruned (a.toNat - horizon.toNat) (n.dropBelow (monus a horizon))
      (n.ledger.expired (monus a horizon)) := by
    rw [← toNat_monus]
    exact n.pruned_dropBelow (monus a horizon)
  -- The second pruning has the same surroundings, so the same horizon.
  have htwice : (n.dropBelow (monus a horizon)).prune b =
      .ok (n.dropBelow (monus (max a b) horizon),
        (n.ledger.dropBelow (monus a horizon)).expired (monus b horizon)) := by
    rw [prune_of_ok (n := n.dropBelow (monus a horizon)) b hhorizon, dropBelow_dropBelow, monus_max]
    rfl
  have hperm := Ledger.expired_perm n.ledger (monus a horizon) (monus b horizon)
  rw [← monus_max] at hperm
  exact ⟨_, _, _, _, _, prune_of_ok a hhorizon, hpruned, htwice, prune_of_ok (max a b) hhorizon,
    Ledger.disjoint_expired, hperm⟩

end Node

/-! ## A sample pruned twice -/

namespace Sample

/-- A percentage that no number of masternodes but one can be scaled with. -/
def hugePercent : Node where
  setting := setting { populationPercent := 18446744073709551615 } [0, 1] 1000

theorem prune_farApart :
    (do
      let n ← Node.run { setting := setting {} [0, 1] 1000 } farApart
      let (m, early) ← n.prune 2010
      let (_, late) ← m.prune 3100
      pure (early, late)) =
    .ok ([(vote 0 1 1005).identity], [(scriptVote 1 0 2020).identity]) := by decide +kernel

end Sample

theorem Node.prune_prune_farApart :
    Sample.hugePercent.prune 2010 = .error .multiplication ∧
    ∃ n m k all, Node.run { setting := Sample.setting {} [0, 1] 1000 } Sample.farApart = .ok n ∧
      n.prune 2010 = .ok (m, [(Sample.vote 0 1 1005).identity]) ∧
      m.prune 3100 = .ok (k, [(Sample.scriptVote 1 0 2020).identity]) ∧
      n.prune (max 2010 3100) = .ok (k, all) ∧
      [(Sample.vote 0 1 1005).identity, (Sample.scriptVote 1 0 2020).identity].Perm all := by
  obtain ⟨n, hn, h⟩ := bind_eq_ok.1 Sample.prune_farApart
  obtain ⟨⟨m, early⟩, hm, h⟩ := bind_eq_ok.1 h
  obtain ⟨⟨k, late⟩, hk, h⟩ := bind_eq_ok.1 h
  obtain ⟨rfl, rfl⟩ := Prod.mk.inj (pure_eq_ok.1 h)
  have hset : n.setting = Sample.setting {} [0, 1] 2010 := run_setting hn
  have hhorizon : n.setting.config.retentionHorizon n.setting.registry.enabledCount =
      .ok 1000 := by
    rw [hset]
    decide
  obtain ⟨m', k', early', late', all, hm', -, hk', hall, -, hperm⟩ :=
    (prune_prune n 2010 3100).2 1000 hhorizon
  cases hm.symm.trans hm'
  cases hk.symm.trans hk'
  exact ⟨(prune_prune Sample.hugePercent 2010 2010).1 .multiplication (by decide), n, m, k, all,
    hn, hm, hk, hall, hperm⟩

end MasternodePayments
