import MasternodePayments.Proofs.Ledger.Guard
import MasternodePayments.Snapshot.Store

/-!
# Restarts

A node may save its ledger and take over a saved ledger later, under a registry that knows more
payees or fewer. The ballots are not saved: a restoration finds them again from the payees that it
can resolve. A vote whose payee stands for another tier by then, or for none, stays without its
ballot, and its voter may vote again (`World.second_vote`). That is the only way
(`World.run_one_vote`).
-/

namespace MasternodePayments

/-- A node, the snapshots that it saved, and what is known of the votes in each. -/
structure World where
  node : Node
  clock : Nat := 0
  standings : Notes Standing := fun _ => ⟨none, 0, none⟩
  saved : List (Snapshot × Notes Standing) := []

namespace World

/-- Something that happens to a node that is restarted now and then. -/
inductive Move where
  /-- Anything but a restoration. -/
  | event (e : Node.Event)
  | save
  /-- The ledger takes over what was saved, counted from the last save. -/
  | restore (index : Nat)
  /-- The ledger takes it over from a file that holds it. -/
  | load (index : Nat) (store : Store) (content : Option Bytes) (dryRun : Bool)

def admitting (w : World) (m : Node) : World :=
  { w with
    node := m
    clock := w.clock + 1
    standings := w.standings.after (w.node.setting.standing (w.clock + 1)) w.node.ledger m.ledger }

/-- The world with a node that took a snapshot over. -/
def restoring (w : World) (m : Node) (snapshot : Snapshot) (o : Notes Standing) : World :=
  { w with
    node := m
    clock := w.clock + 1
    standings := o.restored w.clock w.node.setting snapshot }

/-- The world after a move. Where nothing was saved that could be taken over, nothing happens. -/
def step (w : World) : Move → Checked World
  | .event (.restore _) => .ok w
  | .event e => w.admitting <$> w.node.step e
  | .save => .ok { w with saved := (w.node.ledger.snapshot, w.standings) :: w.saved }
  | .restore index =>
    match w.saved[index]? with
    | some (snapshot, o) => (w.restoring · snapshot o) <$> w.node.step (.restore snapshot)
    | none => .ok w
  | .load index store content dryRun =>
    match w.saved[index]?, store.read content with
    | some (snapshot, o), .ok held =>
      if held = snapshot then
        (w.restoring ·.1 snapshot o) <$> store.load content w.node dryRun
      else .ok w
    | _, _ => .ok w

def run (w : World) (moves : List Move) : Checked World := moves.foldlM step w

/-! ## The invariant -/

/-- The guard is sound, and so is what was saved. -/
structure Sound (w : World) : Prop where
  guards : w.node.ledger.Guards w.clock w.standings
  saved : ∀ p ∈ w.saved, Timely w.clock p.1.votes p.2

variable {w w' : World} {m : Node} {move : Move} {moves : List Move}

theorem Sound.admitting (h : w.Sound) {e : Node.Event} (hr : ∀ snapshot, e ≠ .restore snapshot)
    (hs : w.node.step e = .ok m) : (w.admitting m).Sound where
  guards := Ledger.guards_kept.effect trivial ⟨h.guards.later, h.guards.held⟩ hr
    (Node.step_effect hs).2
  saved p hp := (h.saved p hp).later

theorem Sound.restoring (h : w.Sound) {snapshot : Snapshot} {o : Notes Standing}
    (hg : m.ledger.Guards (w.clock + 1) (o.restored w.clock w.node.setting snapshot)) :
    (w.restoring m snapshot o).Sound where
  guards := hg
  saved p hp := (h.saved p hp).later

/-- What a file holds is taken over, and then pruned unless it is a dry run. -/
theorem cleans_load {store : Store} {content : Option Bytes} {n : Node} {dryRun : Bool}
    {snapshot : Snapshot} {r : Except FileFailure Unit} (hread : store.read content = .ok snapshot)
    (h : store.load content n dryRun = .ok (m, r)) :
    Node.Cleans n.setting (n.ledger.restore n.setting snapshot) m.ledger := by
  simp only [Store.load, Store.restore, hread] at h
  split at h
  · cases h
    exact .inl rfl
  · obtain ⟨⟨cleaned, dropped⟩, hc, h⟩ := bind_eq_ok.1 h
    cases h
    exact (Node.clean_cleans hc).2

/-- **What a move does**: nothing, an event, a save, or it takes over what was saved, less what is
pruned at once. -/
theorem step_cases (hs : w.step move = .ok w') :
    w' = w ∨
    (∃ e m, (∀ snapshot, e ≠ .restore snapshot) ∧ w.node.step e = .ok m ∧ w' = w.admitting m) ∨
    w' = { w with saved := (w.node.ledger.snapshot, w.standings) :: w.saved } ∨
    ∃ snapshot o m, (snapshot, o) ∈ w.saved ∧
      Node.Cleans w.node.setting (w.node.ledger.restore w.node.setting snapshot) m.ledger ∧
      w' = w.restoring m snapshot o := by
  unfold step at hs
  split at hs
  · cases hs
    exact .inl rfl
  · next e hr =>
    obtain ⟨m, hm, rfl⟩ := map_eq_ok.1 hs
    exact .inr (.inl ⟨e, m, hr, hm, rfl⟩)
  · cases hs
    exact .inr (.inr (.inl rfl))
  · split at hs
    · next snapshot o hsaved =>
      obtain ⟨m, hm, rfl⟩ := map_eq_ok.1 hs
      cases hm
      exact .inr (.inr (.inr ⟨snapshot, o, _, List.mem_of_getElem? hsaved, .inl rfl, rfl⟩))
    · cases hs
      exact .inl rfl
  · split at hs
    · next snapshot o held hsaved hread =>
      split at hs
      · next heq =>
        subst heq
        obtain ⟨⟨m, r⟩, hm, rfl⟩ := map_eq_ok.1 hs
        exact .inr (.inr (.inr ⟨_, o, m, List.mem_of_getElem? hsaved, cleans_load hread hm, rfl⟩))
      · cases hs
        exact .inl rfl
    · cases hs
      exact .inl rfl

theorem step_sound (h : w.Sound) (hs : w.step move = .ok w') : w'.Sound := by
  rcases step_cases hs with rfl | ⟨e, m, hr, hm, rfl⟩ | rfl | ⟨snapshot, o, m, hsaved, hm, rfl⟩
  · exact h
  · exact h.admitting hr hm
  · refine ⟨h.guards, fun p hp => ?_⟩
    rcases List.mem_cons.1 hp with rfl | hp
    · exact h.guards.toTimely
    · exact h.saved p hp
  · apply h.restoring
    have hg := Ledger.guards_restore (s := w.node.setting) (l := w.node.ledger) (h.saved _ hsaved)
    rcases hm with hl | ⟨tip, lowest, -, -, hl⟩ <;> rw [hl]
    · exact hg
    · exact Ledger.guards_dropBelow hg

theorem run_induction {P : World → Prop}
    (keeps : ∀ w move w', P w → w.step move = .ok w' → P w') (start : P w)
    (h : w.run moves = .ok w') : P w' := by
  induction moves generalizing w with
  | nil =>
    cases h
    exact start
  | cons move moves ih =>
    rw [run, List.foldlM_cons, bind_eq_ok] at h
    obtain ⟨k, hk, h⟩ := h
    exact ih (keeps w move k start hk) h

theorem run_sound (h : w.Sound) (hr : w.run moves = .ok w') : w'.Sound :=
  run_induction (fun _ _ _ => step_sound) h hr

end World

/-! ## A second vote -/

/-- A node saves its one vote, starts again with an empty registry, and only then learns of the
masternode; the second vote pays the same masternode by its script. -/
def Sample.restart : List World.Move :=
  [.event (.admitVote (vote 0 0 1005)), .save, .event (.surroundings (setting {} [] 1000)),
    .restore 0, .event (.surroundings (setting {} [0] 1000)),
    .event (.admitVote (scriptVote 0 0 1005))]

theorem Sample.run_restart :
    (fun w => (w.node.ledger.votes[(vote 0 0 1005).identity]?,
      w.node.ledger.votes[(scriptVote 0 0 1005).identity]?,
      (w.standings (vote 0 0 1005).identity).tier,
      (w.standings (scriptVote 0 0 1005).identity).tier)) <$>
      World.run { node := { setting := setting {} [0] 1000 } } restart =
    .ok (some (vote 0 0 1005), some (scriptVote 0 0 1005), some 1, some 1) := by decide +kernel

theorem Sample.identity_ne : (vote 0 0 1005).identity ≠ (scriptVote 0 0 1005).identity := by
  decide +kernel

/-- **A restart may let a voter vote twice**: the two votes are for one height and were admitted for
one tier. -/
theorem World.second_vote : ∃ w, run { node := { setting := Sample.setting {} [0] 1000 } }
      Sample.restart = .ok w ∧
    ∃ (id id' : Hash) (v v' : Vote), id ≠ id' ∧ w.node.ledger.votes[id]? = some v ∧
      w.node.ledger.votes[id']? = some v' ∧ v.Rivals v' (w.standings id) (w.standings id') := by
  obtain ⟨w, hw, he⟩ := map_eq_ok.1 Sample.run_restart
  simp only [Prod.mk.injEq] at he
  obtain ⟨hv, hv', htier, htier'⟩ := he
  exact ⟨w, hw, _, _, _, _, Sample.identity_ne, hv, hv', rfl, rfl, htier.trans htier'.symm⟩

namespace World

variable {w : World} {moves : List Move}

/-- **One vote, but for lost ballots.** However often a node is restarted, whatever its registry
knows then: two stored votes of one voter for one height that were admitted for the same tier are
there only if between the two admissions the earlier vote went through a restoration at which its
payee did not stand for that tier. -/
theorem run_one_vote {n : Node} (hl : n.ledger = {}) (h : run { node := n } moves = .ok w)
    {id id' : Hash} {v v' : Vote} (hv : w.node.ledger.votes[id]? = some v)
    (hv' : w.node.ledger.votes[id']? = some v') (hne : id ≠ id')
    (hr : v.Rivals v' (w.standings id) (w.standings id')) :
    (w.standings id).LostBefore (w.standings id') ∨
      (w.standings id').LostBefore (w.standings id) := by
  have hstart : Sound { node := n } := ⟨Ledger.guards_empty (by rw [hl]), by simp⟩
  exact (run_sound hstart h).guards.lostBefore hv hv' hne hr

theorem run_one_vote_restart : ∃ w, run { node := { setting := Sample.setting {} [0] 1000 } }
      Sample.restart = .ok w ∧
    ((w.standings (Sample.vote 0 0 1005).identity).LostBefore
        (w.standings (Sample.scriptVote 0 0 1005).identity) ∨
      (w.standings (Sample.scriptVote 0 0 1005).identity).LostBefore
        (w.standings (Sample.vote 0 0 1005).identity)) := by
  obtain ⟨w, hw, he⟩ := map_eq_ok.1 Sample.run_restart
  simp only [Prod.mk.injEq] at he
  obtain ⟨hv, hv', htier, htier'⟩ := he
  exact ⟨w, hw, run_one_vote rfl hw hv hv' Sample.identity_ne
    ⟨rfl, rfl, htier.trans htier'.symm⟩⟩

end World
end MasternodePayments
