import MasternodePayments.Node

/-!
# Runs of a node

Everything that can happen to a node is an `Event`: its surroundings change, it is asked to do
something, or a message comes in. A run is a list of events; it has no end if one of them overflows.

* `run_append`: a run goes on where its first part ended.
* `run_induction`: what holds at the end of a run and is carried back over each of its events holds
  where the run begins.
-/

namespace MasternodePayments.Node

/-- Something that happens to a node. -/
inductive Event where
  /-- The chain, the registry or other surroundings change. -/
  | surroundings (setting : Setting)
  /-- The chain, or everything, is complete or incomplete from now on. -/
  | syncState (chain all : Bool)
  | admitVote (v : Vote)
  | prune (height : Height)
  | clean
  | announceTo (peer : Nat) (count : UInt64)
  | cast (height : Height) (active : ActiveMasternode)
  | clear
  | restore (snapshot : Snapshot)
  | message (peer : Nat) (m : Message)
  | newTip (tip : Height)
  | maintain

def step (n : Node) : Event → Checked Node
  | .surroundings setting => .ok { n with setting := setting }
  | .syncState chain all =>
    .ok { n with tracker := { n.tracker with chainSynced := chain, synced := all } }
  | .admitVote v => (·.1) <$> n.admitVote v
  | .prune height => (·.1) <$> n.prune height
  | .clean => (·.1) <$> n.clean
  | .announceTo peer count => (·.1) <$> n.announceTo peer count
  | .cast height active => (·.1) <$> n.cast height active
  | .clear => .ok { n with ledger := n.ledger.clear }
  | .restore snapshot => .ok { n with ledger := n.ledger.restore n.setting snapshot }
  | .message peer m => n.handle peer m
  | .newTip tip => (·.1) <$> n.newTip tip
  | .maintain => (·.1) <$> n.maintain

def run (n : Node) (events : List Event) : Checked Node := events.foldlM step n

variable {n m : Node} {e : Event} {es fs : List Event}

@[simp] theorem run_nil (n : Node) : n.run [] = .ok n := rfl

theorem run_cons (n : Node) (e : Event) (es : List Event) :
    n.run (e :: es) = (do (← n.step e).run es) := by
  simp [run]

theorem run_cons_of_ok (hm : n.step e = .ok m) : n.run (e :: es) = m.run es := by
  rw [run_cons, hm]
  rfl

theorem run_append (n : Node) (es fs : List Event) :
    n.run (es ++ fs) = (do (← n.run es).run fs) := by
  simp [run]

theorem run_append_of_ok (hm : n.run es = .ok m) : n.run (es ++ fs) = m.run fs := by
  rw [run_append, hm]
  rfl

/-- The induction along a run that comes to an end: each event leads to a state from which the rest
of the run goes on. -/
@[elab_as_elim]
theorem run_induction {motive : (n : Node) → (es : List Event) → n.run es = .ok m → Prop}
    (h : n.run es = .ok m) (nil : motive m [] (run_nil m))
    (cons : ∀ {n k : Node} {e : Event} {es : List Event} (hk : n.step e = .ok k)
      (h : k.run es = .ok m), motive k es h → motive n (e :: es) ((run_cons_of_ok hk).trans h)) :
    motive n es h := by
  induction es generalizing n with
  | nil =>
    cases h
    exact nil
  | cons e es ih =>
    cases hk : n.step e with
    | error cause => simp [run_cons, hk, bind, Except.bind] at h
    | ok k => exact cons hk ((run_cons_of_ok hk).symm.trans h) (ih _)

end MasternodePayments.Node
