import MasternodePayments.Proofs.Node.Fixed
import MasternodePayments.Proofs.Snapshot.RoundTrip
import MasternodePayments.Snapshot.Store

/-!
# Saving and loading

The file of a ledger does not hold its ballots. While votes pay the same scripts and tiers, a ledger
has exactly the ballots of its stored votes, and these a restoration finds again
(`Ledger.restore_snapshot`). So a node that loads the file goes on as the one that saved it would
(`Store.load_dump`): with the same votes, tallies and ballots, and with the same answer to every
later vote. Only the last height that it cast votes for is its own.

* `Ledger.ballotsMatch_kept`: the ballots are those of the stored votes along every run.
* `Node.bare`: what a node says of offered votes depends on its surroundings and on what its ledger
  holds (`Node.Alike.answer_eq`).
-/

namespace MasternodePayments

/-! ## The ballots of the stored votes -/

namespace Ledger

/-- The ballots are those that the stored votes use up. -/
def BallotsMatch (l : Ledger) (s : Setting) : Prop :=
  ∀ b, b ∈ l.ballots ↔ ∃ v ∈ l.voteList, s.ballot? v = some b

variable {s t : Setting} {l k : Ledger}

theorem ballotsMatch_empty : BallotsMatch {} s := fun b => by simp [voteList]

theorem ballotsMatch_kept (s : Setting) :
    Notes.Kept (fun _ _ => ()) s.SamePayees fun l _ => l.BallotsMatch s where
  record {t l l' o v a} ht hl ha hr b := by
    have hv : s.ballot? v = some ⟨v.voter, a.tier, v.height⟩ :=
      (ht.ballot?_eq v).trans ha.ballot?_eq
    rw [mem_ballots_record hr, hl b]
    simp only [mem_voteList, stored_record ha.not_mem hr]
    constructor
    · rintro (rfl | ⟨w, ⟨id, hw⟩, hb⟩)
      · exact ⟨v, ⟨_, .inl ⟨rfl, rfl⟩⟩, hv⟩
      · exact ⟨w, ⟨id, .inr hw⟩, hb⟩
    · rintro ⟨w, ⟨id, ⟨-, rfl⟩ | hw⟩, hb⟩
      · exact .inl (Option.some.inj (hb.symm.trans hv))
      · exact .inr ⟨w, ⟨id, hw⟩, hb⟩
  noteCast _ hl := hl
  dropBelow {l o} lowest hl b := by
    rw [mem_ballots_dropBelow, hl b]
    simp only [mem_voteList, stored_dropBelow]
    constructor
    · rintro ⟨⟨v, ⟨id, hv⟩, hb⟩, hle⟩
      obtain ⟨-, -, hheight⟩ := Setting.ballot?_eq_some.1 hb
      exact ⟨v, ⟨id, hv, hheight ▸ hle⟩, hb⟩
    · rintro ⟨v, ⟨id, hv, hle⟩, hb⟩
      obtain ⟨-, -, hheight⟩ := Setting.ballot?_eq_some.1 hb
      exact ⟨⟨v, ⟨id, hv⟩, hb⟩, hheight ▸ hle⟩
  clear _ := ballotsMatch_empty

/-- **A restoration finds the ballots again**, and leaves the last height voted on to the ledger
that takes the snapshot over. -/
theorem restore_snapshot (h : l.BallotsMatch s) (ht : s.SamePayees t) :
    k.restore t l.snapshot = { l with lastCast := k.lastCast } := by
  have hballots : Std.ExtTreeSet.ofList (l.voteList.filterMap t.ballot?) = l.ballots := by
    apply Std.ExtTreeSet.ext_mem
    intro b
    rw [Std.ExtTreeSet.mem_ofList, List.contains_iff_mem, List.mem_filterMap, h b]
    simp only [ht.ballot?_eq]
  simp only [restore, snapshot]
  rw [← hballots]
  rfl

end Ledger

/-! ## The last height voted on -/

theorem settle_map {α β : Type} (f : α → β) (r : Except Fault α) :
    settle (f <$> r) = (f <$> ·) <$> settle r := by
  rcases r with (_ | _) | _ <;> rfl

namespace Ledger

/-- The ledger without the last height that its node cast votes for. -/
def unmarked (l : Ledger) : Ledger := { l with lastCast := 0 }

theorem admitVote_unmarked (l : Ledger) (s : Setting) (v : Vote) :
    l.unmarked.admitVote s v = unmarked <$> l.admitVote s v := by
  have hcheck : l.unmarked.check s v = l.check s v := rfl
  simp only [admitVote, hcheck]
  cases l.check s v with
  | error fault => rfl
  | ok a =>
    show (liftM ((l.tallyAt v.height).add a.script a.tier 1 >>= _) : Except Fault Ledger) =
      unmarked <$> liftM ((l.tallyAt v.height).add a.script a.tier 1 >>= _)
    cases (l.tallyAt v.height).add a.script a.tier 1 <;> rfl

theorem prune_unmarked (l : Ledger) (s : Setting) (height : Height) :
    l.unmarked.prune s height = (fun r => (r.1.unmarked, r.2)) <$> l.prune s height := by
  simp only [prune]
  cases cutoff s height <;> rfl

theorem clean_unmarked (l : Ledger) (s : Setting) :
    l.unmarked.clean s = (fun r => (r.1.unmarked, r.2)) <$> l.clean s := by
  simp only [clean]
  cases s.chain.tip? with
  | none => rfl
  | some tip => exact prune_unmarked l s tip

end Ledger

/-! ## Nodes with the same ledger contents -/

namespace Node

/-- Two nodes with the same surroundings and the same votes, ballots and tallies. -/
structure Alike (n m : Node) : Prop where
  setting : n.setting = m.setting
  votes : n.ledger.votes = m.ledger.votes
  ballots : n.ledger.ballots = m.ledger.ballots
  tallies : n.ledger.tallies = m.ledger.tallies

/-- The events that involve neither a message of a peer nor votes of one's own. -/
def Event.OnLedger : Event → Prop
  | .message .. | .cast .. | .newTip _ => False
  | _ => True

/-- What a node says of a vote after certain events. -/
def answer (n : Node) (later : List Event) (v : Vote) : Checked (Except Rejection Unit) := do
  let m ← n.run later
  (·.2) <$> m.admitVote v

/-- The surroundings and the contents of the ledger alone. -/
def bare (n : Node) : Node := { setting := n.setting, ledger := n.ledger.unmarked }

variable {n m : Node} {e : Event} {es later : List Event} {v : Vote}

theorem alike_iff : n.Alike m ↔ n.bare = m.bare := by
  simp only [bare, Ledger.unmarked, mk.injEq, Ledger.mk.injEq, and_true]
  constructor
  · exact fun h => ⟨h.setting, h.votes, h.ballots, h.tallies⟩
  · exact fun ⟨hs, hv, hb, ht⟩ => ⟨hs, hv, hb, ht⟩

theorem admitVote_bare (n : Node) (v : Vote) :
    (fun r => (r.1.bare, r.2)) <$> n.bare.admitVote v =
      (fun r => (r.1.bare, r.2)) <$> n.admitVote v := by
  show _ <$> (settle (n.ledger.unmarked.admitVote n.setting v) >>= _) = _
  rw [Ledger.admitVote_unmarked, settle_map, admitVote]
  rcases settle (n.ledger.admitVote n.setting v) with _ | _ | _ <;> rfl

theorem clean_bare (n : Node) : (·.1.bare) <$> n.bare.clean = (·.1.bare) <$> n.clean := by
  show _ <$> (n.ledger.unmarked.clean n.setting >>= _) = _
  rw [Ledger.clean_unmarked, clean]
  cases n.ledger.clean n.setting <;> rfl

theorem clean_congr (h : n.bare = m.bare) : (·.1.bare) <$> n.clean = (·.1.bare) <$> m.clean := by
  rw [← clean_bare, h, clean_bare]

/-- Maintenance counts what a cleaning drops. -/
theorem step_maintain (n : Node) : n.step .maintain = n.step .clean := by
  simp only [step, maintain]
  cases n.clean <;> rfl

theorem step_bare (h : e.OnLedger) : bare <$> n.bare.step e = bare <$> n.step e := by
  have hclean : bare <$> n.bare.step .clean = bare <$> n.step .clean := by
    simpa only [step, Functor.map_map] using clean_bare n
  cases e with
  | surroundings t => rfl
  | syncState chain all => rfl
  | admitVote v =>
    have hadmit := congrArg (Prod.fst <$> ·) (admitVote_bare n v)
    simpa only [step, Functor.map_map] using hadmit
  | prune height =>
    show bare <$> Prod.fst <$> (n.ledger.unmarked.prune n.setting height >>= _) = _
    rw [Ledger.prune_unmarked, step, prune]
    cases n.ledger.prune n.setting height <;> rfl
  | clean => exact hclean
  | announceTo peer count =>
    show bare <$> Prod.fst <$> (n.ledger.announcements? n.setting count >>= _) = _
    rw [step, announceTo]
    rcases n.ledger.announcements? n.setting count with _ | _ | _ <;> rfl
  | cast height active => exact h.elim
  | clear => rfl
  | restore snapshot => rfl
  | message peer message => exact h.elim
  | newTip tip => exact h.elim
  | maintain => rw [step_maintain, step_maintain, hclean]

theorem step_congr (h : n.bare = m.bare) (he : e.OnLedger) :
    bare <$> n.step e = bare <$> m.step e := by
  rw [← step_bare he, h, step_bare he]

theorem run_congr (h : n.bare = m.bare) (hes : ∀ e ∈ es, e.OnLedger) :
    bare <$> n.run es = bare <$> m.run es := by
  induction es generalizing n m with
  | nil => exact congrArg Except.ok h
  | cons e es ih =>
    rw [run_cons, run_cons, map_bind, map_bind]
    exact bind_congr_of_map (step_congr h (hes e List.mem_cons_self)) fun k j hkj =>
      ih hkj fun e' he' => hes e' (List.mem_cons_of_mem e he')

/-- **Nodes with the same ledger contents give the same answers**, also after further events. -/
theorem Alike.answer_eq (h : n.Alike m) (hlater : ∀ e ∈ later, e.OnLedger) (v : Vote) :
    n.answer later v = m.answer later v := by
  refine bind_congr_of_map (run_congr (alike_iff.1 h) hlater) fun k j hkj => ?_
  have hadmit := congrArg (Prod.snd <$> ·) ((admitVote_bare k v).symm.trans
    ((congrArg (fun i => (fun r => (r.1.bare, r.2)) <$> i.admitVote v) hkj).trans
      (admitVote_bare j v)))
  simpa only [Functor.map_map] using hadmit

end Node

/-! ## Saving and loading -/

/-- The node `m` goes on as `n` would: its ledger has the same contents, and it says the same of
every vote that is offered later. -/
structure Node.Continues (m n : Node) : Prop extends m.Alike n where
  answers : ∀ later, (∀ e ∈ later, e.OnLedger) → ∀ v, m.answer later v = n.answer later v

theorem Node.Alike.continues {m n : Node} (h : m.Alike n) : m.Continues n :=
  ⟨h, fun _ hlater v => h.answer_eq hlater v⟩

namespace Store

variable {store : Store} {content : Option Bytes} {b : Bytes} {s : Snapshot}

/-- What was saved is read back. -/
theorem read_dump (h : store.dump content s = .ok b) : store.read (some b) = .ok s := by
  have hencode : store.format.encode s = .ok b := by
    unfold dump at h
    split at h
    · exact h
    · exact h
    · exact h
    · cases h
  show store.format.decode b = .ok s
  rw [FileFormat.decode_encode hencode, if_pos rfl, if_pos rfl]

theorem load_of_read {p : Node} (h : store.read content = .ok s) (dryRun : Bool) :
    store.load content p dryRun =
      let restored := { p with ledger := p.ledger.restore p.setting s }
      if dryRun then .ok (restored, .ok ()) else (fun r => (r.1, .ok ())) <$> restored.clean := by
  simp only [load, restore, h]
  rfl

/-- **Loading a saved ledger is pruning it.** A node saves its ledger, which was filled while votes
paid the same scripts and tiers. Another node in the same surroundings, whatever its ledger holds,
loads the file: then it goes on as the first node would, in a dry run as that node is, else as it
would be after a cleaning. -/
theorem load_dump {n m p : Node} {es : List Node.Event} (hl : n.ledger = {})
    (hes : ∀ e ∈ es, e.Under n.setting.SamePayees) (h : n.run es = .ok m)
    (hb : store.dump content m.ledger.snapshot = .ok b) (hp : p.setting = m.setting) :
    (∃ q, store.load (some b) p true = .ok (q, .ok ()) ∧ q.Continues m) ∧
    (∀ cleaned dropped, m.clean = .ok (cleaned, dropped) →
      ∃ q, store.load (some b) p false = .ok (q, .ok ()) ∧ q.Continues cleaned) ∧
    ∀ overflow, m.clean = .error overflow → store.load (some b) p false = .error overflow := by
  obtain ⟨hpayees, -, hballots⟩ := Node.run_under (Ledger.ballotsMatch_kept n.setting)
    (.refl n.setting) hes h (o := fun _ => ()) (hl ▸ Ledger.ballotsMatch_empty)
  let restored := { p with ledger := p.ledger.restore p.setting m.ledger.snapshot }
  have hledger : restored.ledger = { m.ledger with lastCast := p.ledger.lastCast } :=
    Ledger.restore_snapshot hballots (hp ▸ hpayees)
  have hsame : restored.Alike m := by
    refine ⟨hp, ?_, ?_, ?_⟩ <;> rw [hledger]
  have hclean := Node.clean_congr (Node.alike_iff.1 hsame)
  have hload := load_of_read (p := p) (read_dump hb)
  refine ⟨⟨restored, hload true, hsame.continues⟩, fun cleaned dropped hc => ?_, fun o ho => ?_⟩
  · rw [hc] at hclean
    obtain ⟨⟨q, _⟩, hq, hbare⟩ := map_eq_ok.1 hclean
    refine ⟨q, ?_, (Node.alike_iff.2 hbare).continues⟩
    rw [hload false]
    exact map_eq_ok.2 ⟨_, hq, rfl⟩
  · rw [ho] at hclean
    rw [hload false]
    exact map_eq_error.2 (map_eq_error.1 hclean)

end Store

/-! ## A sample -/

namespace Sample

/-- The surroundings of two masternodes. -/
def twoVoters (tip : Height) : Setting := setting {} [0, 1] tip

/-- They vote for each other, for different heights. -/
def exchange : List Node.Event :=
  [.admitVote (vote 0 1 1005), .admitVote (scriptVote 1 0 1020)]

def store : Store := ⟨"mnpayments.dat", { network := Network.main.magic }⟩

/-- A node with a ballot that no vote uses up, and that cast votes for a height itself. -/
def used : Node where
  setting := twoVoters 2010
  ledger := { ballots := .ofList [(⟨(masternode 0).id, 1, 1030⟩ : Ballot)], lastCast := 7 }

/-- At the tip of 2010, one of the two votes is too old. -/
theorem run_exchange :
    (fun m => (decide ((Codec.snapshot.write m.ledger.snapshot).length ≤ FileFormat.sizeLimit),
      (·.2) <$> ({ m with setting := twoVoters 2010 } : Node).clean)) <$>
      Node.run { setting := twoVoters 1000 } exchange =
    .ok (true, .ok [(vote 0 1 1005).identity]) := by decide +kernel

end Sample

theorem Store.load_dump_exchange : ∃ m b cleaned q,
    Node.run { setting := Sample.twoVoters 1000 }
      (Sample.exchange ++ [.surroundings (Sample.twoVoters 2010)]) = .ok m ∧
    Sample.store.dump none m.ledger.snapshot = .ok b ∧
    m.clean = .ok (cleaned, [(Sample.vote 0 1 1005).identity]) ∧
    Sample.store.load (some b) Sample.used false = .ok (q, .ok ()) ∧ q.Continues cleaned := by
  obtain ⟨k, hk, he⟩ := map_eq_ok.1 Sample.run_exchange
  obtain ⟨hlength, hclean⟩ := Prod.mk.inj he
  obtain ⟨⟨cleaned, _⟩, hcleaned, rfl⟩ := map_eq_ok.1 hclean
  have hrun : Node.run { setting := Sample.twoVoters 1000 }
      (Sample.exchange ++ [.surroundings (Sample.twoVoters 2010)]) =
      .ok { k with setting := Sample.twoVoters 2010 } := by
    rw [Node.run_append, hk]
    rfl
  have hdump : Sample.store.dump none k.ledger.snapshot = .ok _ :=
    FileFormat.encode_eq_ok.2 ⟨by decide +kernel, of_decide_eq_true hlength, rfl⟩
  have hpayees : (Sample.twoVoters 1000).SamePayees (Sample.twoVoters 2010) := ⟨rfl, rfl, rfl⟩
  have hunder : ∀ e ∈ Sample.exchange ++ [.surroundings (Sample.twoVoters 2010)],
      e.Under (Sample.twoVoters 1000).SamePayees := by
    simpa [Sample.exchange, Node.Event.Under] using hpayees
  obtain ⟨-, hload, -⟩ := load_dump (p := Sample.used) rfl hunder hrun hdump rfl
  obtain ⟨q, hq, hcontinues⟩ := hload cleaned _ hcleaned
  exact ⟨_, _, cleaned, q, hrun, hdump, hcleaned, hq, hcontinues⟩

end MasternodePayments
