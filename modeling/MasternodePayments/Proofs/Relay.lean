import MasternodePayments.Proofs.Ledger.Gains
import MasternodePayments.Proofs.Requests

/-!
# What is relayed

A node whose ledger changes by messages, by its own votes and by maintenance only keeps account of
it in several places: it relays what it newly stores, counts it as admitted or as its own, notes the
votes of peers as come across and drops those notes with the votes. `Node.Books` says what each of
these events enters in these places (`Node.step_books`); over a run, the entries balance
(`Node.relayed_once`).

* `Node.LastTime`: the last moment of a run at which something happened.
* `Node.run_balance`: what the entries of a run add up to.
* `Node.exists_lastTaken`: a stored vote was taken in at some last moment.
-/

namespace MasternodePayments

theorem Tracker.mem_mark {t : Tracker} {id id' : Hash} :
    id ∈ (t.mark id').seen ↔ id = id' ∨ id ∈ t.seen := by
  rw [mark, Std.ExtTreeSet.mem_insert, Std.compare_eq_iff_eq, eq_comm]

theorem Tracker.mem_forget {t : Tracker} {id : Hash} {ids : List Hash} :
    id ∈ (t.forget ids).seen ↔ id ∈ t.seen ∧ id ∉ ids := by
  have forgotten : ∀ seen : Std.ExtTreeSet Hash,
      id ∈ ids.foldl (·.erase ·) seen ↔ id ∈ seen ∧ id ∉ ids := by
    induction ids with
    | nil => simp
    | cons id' ids ih =>
      intro seen
      rw [List.foldl_cons, ih, Std.ExtTreeSet.mem_erase, ne_eq, Std.compare_eq_iff_eq,
        List.mem_cons, not_or, and_comm (b := id ∈ seen), and_assoc, eq_comm]
  exact forgotten t.seen

namespace Node

variable {n m j k : Node} {e : Event} {es : List Event} {id : Hash} {sent : List Announcement}

/-! ## The last moment -/

/-- `e` happens to `k` at the last moment of a run at which `P` holds. -/
def LastTime (n : Node) (P : Node → Event → Prop) (es : List Event) (k : Node) (e : Event) :
    Prop :=
  ∃ before after j, es = before ++ e :: after ∧ n.run before = .ok k ∧ P k e ∧
    k.step e = .ok j ∧ ¬j.Sometime P after

variable {P : Node → Event → Prop}

theorem Sometime.exists_lastTime (h : n.run es = .ok m) (hP : n.Sometime P es) :
    ∃ k e, n.LastTime P es k e := by
  induction h using run_induction with
  | nil => exact absurd hP sometime_nil
  | @cons n j e es hj h ih =>
    rw [sometime_cons hj] at hP
    by_cases hlater : j.Sometime P es
    · obtain ⟨k, e', before, after, j', rfl, hrun, hlast⟩ := ih hlater
      exact ⟨k, e', e :: before, after, j', rfl, (run_cons_of_ok hj).trans hrun, hlast⟩
    · exact ⟨n, e, [], es, j, rfl, rfl, hP.resolve_right hlater, hj, hlater⟩

/-! ## What one event enters -/

/-- A vote with the given identity, which was not stored, is stored by an event. -/
def Takes (id : Hash) (n : Node) (e : Event) : Prop :=
  id ∉ n.ledger.votes ∧ ∃ m, n.step e = .ok m ∧ id ∈ m.ledger.votes

/-- An event by which the ledger changes only if the node itself changes it: by what peers send, by
votes of its own, or by maintenance. -/
def Event.Coordinated : Event → Prop
  | .surroundings _ => True
  | .syncState .. => True
  | .announceTo .. => True
  | .message .. => True
  | .newTip _ => True
  | .maintain => True
  | _ => False

/-- How many votes maintenance drops, if the event is maintenance. -/
def discards (n : Node) : Event → Checked Nat
  | .maintain => (·.2) <$> n.maintain
  | _ => .ok 0

/-- What a node enters about the votes that it newly stores and those that it drops: each new one is
relayed once and counted, and noted as come across unless it is its own. -/
structure Books (n : Node) (e : Event) (m : Node) (sent : List Announcement) (dropped : Nat) :
    Prop where
  relayed : m.relayed = n.relayed ++ sent
  counted : m.traffic.admitted + m.traffic.own =
    n.traffic.admitted + n.traffic.own + sent.length
  balance : n.ledger.voteCount + sent.length = m.ledger.voteCount + dropped
  once : ∀ id, sent.count ⟨id⟩ = if id ∈ m.ledger.votes ∧ id ∉ n.ledger.votes then 1 else 0
  /-- No note is about a vote that is not stored. -/
  sound : (∀ id ∈ n.tracker.seen, id ∈ n.ledger.votes) → ∀ id ∈ m.tracker.seen, id ∈ m.ledger.votes
  /-- A note stays as long as the vote does. -/
  kept : ∀ id ∈ n.tracker.seen, id ∈ m.ledger.votes → id ∈ m.tracker.seen
  noted : (∃ tip, e = .newTip tip) ∨
    ∀ id ∈ m.ledger.votes, id ∉ n.ledger.votes → id ∈ m.tracker.seen

/-- Entries about votes that are taken in. -/
theorem books_of_takesIn (ht : Ledger.TakesIn n.setting n.ledger m.ledger)
    (hr : m.relayed = n.relayed ++ sent)
    (hsent : sent.Perm ((n.ledger.newVotes m.ledger).map (·.announcement)))
    (hc : m.traffic.admitted + m.traffic.own = n.traffic.admitted + n.traffic.own + sent.length)
    (hsound : ∀ id ∈ m.tracker.seen, id ∈ n.tracker.seen ∨ id ∈ m.ledger.votes)
    (hkept : ∀ id ∈ n.tracker.seen, id ∈ m.tracker.seen)
    (hnoted : (∃ tip, e = .newTip tip) ∨
      ∀ id ∈ m.ledger.votes, id ∉ n.ledger.votes → id ∈ m.tracker.seen) :
    n.Books e m sent 0 where
  relayed := hr
  counted := hc
  balance := by rw [hsent.length_eq, List.length_map, ht.voteCount_eq, Nat.add_zero]
  once id := by rw [hsent.count_eq, ht.count_announcement]
  sound h id hid := (hsound id hid).elim (fun hold => ht.mem_votes (h id hold)) fun hnew => hnew
  kept id hid _ := hkept id hid
  noted := hnoted

/-- There is nothing to enter if no vote is taken in or dropped. -/
theorem books_of_eq (hl : m.ledger = n.ledger) (hr : m.relayed = n.relayed)
    (hc : m.traffic.admitted + m.traffic.own = n.traffic.admitted + n.traffic.own)
    (hs : m.tracker.seen = n.tracker.seen) : n.Books e m [] 0 := by
  refine books_of_takesIn ?_ (by simpa using hr) ?_ hc (fun id hid => .inl (hs ▸ hid))
    (fun id hid => hs ▸ hid) (.inr fun id hid hnew => absurd (hl ▸ hid) hnew)
  · rw [hl]
    exact .refl
  · rw [hl, Ledger.newVotes_self, List.map_nil]

theorem Handles.books {index : Nat} {peer : Peer} {message : Message}
    (h : n.Handles index peer message m) : ∃ sent, n.Books e m sent 0 := by
  cases h with
  | refused => exact ⟨[], books_of_eq rfl rfl rfl rfl⟩
  | unanswered => exact ⟨[], books_of_eq rfl rfl rfl rfl⟩
  | answered => exact ⟨[], books_of_eq rfl rfl rfl rfl⟩
  | outdated => exact ⟨[], books_of_eq rfl rfl rfl rfl⟩
  | statusCount => exact ⟨[], books_of_eq rfl rfl rfl rfl⟩
  | rejected =>
    obtain ⟨peers, hpeers⟩ := onRejection_eq _ index _
    rw [hpeers]
    exact ⟨[], books_of_eq rfl rfl rfl rfl⟩
  | @admitted v l _ hv =>
    obtain ⟨a, ha, hr⟩ := Ledger.admitVote_eq_ok.1 hv
    have hstored : ∀ id, id ∈ l.votes ↔ id = v.identity ∨ id ∈ n.ledger.votes := fun id => by
      rw [Ledger.mem_votes_record hr, ha.identity]
    refine ⟨[v.announcement], books_of_takesIn (Ledger.takesIn_admitVote hv) rfl ?_ ?_ ?_ ?_ ?_⟩
    · rw [Ledger.newVotes_admitVote hv]
      exact .refl _
    · show n.traffic.admitted + 1 + n.traffic.own = _
      rw [List.length_singleton, Nat.add_right_comm]
    · intro id hid
      exact (Tracker.mem_mark.1 hid).elim (fun hnew => .inr ((hstored id).2 (.inl hnew))) .inl
    · exact fun id hid => Tracker.mem_mark.2 (.inr hid)
    · exact .inr fun id hid hnew =>
        Tracker.mem_mark.2 (.inl (((hstored id).1 hid).resolve_right hnew))
  | @duplicate v _ _ hv =>
    have hstored := Ledger.mem_votes_of_duplicate hv
    refine ⟨[], books_of_takesIn .refl (List.append_nil _).symm ?_ rfl ?_ ?_ ?_⟩
    · rw [Ledger.newVotes_self, List.map_nil]
    · intro id hid
      rcases Tracker.mem_mark.1 hid with rfl | hold
      · exact .inr hstored
      · exact .inl hold
    · exact fun id hid => Tracker.mem_mark.2 (.inr hid)
    · exact .inr fun id hid hnew => absurd hid hnew

theorem books_newTip {tip : Height} {count : Nat} (h : n.newTip tip = .ok (m, count)) :
    ∃ sent, n.Books (.newTip tip) m sent 0 := by
  unfold newTip at h
  split at h
  · cases h
    exact ⟨[], books_of_eq rfl rfl rfl rfl⟩
  · split at h
    · cases h
      exact ⟨[], books_of_eq rfl rfl rfl rfl⟩
    · obtain ⟨height, -, h⟩ := bind_eq_ok.1 h
      obtain ⟨⟨after, r⟩, hc, h⟩ := bind_eq_ok.1 h
      obtain ⟨cause | ⟨ledger, votes⟩, hs, hc⟩ := bind_eq_ok.1 hc
      · cases hc
        cases h
        exact ⟨[], books_of_eq rfl rfl rfl rfl⟩
      · cases hc
        cases h
        have hcast := settle_eq_ok_ok.1 hs
        refine ⟨votes.map (·.announcement), books_of_takesIn (Ledger.takesIn_cast hcast) rfl
          ((Ledger.newVotes_cast hcast).symm.map _) ?_ (fun _ => .inl) (fun _ hid => hid)
          (.inl ⟨tip, rfl⟩)⟩
        rw [List.length_map, Nat.add_assoc]

theorem books_maintain {count : Nat} (h : n.maintain = .ok (m, count)) :
    n.Books .maintain m [] count := by
  obtain ⟨⟨after, dropped⟩, hc, h⟩ := bind_eq_ok.1 h
  cases h
  obtain ⟨⟨ledger, expired⟩, hl, hc⟩ := bind_eq_ok.1 hc
  cases hc
  obtain ⟨-, rfl, rfl⟩ | ⟨tip, lowest, -, -, rfl, rfl⟩ := Ledger.clean_cases hl
  · exact books_of_eq rfl rfl rfl rfl
  · exact {
      relayed := (List.append_nil _).symm
      counted := rfl
      balance := (Ledger.voteCount_dropBelow ..).symm
      once := fun id => by
        rw [if_neg fun h => h.2 (Ledger.mem_of_mem_dropBelow h.1), List.count_nil]
      sound := fun h id hid => by
        obtain ⟨hseen, hkept⟩ := Tracker.mem_forget.1 hid
        exact Ledger.mem_votes_dropBelow.2 ⟨h id hseen, hkept⟩
      kept := fun id hid hkept =>
        Tracker.mem_forget.2 ⟨hid, (Ledger.mem_votes_dropBelow.1 hkept).2⟩
      noted := .inr fun id hid hnew => absurd (Ledger.mem_of_mem_dropBelow hid) hnew }

/-- **What an event enters.** -/
theorem step_books (he : e.Coordinated) (h : n.step e = .ok m) :
    ∃ sent dropped, n.discards e = .ok dropped ∧ n.Books e m sent dropped := by
  cases e with
  | surroundings t =>
    cases h
    exact ⟨[], 0, rfl, books_of_eq rfl rfl rfl rfl⟩
  | syncState chain all =>
    cases h
    exact ⟨[], 0, rfl, books_of_eq rfl rfl rfl rfl⟩
  | announceTo peer count =>
    obtain ⟨sent, hs⟩ := map_fst_eq_ok.1 h
    obtain ⟨_ | announcements, -, hs⟩ := bind_eq_ok.1 hs <;> cases hs <;>
      exact ⟨[], 0, rfl, books_of_eq rfl rfl rfl rfl⟩
  | message index message =>
    obtain ⟨rfl, -⟩ | ⟨peer, -, -, hm⟩ := handle_cases h
    · exact ⟨[], 0, rfl, books_of_eq rfl rfl rfl rfl⟩
    · obtain ⟨sent, hb⟩ := hm.books
      exact ⟨sent, 0, rfl, hb⟩
  | newTip tip =>
    obtain ⟨count, hc⟩ := map_fst_eq_ok.1 h
    obtain ⟨sent, hb⟩ := books_newTip hc
    exact ⟨sent, 0, rfl, hb⟩
  | maintain =>
    obtain ⟨count, hc⟩ := map_fst_eq_ok.1 h
    exact ⟨[], count, map_eq_ok.2 ⟨_, hc, rfl⟩, books_maintain hc⟩
  | _ => exact he.elim

/-! ## What the entries of a run add up to -/

/-- The sum of the counts that maintenance gives along a run. -/
def discarded (n : Node) : List Event → Checked Nat
  | [] => .ok 0
  | e :: es => do
    let count ← n.discards e
    let m ← n.step e
    let later ← m.discarded es
    pure (count + later)

theorem run_balance (hes : ∀ e ∈ es, e.Coordinated) (h : n.run es = .ok m) :
    ∃ sent dropped, n.discarded es = .ok dropped ∧ m.relayed = n.relayed ++ sent ∧
      m.traffic.admitted + m.traffic.own =
        n.traffic.admitted + n.traffic.own + sent.length ∧
      n.ledger.voteCount + sent.length = m.ledger.voteCount + dropped := by
  induction h using run_induction with
  | nil => exact ⟨[], 0, rfl, (List.append_nil _).symm, rfl, rfl⟩
  | @cons n k e es hk h ih =>
    obtain ⟨first, count, hcount, hb⟩ := step_books (hes e List.mem_cons_self) hk
    obtain ⟨later, dropped, hd, hr, hc, hbal⟩ :=
      ih fun e' he' => hes e' (List.mem_cons_of_mem _ he')
    have hcounted := hb.counted
    have hbalance := hb.balance
    refine ⟨first ++ later, count + dropped, ?_, ?_, ?_, ?_⟩
    · rw [discarded, hcount, hk]
      show (do let later ← k.discarded es; pure (count + later)) = _
      rw [hd]
      rfl
    · rw [hr, hb.relayed, List.append_assoc]
    · rw [List.length_append]
      omega
    · rw [List.length_append]
      omega

/-- Notes are about stored votes only. -/
theorem run_seen (hes : ∀ e ∈ es, e.Coordinated) (h : n.run es = .ok m)
    (hn : ∀ id ∈ n.tracker.seen, id ∈ n.ledger.votes) :
    ∀ id ∈ m.tracker.seen, id ∈ m.ledger.votes := by
  induction h using run_induction with
  | nil => exact hn
  | cons hk h ih =>
    obtain ⟨sent, count, -, hb⟩ := step_books (hes _ List.mem_cons_self) hk
    exact ih (fun e' he' => hes e' (List.mem_cons_of_mem _ he')) (hb.sound hn)

theorem Event.Coordinated.under (h : e.Coordinated) : e.Under fun _ => True := by
  cases e with
  | restore snapshot => exact h.elim
  | _ => trivial

theorem run_keyed (hl : n.ledger = {}) (hes : ∀ e ∈ es, e.Coordinated) (h : n.run es = .ok m)
    {v : Vote} (hv : m.ledger.votes[id]? = some v) : v.identity = id := by
  have hempty : n.ledger.Counts fun _ => none := hl ▸ Ledger.counts_empty rfl rfl
  obtain ⟨-, o, ho⟩ :=
    run_under Ledger.counts_kept trivial (fun e he => (hes e he).under) h hempty
  exact ho.keyed hv

/-! ## Since a vote was taken in -/

theorem takes_iff (h : n.step e = .ok m) :
    Takes id n e ↔ id ∈ m.ledger.votes ∧ id ∉ n.ledger.votes := by
  constructor
  · rintro ⟨hnew, m', hm, hid⟩
    rw [h] at hm
    cases hm
    exact ⟨hid, hnew⟩
  · rintro ⟨hid, hnew⟩
    exact ⟨hnew, m, h, hid⟩

/-- A stored vote that was not taken in during a run was stored before. It was not relayed again,
and it is noted if it was. -/
theorem run_of_not_taken (hes : ∀ e ∈ es, e.Coordinated) (h : n.run es = .ok m)
    (hid : id ∈ m.ledger.votes) (hnot : ¬n.Sometime (Takes id) es) :
    id ∈ n.ledger.votes ∧ (id ∈ n.tracker.seen → id ∈ m.tracker.seen) ∧
      ∃ sent, m.relayed = n.relayed ++ sent ∧ sent.count ⟨id⟩ = 0 := by
  induction h using run_induction with
  | nil => exact ⟨hid, fun hseen => hseen, [], (List.append_nil _).symm, rfl⟩
  | @cons n k e es hk h ih =>
    rw [sometime_cons hk, not_or, takes_iff hk] at hnot
    obtain ⟨hnow, hlater⟩ := hnot
    obtain ⟨hstored, hseen, later, hr, hzero⟩ :=
      ih (fun e' he' => hes e' (List.mem_cons_of_mem _ he')) hlater
    obtain ⟨sent, count, -, hb⟩ := step_books (hes e List.mem_cons_self) hk
    refine ⟨not_not.1 fun hnew => hnow ⟨hstored, hnew⟩, fun hn => hseen (hb.kept id hn hstored),
      sent ++ later, ?_, ?_⟩
    · rw [hr, hb.relayed, List.append_assoc]
    · rw [List.count_append, hb.once, if_neg hnow, hzero]

/-- A node that has not come across any vote. -/
structure Fresh (n : Node) : Prop where
  ledger : n.ledger = {}
  relayed : n.relayed = []
  traffic : n.traffic = {}
  seen : n.tracker.seen = ∅

theorem Fresh.exists_lastTaken (hn : n.Fresh) (hes : ∀ e ∈ es, e.Coordinated)
    (h : n.run es = .ok m) (hid : id ∈ m.ledger.votes) : ∃ k e, n.LastTime (Takes id) es k e := by
  refine Sometime.exists_lastTime h (not_not.1 fun hnot => ?_)
  obtain ⟨hstored, -⟩ := run_of_not_taken hes h hid hnot
  rw [hn.ledger] at hstored
  simp at hstored

/-- Since the last moment at which it was taken in, a stored vote was relayed once, and it is noted
unless the node cast it then. -/
theorem LastTime.relayed (hes : ∀ e ∈ es, e.Coordinated) (h : n.run es = .ok m)
    (hid : id ∈ m.ledger.votes) (hlast : n.LastTime (Takes id) es k e) :
    (∃ since, m.relayed = k.relayed ++ since ∧ since.count ⟨id⟩ = 1) ∧
      ((∃ tip, e = .newTip tip) ∨ id ∈ m.tracker.seen) := by
  obtain ⟨before, after, j, rfl, hbefore, htakes, hj, hnot⟩ := hlast
  have hafter : j.run after = .ok m := by
    rwa [run_append_of_ok hbefore, run_cons_of_ok hj] at h
  obtain ⟨sent, count, -, hb⟩ := step_books (hes e (by simp)) hj
  obtain ⟨-, hseen, later, hr, hzero⟩ :=
    run_of_not_taken (fun e' he' => hes e' (by simp [he'])) hafter hid hnot
  have htaken := (takes_iff hj).1 htakes
  refine ⟨⟨sent ++ later, ?_, ?_⟩, ?_⟩
  · rw [hr, hb.relayed, List.append_assoc]
  · rw [List.count_append, hb.once, if_pos htaken, hzero]
  · exact hb.noted.imp_right fun hnoted => hseen (hnoted id htaken.1 htaken.2)

/-- **Everything that is stored was relayed once.** A node starts without votes, and its ledger
changes by messages, its own votes and maintenance only. Then it has relayed as many announcements
as it counts votes of peers and of its own, and these are the votes that it stores and those that
maintenance dropped. Since it was last taken in, each stored vote was relayed exactly once, and it
is noted as come across unless the node cast it itself; all notes are about stored votes. -/
theorem relayed_once (hn : n.Fresh) (hes : ∀ e ∈ es, e.Coordinated) (h : n.run es = .ok m) :
    (∃ dropped, n.discarded es = .ok dropped ∧
      m.relayed.length = m.traffic.admitted + m.traffic.own ∧
      m.relayed.length = m.ledger.voteCount + dropped) ∧
    (∀ id ∈ m.ledger.votes, ∃ k e, n.LastTime (Takes id) es k e ∧
      (∃ since, m.relayed = k.relayed ++ since ∧ since.count ⟨id⟩ = 1) ∧
      ((∃ tip, e = .newTip tip) ∨ id ∈ m.tracker.seen)) ∧
    ∀ id ∈ m.tracker.seen, ∃ v, m.ledger.votes[id]? = some v ∧ v.identity = id := by
  refine ⟨?_, fun id hid => ?_, fun id hid => ?_⟩
  · obtain ⟨sent, dropped, hd, hr, hc, hb⟩ := run_balance hes h
    rw [hn.relayed, List.nil_append] at hr
    rw [hn.traffic, ← hr] at hc
    rw [hn.ledger, ← hr] at hb
    refine ⟨dropped, hd, ?_, ?_⟩
    · simpa using hc.symm
    · simpa [Ledger.voteCount] using hb
  · obtain ⟨k, e, hlast⟩ := hn.exists_lastTaken hes h hid
    exact ⟨k, e, hlast, hlast.relayed hes h hid⟩
  · have hstored := run_seen hes h (fun id hid => by simp [hn.seen] at hid) id hid
    obtain ⟨v, hv⟩ := Ledger.mem_votes_iff.1 hstored
    exact ⟨v, hv, run_keyed hn.ledger hes h hv⟩

end Node

/-! ## A run with every kind of entry -/

namespace Sample

/-- The surroundings of a node that runs a masternode, besides another one. -/
def signerSetting (tip : Height) : Setting where
  chain := { tip := some tip, blockValue := 100 }
  registry := ⟨[⟨masternode 0, true, 0⟩, ⟨signer, true, 0⟩]⟩
  schedule := ⟨[50]⟩

def voter : Node where
  setting := signerSetting 1000
  peers := [{ id := 1, protocol := Network.main.activeProtocol }]
  active := some ⟨signer.id, keys⟩

/-- A peer sends a vote twice, and another one for a later height; the node casts one itself. -/
def arrivals : List Node.Event :=
  [.message 0 (.vote (vote 0 0 1005)), .message 0 (.vote (vote 0 0 1005)),
    .surroundings (signerSetting 2010), .newTip 2010, .message 0 (.vote (scriptVote 0 0 2015)),
    .maintain]

theorem run_arrivals :
    (fun m => (m.relayed.length, m.traffic, m.ledger.voteCount, m.tracker.seen.toList)) <$>
      voter.run arrivals =
    .ok (3, { admitted := 2, duplicate := 1, own := 1 }, 2, [(scriptVote 0 0 2015).identity]) := by
  decide +kernel

end Sample

/-- One of the three votes was dropped. One of the other two is the node's own, and not noted. -/
theorem Node.relayed_once_arrivals : ∃ m, Sample.voter.run Sample.arrivals = .ok m ∧
    m.ledger.voteCount = 2 ∧ m.traffic.own = 1 ∧ m.relayed.length = 3 ∧
    Sample.voter.discarded Sample.arrivals = .ok 1 ∧
    ∀ id ∈ m.ledger.votes, ∃ k e, Sample.voter.LastTime (Takes id) Sample.arrivals k e := by
  obtain ⟨m, hm, he⟩ := map_eq_ok.1 Sample.run_arrivals
  simp only [Prod.mk.injEq] at he
  obtain ⟨hrelayed, htraffic, hcount, -⟩ := he
  have hes : ∀ e ∈ Sample.arrivals, e.Coordinated := by
    simp [Sample.arrivals, Event.Coordinated]
  obtain ⟨⟨dropped, hd, -, hbalance⟩, hlast, -⟩ := relayed_once ⟨rfl, rfl, rfl, rfl⟩ hes hm
  have hone : dropped = 1 := by omega
  refine ⟨m, hm, hcount, by rw [htraffic], hrelayed, hone ▸ hd, fun id hid => ?_⟩
  obtain ⟨k, e, htaken, -⟩ := hlast id hid
  exact ⟨k, e, htaken⟩

end MasternodePayments
