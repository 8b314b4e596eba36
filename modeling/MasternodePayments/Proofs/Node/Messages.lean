import MasternodePayments.Proofs.Node.Effect

/-!
# What a message does to a node

`Node.Handles` lists the ways in which a listening node handles a message of a peer: when each one
applies and all that it changes (`handle_iff`). Nothing else that happens to a node is counted as
traffic of peers or changes what is noted about them (`step_quiet`).

* `Traffic.GrowsBy`: how far the counters of handled messages have come.
* `run_growsBy`: every event counts one message at most.
-/

namespace MasternodePayments

/-! ## Counters -/

/-- Each counter of handled messages went up by `count` at most. -/
structure Traffic.GrowsBy (t u : Traffic) (count : Nat) : Prop where
  admitted : u.admitted ≤ t.admitted + count
  duplicate : u.duplicate ≤ t.duplicate + count
  rejected : u.rejected ≤ t.rejected + count
  served : u.served ≤ t.served + count
  refused : u.refused ≤ t.refused + count

theorem Traffic.GrowsBy.refl (t : Traffic) (count : Nat) : t.GrowsBy t count := by
  constructor <;> exact Nat.le_add_right ..

theorem Traffic.GrowsBy.trans {t u v : Traffic} {j k : Nat} (h : t.GrowsBy u j)
    (h' : u.GrowsBy v k) : t.GrowsBy v (j + k) where
  admitted := by have := h.admitted; have := h'.admitted; omega
  duplicate := by have := h.duplicate; have := h'.duplicate; omega
  rejected := by have := h.rejected; have := h'.rejected; omega
  served := by have := h.served; have := h'.served; omega
  refused := by have := h.refused; have := h'.refused; omega

namespace Node

/-! ## Handling a message -/

/-- Messages are handled at all. -/
def Listens (n : Node) : Prop :=
  n.setting.config.liteMode = false ∧ n.tracker.chainSynced = true

/-- The peer may not ask for the votes any more. -/
def Exhausted (n : Node) (peer : Peer) : Prop :=
  n.setting.config.network.isMain = true ∧ peer.hasAsked = true

def refusing (n : Node) (index : Nat) : Node :=
  { n.onPeer index (·.punish n.setting.config.misbehaviourScore) with
    traffic := { n.traffic with refused := n.traffic.refused + 1 } }

def noting (n : Node) (index : Nat) : Node := n.onPeer index (·.noteRequest)

def answering (n : Node) (index : Nat) (announcements : List Announcement) : Node :=
  { (n.noting index).onPeer index (·.sendAnnouncements announcements) with
    traffic := { n.traffic with served := n.traffic.served + 1 } }

/-- The ways to handle a message of a peer. -/
inductive Handles (n : Node) (index : Nat) (peer : Peer) : Message → Node → Prop
  | refused {count : UInt64} : n.Exhausted peer →
      Handles n index peer (.getVotes count) (n.refusing index)
  /-- The tip cannot be read. -/
  | unanswered {count : UInt64} : ¬n.Exhausted peer →
      n.ledger.announcements? n.setting count = .ok none →
      Handles n index peer (.getVotes count) (n.noting index)
  | answered {count : UInt64} {announcements : List Announcement} : ¬n.Exhausted peer →
      n.ledger.announcements? n.setting count = .ok (some announcements) →
      Handles n index peer (.getVotes count) (n.answering index announcements)
  | outdated {v : Vote} : peer.protocol < n.setting.config.network.activeProtocol →
      Handles n index peer (.vote v) n
  | admitted {v : Vote} {l : Ledger} :
      ¬peer.protocol < n.setting.config.network.activeProtocol →
      n.ledger.admitVote n.setting v = .ok l →
      Handles n index peer (.vote v)
        { n with
          ledger := l
          relayed := n.relayed ++ [v.announcement]
          tracker := n.tracker.mark v.identity
          traffic := { n.traffic with admitted := n.traffic.admitted + 1 } }
  | duplicate {v : Vote} {id : Hash} :
      ¬peer.protocol < n.setting.config.network.activeProtocol →
      n.ledger.admitVote n.setting v = .error (.rejected (.duplicate id)) →
      Handles n index peer (.vote v)
        { n with
          tracker := n.tracker.mark v.identity
          traffic := { n.traffic with duplicate := n.traffic.duplicate + 1 } }
  | rejected {v : Vote} {cause : Rejection} :
      ¬peer.protocol < n.setting.config.network.activeProtocol →
      n.ledger.admitVote n.setting v = .error (.rejected cause) →
      (∀ id, cause ≠ .duplicate id) →
      Handles n index peer (.vote v)
        ({ n with traffic := { n.traffic with rejected := n.traffic.rejected + 1 } }.onRejection
          index cause)
  | statusCount {item : SyncItem} {count : UInt64} :
      Handles n index peer (.statusCount item count) n

variable {n m k : Node} {index : Nat} {peer : Peer} {message : Message} {e : Event}
  {es : List Event}

theorem handleGetVotes_iff {count : UInt64} : n.handleGetVotes index peer count = .ok k ↔
    n.Handles index peer (.getVotes count) k := by
  unfold handleGetVotes
  split
  · next hspent =>
    have hspent : n.Exhausted peer := by simpa [Exhausted] using hspent
    constructor
    · rintro ⟨⟩
      exact .refused hspent
    · intro h
      cases h with
      | refused => rfl
      | unanswered hfree => exact absurd hspent hfree
      | answered hfree => exact absurd hspent hfree
  · next hfree =>
    have hfree : ¬n.Exhausted peer := by simpa [Exhausted] using hfree
    simp only [announceTo, bind_eq_ok]
    show (∃ r, (∃ sent, n.ledger.announcements? n.setting count = .ok sent ∧ _) ∧ _) ↔ _
    constructor
    · rintro ⟨_, ⟨_ | announcements, ha, ⟨⟩⟩, ⟨⟩⟩
      · exact .unanswered hfree ha
      · exact .answered hfree ha
    · intro h
      cases h with
      | refused hspent => exact absurd hspent hfree
      | unanswered _ ha => exact ⟨_, ⟨_, ha, rfl⟩, rfl⟩
      | answered _ ha => exact ⟨_, ⟨_, ha, rfl⟩, rfl⟩

theorem handleVote_iff {v : Vote} : n.handleVote index peer v = .ok k ↔
    n.Handles index peer (.vote v) k := by
  unfold handleVote
  split
  · next hold =>
    constructor
    · rintro ⟨⟩
      exact .outdated hold
    · intro h
      cases h with
      | outdated => rfl
      | admitted hnew => exact absurd hold hnew
      | duplicate hnew => exact absurd hold hnew
      | rejected hnew => exact absurd hold hnew
  · next hnew =>
    rw [admitVote]
    constructor
    · intro h
      rcases hv : n.ledger.admitVote n.setting v with (_ | cause) | l <;> rw [hv] at h
      · cases h
      · cases cause with
        | duplicate id =>
          cases h
          exact .duplicate hnew hv
        | _ =>
          cases h
          exact .rejected hnew hv (by simp)
      · cases h
        exact .admitted hnew hv
    · intro h
      cases h with
      | outdated hold => exact absurd hold hnew
      | admitted _ ha =>
        rw [ha]
        rfl
      | duplicate _ ha =>
        rw [ha]
        rfl
      | @rejected _ cause _ ha hne =>
        rw [ha]
        cases cause with
        | duplicate id => exact absurd rfl (hne id)
        | _ => rfl

theorem handle_of_listens (hl : n.Listens) (hp : n.peers[index]? = some peer) :
    n.handle index message = match message with
      | .getVotes count => n.handleGetVotes index peer count
      | .vote v => n.handleVote index peer v
      | .statusCount .. => .ok n := by
  obtain ⟨hlite, hsynced⟩ := hl
  simp only [handle, hlite, hsynced, hp]
  cases message <;> rfl

/-- **Handling a message** is one of the listed ways. -/
theorem handle_iff (hl : n.Listens) (hp : n.peers[index]? = some peer) :
    n.handle index message = .ok k ↔ n.Handles index peer message k := by
  rw [handle_of_listens hl hp]
  cases message with
  | getVotes count => exact handleGetVotes_iff
  | vote v => exact handleVote_iff
  | statusCount item count =>
    constructor
    · rintro ⟨⟩
      exact .statusCount
    · rintro ⟨⟩
      rfl

theorem handle_of_deaf (h : ¬n.Listens) : n.handle index message = .ok n := by
  unfold handle
  split
  · rfl
  · next hears =>
    exact absurd (by simpa [Listens] using hears) h

theorem handle_of_unknown (h : n.peers[index]? = none) : n.handle index message = .ok n := by
  simp only [handle, h]
  split <;> rfl

/-- A message is handled in one of the listed ways, or else nothing happens. -/
theorem handle_cases (h : n.handle index message = .ok k) :
    k = n ∧ (n.Listens → n.peers[index]? = none) ∨
      ∃ peer, n.Listens ∧ n.peers[index]? = some peer ∧ n.Handles index peer message k := by
  by_cases hl : n.Listens
  · cases hp : n.peers[index]? with
    | none => exact .inl ⟨Except.ok.inj (h.symm.trans (handle_of_unknown hp)), fun _ => rfl⟩
    | some peer => exact .inr ⟨peer, hl, rfl, (handle_iff hl hp).1 h⟩
  · exact .inl ⟨Except.ok.inj (h.symm.trans (handle_of_deaf hl)), fun hl' => absurd hl' hl⟩

/-! ## What is counted -/

theorem Handles.growsBy (h : n.Handles index peer message k) : n.traffic.GrowsBy k.traffic 1 := by
  have hself := Traffic.GrowsBy.refl n.traffic 1
  cases h with
  | refused => exact { hself with refused := Nat.le_refl _ }
  | unanswered => exact hself
  | answered => exact { hself with served := Nat.le_refl _ }
  | outdated => exact hself
  | admitted => exact { hself with admitted := Nat.le_refl _ }
  | duplicate => exact { hself with duplicate := Nat.le_refl _ }
  | rejected =>
    obtain ⟨peers, hpeers⟩ := onRejection_eq _ index _
    rw [hpeers]
    exact { hself with rejected := Nat.le_refl _ }
  | statusCount => exact hself

/-- Nothing but announcements is sent to peers, and nothing but votes of one's own is counted. -/
structure Quiet (n m : Node) : Prop where
  peers : m.peers = n.peers ∨ ∃ index announcements,
    m.peers = n.peers.modify index (·.sendAnnouncements announcements)
  traffic : ∃ own, m.traffic = { n.traffic with own := own }

theorem quiet_of_eq (hp : m.peers = n.peers) (ht : m.traffic = n.traffic) : n.Quiet m :=
  ⟨.inl hp, _, ht⟩

theorem Quiet.growsBy (h : n.Quiet m) : n.traffic.GrowsBy m.traffic 1 := by
  obtain ⟨own, ht⟩ := h.traffic
  rw [ht]
  constructor <;> exact Nat.le_add_right ..

theorem quiet_clean {dropped : List Hash} (h : n.clean = .ok (m, dropped)) : n.Quiet m := by
  obtain ⟨_, -, h⟩ := bind_eq_ok.1 h
  cases h
  exact quiet_of_eq rfl rfl

theorem quiet_cast {height : Height} {active : ActiveMasternode}
    {r : Except Rejection (List Vote)} (h : n.cast height active = .ok (m, r)) :
    m.peers = n.peers ∧ m.traffic = n.traffic := by
  obtain ⟨_ | _, -, h⟩ := bind_eq_ok.1 h <;> cases h <;> exact ⟨rfl, rfl⟩

theorem quiet_newTip {tip : Height} {count : Nat} (h : n.newTip tip = .ok (m, count)) :
    n.Quiet m := by
  unfold newTip at h
  split at h
  · cases h
    exact quiet_of_eq rfl rfl
  · split at h
    · cases h
      exact quiet_of_eq rfl rfl
    · obtain ⟨height, -, h⟩ := bind_eq_ok.1 h
      obtain ⟨⟨after, r⟩, hc, h⟩ := bind_eq_ok.1 h
      obtain ⟨hp, ht⟩ := quiet_cast hc
      cases r <;> cases h
      · exact quiet_of_eq hp ht
      · exact ⟨.inl hp, _, by rw [ht]⟩

/-- **Apart from messages**, a node is quiet. -/
theorem step_quiet (h : n.step e = .ok m) (he : ∀ index message, e ≠ .message index message) :
    n.Quiet m := by
  cases e with
  | surroundings t =>
    cases h
    exact quiet_of_eq rfl rfl
  | syncState chain all =>
    cases h
    exact quiet_of_eq rfl rfl
  | admitVote v =>
    obtain ⟨r, hr⟩ := map_fst_eq_ok.1 h
    obtain ⟨_ | _, -, hr⟩ := bind_eq_ok.1 hr <;> cases hr <;> exact quiet_of_eq rfl rfl
  | prune height =>
    obtain ⟨dropped, hd⟩ := map_fst_eq_ok.1 h
    obtain ⟨_, -, hd⟩ := bind_eq_ok.1 hd
    cases hd
    exact quiet_of_eq rfl rfl
  | clean =>
    obtain ⟨dropped, hd⟩ := map_fst_eq_ok.1 h
    exact quiet_clean hd
  | announceTo index count =>
    obtain ⟨sent, hs⟩ := map_fst_eq_ok.1 h
    obtain ⟨_ | announcements, -, hs⟩ := bind_eq_ok.1 hs <;> cases hs
    · exact quiet_of_eq rfl rfl
    · exact ⟨.inr ⟨index, announcements, rfl⟩, _, rfl⟩
  | cast height active =>
    obtain ⟨r, hr⟩ := map_fst_eq_ok.1 h
    obtain ⟨hp, ht⟩ := quiet_cast hr
    exact quiet_of_eq hp ht
  | clear =>
    cases h
    exact quiet_of_eq rfl rfl
  | restore snapshot =>
    cases h
    exact quiet_of_eq rfl rfl
  | message index message => exact absurd rfl (he index message)
  | newTip tip =>
    obtain ⟨count, hc⟩ := map_fst_eq_ok.1 h
    exact quiet_newTip hc
  | maintain =>
    obtain ⟨count, hc⟩ := map_fst_eq_ok.1 h
    obtain ⟨⟨k, dropped⟩, hk, hc⟩ := bind_eq_ok.1 hc
    cases hc
    exact quiet_clean hk

theorem handle_growsBy (h : n.handle index message = .ok k) :
    n.traffic.GrowsBy k.traffic 1 := by
  obtain ⟨rfl, -⟩ | ⟨peer, -, -, hk⟩ := handle_cases h
  · exact .refl ..
  · exact hk.growsBy

theorem step_growsBy (h : n.step e = .ok m) : n.traffic.GrowsBy m.traffic 1 := by
  by_cases he : ∃ index message, e = .message index message
  · obtain ⟨index, message, rfl⟩ := he
    exact handle_growsBy h
  · exact (step_quiet h fun index message heq => he ⟨index, message, heq⟩).growsBy

/-- **Every event counts at most once.** -/
theorem run_growsBy (h : n.run es = .ok m) : n.traffic.GrowsBy m.traffic es.length := by
  induction h using run_induction with
  | nil => exact .refl ..
  | cons hk h ih =>
    rw [List.length_cons, Nat.add_comm]
    exact (step_growsBy hk).trans ih

end Node
end MasternodePayments
