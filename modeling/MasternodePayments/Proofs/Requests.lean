import MasternodePayments.Proofs.Node.Messages

/-!
# Requests for the votes

On the main network a peer is answered once and punished for every further request. A node notes a
request before it knows whether it can answer it, and it cannot while the tip is being changed. So
it is the first request that it hears that decides (`Node.request_outcome`): later ones are refused,
whether or not that one was answered. A peer that asked at a wrong moment gets no votes any more and
is punished for asking again (`Node.not_answered_before_refused`).

* `Node.Sometime`: something that happened in the course of a run.
* `Node.hasAsked_iff`: what is noted about a peer is that one of its requests was heard.
* `Node.Sometime.answered_or_missed`: the first of them was answered, or the tip could not be read.
-/

namespace MasternodePayments

namespace Node

variable {n m k : Node} {index : Nat} {peer : Peer} {count : UInt64} {e : Event} {es : List Event}
  {P : Node → Event → Prop}

/-! ## Moments of a run -/

/-- At some moment of a run, `P` holds of the node and of what happens to it. -/
def Sometime (n : Node) (P : Node → Event → Prop) (es : List Event) : Prop :=
  ∃ before e after k, es = before ++ e :: after ∧ n.run before = .ok k ∧ P k e

theorem sometime_nil : ¬n.Sometime P [] := by
  rintro ⟨before, e, after, k, h, -⟩
  simp at h

theorem sometime_cons (hk : n.step e = .ok k) :
    n.Sometime P (e :: es) ↔ P n e ∨ k.Sometime P es := by
  constructor
  · rintro ⟨before, e', after, k', heq, hrun, hP⟩
    cases before with
    | nil =>
      obtain ⟨rfl, -⟩ := List.cons.inj heq
      cases hrun
      exact .inl hP
    | cons e'' before =>
      obtain ⟨rfl, rfl⟩ := List.cons.inj heq
      rw [run_cons_of_ok hk] at hrun
      exact .inr ⟨before, e', after, k', rfl, hrun, hP⟩
  · rintro (hP | ⟨before, e', after, k', rfl, hrun, hP⟩)
    · exact ⟨[], e, es, n, rfl, rfl, hP⟩
    · exact ⟨e :: before, e', after, k', rfl, (run_cons_of_ok hk).trans hrun, hP⟩

/-! ## What is noted about peers -/

/-- It is noted about the peer that it asked. -/
def HasAsked (n : Node) (index : Nat) : Prop :=
  ∃ peer, n.peers[index]? = some peer ∧ peer.hasAsked = true

/-- A request of the peer is heard. -/
def Hears (n : Node) (index : Nat) (e : Event) : Prop :=
  ∃ count, e = .message index (.getVotes count) ∧ n.Listens ∧ index < n.peers.length

/-- A request of the peer is answered. -/
def Answers (n : Node) (index : Nat) (e : Event) : Prop :=
  ∃ count announcements, e = .message index (.getVotes count) ∧
    n.handle index (.getVotes count) = .ok (n.answering index announcements)

/-- The first request of the peer is heard, but the tip cannot be read. -/
def Misses (n : Node) (index : Nat) (e : Event) : Prop :=
  ¬n.HasAsked index ∧ n.Hears index e ∧ n.setting.chain.tip? = none

theorem hasAsked_congr (h : m.peers = n.peers) : m.HasAsked index ↔ n.HasAsked index := by
  rw [HasAsked, h, HasAsked]

/-- A change that leaves alone what is noted about a request. -/
theorem hasAsked_modify {i : Nat} {f : Peer → Peer} (h : m.peers = n.peers.modify i f)
    (hf : ∀ p, (f p).hasAsked = p.hasAsked) : m.HasAsked index ↔ n.HasAsked index := by
  simp only [HasAsked, h, List.getElem?_modify]
  cases n.peers[index]? with
  | none => simp
  | some p => by_cases hi : i = index <;> simp [hi, hf]

theorem hasAsked_onPeer {i : Nat} {f : Peer → Peer} (hf : ∀ p, (f p).hasAsked = p.hasAsked) :
    (n.onPeer i f).HasAsked index ↔ n.HasAsked index := hasAsked_modify rfl hf

theorem hasAsked_refusing {i : Nat} : (n.refusing i).HasAsked index ↔ n.HasAsked index :=
  hasAsked_modify (f := (·.punish n.setting.config.misbehaviourScore)) rfl fun _ => rfl

theorem hasAsked_noting {i : Nat} : (n.noting i).HasAsked index ↔
    n.HasAsked index ∨ i = index ∧ index < n.peers.length := by
  simp only [HasAsked, noting, onPeer, List.getElem?_modify]
  cases hp : n.peers[index]? with
  | none =>
    have hlength := List.getElem?_eq_none_iff.1 hp
    simp [hlength]
  | some p =>
    obtain ⟨hlt, -⟩ := List.getElem?_eq_some_iff.1 hp
    by_cases hi : i = index <;> simp [hi, hlt, Peer.noteRequest]

theorem hasAsked_answering {i : Nat} {announcements : List Announcement} :
    (n.answering i announcements).HasAsked index ↔ (n.noting i).HasAsked index :=
  hasAsked_modify rfl fun _ => rfl

theorem hasAsked_onRejection {i : Nat} {cause : Rejection} :
    (n.onRejection i cause).HasAsked index ↔ n.HasAsked index := by
  unfold onRejection
  split
  · exact hasAsked_onPeer fun _ => rfl
  · exact hasAsked_onPeer fun _ => rfl
  · next voter =>
    refine (hasAsked_onPeer (f := (·.askFor voter)) fun _ => rfl).trans ?_
    split
    · exact hasAsked_onPeer fun _ => rfl
    · rfl
  · rfl

/-- A peer is noted as having asked if it was before, or if its request is handled. -/
theorem Handles.hasAsked_iff {i : Nat} {message : Message} (hp : n.peers[i]? = some peer)
    (hl : n.Listens) (h : n.Handles i peer message k) :
    k.HasAsked index ↔ n.HasAsked index ∨ n.Hears index (.message i message) := by
  obtain ⟨hlt, -⟩ := List.getElem?_eq_some_iff.1 hp
  have hears : ∀ count, n.Hears index (.message i (.getVotes count)) ↔
      i = index ∧ index < n.peers.length := by
    intro count
    constructor
    · rintro ⟨_, he, -, hindex⟩
      cases he
      exact ⟨rfl, hindex⟩
    · rintro ⟨rfl, hindex⟩
      exact ⟨count, rfl, hl, hindex⟩
  have deaf : ∀ v, ¬n.Hears index (.message i (.vote v)) := by
    rintro v ⟨_, he, -⟩
    cases he
  cases h with
  | refused hspent =>
    rw [hears, hasAsked_refusing, or_iff_left_of_imp]
    rintro ⟨rfl, -⟩
    exact ⟨peer, hp, hspent.2⟩
  | unanswered => rw [hears, hasAsked_noting]
  | answered => rw [hears, hasAsked_answering, hasAsked_noting]
  | @outdated v => exact (or_iff_left (deaf v)).symm
  | @admitted v => exact (or_iff_left (deaf v)).symm
  | @duplicate v => exact (or_iff_left (deaf v)).symm
  | @rejected v => exact hasAsked_onRejection.trans (or_iff_left (deaf v)).symm
  | statusCount =>
    refine (or_iff_left ?_).symm
    rintro ⟨_, he, -⟩
    cases he

theorem step_hasAsked (h : n.step e = .ok m) :
    m.HasAsked index ↔ n.HasAsked index ∨ n.Hears index e := by
  by_cases he : ∃ i message, e = .message i message
  · obtain ⟨i, message, rfl⟩ := he
    obtain ⟨rfl, hunknown⟩ | ⟨peer, hl, hp, hm⟩ := handle_cases h
    · refine (or_iff_left ?_).symm
      rintro ⟨count, heq, hl, hlt⟩
      cases heq
      exact absurd (List.getElem?_eq_none_iff.1 (hunknown hl)) (Nat.not_le.2 hlt)
    · exact hm.hasAsked_iff hp hl
  · have hquiet := step_quiet h fun i message heq => he ⟨i, message, heq⟩
    have hdeaf : ¬n.Hears index e := fun ⟨count, heq, _⟩ => he ⟨_, _, heq⟩
    rw [or_iff_left hdeaf]
    rcases hquiet.peers with hp | ⟨i, announcements, hp⟩
    · exact hasAsked_congr hp
    · exact hasAsked_modify hp fun _ => rfl

/-- **What is noted about a peer** is whether a request of it was heard. -/
theorem hasAsked_iff (h : n.run es = .ok m) :
    m.HasAsked index ↔ n.HasAsked index ∨ n.Sometime (·.Hears index ·) es := by
  induction h using run_induction with
  | nil => exact (or_iff_left sometime_nil).symm
  | cons hk h ih => rw [ih, step_hasAsked hk, sometime_cons hk, or_assoc]

/-! ## What becomes of a request -/

theorem announcements?_eq_none {l : Ledger} {s : Setting} :
    l.announcements? s count = .ok none ↔ s.chain.tip? = none := by
  unfold Ledger.announcements?
  cases s.chain.tip? with
  | none => simp only
  | some tip => simp only [bind_eq_ok, pure_eq_ok, reduceCtorEq, and_false, exists_false]

theorem refusing_ne_noting : n.refusing index ≠ n.noting index := fun h =>
  absurd (congrArg (·.traffic.refused) h) (Nat.succ_ne_self _)

theorem refusing_ne_answering {announcements : List Announcement} :
    n.refusing index ≠ n.answering index announcements := fun h =>
  absurd (congrArg (·.traffic.refused) h) (Nat.succ_ne_self _)

theorem noting_ne_answering {announcements : List Announcement} :
    n.noting index ≠ n.answering index announcements := fun h =>
  absurd (congrArg (·.traffic.served) h).symm (Nat.succ_ne_self _)

theorem exhausted_iff (hp : n.peers[index]? = some peer) : n.Exhausted peer ↔
    n.setting.config.network.isMain = true ∧ n.HasAsked index := by
  simp [Exhausted, HasAsked, hp]

/-- A request that is heard is refused, answered, or noted only. -/
theorem request_cases (hl : n.Listens) (hlt : index < n.peers.length)
    (h : n.handle index (.getVotes count) = .ok k) :
    (n.setting.config.network.isMain = true ∧ n.HasAsked index) ∧ k = n.refusing index ∨
    ¬(n.setting.config.network.isMain = true ∧ n.HasAsked index) ∧
      (n.setting.chain.tip? = none ∧ k = n.noting index ∨
        n.setting.chain.tip? ≠ none ∧ ∃ announcements, k = n.answering index announcements) := by
  have hp := List.getElem?_eq_getElem hlt
  rw [← exhausted_iff hp]
  cases (handle_iff hl hp).1 h with
  | refused hspent => exact .inl ⟨hspent, rfl⟩
  | unanswered hfree ha => exact .inr ⟨hfree, .inl ⟨announcements?_eq_none.1 ha, rfl⟩⟩
  | answered hfree ha =>
    refine .inr ⟨hfree, .inr ⟨fun htip => ?_, _, rfl⟩⟩
    cases (announcements?_eq_none.2 htip).symm.trans ha

/-- Once a request was heard, the first one was answered or missed. The induction is on the run: a
node that hears no request goes on without a note about the peer. -/
theorem Sometime.answered_or_missed (hheard : n.Sometime (·.Hears index ·) es)
    (hfresh : ¬n.HasAsked index) (h : n.run es = .ok m) :
    n.Sometime (·.Answers index ·) es ∨ n.Sometime (·.Misses index ·) es := by
  induction h using run_induction with
  | nil => exact absurd hheard sometime_nil
  | @cons n k e _ hk h ih =>
    simp only [sometime_cons hk] at hheard ⊢
    by_cases he : n.Hears index e
    · have hears := he
      obtain ⟨count, rfl, hl, hlt⟩ := he
      rcases request_cases hl hlt hk with ⟨⟨-, hasked⟩, -⟩ | ⟨-, ⟨htip, -⟩ | ⟨-, as, rfl⟩⟩
      · exact absurd hasked hfresh
      · exact .inr (.inl ⟨hfresh, hears, htip⟩)
      · exact .inl (.inl ⟨count, as, rfl, hk⟩)
    · have hfresh' : ¬k.HasAsked index := by
        rw [step_hasAsked hk]
        exact not_or.2 ⟨hfresh, he⟩
      exact (ih (hheard.resolve_left he) hfresh').imp .inr .inr

/-- **The first request that is heard decides.** On the main network a peer is punished exactly if a
request of it was heard before; else it is answered exactly if the tip can be read. So unless the
first request was missed, only a peer that was answered before is punished, and a peer that was not
gets its answer as soon as the tip can be read. -/
theorem request_outcome (hfresh : ¬n.HasAsked index) (h : n.run es = .ok m)
    (hmain : m.setting.config.network.isMain = true) (hl : m.Listens)
    (hlt : index < m.peers.length) (hk : m.handle index (.getVotes count) = .ok k) :
    (k = m.refusing index ↔ n.Sometime (·.Hears index ·) es) ∧
    (k = m.noting index ↔
      ¬n.Sometime (·.Hears index ·) es ∧ m.setting.chain.tip? = none) ∧
    ((∃ announcements, k = m.answering index announcements) ↔
      ¬n.Sometime (·.Hears index ·) es ∧ m.setting.chain.tip? ≠ none) ∧
    (¬n.Sometime (·.Misses index ·) es →
      (k = m.refusing index → n.Sometime (·.Answers index ·) es) ∧
      (¬n.Sometime (·.Answers index ·) es → m.setting.chain.tip? ≠ none →
        ∃ announcements, k = m.answering index announcements)) := by
  have hasked : m.HasAsked index ↔ _ := hasAsked_iff h
  rw [or_iff_right hfresh] at hasked
  have hfirst : n.Sometime (·.Hears index ·) es → ¬n.Sometime (·.Misses index ·) es →
      n.Sometime (·.Answers index ·) es := fun hheard hmissed =>
    (hheard.answered_or_missed hfresh h).resolve_right hmissed
  have hcases := request_cases hl hlt hk
  rw [and_iff_right hmain, hasked] at hcases
  obtain ⟨hheard, rfl⟩ | ⟨hnew, ⟨htip, rfl⟩ | ⟨htip, as, rfl⟩⟩ := hcases
  · refine ⟨iff_of_true rfl hheard, iff_of_false refusing_ne_noting fun hn => hn.1 hheard,
      iff_of_false (fun ⟨_, he⟩ => refusing_ne_answering he) fun hn => hn.1 hheard,
      fun hmissed => ⟨fun _ => hfirst hheard hmissed, fun hno => ?_⟩⟩
    exact absurd (hfirst hheard hmissed) hno
  · refine ⟨iff_of_false refusing_ne_noting.symm hnew, iff_of_true rfl ⟨hnew, htip⟩,
      iff_of_false (fun ⟨_, he⟩ => noting_ne_answering he) fun hn => hn.2 htip,
      fun _ => ⟨fun he => absurd he refusing_ne_noting.symm, fun _ hread => absurd htip hread⟩⟩
  · refine ⟨iff_of_false refusing_ne_answering.symm hnew,
      iff_of_false noting_ne_answering.symm fun hn => htip hn.2, iff_of_true ⟨as, rfl⟩ ⟨hnew, htip⟩,
      fun _ => ⟨fun he => absurd he refusing_ne_answering.symm, fun _ _ => ⟨as, rfl⟩⟩⟩

end Node

/-! ## Requests at a good and at a bad moment -/

namespace Sample

/-- A node of the main network with one peer. -/
def listener : Node where
  setting := setting {} [0] 1000
  peers := [{ id := 1, protocol := Network.main.activeProtocol }]

/-- The node while the tip is being changed. -/
def busyListener : Node :=
  { listener with
    setting := { listener.setting with chain := { listener.setting.chain with busy := true } } }

theorem not_hasAsked_listener : ¬listener.HasAsked 0 := by
  rintro ⟨peer, hpeer, hasked⟩
  cases hpeer
  cases hasked

/-- The first request is answered. -/
theorem handle_listener : listener.handle 0 (.getVotes 5) = .ok (listener.answering 0 []) := by
  have hsent : listener.ledger.announcements? listener.setting 5 = .ok (some []) := rfl
  have hpeer : listener.peers[0]? = some _ := rfl
  refine (Node.handle_iff ⟨rfl, rfl⟩ hpeer).2 (.answered ?_ hsent)
  exact fun h => not_hasAsked_listener ⟨_, rfl, h.2⟩

/-- It is only noted while the tip is being changed. -/
theorem handle_busyListener :
    busyListener.handle 0 (.getVotes 5) = .ok (busyListener.noting 0) := by
  have hpeer : busyListener.peers[0]? = some _ := rfl
  refine (Node.handle_iff ⟨rfl, rfl⟩ hpeer).2 (.unanswered ?_ rfl)
  exact fun h => not_hasAsked_listener ⟨_, rfl, h.2⟩

/-- The peer asks while the tip is being changed; then the tip can be read again. -/
def missed : List Node.Event :=
  [.surroundings busyListener.setting, .message 0 (.getVotes 5), .surroundings listener.setting]

end Sample

namespace Node

/-- A peer that was answered is punished when it asks again. -/
theorem request_outcome_answered : ∃ m k,
    Sample.listener.run [.message 0 (.getVotes 5)] = .ok m ∧
      m.handle 0 (.getVotes 5) = .ok k ∧ k = m.refusing 0 ∧
      Sample.listener.Sometime (·.Answers 0 ·) [.message 0 (.getVotes 5)] := by
  have hrun : Sample.listener.run [.message 0 (.getVotes 5)] =
      .ok (Sample.listener.answering 0 []) :=
    run_cons_of_ok (e := .message 0 (.getVotes 5)) Sample.handle_listener
  have hpeer : (Sample.listener.answering 0 []).peers[0]? = some _ := rfl
  have hrefused : (Sample.listener.answering 0 []).handle 0 (.getVotes 5) = .ok _ :=
    (handle_iff ⟨rfl, rfl⟩ hpeer).2 (.refused ⟨rfl, rfl⟩)
  have hmissed : ¬Sample.listener.Sometime (·.Misses 0 ·) [.message 0 (.getVotes 5)] := by
    rw [sometime_cons (e := .message 0 (.getVotes 5)) Sample.handle_listener,
      or_iff_left sometime_nil]
    rintro ⟨-, -, htip⟩
    cases htip
  obtain ⟨-, -, -, hlaw⟩ := request_outcome Sample.not_hasAsked_listener hrun rfl ⟨rfl, rfl⟩
    (by decide) hrefused
  exact ⟨_, _, hrun, hrefused, rfl, (hlaw hmissed).1 rfl⟩

/-- **A peer that never got an answer can be punished for asking**, even when it could be answered:
it asked before while the tip was being changed. -/
theorem not_answered_before_refused : ¬∀ (n m k : Node) (es : List Event) (index : Nat)
    (count : UInt64), ¬n.HasAsked index → n.run es = .ok m →
      m.setting.config.network.isMain = true → m.Listens → index < m.peers.length →
      m.handle index (.getVotes count) = .ok k →
      (k = m.refusing index → n.Sometime (·.Answers index ·) es) ∧
      (¬n.Sometime (·.Answers index ·) es → m.setting.chain.tip? ≠ none →
        ∃ announcements, k = m.answering index announcements) := by
  intro h
  have hbusy : Sample.listener.step (.surroundings Sample.busyListener.setting) =
      .ok Sample.busyListener := rfl
  have hnoted : Sample.busyListener.step (.message 0 (.getVotes 5)) =
      .ok (Sample.busyListener.noting 0) := Sample.handle_busyListener
  have hfree : (Sample.busyListener.noting 0).step (.surroundings Sample.listener.setting) =
      .ok (Sample.listener.noting 0) := rfl
  have hrun : Sample.listener.run Sample.missed = .ok (Sample.listener.noting 0) := by
    rw [Sample.missed, run_cons_of_ok hbusy, run_cons_of_ok hnoted, run_cons_of_ok hfree, run_nil]
  have hpeer : (Sample.listener.noting 0).peers[0]? = some _ := rfl
  have hrefused : (Sample.listener.noting 0).handle 0 (.getVotes 5) = .ok _ :=
    (handle_iff ⟨rfl, rfl⟩ hpeer).2 (.refused ⟨rfl, rfl⟩)
  obtain ⟨hanswered, -⟩ := h Sample.listener _ _ _ 0 5 Sample.not_hasAsked_listener hrun rfl
    ⟨rfl, rfl⟩ (by decide) hrefused
  have hsometime := hanswered rfl
  rw [Sample.missed, sometime_cons hbusy, sometime_cons hnoted, sometime_cons hfree] at hsometime
  rcases hsometime with ⟨_, _, he, -⟩ | ⟨count, announcements, he, ha⟩ | ⟨_, _, he, -⟩ | hnone
  · cases he
  · cases he
    exact noting_ne_answering (Except.ok.inj (hnoted.symm.trans ha))
  · cases he
  · exact sometime_nil hnone

end Node
end MasternodePayments
