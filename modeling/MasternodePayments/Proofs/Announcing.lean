import MasternodePayments.Proofs.Maintenance
import MasternodePayments.Proofs.Synchronisation

/-!
# What a peer is told of the votes

A peer that asks for the votes gets announcements and their number. An announcement holds the
identity that is computed from the vote, while votes are looked up by the key that they are stored
under; that the two agree is an invariant over everything that happens to a ledger, restarts
included (`World.run_keyed`).

* `Ledger.announcements?_eq`: the announcements, once nothing overflows.
* `Ledger.Keyed.told`: what they say of a ledger whose votes are stored under their identities.
* `World.announceTo_exact`: what the peer is sent, and that asking for more heights loses no vote.
-/

namespace MasternodePayments

namespace Ledger

variable {l : Ledger} {s : Setting} {first first' last tip bound : Height} {count : UInt64}

/-- The stored votes for the heights from one to another, in the order of their identities. -/
def votesWithin (l : Ledger) (first last : Height) : List Vote :=
  l.voteList.filter fun v => decide (first ≤ v.height ∧ v.height ≤ last)

theorem mem_votesWithin {v : Vote} :
    v ∈ l.votesWithin first last ↔ v ∈ l.voteList ∧ first ≤ v.height ∧ v.height ≤ last := by
  simp [votesWithin]

theorem votesWithin_sublist (l : Ledger) (last : Height) (h : first' ≤ first) :
    (l.votesWithin first last).Sublist (l.votesWithin first' last) := by
  refine List.monotone_filter_right _ fun v hv => ?_
  simp only [decide_eq_true_eq] at hv ⊢
  exact ⟨UInt64.le_trans h hv.1, hv.2⟩

theorem announcements?_eq (htip : s.chain.tip? = some tip)
    (hbound : s.config.scaledPopulation s.registry.enabledCount = .ok bound)
    (hlast : add64 tip s.config.futureWindow = .ok last) :
    l.announcements? s count =
      .ok (some ((l.votesWithin (monus tip (min count bound)) last).map (·.announcement))) := by
  simp only [announcements?, htip, hbound, hlast]
  rfl

/-! ## Votes under their identities -/

theorem Keyed.map_identity (h : Keyed l.votes) : l.voteList.map (·.identity) = l.votes.keys := by
  rw [voteList, List.map_map, ← Std.ExtTreeMap.map_fst_toList_eq_keys]
  refine List.map_congr_left fun p hp => ?_
  exact h p.1 p.2 (Std.ExtTreeMap.mem_toList_iff_getElem?_eq_some.1 hp)

theorem Keyed.ordered (h : Keyed l.votes) :
    l.voteList.Pairwise fun v w => compare v.identity w.identity = .lt := by
  rw [← List.pairwise_map (f := Vote.identity) (R := fun a b => compare a b = .lt), h.map_identity]
  exact Std.ExtTreeMap.ordered_keys

/-- Announcements of precisely the stored votes from one height to another, all of which can be
had. -/
structure Told (l : Ledger) (first last : Nat) (announced : List Announcement) : Prop where
  /-- Each of them comes once, in order. -/
  ordered : announced.Pairwise fun a b => compare a.identity b.identity = .lt
  exact : ∀ a, a ∈ announced ↔
    ∃ v ∈ l.voteList, v.identity = a.identity ∧ first ≤ v.height.toNat ∧ v.height.toNat ≤ last
  served : ∀ a ∈ announced, ∃ v, l.votes[a.identity]? = some v ∧ v.identity = a.identity

theorem Keyed.told (h : Keyed l.votes) (first last : Height) :
    l.Told first.toNat last.toNat ((l.votesWithin first last).map (·.announcement)) where
  ordered := List.pairwise_map.2 (h.ordered.filter _)
  exact a := by
    simp only [List.mem_map, mem_votesWithin, UInt64.le_iff_toNat_le]
    constructor
    · rintro ⟨v, ⟨hv, hreach⟩, rfl⟩
      exact ⟨v, hv, rfl, hreach⟩
    · rintro ⟨v, hv, hid, hreach⟩
      exact ⟨v, ⟨hv, hreach⟩, congrArg Announcement.mk hid⟩
  served a ha := by
    obtain ⟨v, hv, rfl⟩ := List.mem_map.1 ha
    obtain ⟨id, hid⟩ := mem_voteList.1 (mem_votesWithin.1 hv).1
    obtain rfl := h id v hid
    exact ⟨v, hid, rfl⟩

end Ledger

/-! ## What is sent -/

namespace Node

variable {n : Node} {index : Nat} {peer : Peer} {tip bound last : Height}

/-- The node after it told a peer of votes: to what the peer was sent before, the announcements are
added, and one message with their number. -/
def telling (n : Node) (index : Nat) (peer : Peer) (announced : List Announcement) : Node :=
  { n with
    peers := n.peers.set index { peer with
      announced := peer.announced ++ announced
      messages := peer.messages ++
        [.statusCount .masternodeWinners (UInt64.ofNat announced.length)] } }

theorem announceTo_of_busy (htip : n.setting.chain.tip? = none) (index : Nat) (count : UInt64) :
    n.announceTo index count = .ok (n, none) := by
  simp only [announceTo, Ledger.announcements?, htip]
  rfl

theorem announceTo_of_tip (hp : n.peers[index]? = some peer)
    (htip : n.setting.chain.tip? = some tip)
    (hbound : n.setting.config.scaledPopulation n.setting.registry.enabledCount = .ok bound)
    (hlast : add64 tip n.setting.config.futureWindow = .ok last) (count : UInt64) :
    n.announceTo index count =
      let announced :=
        (n.ledger.votesWithin (monus tip (min count bound)) last).map (·.announcement)
      .ok (n.telling index peer announced, some announced.length) := by
  simp only [announceTo, Ledger.announcements?_eq htip hbound hlast, onPeer,
    List.modify_eq_set_getElem?, hp]
  rfl

end Node

namespace World

variable {w : World} {moves : List Move} {peer : Peer} {tip bound last : Height}

/-- **A peer is told of precisely the votes within reach, and gets each of them.** A node, however
its ledger was filled and whatever restarts it went through, tells a peer of the votes from as many
heights below the tip as the peer asks for, at most one population bound, up to the last height of
the window. Asking for more heights loses no vote. Without a tip the peer is told nothing. -/
theorem announceTo_exact {n : Node} (hn : n.ledger = {}) (h : run { node := n } moves = .ok w)
    {index : Nat} (hp : w.node.peers[index]? = some peer) (count : UInt64) :
    (w.node.setting.chain.tip? = none → w.node.announceTo index count = .ok (w.node, none)) ∧
    ∀ tip bound last, w.node.setting.chain.tip? = some tip →
      w.node.setting.config.scaledPopulation w.node.setting.registry.enabledCount = .ok bound →
      add64 tip w.node.setting.config.futureWindow = .ok last →
      ∃ announced,
        w.node.announceTo index count =
          .ok (w.node.telling index peer announced, some announced.length) ∧
        w.node.ledger.Told (tip.toNat - min count.toNat bound.toNat)
          (tip.toNat + w.node.setting.config.futureWindow.toNat) announced ∧
        ∀ count', count ≤ count' → ∃ more,
          w.node.announceTo index count' =
            .ok (w.node.telling index peer more, some more.length) ∧
          announced.Sublist more ∧ announced.length ≤ more.length := by
  have hkeyed : Ledger.Keyed w.node.ledger.votes := (run_keyed (keyed_start hn) h).ledger
  refine ⟨fun htip => Node.announceTo_of_busy htip index count, ?_⟩
  intro tip bound last htip hbound hlast
  have hreach := hkeyed.told (monus tip (min count bound)) last
  rw [toNat_monus, UInt64.toNat_min, ← add64_eq_ok.1 hlast] at hreach
  refine ⟨_, Node.announceTo_of_tip hp htip hbound hlast count, hreach, fun count' hle => ?_⟩
  have hfirst : monus tip (min count' bound) ≤ monus tip (min count bound) := by
    rw [UInt64.le_iff_toNat_le] at hle ⊢
    rw [toNat_monus, toNat_monus, UInt64.toNat_min, UInt64.toNat_min]
    omega
  have hsub := (w.node.ledger.votesWithin_sublist last hfirst).map (·.announcement)
  exact ⟨_, Node.announceTo_of_tip hp htip hbound hlast count', hsub, hsub.length_le⟩

end World

/-! ## A sample told after a restart -/

namespace Sample

def asker : Peer := { id := 1, protocol := Network.main.activeProtocol }

def answerer : Node where
  setting := setting {} [0, 1] 1000
  peers := [asker]

/-- Two masternodes vote for each other, and the votes survive a restart. -/
def reopened : List World.Move :=
  [.event (.admitVote (vote 0 1 998)), .event (.admitVote (scriptVote 1 0 1005)), .save,
    .event .clear, .restore 0]

theorem run_reopened :
    (do
      let w ← World.run { node := answerer } reopened
      let s := w.node.setting
      let bound ← s.config.scaledPopulation s.registry.enabledCount
      let last ← add64 1000 s.config.futureWindow
      let (_, few) ← w.node.announceTo 0 1
      let (_, many) ← w.node.announceTo 0 5
      pure (w.node.peers, [s.chain.tip?, some bound, some last], [few, many])) =
    .ok ([asker], [some 1000, some 3, some 1020], [some 1, some 2]) := by decide +kernel

end Sample

/-- Of the two votes one is within reach at first, and both if more heights are asked for. -/
theorem World.announceTo_exact_reopened : ∃ w few many,
    run { node := Sample.answerer } Sample.reopened = .ok w ∧
    w.node.announceTo 0 1 = .ok (w.node.telling 0 Sample.asker few, some 1) ∧
    w.node.ledger.Told 999 1020 few ∧
    w.node.announceTo 0 5 = .ok (w.node.telling 0 Sample.asker many, some 2) ∧
    few.Sublist many := by
  obtain ⟨w, hw, h⟩ := bind_eq_ok.1 Sample.run_reopened
  obtain ⟨bound, hbound, h⟩ := bind_eq_ok.1 h
  obtain ⟨last, hlast, h⟩ := bind_eq_ok.1 h
  obtain ⟨⟨m, told⟩, hfew, h⟩ := bind_eq_ok.1 h
  obtain ⟨⟨k, told'⟩, hmany, h⟩ := bind_eq_ok.1 h
  simp only [pure_eq_ok, Prod.mk.injEq, List.cons.injEq, Option.some.injEq] at h
  obtain ⟨hpeers, ⟨htip, rfl, rfl, -⟩, rfl, rfl, -⟩ := h
  have hp : w.node.peers[0]? = some Sample.asker := by
    rw [hpeers]
    rfl
  obtain ⟨few, hfew', htold, hmore⟩ :=
    (announceTo_exact rfl hw hp 1).2 1000 3 1020 htip hbound hlast
  obtain ⟨many, hmany', hsub, -⟩ := hmore 5 (by decide)
  obtain ⟨-, hone⟩ := Prod.mk.inj (Except.ok.inj (hfew.symm.trans hfew'))
  obtain ⟨-, htwo⟩ := Prod.mk.inj (Except.ok.inj (hmany.symm.trans hmany'))
  rw [← hone] at hfew'
  rw [← htwo] at hmany'
  rw [add64_eq_ok.1 hlast] at htold
  exact ⟨w, few, many, hw, hfew', htold, hmany', hsub⟩

end MasternodePayments
