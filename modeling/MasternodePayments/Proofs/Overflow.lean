import MasternodePayments.Proofs.Horizon
import MasternodePayments.Proofs.Ledger.Reflection
import MasternodePayments.Proofs.Node.Messages
import MasternodePayments.Proofs.Tally.Order

/-!
# Messages do not overflow

A peer chooses every word in its messages. Still none of them makes an operation on words overflow
(`Node.exists_handle`): the heights in a vote are only compared and lowered, and what is added and
multiplied are the parameters, the tip, numbers of masternodes (`Setting.Fits`) and weights, which
are no more than there are stored votes.

* `Decides`: checks that may refuse a vote and do not overflow.
* `Ledger.decides_check`: so the checks on a vote do.
* `Ledger.Counts.exists_record`: a vote can be recorded while there are few enough.
-/

namespace MasternodePayments

/-- The words of the surroundings leave room for what is done with them. -/
structure Setting.Fits (s : Setting) : Prop where
  registry : s.registry.size < 2 ^ 63
  tip : ∀ tip, s.chain.tip? = some tip → tip.toNat + s.config.futureWindow.toNat < 2 ^ 64
  population : s.registry.enabledCount * s.config.populationPercent.toNat + 99 < 2 ^ 64

/-! ## Checks that do not overflow -/

/-- There is a result or a refusal, but no overflow. -/
def Decides {α : Type} (x : Except Fault α) : Prop := ∀ o, x ≠ .error (.overflow o)

section
variable {α β : Type}

theorem decides_ok (a : α) : Decides (.ok a : Except Fault α) := fun _ h => by cases h

theorem decides_reject (cause : Rejection) : Decides (reject cause : Except Fault α) :=
  fun _ h => by cases h

theorem decides_require (condition : Bool) (cause : Rejection) :
    Decides (require condition cause) := by
  unfold require
  split
  · exact decides_ok ()
  · exact decides_reject cause

theorem decides_obtain? (value : Option α) (cause : Rejection) : Decides (obtain? value cause) := by
  cases value with
  | none => exact decides_reject cause
  | some a => exact decides_ok a

theorem decides_liftM {x : Checked α} (h : ∃ a, x = .ok a) :
    Decides (liftM x : Except Fault α) := by
  obtain ⟨a, rfl⟩ := h
  exact decides_ok a

theorem Decides.bind {x : Except Fault α} {f : α → Except Fault β} (hx : Decides x)
    (hf : ∀ a, x = .ok a → Decides (f a)) : Decides (x >>= f) := by
  cases h : x with
  | error fault =>
    intro o ho
    exact hx o (h.trans (congrArg Except.error (Except.error.inj ho)))
  | ok a => exact hf a h

theorem Decides.settle {x : Except Fault α} (h : Decides x) : ∃ r, settle x = .ok r := by
  rcases x with (o | cause) | a
  · exact absurd rfl (h o)
  · exact ⟨_, rfl⟩
  · exact ⟨_, rfl⟩

end

theorem Registry.rank?_le_size {r : Registry} {protocol : UInt32} {id : MasternodeId} {rank : Nat}
    (h : r.rank? id protocol = some rank) : rank ≤ r.size := by
  obtain ⟨i, hi, rfl⟩ := Option.map_eq_some_iff.1 h
  obtain ⟨hlt, -⟩ := List.findIdx?_eq_some_iff_getElem.1 hi
  exact Nat.lt_of_lt_of_le hlt (List.length_filter_le ..)

namespace Setting

variable {s : Setting}

theorem Fits.exists_bound (h : s.Fits) :
    ∃ bound, s.config.scaledPopulation s.registry.enabledCount = .ok bound := by
  have hfit : s.registry.enabledCount * s.config.populationPercent.toNat + 99 < UInt64.size :=
    h.population
  exact ⟨UInt64.ofNat ((s.registry.enabledCount * s.config.populationPercent.toNat + 99) / 100),
    Config.scaledPopulation_eq_ok.2 ⟨hfit, UInt64.toNat_ofNat_of_lt' (by omega)⟩⟩

theorem Fits.exists_last (h : s.Fits) {tip : Height} (htip : s.chain.tip? = some tip) :
    ∃ last, add64 tip s.config.futureWindow = .ok last := ⟨_, if_pos (h.tip tip htip)⟩

theorem Fits.exists_window (h : s.Fits) (tier : Tier) {tip : Height}
    (htip : s.chain.tip? = some tip) : ∃ reach, s.window tier tip = .ok reach := by
  obtain ⟨bound, hbound⟩ := h.exists_bound
  obtain ⟨span, hspan, -⟩ := Config.scaledPopulation_mono (s.registry.countInTier_le tier) hbound
  obtain ⟨last, hlast⟩ := h.exists_last htip
  exact ⟨_, window_eq_ok.2 ⟨span, hspan, hlast, rfl⟩⟩

theorem Fits.decides_checkWindow (h : s.Fits) (height : Height) (tier : Tier) {tip : Height}
    (htip : s.chain.tip? = some tip) : Decides (s.checkWindow height tier tip) :=
  (decides_liftM (h.exists_window tier htip)).bind fun _ _ => decides_require _ _

/-- A rank beyond the limit shows that twice the limit is a word: no rank exceeds the number of
masternodes. -/
theorem Fits.exists_twice_limit (h : s.Fits) {id : MasternodeId} {protocol : UInt32} {rank : Nat}
    (hrank : s.registry.rank? id protocol = some rank)
    (hbeyond : s.withinLimit (some rank) = false) :
    ∃ twice, mul64 s.config.signaturesTotal 2 = .ok twice := by
  have hlt : s.config.signaturesTotal.toNat < rank := by simpa [withinLimit] using hbeyond
  have hle := Registry.rank?_le_size hrank
  have hsize := h.registry
  refine ⟨_, if_pos ?_⟩
  show s.config.signaturesTotal.toNat * 2 < 2 ^ 64
  omega

theorem Fits.decides_checkEligibility (h : s.Fits) (voter : Masternode) :
    Decides (s.checkEligibility voter) := by
  refine (decides_require _ _).bind fun _ _ => ?_
  dsimp only
  split
  · exact decides_ok ()
  · next hbeyond =>
    split
    · next hranked =>
      obtain ⟨rank, hrank⟩ := Option.isSome_iff_exists.1 hranked
      rw [hrank] at hbeyond
      have htwice := h.exists_twice_limit hrank (Bool.eq_false_iff.2 hbeyond)
      exact (decides_liftM htwice).bind fun _ _ => decides_reject _
    · exact decides_reject _

end Setting

namespace Ledger

variable {s : Setting} {l : Ledger} {o : Origins} {v : Vote} {a : Admission}

/-! ## A vote -/

/-- **The checks on a vote do not overflow.** -/
theorem decides_check (h : s.Fits) (l : Ledger) (v : Vote) : Decides (l.check s v) := by
  refine (decides_require _ _).bind fun _ _ => (decides_obtain? _ _).bind fun voter _ =>
    (decides_obtain? _ _).bind fun ⟨script, tier⟩ _ => (decides_obtain? _ _).bind fun tip htip => ?_
  refine (h.decides_checkWindow _ tier (obtain?_eq_ok.1 htip)).bind fun _ _ =>
    (h.decides_checkEligibility voter).bind fun _ _ => ?_
  exact (decides_require _ _).bind fun _ _ => (decides_require _ _).bind fun _ _ =>
    (decides_require _ _).bind fun _ _ => decides_ok _

theorem countVotes_le (l : Ledger) (p : Hash → Vote → Bool) : l.countVotes p ≤ l.voteCount := by
  rw [countVotes, voteCount, ← Std.ExtTreeMap.length_toList]
  exact List.countP_le_length

/-- **A vote can be recorded** if there are fewer votes than a weight can count. -/
theorem Counts.exists_record (hc : l.Counts o) (hlt : l.voteCount < 2 ^ 32 - 1) (v : Vote)
    (a : Admission) : ∃ l', l.record v a = .ok l' := by
  have hroom : Tally.weightIn (l.tallyAt v.height).candidates (a.script, a.tier) +
      (1 : UInt32).toNat < UInt32.size := by
    have hle := l.countVotes_le fun id w => w.height = v.height ∧ o id = some (a.script, a.tier)
    rw [hc.weight, votesFor]
    show _ + 1 < 2 ^ 32
    omega
  obtain ⟨cs, hcs⟩ := Tally.exists_addTo hroom
  exact ⟨_, record_eq_ok.2
    ⟨{ l.tallyAt v.height with candidates := cs }, Tally.add_eq_ok.2 ⟨rfl, hcs⟩, rfl⟩⟩

theorem Counts.decides_admitVote (hc : l.Counts o) (hlt : l.voteCount < 2 ^ 32 - 1) (h : s.Fits)
    (v : Vote) : Decides (l.admitVote s v) :=
  (decides_check h l v).bind fun a _ => decides_liftM (hc.exists_record hlt v a)

/-! ## A request -/

theorem exists_announcements? (h : s.Fits) (l : Ledger) (count : UInt64) :
    ∃ sent, l.announcements? s count = .ok sent := by
  unfold announcements?
  split
  · exact ⟨_, rfl⟩
  · next tip htip =>
    obtain ⟨bound, hbound⟩ := h.exists_bound
    obtain ⟨last, hlast⟩ := h.exists_last htip
    rw [hbound]
    simp only [bind, Except.bind, hlast]
    exact ⟨_, rfl⟩

end Ledger

/-! ## Messages -/

namespace Node

variable {n m : Node} {es : List Event} {peer : Peer}

theorem exists_handles (h : n.setting.Fits) {o : Origins} (hc : n.ledger.Counts o)
    (hlt : n.ledger.voteCount < 2 ^ 32 - 1) (index : Nat) (peer : Peer) (message : Message) :
    ∃ k, n.Handles index peer message k := by
  cases message with
  | getVotes count =>
    by_cases hspent : n.Exhausted peer
    · exact ⟨_, .refused hspent⟩
    · obtain ⟨_ | announcements, ha⟩ := n.ledger.exists_announcements? h count
      · exact ⟨_, .unanswered hspent ha⟩
      · exact ⟨_, .answered hspent ha⟩
  | vote v =>
    by_cases hold : peer.protocol < n.setting.config.network.activeProtocol
    · exact ⟨_, .outdated hold⟩
    · obtain ⟨cause | l, hv⟩ := (hc.decides_admitVote hlt h v).settle
      · rw [settle_eq_ok_error] at hv
        by_cases hdup : ∃ id, cause = .duplicate id
        · obtain ⟨id, rfl⟩ := hdup
          exact ⟨_, .duplicate hold hv⟩
        · exact ⟨_, .rejected hold hv fun id he => hdup ⟨id, he⟩⟩
      · exact ⟨_, .admitted hold (settle_eq_ok_ok.1 hv)⟩
  | statusCount item count => exact ⟨n, .statusCount⟩

/-- **No message makes a node overflow.** Whatever happened since its ledger was empty, restorations
apart: if it stores fewer votes than a weight can count and its surroundings leave room, it handles
every message of every peer. It counts one message at most, so that no counter has come further
than there were events. -/
theorem exists_handle (hl : n.ledger = {}) (hes : ∀ snapshot, .restore snapshot ∉ es)
    (h : n.run es = .ok m) (hfits : m.setting.Fits) (hlt : m.ledger.voteCount < 2 ^ 32 - 1)
    (index : Nat) (message : Message) :
    ∃ k, m.handle index message = .ok k ∧ n.traffic.GrowsBy k.traffic (es.length + 1) := by
  obtain ⟨o, -, hcounts⟩ := run_counts hl hes h
  obtain ⟨k, hk⟩ : ∃ k, m.handle index message = .ok k := by
    by_cases hlistens : m.Listens
    · cases hp : m.peers[index]? with
      | none => exact ⟨m, handle_of_unknown hp⟩
      | some peer =>
        obtain ⟨k, hk⟩ := exists_handles hfits hcounts hlt index peer message
        exact ⟨k, (handle_iff hlistens hp).2 hk⟩
    · exact ⟨m, handle_of_deaf hlistens⟩
  exact ⟨k, hk, (run_growsBy h).trans (handle_growsBy hk)⟩

end Node

/-- A vote for the last height of all, with a signature that is none. -/
def Sample.farVote : Vote := { vote 0 0 (UInt64.ofNat (2 ^ 64 - 1)) with signature := [1, 2, 3] }

/-- A node that has a vote and a peer. -/
theorem Node.exists_handle_farVote :
    let n : Node := {
      setting := Sample.setting {} [0] 1000
      peers := [{ id := 1, protocol := Network.main.activeProtocol }] }
    ∃ m k, n.run [.admitVote (Sample.vote 0 0 1005), .surroundings n.setting] = .ok m ∧
      m.ledger.voteCount = 1 ∧ m.handle 0 (.vote Sample.farVote) = .ok k ∧
      n.traffic.GrowsBy k.traffic 3 := by
  intro n
  have hvote : (·.ledger.voteCount) <$> n.run [.admitVote (Sample.vote 0 0 1005)] = .ok 1 := by
    decide +kernel
  obtain ⟨j, hj, hcount⟩ := map_eq_ok.1 hvote
  have hrun : n.run ([.admitVote (Sample.vote 0 0 1005)] ++ [.surroundings n.setting]) =
      .ok { j with setting := n.setting } := by
    rw [run_append, hj]
    rfl
  have hfits : n.setting.Fits := by
    refine ⟨by decide, fun tip htip => ?_, by decide⟩
    cases htip
    decide
  have hfew : j.ledger.voteCount < 2 ^ 32 - 1 := by
    rw [hcount]
    decide
  obtain ⟨k, hk, hgrows⟩ := exists_handle rfl (by simp) hrun hfits hfew 0 (.vote Sample.farVote)
  exact ⟨_, k, hrun, hcount, hk, hgrows⟩

end MasternodePayments
