import MasternodePayments.Proofs.Electorate
import MasternodePayments.Proofs.Ledger.Guard
import MasternodePayments.Proofs.Ledger.Reflection

/-!
# Runs under fixed rules

As long as votes pay the same scripts and tiers and the same masternodes may vote, what a stored
vote counted for at its admission is what it counts for now. The tip may move meanwhile.

* `Ledger.SoundIn`: a ledger agrees with the rules of a setting.
* `Node.run_sound`: so does every ledger that was filled under these rules.
-/

namespace MasternodePayments

/-! ## Notes under fixed rules -/

section
variable {γ : Type} {s t : Setting} {l : Ledger} {v : Vote}

theorem Setting.SamePayees.origin?_eq (h : s.SamePayees t) (v : Vote) :
    s.origin? v = t.origin? v := h.resolve?_eq v.payee

theorem Setting.SamePayees.standing_eq (h : s.SamePayees t) (now : Nat) (v : Vote) :
    s.standing now v = t.standing now v := by
  rw [Setting.standing, Setting.standing, h.resolve?_eq]

/-- The notes say of every stored vote what one would note now. -/
def Notes.Current (note : Vote → γ) (l : Ledger) (o : Notes γ) : Prop :=
  ∀ {id : Hash} {v}, l.votes[id]? = some v → o id = note v

theorem Notes.current_kept {note : Setting → Vote → γ} {S : Setting → Prop}
    (h : ∀ t, S t → ∀ v, note t v = note s v) : Notes.Kept note S (Notes.Current (note s)) where
  record {t l l' o v a} ht ho ha hr := by
    intro id w hw
    rcases stored_record (note t v) ha.not_mem hr hw with ⟨-, rfl, he⟩ | ⟨hw, he⟩
    · rw [he, h t ht]
    · rw [he, ho hw]
  noteCast _ ho := ho
  dropBelow _ ho _ _ hw := ho (Ledger.stored_dropBelow.1 hw).1
  clear _ _ _ hw := by simp [Ledger.clear] at hw

/-- What is asked of every vote that is admitted holds of every stored vote. -/
theorem Notes.stored_kept (note : Setting → Vote → γ) {S : Setting → Prop} {P : Vote → Prop}
    (h : ∀ {t l v a}, S t → Ledger.Admits l t v a → P v) :
    Notes.Kept note S fun l _ => ∀ {id : Hash} {v}, l.votes[id]? = some v → P v where
  record {t l l' o v a} ht ho ha hr := by
    intro id w hw
    rcases (Ledger.stored_record ha.not_mem hr).1 hw with ⟨rfl, rfl⟩ | hw'
    · exact h ht ha
    · exact ho hw'
  noteCast _ ho := ho
  dropBelow _ ho _ _ hw := ho (Ledger.stored_dropBelow.1 hw).1
  clear _ _ _ hw := by simp [Ledger.clear] at hw

/-- Every stored vote is by a masternode that may vote. -/
def Ledger.VotersIn (s : Setting) (l : Ledger) : Prop :=
  ∀ {id : Hash} {v}, l.votes[id]? = some v → s.MayVote v.voter

theorem Ledger.votersIn_kept (note : Setting → Vote → γ) :
    Notes.Kept note s.SameRules fun l _ => l.VotersIn s :=
  Notes.stored_kept note fun ht ha => by
    obtain ⟨m, hm, -, hrank, -⟩ := ha.voter
    rw [ht.mayVote_iff, ← Registry.id_of_find? hm]
    exact hrank

end

/-! ## Sound ledgers -/

namespace Ledger

variable {s : Setting} {l : Ledger} {v : Vote} {height : Height} {key : Script × Tier}

/-- The stored votes for a height that count for a script in a tier. -/
def supporters (l : Ledger) (s : Setting) (height : Height) (key : Script × Tier) : List Vote :=
  l.voteList.filter fun v => v.height = height ∧ s.origin? v = some key

/-- The stored votes that use up a ballot. -/
def votesOf (l : Ledger) (s : Setting) (b : Ballot) : List Vote :=
  l.voteList.filter fun v => s.ballot? v = some b

/-- The tallies count the stored votes by the rules of a setting, no two of these votes use up the
same ballot, and their voters may vote. -/
structure SoundIn (l : Ledger) (s : Setting) : Prop where
  distinct : ∀ {height : Height} {t}, l.tallies[height]? = some t →
    (t.candidates.map (·.key)).Nodup
  counted : ∀ {height : Height} {t c}, l.tallies[height]? = some t → c ∈ t.candidates →
    c.votes.toNat = (l.supporters s height c.key).length
  ballots : (l.voteList.map s.ballot?).Nodup
  eligible : ∀ v ∈ l.voteList, s.MayVote v.voter

theorem ballot?_eq_of_origin? {script : Script} {tier : Tier}
    (h : s.origin? v = some (script, tier)) : s.ballot? v = some ⟨v.voter, tier, v.height⟩ :=
  Setting.ballot?_eq_some.2 ⟨congrArg (Option.map (·.2)) h, rfl, rfl⟩

theorem mem_supporters : v ∈ l.supporters s height key ↔
    v ∈ l.voteList ∧ v.height = height ∧ s.origin? v = some key := by
  rw [supporters, List.mem_filter, decide_eq_true_eq]

theorem votesFor_eq_length {o : Origins} (ho : Notes.Current s.origin? l o) :
    l.votesFor o height key = (l.supporters s height key).length := by
  have hnow : l.votesFor o height key =
      l.countVotes fun _ v => v.height = height ∧ s.origin? v = some key :=
    countVotes_congr fun id v hv => by rw [ho hv]
  rw [hnow, supporters, ← List.countP_eq_length_filter, voteList, List.countP_map]
  rfl

theorem nodup_ballots {o : Notes Standing} (hg : l.Guards 0 o)
    (ho : Notes.Current (s.standing 0) l o) : (l.voteList.map s.ballot?).Nodup := by
  rw [voteList, List.map_map]
  refine List.pairwise_map.2 (l.votes.distinct_keys_toList.imp_of_mem ?_)
  rintro ⟨id, v⟩ ⟨id', w⟩ hv hw hne (he : s.ballot? v = s.ballot? w)
  rw [Std.ExtTreeMap.mem_toList_iff_getElem?_eq_some] at hv hw
  have hid : id ≠ id' := fun e => hne (e ▸ Std.ReflCmp.compare_self)
  obtain ⟨tier, htier⟩ := hg.placed hv
  have hb : s.ballot? v = some ⟨v.voter, tier, v.height⟩ :=
    Setting.ballot?_eq_some.2 ⟨(congrArg Standing.tier (ho hv)).symm.trans htier, rfl, rfl⟩
  obtain ⟨htier', hvoter, hheight⟩ := Setting.ballot?_eq_some.1 (he.symm.trans hb)
  have hr : v.Rivals w (o id) (o id') :=
    ⟨hvoter.symm, hheight.symm, htier.trans ((congrArg Standing.tier (ho hw)).trans htier').symm⟩
  -- All standings are of the same moment, but rivals are of different ones.
  have hsince : (o id).since = (o id').since := by
    rw [ho hv, ho hw, Setting.standing, Setting.standing]
  obtain ⟨time, -, hle, hlt⟩ := hg.ordered hv hw hid hr hsince.le
  omega

/-- The one stored vote that uses up its ballot. -/
theorem SoundIn.votesOf_eq (h : l.SoundIn s) (hv : v ∈ l.voteList) {b : Ballot}
    (hb : s.ballot? v = some b) : l.votesOf s b = [v] := by
  obtain ⟨pre, post, he⟩ := List.append_of_mem hv
  have hn := h.ballots
  rw [he, List.map_append, List.map_cons, List.nodup_append, List.nodup_cons] at hn
  obtain ⟨-, ⟨hpost, -⟩, hpre⟩ := hn
  have none_of : ∀ ws : List Vote, (∀ w ∈ ws, s.ballot? w ≠ s.ballot? v) →
      ws.filter (fun w => s.ballot? w = some b) = [] := fun ws hws =>
    List.filter_eq_nil_iff.2 fun w hw hwb => hws w hw ((of_decide_eq_true hwb).trans hb.symm)
  rw [votesOf, he, List.filter_append, List.filter_cons, if_pos (by simp [hb]),
    none_of pre fun w hw => hpre _ (List.mem_map_of_mem hw) _ List.mem_cons_self,
    none_of post fun w hw e => hpost (e ▸ List.mem_map_of_mem hw), List.nil_append]

/-- No two votes of one voter for one height count for candidates of one tier. -/
theorem SoundIn.nodup_voters (h : l.SoundIn s) (height : Height) (key : Script × Tier) :
    ((l.supporters s height key).map (·.voter)).Nodup := by
  have hn : ((l.supporters s height key).map s.ballot?).Nodup :=
    h.ballots.sublist (List.filter_sublist.map _)
  refine List.Nodup.of_map (fun voter => some (⟨voter, key.2, height⟩ : Ballot)) ?_
  rw [List.map_map]
  convert hn using 1
  refine List.map_congr_left fun v hv => ?_
  obtain ⟨-, rfl, ho⟩ := mem_supporters.1 hv
  exact (ballot?_eq_of_origin? ho).symm

end Ledger

/-! ## Runs -/

namespace Node

/-- An event that leaves the surroundings as `S` says, and is no restoration. -/
def Event.Under (S : Setting → Prop) : Event → Prop
  | .surroundings t => S t
  | .restore _ => False
  | _ => True

/-- An event that leaves the rules as they are in `s`, and is no restoration. -/
def Event.Fixes (s : Setting) : Event → Prop
  | .surroundings t => s.SameRules t
  | .restore _ => False
  | _ => True

variable {S : Setting → Prop} {s : Setting} {n m : Node} {e : Event} {es : List Event}

theorem Event.Fixes.under (h : e.Fixes s) : e.Under s.SameRules := by
  cases e <;> exact h

theorem Event.Under.fixes (h : e.Under S) (hS : ∀ t, S t → s.SameRules t) : e.Fixes s := by
  cases e with
  | surroundings t => exact hS t h
  | _ => exact h

theorem Event.Under.not_restore (h : e.Under S) (snapshot : Snapshot) : e ≠ .restore snapshot := by
  rintro rfl
  exact h

theorem Event.Under.settingAfter (h : e.Under S) {t : Setting} (ht : S t) :
    S (e.settingAfter t) := by
  cases e with
  | surroundings u => exact h
  | _ => exact ht

/-- What withstands every event under certain surroundings holds after a run under them. -/
theorem run_under {γ : Type} {note : Setting → Vote → γ} {P : Ledger → Notes γ → Prop}
    (hP : Notes.Kept note S P) (hs : S n.setting) (hes : ∀ e ∈ es, e.Under S)
    (h : n.run es = .ok m) {o : Notes γ} (hstart : P n.ledger o) :
    S m.setting ∧ ∃ o', P m.ledger o' := by
  obtain ⟨o', ho'⟩ := exists_traceFrom h o
  obtain ⟨hset, hledger⟩ := traceFrom_keeps hP hs hstart
    (fun e he => ⟨(hes e he).not_restore, fun _ ht => (hes e he).settingAfter ht⟩) ho'
  exact ⟨hset, o', hledger⟩

theorem run_keeps {γ : Type} {note : Setting → Vote → γ} {P : Ledger → Notes γ → Prop}
    (hP : Notes.Kept note s.SameRules P) (hs : s.SameRules n.setting)
    (hes : ∀ e ∈ es, e.Fixes s) (h : n.run es = .ok m) {o : Notes γ} (hstart : P n.ledger o) :
    ∃ o', P m.ledger o' :=
  (run_under hP hs (fun e he => (hes e he).under) h hstart).2

/-- Fixed rules are still those of the node after the run. -/
theorem run_sameRules (hs : s.SameRules n.setting) (hes : ∀ e ∈ es, e.Fixes s)
    (h : n.run es = .ok m) : s.SameRules m.setting := by
  have nothing : Notes.Kept (fun _ _ => ()) s.SameRules fun _ _ => True :=
    ⟨fun _ _ _ _ => trivial, fun _ _ => trivial, fun _ _ => trivial, fun _ => trivial⟩
  exact (run_under nothing hs (fun e he => (hes e he).under) h (o := fun _ => ()) trivial).1

/-- **A ledger that was filled under fixed rules agrees with them.** -/
theorem run_sound (hl : n.ledger = {}) (hs : s.SameRules n.setting) (hes : ∀ e ∈ es, e.Fixes s)
    (h : n.run es = .ok m) : m.ledger.SoundIn s := by
  have always : ∀ t, s.SameRules t → True := fun _ _ => trivial
  have empty : n.ledger.votes = ∅ := by rw [hl]
  have none_stored : ∀ {id : Hash} {v}, n.ledger.votes[id]? ≠ some v := by simp [empty]
  obtain ⟨o, ⟨hcount, hnow⟩, hvoters⟩ := run_keeps
    (((Ledger.counts_kept.mono always).and
      (Notes.current_kept (s := s) fun t ht v => (ht.origin?_eq v).symm)).and
      (Ledger.votersIn_kept Setting.origin?)) hs hes h (o := fun _ => none)
    ⟨⟨Ledger.counts_empty empty (by rw [hl]), fun h => absurd h none_stored⟩,
      fun h => absurd h none_stored⟩
  obtain ⟨u, hguard, hstanding⟩ := run_keeps
    ((Ledger.guards_kept.mono always).and
      (Notes.current_kept (s := s) fun t ht v => (ht.standing_eq 0 v).symm)) hs hes h
    (o := fun _ => ⟨none, 0, none⟩)
    ⟨Ledger.guards_empty empty, fun h => absurd h none_stored⟩
  exact {
    distinct := hcount.reflects.distinct
    counted := fun ht hc => by
      rw [(hcount.reflects.counted ht hc).2, Ledger.votesFor_eq_length hnow]
    ballots := Ledger.nodup_ballots hguard hstanding
    eligible := fun v hv => by
      obtain ⟨id, hid⟩ := Ledger.mem_voteList.1 hv
      exact hvoters hid }

end Node
end MasternodePayments
