import MasternodePayments.Proofs.Electorate
import MasternodePayments.Proofs.Ledger.Guard

/-!
# No second vote after pruning

Pruning drops the ballots of old heights with everything else, so the guard alone does not keep a
vote from being cast again. The admission window does: it reaches back by the population of one
tier, pruning by that of all tiers at least (`Setting.passed_of_cutoff`). Once a height fell behind
the horizon, it is behind the window and, as the tip never goes back, stays there.

* `Ledger.Once`: of every vote admitted so far, the ballot is held or the height has passed.
* `Node.admitted_once`: so no two admissions of a run use up the same ballot.
-/

namespace MasternodePayments

/-! ## Window and horizon -/

theorem Config.scaledPopulation_mono {c : Config} {count count' : Nat} (hle : count ≤ count')
    {n' : UInt64} (h : c.scaledPopulation count' = .ok n') :
    ∃ n, c.scaledPopulation count = .ok n ∧ n.toNat ≤ n'.toNat := by
  obtain ⟨hfit, hn'⟩ := scaledPopulation_eq_ok.1 h
  have hmul : count * c.populationPercent.toNat ≤ count' * c.populationPercent.toNat :=
    Nat.mul_le_mul_right _ hle
  have hlt : (count * c.populationPercent.toNat + 99) / 100 < UInt64.size := by omega
  refine ⟨UInt64.ofNat ((count * c.populationPercent.toNat + 99) / 100),
    scaledPopulation_eq_ok.2 ⟨by omega, UInt64.toNat_ofNat_of_lt' hlt⟩, ?_⟩
  rw [UInt64.toNat_ofNat_of_lt' hlt, hn']
  omega

theorem Config.retentionHorizon_eq_ok {c : Config} {count : Nat} {horizon : UInt64} :
    c.retentionHorizon count = .ok horizon ↔ ∃ scaled, c.scaledPopulation count = .ok scaled ∧
      max scaled.toNat c.minRetention.toNat = horizon.toNat := by
  simp only [retentionHorizon, bind_eq_ok, pure_eq_ok, ← UInt64.toNat_inj, UInt64.toNat_max]

theorem Chain.tip_of_tip? {c : Chain} {tip : Height} (h : c.tip? = some tip) :
    c.tip = some tip := by
  unfold tip? at h
  split at h
  · cases h
  · exact h

namespace Setting

variable {s t : Setting} {b : Ballot}

/-- The height of a ballot lies below the window that its tier has at the tip. -/
def Passed (s : Setting) (b : Ballot) : Prop :=
  ∃ tip span, s.chain.tip = some tip ∧
    s.config.scaledPopulation (s.registry.countInTier b.tier) = .ok span ∧
    b.height.toNat < tip.toNat - span.toNat

theorem not_passed_of_window {tip : Height} {u : Unit} (htip : s.chain.tip? = some tip)
    (h : s.checkWindow b.height b.tier tip = .ok u) : ¬s.Passed b := by
  rintro ⟨tip', span, htip', hspan, hlt⟩
  obtain ⟨first, last, hw, hfirst, -⟩ := checkWindow_eq_ok.1 h
  obtain ⟨span', hspan', -, rfl⟩ := window_eq_ok.1 hw
  obtain rfl : tip = tip' := Option.some.inj ((Chain.tip_of_tip? htip).symm.trans htip')
  obtain rfl : span' = span := Except.ok.inj (hspan'.symm.trans hspan)
  rw [UInt64.le_iff_toNat_le, toNat_monus] at hfirst
  exact absurd hlt (Nat.not_lt.2 hfirst)

theorem not_passed_of_admits {l : Ledger} {v : Vote} {a : Admission} (h : l.Admits s v a) :
    ¬s.Passed ⟨v.voter, a.tier, v.height⟩ := by
  obtain ⟨tip, first, last, htip, hw, hwithin⟩ := h.window
  have hcheck : s.checkWindow v.height a.tier tip = .ok () :=
    checkWindow_eq_ok.2 ⟨first, last, hw, hwithin⟩
  exact not_passed_of_window htip hcheck

/-- **What is pruned at the tip has passed**: the horizon covers the population of all tiers. -/
theorem passed_of_cutoff {tip lowest : Height} (htip : s.chain.tip? = some tip)
    (h : Ledger.cutoff s tip = .ok lowest) (hb : ¬lowest ≤ b.height) : s.Passed b := by
  obtain ⟨horizon, hh, hl⟩ := bind_eq_ok.1 h
  obtain ⟨scaled, hs, hm⟩ := Config.retentionHorizon_eq_ok.1 hh
  obtain ⟨span, hspan, hle⟩ := Config.scaledPopulation_mono (s.registry.countInTier_le b.tier) hs
  cases hl
  refine ⟨tip, span, Chain.tip_of_tip? htip, hspan, ?_⟩
  rw [UInt64.le_iff_toNat_le, toNat_monus] at hb
  omega

end Setting

/-- The tip of the second chain is at least as high as that of the first, if that has one. -/
def Chain.UpTo (c d : Chain) : Prop :=
  ∀ {tip}, c.tip = some tip → ∃ tip', d.tip = some tip' ∧ tip ≤ tip'

theorem Setting.Passed.advance {s t : Setting} {b : Ballot} (h : s.Passed b)
    (hp : s.SamePayees t) (hc : s.chain.UpTo t.chain) : t.Passed b := by
  obtain ⟨tip, span, htip, hspan, hlt⟩ := h
  obtain ⟨tip', htip', hle⟩ := hc htip
  refine ⟨tip', span, htip', ?_, ?_⟩
  · rw [← hp.config, ← hp.countInTier_eq, hspan]
  · rw [UInt64.le_iff_toNat_le] at hle
    omega

/-! ## The admissions so far -/

namespace Ledger

variable {s t : Setting} {l k l' : Ledger} {v : Vote} {a : Admission} {log : List Vote}

/-- The votes of a ledger that an earlier one does not have. -/
def newVotes (l l' : Ledger) : List Vote :=
  (l'.votes.toList.filter fun e => !l.votes.contains e.1).map (·.2)

theorem newVotes_eq_nil (h : ∀ id, id ∈ l'.votes → id ∈ l.votes) : l.newVotes l' = [] := by
  rw [newVotes, List.map_eq_nil_iff, List.filter_eq_nil_iff]
  rintro ⟨id, v⟩ he
  have hid := h id (mem_votes_iff.2 ⟨v, Std.ExtTreeMap.mem_toList_iff_getElem?_eq_some.1 he⟩)
  simp [Std.ExtTreeMap.contains_iff_mem.2 hid]

theorem newVotes_record (hsub : ∀ id, id ∈ l.votes → id ∈ k.votes) (ha : a.identity ∉ k.votes)
    (h : k.record v a = .ok l') : (l.newVotes l').Perm (v :: l.newVotes k) := by
  have hnew : ¬l.votes.contains a.identity = true := fun hc => ha (hsub _ hc)
  have hp := ((toList_votes_record ha h).filter fun e => !l.votes.contains e.1).map (·.2)
  simpa [newVotes, hnew] using hp

/-- A vote that is admitted is the one new vote. -/
theorem newVotes_admitVote (h : l.admitVote s v = .ok l') : l.newVotes l' = [v] := by
  obtain ⟨a, ha, hr⟩ := admitVote_eq_ok.1 h
  have hp := newVotes_record (fun _ hid => hid) ha.not_mem hr
  rw [newVotes_eq_nil fun _ hid => hid] at hp
  exact List.perm_singleton.1 hp

/-- No two of the admitted votes used up the same ballot, and none can be admitted again: its ballot
is held, or its height has passed. -/
structure Once (s : Setting) (l : Ledger) (log : List Vote) : Prop where
  placed : ∀ v ∈ log, (s.ballot? v).isSome = true
  distinct : (log.map s.ballot?).Nodup
  kept : ∀ v ∈ log, ∀ b, s.ballot? v = some b → b ∈ l.ballots ∨ s.Passed b

theorem Once.perm {log' : List Vote} (h : l.Once s log) (hp : log.Perm log') : l.Once s log' where
  placed v hv := h.placed v (hp.mem_iff.2 hv)
  distinct := (hp.map s.ballot?).nodup_iff.1 h.distinct
  kept v hv := h.kept v (hp.mem_iff.2 hv)

/-- One more admission: its ballot is neither held nor has it passed, so it is a new one. -/
theorem Once.record (h : k.Once s log) (ha : k.Admits s v a) (hr : k.record v a = .ok l') :
    l'.Once s (v :: log) := by
  have hb := ha.ballot?_eq
  constructor
  case placed =>
    intro w hw
    rcases List.mem_cons.1 hw with rfl | hw
    · rw [hb]
      rfl
    · exact h.placed w hw
  case distinct =>
    refine List.nodup_cons.2 ⟨fun hm => ?_, h.distinct⟩
    obtain ⟨w, hw, he⟩ := List.mem_map.1 hm
    rcases h.kept w hw _ (he.trans hb) with hheld | hpassed
    · exact ha.ballot hheld
    · exact Setting.not_passed_of_admits ha hpassed
  case kept =>
    intro w hw b hwb
    rw [mem_ballots_record hr]
    rcases List.mem_cons.1 hw with rfl | hw
    · exact .inl (.inl (Option.some.inj (hwb.symm.trans hb)))
    · exact (h.kept w hw b hwb).imp_left .inr

theorem Once.takesIn (h : l.Once s log) (ht : TakesIn s l k) :
    k.Once s (l.newVotes k ++ log) := by
  induction ht with
  | refl => rwa [newVotes_eq_nil fun _ hid => hid]
  | vote ht ha hr ih =>
    have hp := newVotes_record (fun _ => ht.mem_votes) ha.not_mem hr
    exact (ih.record ha hr).perm (hp.symm.append_right log)
  | noteCast height ht ih => exact ⟨ih.placed, ih.distinct, ih.kept⟩

/-- Pruning at the tip drops ballots only of heights that have passed. -/
theorem Once.cleans (h : l.Once s log) (hc : Node.Cleans s l k) :
    k.Once s (l.newVotes k ++ log) := by
  rcases hc with rfl | ⟨tip, lowest, htip, hcut, rfl⟩
  · rwa [newVotes_eq_nil fun _ hid => hid]
  · rw [newVotes_eq_nil fun _ => mem_of_mem_dropBelow]
    refine ⟨h.placed, h.distinct, fun v hv b hb => ?_⟩
    rcases h.kept v hv b hb with hheld | hpassed
    · by_cases hle : lowest ≤ b.height
      · exact .inl (mem_ballots_dropBelow.2 ⟨hheld, hle⟩)
      · exact .inr (Setting.passed_of_cutoff htip hcut hle)
    · exact .inr hpassed

theorem Once.advance (h : l.Once s log) (hp : s.SamePayees t) (hc : s.chain.UpTo t.chain) :
    l.Once t log := by
  have hb : s.ballot? = t.ballot? := funext hp.ballot?_eq
  exact ⟨hb ▸ h.placed, hb ▸ h.distinct,
    fun v hv b hvb => (h.kept v hv b (hb ▸ hvb)).imp_right (·.advance hp hc)⟩

end Ledger

/-! ## Runs -/

namespace Node

variable {n m : Node} {e : Event} {es : List Event} {log later : List Vote}

/-- The votes admitted along a run. -/
def admitted (n : Node) : List Event → Checked (List Vote)
  | [] => .ok []
  | e :: es => do
    let m ← n.step e
    let later ← m.admitted es
    pure (n.ledger.newVotes m.ledger ++ later)

/-- An event under a chain that does not shrink and with the same payees. Ledgers are pruned at the
tip only, and neither cleared nor restored. -/
def Event.Advances (s : Setting) : Event → Prop
  | .surroundings t => s.SamePayees t ∧ s.chain.UpTo t.chain
  | .prune _ => False
  | .clear => False
  | .restore _ => False
  | _ => True

def Advancing (s : Setting) : List Event → Prop
  | [] => True
  | e :: es => e.Advances s ∧ Advancing (e.settingAfter s) es

theorem step_once (h : n.ledger.Once n.setting log) (he : e.Advances n.setting)
    (hs : n.step e = .ok m) : n.setting.SamePayees m.setting ∧
      m.ledger.Once m.setting (n.ledger.newVotes m.ledger ++ log) := by
  obtain ⟨hset, heff⟩ := step_effect hs
  rw [hset]
  cases e with
  | surroundings t =>
    cases hs
    rw [Ledger.newVotes_eq_nil fun _ hid => hid]
    exact ⟨he.1, h.advance he.1 he.2⟩
  | prune height => exact he.elim
  | clear => exact he.elim
  | restore snapshot => exact he.elim
  | clean => exact ⟨.refl _, h.cleans heff⟩
  | maintain => exact ⟨.refl _, h.cleans heff⟩
  | _ => exact ⟨.refl _, h.takesIn heff⟩

theorem run_once (h : n.ledger.Once n.setting log) (hes : Advancing n.setting es)
    (hl : n.admitted es = .ok later) :
    ((later ++ log).map n.setting.ballot?).Nodup ∧
      ∀ v ∈ later ++ log, (n.setting.ballot? v).isSome = true := by
  induction es generalizing n log later with
  | nil =>
    cases hl
    exact ⟨h.distinct, h.placed⟩
  | cons e es ih =>
    obtain ⟨m, hm, hl⟩ := bind_eq_ok.1 hl
    obtain ⟨rest, hrest, hl⟩ := bind_eq_ok.1 hl
    cases hl
    obtain ⟨hp, honce⟩ := step_once h hes.1 hm
    obtain ⟨hset, -⟩ := step_effect hm
    obtain ⟨hn, hplaced⟩ := ih honce (hset ▸ hes.2) hrest
    have hperm : (rest ++ (n.ledger.newVotes m.ledger ++ log)).Perm
        (n.ledger.newVotes m.ledger ++ rest ++ log) := by
      rw [← List.append_assoc]
      exact List.perm_append_comm.append_right log
    rw [← funext hp.ballot?_eq] at hn hplaced
    exact ⟨(hperm.map _).nodup_iff.1 hn, fun v hv => hplaced v (hperm.mem_iff.2 hv)⟩

/-- **No vote is cast twice.** Over a whole run, no two admitted votes are by the same voter for the
same height and for payees of the same tier, pruned or not. -/
theorem admitted_once (hes : Advancing n.setting es) (h : n.admitted es = .ok log) :
    (log.map n.setting.ballot?).Nodup ∧ ∀ v ∈ log, (n.setting.ballot? v).isSome = true := by
  have hstart : n.ledger.Once n.setting [] := ⟨by simp, by simp, by simp⟩
  simpa using run_once hstart hes h

/-- A vote that was pruned, a second one in the other form, and a vote for a later height. -/
theorem admitted_once_pruned :
    Node.admitted { setting := Sample.setting {} [0] 1000 }
        [.admitVote (Sample.vote 0 0 1005), .surroundings (Sample.setting {} [0] 3000), .clean,
          .admitVote (Sample.scriptVote 0 0 1005), .admitVote (Sample.scriptVote 0 0 3005)] =
      .ok [Sample.vote 0 0 1005, Sample.scriptVote 0 0 3005] ∧
    ([Sample.vote 0 0 1005, Sample.scriptVote 0 0 3005].map
      (Sample.setting {} [0] 1000).ballot?).Nodup := by
  have hlog : Node.admitted { setting := Sample.setting {} [0] 1000 }
        [.admitVote (Sample.vote 0 0 1005), .surroundings (Sample.setting {} [0] 3000), .clean,
          .admitVote (Sample.scriptVote 0 0 1005), .admitVote (Sample.scriptVote 0 0 3005)] =
      .ok [Sample.vote 0 0 1005, Sample.scriptVote 0 0 3005] := by decide +kernel
  have grows : (Sample.setting {} [0] 1000).chain.UpTo (Sample.setting {} [0] 3000).chain := by
    intro tip htip
    cases htip
    exact ⟨3000, rfl, by decide⟩
  have hes : Advancing (Sample.setting {} [0] 1000)
      [.admitVote (Sample.vote 0 0 1005), .surroundings (Sample.setting {} [0] 3000), .clean,
        .admitVote (Sample.scriptVote 0 0 1005), .admitVote (Sample.scriptVote 0 0 3005)] :=
    ⟨trivial, ⟨⟨rfl, rfl, rfl⟩, grows⟩, trivial, trivial, trivial, trivial⟩
  exact ⟨hlog, (admitted_once hes hlog).1⟩

end Node
end MasternodePayments
