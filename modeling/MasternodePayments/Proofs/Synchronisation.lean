import MasternodePayments.Proofs.Horizon
import MasternodePayments.Proofs.Ledger.Batch
import MasternodePayments.Proofs.Ledger.Refusal

/-!
# Synchronisation

A node with an empty ledger asks another node for its votes and takes in what is announced to it.
What the other one admitted in the past stands the checks of the newcomer, with one exception: its
height may have fallen out of the window of its tier meanwhile. So the newcomer ends up with the
votes that are still within reach, and from the tip on it judges blocks as the other one does
(`Node.sync_converges`).

* `Setting.LeadsTo`: the surroundings of the past, in which votes were judged as they are now and
  the chain was not longer.
* `Setting.Backs`: what is asked of a vote, apart from the ledger and the first height of the
  window. What was admitted in the past is backed now (`LeadsTo.backs`), so all stored votes are.
* `Backs.exists_verdict`: an empty ledger admits a backed vote if and only if it is within reach.
* `BackedIn.mem_fetch`: the votes announced are stored ones, and all those within reach.
-/

namespace MasternodePayments

/-! ## Surroundings of the past -/

theorem Chain.hashAt?_isSome_iff {c : Chain} {height : Height} :
    (c.hashAt? height).isSome = true ↔
      height ∈ c.recorded ∨ ∃ tip, c.tip = some tip ∧ height ≤ tip := by
  rw [Std.ExtTreeMap.mem_iff_isSome_getElem?]
  unfold hashAt? covers
  cases c.recorded[height]? with
  | some hash => simp
  | none => cases c.tip <;> simp

namespace Setting

/-- In `s` votes are judged as in `t`, and the chain of `t` has all that the chain of `s` has. -/
structure LeadsTo (s t : Setting) : Prop extends SameRules s t where
  upTo : s.chain.UpTo t.chain
  recorded : ∀ height, height ∈ s.chain.recorded → height ∈ t.chain.recorded

/-- What is asked of a vote, apart from the ledger and the first height of the window. -/
structure Backs (s : Setting) (v : Vote) : Prop where
  payee : ∃ script tier, s.resolve? v.payee = some (script, tier)
  voter : ∃ m, s.registry.find? v.voter = some m ∧ s.minProtocol ≤ m.protocol ∧
    s.withinLimit (s.registry.rank? m.id s.minProtocol) = true ∧
    v.isSignedBy m.operatorKey = true
  ahead : ∃ tip, s.chain.tip = some tip ∧
    v.height.toNat ≤ tip.toNat + s.config.futureWindow.toNat
  reference : (s.chain.hashAt? (s.reference v.height)).isSome = true

/-- The height of a vote is not below the window that its tier has at a tip. -/
def InReach (s : Setting) (tip : Height) (v : Vote) : Prop :=
  ∃ script tier span, s.resolve? v.payee = some (script, tier) ∧
    s.config.scaledPopulation (s.registry.countInTier tier) = .ok span ∧
    monus tip span ≤ v.height

variable {s t : Setting} {l : Ledger} {v : Vote} {a : Admission} {tip : Height}

theorem LeadsTo.hashAt?_isSome (h : s.LeadsTo t) {height : Height}
    (hs : (s.chain.hashAt? height).isSome = true) : (t.chain.hashAt? height).isSome = true := by
  rw [Chain.hashAt?_isSome_iff] at hs ⊢
  rcases hs with hs | ⟨tip, htip, hle⟩
  · exact .inl (h.recorded height hs)
  · obtain ⟨tip', htip', hle'⟩ := h.upTo htip
    exact .inr ⟨tip', htip', UInt64.le_trans hle hle'⟩

theorem SameRules.countWithDrift_eq (h : s.SameRules t) : s.countWithDrift = t.countWithDrift := by
  have hsize : s.registry.size = t.registry.size := by
    simpa [Registry.roster, Registry.size] using congrArg List.length h.roster
  simp only [countWithDrift, h.sporks, h.config, hsize, h.enabledCount_eq]

theorem SameRules.withinLimit_eq (h : s.SameRules t) (id : MasternodeId) :
    s.withinLimit (s.registry.rank? id s.minProtocol) =
      t.withinLimit (t.registry.rank? id t.minProtocol) :=
  Bool.eq_iff_iff.2 (h.mayVote_iff id)

/-- **What was admitted in the past is backed now.** -/
theorem LeadsTo.backs (h : s.LeadsTo t) (ha : l.Admits s v a) : t.Backs v where
  payee := ⟨a.script, a.tier, by rw [← h.resolve?_eq, ha.payee]⟩
  voter := by
    obtain ⟨m, hm, hprotocol, hrank, hsigned⟩ := ha.voter
    refine ⟨m, by rw [← h.find?_eq, hm], h.minProtocol_eq ▸ hprotocol, ?_, hsigned⟩
    rw [← h.toSameRules.withinLimit_eq, hrank]
  ahead := by
    obtain ⟨tip, first, last, htip, hw, -, hlast⟩ := ha.window
    obtain ⟨span, -, hl, -⟩ := window_eq_ok.1 hw
    obtain ⟨tip', htip', hle⟩ := h.upTo (Chain.tip_of_tip? htip)
    refine ⟨tip', htip', ?_⟩
    rw [UInt64.le_iff_toNat_le] at hlast hle
    rw [← h.config]
    have := add64_eq_ok.1 hl
    omega
  reference := by
    have heq : t.reference v.height = s.reference v.height := by
      rw [reference, reference, h.config]
    rw [heq]
    exact h.hashAt?_isSome ha.reference

end Setting

/-! ## The newcomer -/

namespace Setting

variable {s : Setting} {l : Ledger} {v : Vote} {tip last span : Height} {script : Script}
  {tier : Tier}

/-- No tier has more masternodes than there are enabled ones. -/
theorem exists_span {bound : UInt64}
    (h : s.config.scaledPopulation s.registry.enabledCount = .ok bound) (tier : Tier) :
    ∃ span, s.config.scaledPopulation (s.registry.countInTier tier) = .ok span := by
  obtain ⟨span, hspan, -⟩ := Config.scaledPopulation_mono (s.registry.countInTier_le tier) h
  exact ⟨span, hspan⟩

theorem Backs.window (h : s.Backs v) (htip : s.chain.tip? = some tip)
    (hlast : add64 tip s.config.futureWindow = .ok last)
    (hspan : s.config.scaledPopulation (s.registry.countInTier tier) = .ok span) :
    s.window tier tip = .ok (monus tip span, last) ∧ v.height ≤ last := by
  refine ⟨window_eq_ok.2 ⟨span, hspan, hlast, rfl⟩, ?_⟩
  obtain ⟨tip', htip', hle⟩ := h.ahead
  obtain rfl : tip' = tip := Option.some.inj (htip'.symm.trans (Chain.tip_of_tip? htip))
  rw [UInt64.le_iff_toNat_le, ← add64_eq_ok.1 hlast]
  exact hle

theorem Backs.admits (h : s.Backs v) (hl : l = {}) (htip : s.chain.tip? = some tip)
    (hlast : add64 tip s.config.futureWindow = .ok last)
    (hpayee : s.resolve? v.payee = some (script, tier))
    (hspan : s.config.scaledPopulation (s.registry.countInTier tier) = .ok span)
    (hreach : monus tip span ≤ v.height) : l.Admits s v ⟨v.identity, script, tier⟩ where
  identity := rfl
  fresh := by simp [hl]
  payee := hpayee
  voter := h.voter
  window := by
    obtain ⟨hw, hle⟩ := h.window htip hlast hspan
    exact ⟨tip, _, _, htip, hw, hreach, hle⟩
  ballot := by simp [hl]
  reference := h.reference

theorem Backs.refused (h : s.Backs v) (hl : l = {}) (htip : s.chain.tip? = some tip)
    (hlast : add64 tip s.config.futureWindow = .ok last)
    (hpayee : s.resolve? v.payee = some (script, tier))
    (hspan : s.config.scaledPopulation (s.registry.countInTier tier) = .ok span)
    (hreach : ¬monus tip span ≤ v.height) :
    l.check s v = .error (.rejected (.outOfWindow v.height (monus tip span) last)) := by
  obtain ⟨m, hm, -⟩ := h.voter
  obtain ⟨hw, -⟩ := h.window htip hlast hspan
  have hwindow : s.checkWindow v.height tier tip =
      .error (.rejected (.outOfWindow v.height (monus tip span) last)) :=
    checkWindow_eq_rejected.2 ⟨_, _, hw, fun hwithin => hreach hwithin.1, rfl⟩
  have hfresh : v.identity ∉ l.votes := by simp [hl]
  exact Ledger.check_eq_rejected.2 (.window ⟨hfresh, hm, hpayee, htip⟩ hwindow)

/-- **What an empty ledger says of a backed vote**: it is admitted exactly if it is within reach. -/
theorem Backs.exists_verdict (h : s.Backs v) (hl : l = {}) (htip : s.chain.tip? = some tip)
    (hlast : add64 tip s.config.futureWindow = .ok last)
    (hspans : ∀ tier, ∃ span, s.config.scaledPopulation (s.registry.countInTier tier) = .ok span) :
    ∃ r, l.verdict s v = .ok r ∧ (r = .ok () ↔ s.InReach tip v) := by
  obtain ⟨script, tier, hpayee⟩ := h.payee
  obtain ⟨span, hspan⟩ := hspans tier
  by_cases hreach : monus tip span ≤ v.height
  · have hadmits := h.admits hl htip hlast hpayee hspan hreach
    refine ⟨.ok (), Ledger.verdict_eq_admitted.2 ⟨_, hadmits⟩, ?_⟩
    exact iff_of_true rfl ⟨script, tier, span, hpayee, hspan, hreach⟩
  · have hrefused := h.refused hl htip hlast hpayee hspan hreach
    refine ⟨.error _, Ledger.verdict_eq_rejected.2 hrefused, ?_⟩
    refine iff_of_false (by simp) ?_
    rintro ⟨script', tier', span', hpayee', hspan', hreach'⟩
    cases hpayee.symm.trans hpayee'
    cases hspan.symm.trans hspan'
    exact hreach hreach'

/-- A height from the tip on is within reach. -/
theorem Backs.inReach (h : s.Backs v)
    (hspans : ∀ tier, ∃ span, s.config.scaledPopulation (s.registry.countInTier tier) = .ok span)
    (hle : tip ≤ v.height) : s.InReach tip v := by
  obtain ⟨script, tier, hpayee⟩ := h.payee
  obtain ⟨span, hspan⟩ := hspans tier
  refine ⟨script, tier, span, hpayee, hspan, ?_⟩
  rw [UInt64.le_iff_toNat_le] at hle ⊢
  rw [toNat_monus]
  omega

end Setting

/-! ## What is announced -/

namespace Ledger

/-- A ledger that was filled in the past and is in order now. -/
structure BackedIn (l : Ledger) (s : Setting) : Prop where
  tallied : l.Tallied s
  sound : l.SoundIn s
  backs : ∀ v ∈ l.voteList, s.Backs v

/-- The votes behind announcements, as far as they are stored. -/
def fetch (l : Ledger) (announced : List Announcement) : List Vote :=
  announced.filterMap fun a => l.votes[a.identity]?

variable {s t : Setting} {l : Ledger} {v : Vote} {vs : List Vote} {tip bound count : UInt64}
  {announced : List Announcement} {id : Hash}

theorem announcements?_congr (h : s.SameRules t) (htip : s.chain.tip? = t.chain.tip?)
    (count : UInt64) : l.announcements? s count = l.announcements? t count := by
  simp only [announcements?, htip, h.config, h.enabledCount_eq]

theorem announcements?_eq_ok (htip : s.chain.tip? = some tip)
    (h : l.announcements? s count = .ok (some announced)) :
    ∃ bound last, s.config.scaledPopulation s.registry.enabledCount = .ok bound ∧
      add64 tip s.config.futureWindow = .ok last ∧
      announced = (l.voteList.filter fun v => decide (monus tip (min count bound) ≤ v.height ∧
        v.height ≤ last)).map (·.announcement) := by
  simp only [announcements?, htip, bind_eq_ok, pure_eq_ok, Option.some.injEq] at h
  obtain ⟨bound, hbound, last, hlast, rfl⟩ := h
  exact ⟨bound, last, hbound, hlast, rfl⟩

theorem Tallied.stored_iff (h : l.Tallied s) :
    l.votes[id]? = some v ↔ v ∈ l.voteList ∧ v.identity = id := by
  rw [h.mem_voteList_iff]
  constructor
  · intro hv
    obtain rfl := h.identity_eq hv
    exact ⟨hv, rfl⟩
  · rintro ⟨hv, rfl⟩
    exact hv

/-- Announced votes are served. -/
theorem Tallied.fetch_announced (h : l.Tallied s) (hvs : ∀ v ∈ vs, v ∈ l.voteList) :
    l.fetch (vs.map (·.announcement)) = vs := by
  induction vs with
  | nil => rfl
  | cons v vs ih =>
    obtain ⟨hv, hvs⟩ := List.forall_mem_cons.1 hvs
    have hstored : l.votes[v.announcement.identity]? = some v := h.mem_voteList_iff.1 hv
    simp only [fetch, List.map_cons, List.filterMap_cons, hstored]
    exact congrArg (v :: ·) (ih hvs)

/-- Stored votes do not stand in each other's way. -/
theorem BackedIn.independent (h : l.BackedIn s) (hvs : vs.Sublist l.voteList) :
    s.Independent vs where
  identities := h.tallied.nodup_identities.sublist (hvs.map _)
  ballots := by
    have hn : (vs.map s.ballot?).Nodup := h.sound.ballots.sublist (hvs.map _)
    rw [← Function.id_comp s.ballot?, ← List.filterMap_map]
    exact hn.filterMap fun _ _ _ hb hb' => hb.trans hb'.symm

/-- **What is served** is stored, and all that is stored and within reach is served, if enough
heights are asked for. -/
theorem BackedIn.mem_fetch (h : l.BackedIn s) (htip : s.chain.tip? = some tip)
    (hann : l.announcements? s count = .ok (some announced))
    (hbound : s.config.scaledPopulation s.registry.enabledCount = .ok bound)
    (hcount : bound ≤ count) : (l.fetch announced).Sublist l.voteList ∧
      ∀ v ∈ l.voteList, s.InReach tip v → v ∈ l.fetch announced := by
  obtain ⟨bound', last, hbound', hlast, rfl⟩ := announcements?_eq_ok htip hann
  cases hbound.symm.trans hbound'
  have hsub := List.filter_sublist (l := l.voteList)
    (p := fun v => decide (monus tip (min count bound) ≤ v.height ∧ v.height ≤ last))
  rw [h.tallied.fetch_announced fun v hv => hsub.subset hv]
  refine ⟨hsub, ?_⟩
  rintro v hv ⟨script, tier, span, -, hspan, hreach⟩
  obtain ⟨-, hle⟩ := (h.backs v hv).window htip hlast hspan
  refine List.mem_filter.2 ⟨hv, decide_eq_true ⟨?_, hle⟩⟩
  -- The population of all tiers reaches back at least as far as that of the tier.
  obtain ⟨span', hspan', hspan_le⟩ :=
    Config.scaledPopulation_mono (s.registry.countInTier_le tier) hbound
  cases hspan.symm.trans hspan'
  have hmin : min count bound = bound := by
    show (if count ≤ bound then count else bound) = bound
    split
    · exact UInt64.le_antisymm ‹_› hcount
    · rfl
  rw [hmin, UInt64.le_iff_toNat_le, toNat_monus]
  rw [UInt64.le_iff_toNat_le, toNat_monus] at hreach
  omega

end Ledger

/-! ## Both together -/

namespace Node

variable {n m client : Node} {es : List Event} {s : Setting} {l : Ledger} {vs : List Vote}
  {tip last bound count : UInt64} {announced : List Announcement}

/-- A ledger that was filled in the past is in order now. -/
theorem run_backed (hl : n.ledger = {}) (hs : n.setting.LeadsTo s)
    (hes : ∀ e ∈ es, e.Under (·.LeadsTo s)) (h : n.run es = .ok m) :
    m.setting.LeadsTo s ∧ m.ledger.BackedIn s := by
  have hfixed : ∀ e ∈ es, e.Fixes s := fun e he =>
    (hes e he).fixes fun _ ht => ht.toSameRules.symm
  have hrules : s.SameRules n.setting := hs.toSameRules.symm
  obtain ⟨hset, -, hbacked⟩ := run_under
    (Notes.stored_kept (fun _ _ => ()) fun ht ha => Setting.LeadsTo.backs ht ha) hs hes h
    (o := fun _ => ()) fun hv => by simp [hl] at hv
  refine ⟨hset, run_tallied hl hrules hfixed h, run_sound hl hrules hfixed h, fun v hv => ?_⟩
  obtain ⟨id, hid⟩ := Ledger.mem_voteList.1 hv
  exact hbacked hid

/-- **What a newcomer takes in** of votes that are stored somewhere: those within reach. -/
theorem exists_takenIn (h : l.BackedIn client.setting) (hvs : vs.Sublist l.voteList)
    (hc : client.ledger = {}) (htip : client.setting.chain.tip? = some tip)
    (hlast : add64 tip client.setting.config.futureWindow = .ok last)
    (hspans : ∀ tier, ∃ span, client.setting.config.scaledPopulation
      (client.setting.registry.countInTier tier) = .ok span) :
    ∃ k results, client.admitEach vs = .ok (k, results) ∧ k.setting = client.setting ∧
      k.ledger.Tallied client.setting ∧
      ∀ v, v ∈ k.ledger.voteList ↔ v ∈ vs ∧ client.setting.InReach tip v := by
  have hempty : client.ledger.Tallied client.setting :=
    Ledger.tallied_empty (by rw [hc]) (by rw [hc])
  have hindep := h.independent hvs
  have hverdict : ∀ v ∈ vs, ∃ r, client.ledger.verdict client.setting v = .ok r ∧
      (r = .ok () ↔ client.setting.InReach tip v) := fun v hv =>
    (h.backs v (hvs.subset hv)).exists_verdict hc htip hlast hspans
  obtain ⟨k, results, hk⟩ : ∃ k results, client.admitEach vs = .ok (k, results) := by
    refine exists_admitEach hempty h.tallied (by simp [hc, Ledger.voteList]) hindep fun v hv => ?_
    obtain ⟨r, hr, -⟩ := hverdict v hv
    exact ⟨r, hr, fun _ => hvs.subset hv⟩
  obtain ⟨hset, hsettles⟩ := settles_admitEach hindep hk
  have hkl : k.ledger.Tallied client.setting := hempty.takesIn hsettles.takesIn
  refine ⟨k, results, hk, hset, hkl, fun v => ?_⟩
  rw [hkl.mem_voteList_iff, hsettles.votes]
  constructor
  · rintro (hstored | ⟨hv, -, hadmitted⟩)
    · simp [hc] at hstored
    · obtain ⟨r, hr, hreach⟩ := hverdict v hv
      exact ⟨hv, hreach.1 (Except.ok.inj (hr.symm.trans hadmitted))⟩
  · rintro ⟨hv, hreach⟩
    obtain ⟨r, hr, hiff⟩ := hverdict v hv
    exact .inr ⟨hv, rfl, hiff.2 hreach ▸ hr⟩

/-- **Synchronisation converges.** A node was filled under the rules of a newcomer, on a chain that
led to that of the newcomer. The newcomer asks for enough heights and offers itself what is
announced. Then no vote overflows, it stores just the votes of the other node that are within reach,
and from the tip on the two accept the same transactions. -/
theorem sync_converges (hl : n.ledger = {}) (hs : n.setting.LeadsTo client.setting)
    (hes : ∀ e ∈ es, e.Under (·.LeadsTo client.setting)) (h : n.run es = .ok m)
    (hc : client.ledger = {}) (htip : client.setting.chain.tip? = some tip)
    (htip' : m.setting.chain.tip? = some tip) (hrules : m.setting.rules = client.setting.rules)
    (hann : m.ledger.announcements? m.setting count = .ok (some announced))
    (hbound : m.setting.config.scaledPopulation m.setting.registry.enabledCount = .ok bound)
    (hcount : bound ≤ count) :
    ∃ k results, client.admitEach (m.ledger.fetch announced) = .ok (k, results) ∧
      (∀ {id : Hash} {v}, k.ledger.votes[id]? = some v ↔
        m.ledger.votes[id]? = some v ∧ client.setting.InReach tip v) ∧
      ∀ tx height, tip ≤ height →
        k.ledger.accepts k.setting tx height = m.ledger.accepts m.setting tx height := by
  obtain ⟨hset, hm⟩ := run_backed hl hs hes h
  have hsame : m.setting.SameRules client.setting := hset.toSameRules
  rw [Ledger.announcements?_congr hsame (htip'.trans htip.symm)] at hann
  rw [hsame.config, hsame.enabledCount_eq] at hbound
  obtain ⟨-, last, -, hlast, -⟩ := Ledger.announcements?_eq_ok htip hann
  have hspans := Setting.exists_span hbound
  obtain ⟨hsub, hserved⟩ := hm.mem_fetch htip hann hbound hcount
  obtain ⟨k, results, hk, hkset, hkl, hin⟩ := exists_takenIn hm hsub hc htip hlast hspans
  have hvotes : ∀ v, v ∈ k.ledger.voteList ↔
      v ∈ m.ledger.voteList ∧ client.setting.InReach tip v := fun v => by
    rw [hin]
    exact and_congr_left fun hreach => ⟨fun hv => hsub.subset hv, fun hv => hserved v hv hreach⟩
  refine ⟨k, results, hk, fun {id v} => ?_, fun tx height hle => ?_⟩
  · rw [hkl.stored_iff, hm.tallied.stored_iff, hvotes, and_right_comm]
  · have hagree : k.ledger.AgreeAt m.ledger height := by
      refine hkl.agreeAt hm.tallied fun v hv => ?_
      rw [hvotes, and_iff_left_iff_imp]
      intro hstored
      exact (hm.backs v hstored).inReach hspans (hv ▸ hle)
    rw [hkset]
    exact hagree.accepts_eq hsame.symm.countWithDrift_eq hrules.symm tx

end Node

/-- Two masternodes in tiers of their own. A single tier reaches back one height less than both. -/
def Sample.twoTiers (tip : Height) : Setting :=
  { setting {} [] tip with
    registry := ⟨[⟨masternode 0, true, 0⟩, ⟨{ masternode 1 with tier := 2 }, true, 0⟩]⟩ }

/-- A vote that is still announced but too old for a newcomer. -/
def Sample.lateVotes : List Node.Event :=
  [.admitVote (vote 0 0 1001), .admitVote (vote 1 1 1005), .surroundings (twoTiers 1004)]

theorem Node.sync_converges_lateVotes : ∃ m k announced results,
    ({ setting := Sample.twoTiers 1000 } : Node).run Sample.lateVotes = .ok m ∧
      m.ledger.announcements? m.setting 3 = .ok (some announced) ∧ announced.length = 2 ∧
      ({ setting := Sample.twoTiers 1004 } : Node).admitEach (m.ledger.fetch announced) =
        .ok (k, results) ∧
      k.ledger.voteList = [Sample.vote 1 1 1005] ∧
      (∀ {id : Hash} {v}, k.ledger.votes[id]? = some v ↔
        m.ledger.votes[id]? = some v ∧ (Sample.twoTiers 1004).InReach 1004 v) ∧
      ∀ tx height, 1004 ≤ height →
        k.ledger.accepts k.setting tx height = m.ledger.accepts m.setting tx height := by
  have hrun : (fun m => do
        let announced ← m.ledger.announcements? m.setting 3
        let p ← ({ setting := Sample.twoTiers 1004 } : Node).admitEach
          (m.ledger.fetch (announced.getD []))
        pure (announced.map List.length, p.1.ledger.voteList)) <$>
      ({ setting := Sample.twoTiers 1000 } : Node).run Sample.lateVotes =
        .ok (.ok (some 2, [Sample.vote 1 1 1005])) := by
    decide +kernel
  obtain ⟨m, hm, hsync⟩ := map_eq_ok.1 hrun
  simp only [bind_eq_ok, pure_eq_ok, Prod.mk.injEq, Option.map_eq_some_iff] at hsync
  obtain ⟨_, hann, ⟨k, results⟩, hk, ⟨announced, rfl, hlength⟩, hlist⟩ := hsync
  have grows : (Sample.twoTiers 1000).LeadsTo (Sample.twoTiers 1004) :=
    { Setting.SameRules.refl (Sample.twoTiers 1000) with
      upTo := fun htip => ⟨1004, rfl, by cases htip; decide⟩
      recorded := fun _ h => h }
  have same : (Sample.twoTiers 1004).LeadsTo (Sample.twoTiers 1004) :=
    { Setting.SameRules.refl (Sample.twoTiers 1004) with
      upTo := fun {tip} htip => ⟨tip, htip, UInt64.le_refl tip⟩
      recorded := fun _ h => h }
  have hset : m.setting = Sample.twoTiers 1004 := by
    obtain ⟨l, -, hl⟩ := bind_eq_ok.1 ((run_append _ [_, _] [_]).symm.trans hm)
    cases hl
    rfl
  have hempty : ({ setting := Sample.twoTiers 1004 } : Node).ledger = {} := rfl
  have htip : (Sample.twoTiers 1004).chain.tip? = some 1004 := rfl
  have hbound : m.setting.config.scaledPopulation m.setting.registry.enabledCount = .ok 3 := by
    rw [hset]
    decide
  obtain ⟨k', results', hk', hvotes, haccepts⟩ := sync_converges rfl grows
    (by simpa [Sample.lateVotes, Event.Under] using same) hm hempty htip (by rw [hset, htip])
    (by rw [hset]) hann hbound (by decide)
  cases hk.symm.trans hk'
  exact ⟨m, k, announced, results, hm, hann, hlength, hk, hlist, hvotes, haccepts⟩

end MasternodePayments
