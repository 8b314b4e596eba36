import MasternodePayments.Node.Run
import MasternodePayments.Proofs.Ledger.Admission

/-!
# What an event does to the ledger

Whatever happens to a node, its ledger takes votes in, drops what lies below a cutoff, is cleared or
is restored. `Event.Effect` says which of these an event may do, and `step_effect` that it does
nothing else. `Ledger.AdmitsSome` lists what may become of proposals, and `Ledger.Casts` the ways in
which casting comes to an end. The surroundings change only by the event that is there for it.
-/

namespace MasternodePayments

namespace Ledger

/-- The ledger `l` turns into by taking votes in, one after the other, and by noting the last height
that this node cast votes for. -/
inductive TakesIn (s : Setting) (l : Ledger) : Ledger → Prop
  | refl : TakesIn s l l
  | vote {k k' : Ledger} {v : Vote} {a : Admission} :
      TakesIn s l k → k.Admits s v a → k.record v a = .ok k' → TakesIn s l k'
  | noteCast {k : Ledger} (height : Height) :
      TakesIn s l k → TakesIn s l { k with lastCast := height }

variable {s : Setting} {j k l : Ledger} {height : Height} {active : ActiveMasternode}
  {votes : List Vote}

theorem TakesIn.trans (h : TakesIn s j k) (h' : TakesIn s k l) : TakesIn s j l := by
  induction h' with
  | refl => exact h
  | vote _ ha hr ih => exact .vote ih ha hr
  | noteCast height _ ih => exact .noteCast height ih

theorem takesIn_admitVote {v : Vote} (h : l.admitVote s v = .ok k) : TakesIn s l k := by
  obtain ⟨a, ha, hr⟩ := admitVote_eq_ok.1 h
  exact .vote .refl ha hr

/-- The outcome of going through proposals: each of them is refused, which leaves no trace, or
admitted. -/
inductive AdmitsSome (s : Setting) : Ledger → List Vote → Ledger → List Vote → Prop
  | nil {l : Ledger} : AdmitsSome s l [] l []
  | refused {l k : Ledger} {v : Vote} {vs ws : List Vote} {cause : Rejection} :
      settle (l.admitVote s v) = .ok (.error cause) → AdmitsSome s l vs k ws →
      AdmitsSome s l (v :: vs) k ws
  | admitted {l j k : Ledger} {v : Vote} {vs ws : List Vote} :
      l.admitVote s v = .ok j → AdmitsSome s j vs k ws → AdmitsSome s l (v :: vs) k (v :: ws)

theorem admitSome_eq_ok {vs ws : List Vote} :
    l.admitSome s vs = .ok (k, ws) ↔ AdmitsSome s l vs k ws := by
  constructor
  · intro h
    induction vs generalizing l ws with
    | nil =>
      cases h
      exact .nil
    | cons v vs ih =>
      obtain ⟨cause | admitted, hv, h⟩ := bind_eq_ok.1 h
      · exact .refused hv (ih h)
      · obtain ⟨⟨final, others⟩, hothers, h⟩ := bind_eq_ok.1 h
        cases h
        exact .admitted (settle_eq_ok_ok.1 hv) (ih hothers)
  · intro h
    induction h with
    | nil => rfl
    | refused hv _ ih =>
      rw [admitSome, hv]
      exact ih
    | admitted hv _ ih =>
      rw [admitSome, settle_eq_ok_ok.2 hv, ok_bind]
      dsimp only
      rw [ih]
      rfl

theorem takesIn_admitSome {vs ws : List Vote} (h : AdmitsSome s l vs k ws) : TakesIn s l k := by
  induction h with
  | nil => exact .refl
  | refused _ _ ih => exact ih
  | admitted hv _ ih => exact (takesIn_admitVote hv).trans ih

/-- The ways in which a masternode that may vote casts its votes for a height. -/
inductive Casts (l : Ledger) (s : Setting) (height : Height) (proposals : List Vote) :
    Ledger → List Vote → Prop
  /-- Votes were cast for this height before, or for a higher one. -/
  | past : height ≤ l.lastCast → Casts l s height proposals l []
  | budget : ¬height ≤ l.lastCast → s.budget.covers height = true →
      Casts l s height proposals { l with lastCast := height } []
  /-- No proposal passes the checks, and the height may be tried again. -/
  | refused {final : Ledger} : ¬height ≤ l.lastCast → s.budget.covers height = false →
      AdmitsSome s l proposals final [] → Casts l s height proposals final []
  | some {final : Ledger} {v : Vote} {vs : List Vote} : ¬height ≤ l.lastCast →
      s.budget.covers height = false → AdmitsSome s l proposals final (v :: vs) →
      Casts l s height proposals { final with lastCast := height } (v :: vs)

/-- **Casting** is done by a registered masternode within the limit, in one of these ways. -/
theorem cast_eq_ok : l.cast s height active = .ok (k, votes) ↔
    ∃ node, s.registry.find? active.id = some node ∧
      s.withinLimit (s.registry.rank? active.id s.minProtocol) = true ∧
      l.Casts s height
        (s.schedule.tiers.filterMap (s.proposal? active node.operatorKey height)) k votes := by
  simp only [cast, bind_eq_ok, obtain?_eq_ok, require_eq_ok]
  constructor
  · rintro ⟨node, hnode, -, hrank, h⟩
    refine ⟨node, hnode, hrank, ?_⟩
    split at h
    · next hpast =>
      cases h
      exact .past hpast
    · next hnew =>
      split at h
      · next hcovers =>
        cases h
        exact .budget hnew hcovers
      · next hcovers =>
        obtain ⟨⟨final, _ | ⟨v, vs⟩⟩, hadmit, h⟩ := bind_eq_ok.1 h
        · cases h
          exact .refused hnew (by simpa using hcovers) (admitSome_eq_ok.1 (liftM_eq_ok.1 hadmit))
        · cases h
          exact .some hnew (by simpa using hcovers) (admitSome_eq_ok.1 (liftM_eq_ok.1 hadmit))
  · rintro ⟨node, hnode, hrank, h⟩
    refine ⟨node, hnode, (), hrank, ?_⟩
    cases h with
    | past hpast =>
      rw [if_pos hpast]
      rfl
    | budget hnew hcovers =>
      rw [if_neg hnew, if_pos hcovers]
      rfl
    | refused hnew hcovers hadmit =>
      rw [if_neg hnew, if_neg (by simp [hcovers]), admitSome_eq_ok.2 hadmit]
      rfl
    | some hnew hcovers hadmit =>
      rw [if_neg hnew, if_neg (by simp [hcovers]), admitSome_eq_ok.2 hadmit]
      rfl

theorem takesIn_cast (h : l.cast s height active = .ok (k, votes)) : TakesIn s l k := by
  obtain ⟨node, -, -, h⟩ := cast_eq_ok.1 h
  cases h with
  | past => exact .refl
  | budget => exact .noteCast height .refl
  | refused _ _ hadmit => exact takesIn_admitSome hadmit
  | some _ _ hadmit => exact .noteCast height (takesIn_admitSome hadmit)

theorem prune_eq_ok {height : Height} {dropped : List Hash} :
    l.prune s height = .ok (k, dropped) ↔
      ∃ lowest, cutoff s height = .ok lowest ∧ l.dropBelow lowest = k ∧
        l.expired lowest = dropped := by
  simp only [prune, bind_eq_ok, pure_eq_ok, Prod.mk.injEq]

theorem clean_cases {dropped : List Hash} (h : l.clean s = .ok (k, dropped)) :
    s.chain.tip? = none ∧ k = l ∧ dropped = [] ∨
      ∃ tip lowest, s.chain.tip? = some tip ∧ cutoff s tip = .ok lowest ∧
        k = l.dropBelow lowest ∧ dropped = l.expired lowest := by
  unfold clean at h
  split at h
  · next tip htip =>
    obtain ⟨lowest, hl, rfl, rfl⟩ := prune_eq_ok.1 h
    exact .inr ⟨tip, lowest, htip, hl, rfl, rfl⟩
  · next htip =>
    cases h
    exact .inl ⟨htip, rfl, rfl⟩

end Ledger

namespace Node

/-! ## The effect of an event -/

/-- The surroundings after an event. -/
def Event.settingAfter (s : Setting) : Event → Setting
  | .surroundings t => t
  | _ => s

/-- The ledger keeps everything, or loses what fell behind the horizon of the tip. -/
def Cleans (s : Setting) (l l' : Ledger) : Prop :=
  l' = l ∨ ∃ tip lowest, s.chain.tip? = some tip ∧ Ledger.cutoff s tip = .ok lowest ∧
    l' = l.dropBelow lowest

/-- How an event may change a ledger. -/
def Event.Effect (s : Setting) (l l' : Ledger) : Event → Prop
  | .prune height => ∃ lowest, Ledger.cutoff s height = .ok lowest ∧ l' = l.dropBelow lowest
  | .clean => Cleans s l l'
  | .maintain => Cleans s l l'
  | .clear => l' = l.clear
  | .restore snapshot => l' = l.restore s snapshot
  | _ => Ledger.TakesIn s l l'

variable {n m : Node}

/-- A node that took votes in, its surroundings being as they were. -/
def TakesIn (n m : Node) : Prop :=
  m.setting = n.setting ∧ Ledger.TakesIn n.setting n.ledger m.ledger

theorem takesIn_of_eq (hs : m.setting = n.setting) (hl : m.ledger = n.ledger) : n.TakesIn m :=
  ⟨hs, hl ▸ .refl⟩

theorem TakesIn.of_eq {k : Node} (h : n.TakesIn m) (hs : k.setting = m.setting)
    (hl : k.ledger = m.ledger) : n.TakesIn k :=
  ⟨hs.trans h.1, hl ▸ h.2⟩

theorem takesIn_admitVote {v : Vote} {r : Except Rejection Unit} (h : n.admitVote v = .ok (m, r)) :
    n.TakesIn m := by
  simp only [admitVote, bind_eq_ok] at h
  obtain ⟨cause | ledger, hs, h⟩ := h
  · cases h
    exact takesIn_of_eq rfl rfl
  · cases h
    exact ⟨rfl, Ledger.takesIn_admitVote (settle_eq_ok_ok.1 hs)⟩

theorem takesIn_announceTo {peer : Nat} {count : UInt64} {sent : Option Nat}
    (h : n.announceTo peer count = .ok (m, sent)) : n.TakesIn m := by
  simp only [announceTo, bind_eq_ok] at h
  obtain ⟨_ | announcements, -, h⟩ := h <;> cases h <;> exact takesIn_of_eq rfl rfl

theorem takesIn_cast {height : Height} {active : ActiveMasternode}
    {r : Except Rejection (List Vote)} (h : n.cast height active = .ok (m, r)) : n.TakesIn m := by
  simp only [cast, bind_eq_ok] at h
  obtain ⟨cause | ⟨ledger, votes⟩, hs, h⟩ := h
  · cases h
    exact takesIn_of_eq rfl rfl
  · cases h
    exact ⟨rfl, Ledger.takesIn_cast (settle_eq_ok_ok.1 hs)⟩

theorem takesIn_handleGetVotes {index : Nat} {peer : Peer} {count : UInt64}
    (h : n.handleGetVotes index peer count = .ok m) : n.TakesIn m := by
  unfold handleGetVotes at h
  split at h
  · cases h
    exact takesIn_of_eq rfl rfl
  · obtain ⟨⟨after, sent⟩, ha, h⟩ := bind_eq_ok.1 h
    have ht := takesIn_announceTo ha
    dsimp only at h
    split at h <;> cases h
    · exact ht.of_eq rfl rfl
    · exact ht

/-- A refused vote changes what is known of the peers, and nothing else. -/
theorem onRejection_eq (n : Node) (index : Nat) (cause : Rejection) :
    ∃ peers, n.onRejection index cause = { n with peers := peers } := by
  unfold onRejection
  split
  · exact ⟨_, rfl⟩
  · exact ⟨_, rfl⟩
  · dsimp only
    split <;> exact ⟨_, rfl⟩
  · exact ⟨n.peers, rfl⟩

theorem takesIn_handleVote {index : Nat} {peer : Peer} {v : Vote}
    (h : n.handleVote index peer v = .ok m) : n.TakesIn m := by
  unfold handleVote at h
  split at h
  · cases h
    exact takesIn_of_eq rfl rfl
  · obtain ⟨⟨after, r⟩, ha, h⟩ := bind_eq_ok.1 h
    have ht := takesIn_admitVote ha
    split at h <;> rename_i heq <;> cases heq <;> cases h
    · exact ht.of_eq rfl rfl
    · exact ht.of_eq rfl rfl
    · obtain ⟨peers, hpeers⟩ := onRejection_eq _ index _
      exact ht.of_eq (by rw [hpeers]) (by rw [hpeers])

theorem takesIn_handle {index : Nat} {message : Message} (h : n.handle index message = .ok m) :
    n.TakesIn m := by
  unfold handle at h
  split at h
  · cases h
    exact takesIn_of_eq rfl rfl
  · split at h
    · exact takesIn_handleGetVotes h
    · exact takesIn_handleVote h
    · cases h
      exact takesIn_of_eq rfl rfl

theorem takesIn_newTip {tip : Height} {count : Nat} (h : n.newTip tip = .ok (m, count)) :
    n.TakesIn m := by
  unfold newTip at h
  split at h
  · cases h
    exact takesIn_of_eq rfl rfl
  · split at h
    · cases h
      exact takesIn_of_eq rfl rfl
    · obtain ⟨height, -, h⟩ := bind_eq_ok.1 h
      obtain ⟨⟨after, r⟩, hc, h⟩ := bind_eq_ok.1 h
      have ht := takesIn_cast hc
      cases r <;> cases h
      · exact ht
      · exact ht.of_eq rfl rfl

theorem prune_drops {height : Height} {dropped : List Hash}
    (h : n.prune height = .ok (m, dropped)) :
    m.setting = n.setting ∧ ∃ lowest, Ledger.cutoff n.setting height = .ok lowest ∧
      m.ledger = n.ledger.dropBelow lowest := by
  simp only [prune, bind_eq_ok] at h
  obtain ⟨⟨ledger, expired⟩, hp, h⟩ := h
  cases h
  obtain ⟨lowest, hl, rfl, -⟩ := Ledger.prune_eq_ok.1 hp
  exact ⟨rfl, lowest, hl, rfl⟩

theorem clean_cleans {dropped : List Hash} (h : n.clean = .ok (m, dropped)) :
    m.setting = n.setting ∧ Cleans n.setting n.ledger m.ledger := by
  simp only [clean, bind_eq_ok] at h
  obtain ⟨⟨ledger, expired⟩, hc, h⟩ := h
  cases h
  obtain ⟨-, rfl, -⟩ | ⟨tip, lowest, htip, hl, rfl, -⟩ := Ledger.clean_cases hc
  · exact ⟨rfl, .inl rfl⟩
  · exact ⟨rfl, .inr ⟨tip, lowest, htip, hl, rfl⟩⟩

/-- **What an event does** to the surroundings and to the ledger. -/
theorem step_effect {e : Event} (h : n.step e = .ok m) :
    m.setting = e.settingAfter n.setting ∧ e.Effect n.setting n.ledger m.ledger := by
  cases e with
  | surroundings setting =>
    cases h
    exact ⟨rfl, .refl⟩
  | syncState chain all =>
    cases h
    exact ⟨rfl, .refl⟩
  | admitVote v =>
    obtain ⟨r, hr⟩ := map_fst_eq_ok.1 h
    exact takesIn_admitVote hr
  | prune height =>
    obtain ⟨dropped, hd⟩ := map_fst_eq_ok.1 h
    exact prune_drops hd
  | clean =>
    obtain ⟨dropped, hd⟩ := map_fst_eq_ok.1 h
    exact clean_cleans hd
  | announceTo peer count =>
    obtain ⟨sent, hs⟩ := map_fst_eq_ok.1 h
    exact takesIn_announceTo hs
  | cast height active =>
    obtain ⟨r, hr⟩ := map_fst_eq_ok.1 h
    exact takesIn_cast hr
  | clear =>
    cases h
    exact ⟨rfl, rfl⟩
  | restore snapshot =>
    cases h
    exact ⟨rfl, rfl⟩
  | message peer message => exact takesIn_handle h
  | newTip tip =>
    obtain ⟨count, hc⟩ := map_fst_eq_ok.1 h
    exact takesIn_newTip hc
  | maintain =>
    obtain ⟨count, hc⟩ := map_fst_eq_ok.1 h
    obtain ⟨⟨k, dropped⟩, hk, hm⟩ := bind_eq_ok.1 hc
    cases hm
    exact clean_cleans hk

/-- The surroundings after a run are those that changed last. -/
theorem run_setting {es : List Event} (h : n.run es = .ok m) :
    m.setting = es.foldl Event.settingAfter n.setting := by
  induction h using run_induction with
  | nil => rfl
  | cons hk h ih => rw [List.foldl_cons, ← (step_effect hk).1, ih]

end Node
end MasternodePayments
