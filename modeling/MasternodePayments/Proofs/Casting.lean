import MasternodePayments.Proofs.Ledger.Gains
import MasternodePayments.Proofs.Node.Messages

/-!
# When a node casts votes

A node that runs a masternode casts votes when it is asked to, and when it hears of a new tip. It
remembers the last height that it cast votes for, and nothing makes it forget: not a cleared ledger,
and not a restored one.

* `Ledger.NewlyAdmits`, `Ledger.newlyAdmits_of_cast`: the votes that are cast were admitted just
  now.
* `Ledger.eq_of_cast_nil`: where no vote is cast, at most the last height is noted.
* `Node.step_lastCast`: what one event does to the last height.
* `Node.castings_increasing`: in a run, votes are cast for one height after the other, upwards.
-/

namespace MasternodePayments

namespace Ledger

variable {l k j : Ledger} {s : Setting} {v : Vote} {vs ws votes : List Vote} {height : Height}
  {active : ActiveMasternode} {id : Hash}

/-! ## What is cast -/

theorem TakesIn.stored (h : TakesIn s l k) (hv : l.votes[id]? = some v) :
    k.votes[id]? = some v := by
  induction h with
  | refl => exact hv
  | vote _ ha hr ih => exact (stored_record ha.not_mem hr).2 (.inr ih)
  | noteCast _ _ ih => exact ih

/-- The vote was not stored before and is stored now, and it passed the checks in between. -/
structure NewlyAdmits (s : Setting) (l k : Ledger) (v : Vote) : Prop where
  absent : v.identity ∉ l.votes
  stored : k.votes[v.identity]? = some v
  admitted : ∃ j a, TakesIn s l j ∧ j.Admits s v a

theorem newlyAdmits_of_admitSome (h : AdmitsSome s l vs k ws) (hv : v ∈ ws) :
    NewlyAdmits s l k v := by
  induction h with
  | nil => cases hv
  | refused _ _ ih => exact ih hv
  | admitted hw hothers ih =>
    rcases List.mem_cons.1 hv with rfl | hv
    · obtain ⟨a, ha, hr⟩ := admitVote_eq_ok.1 hw
      have hstored := (stored_record ha.not_mem hr (w := v)).2 (.inl ⟨rfl, rfl⟩)
      rw [ha.identity] at hstored
      exact ⟨ha.fresh, (takesIn_admitSome hothers).stored hstored, _, a, .refl, ha⟩
    · obtain ⟨habsent, hstored, j, a, hj, ha⟩ := ih hv
      have hfirst := takesIn_admitVote hw
      exact ⟨fun hold => habsent (hfirst.mem_votes hold), hstored, j, a, hfirst.trans hj, ha⟩

theorem newlyAdmits_of_cast (h : l.cast s height active = .ok (k, votes)) (hv : v ∈ votes) :
    NewlyAdmits s l k v := by
  obtain ⟨node, -, -, h⟩ := cast_eq_ok.1 h
  cases h with
  | past => cases hv
  | budget => cases hv
  | refused => cases hv
  | some _ _ hadmit =>
    obtain ⟨habsent, hstored, hadmitted⟩ := newlyAdmits_of_admitSome hadmit hv
    exact ⟨habsent, hstored, hadmitted⟩

/-! ## What is left alone -/

theorem eq_of_admitSome_nil (h : AdmitsSome s l vs k []) : k = l := by
  induction vs with
  | nil =>
    cases h
    rfl
  | cons w vs ih =>
    cases h with
    | refused _ hothers => exact ih hothers

theorem eq_of_cast_nil (h : l.cast s height active = .ok (k, [])) :
    k = { l with lastCast := k.lastCast } := by
  obtain ⟨node, -, -, h⟩ := cast_eq_ok.1 h
  cases h with
  | past => rfl
  | budget => rfl
  | refused _ _ hadmit =>
    cases eq_of_admitSome_nil hadmit
    rfl

/-! ## The last height -/

theorem lastCast_admitVote (h : l.admitVote s v = .ok k) : k.lastCast = l.lastCast := by
  obtain ⟨a, -, hr⟩ := admitVote_eq_ok.1 h
  obtain ⟨tally, -, rfl⟩ := record_eq_ok.1 hr
  rfl

theorem lastCast_clean {dropped : List Hash} (h : l.clean s = .ok (k, dropped)) :
    k.lastCast = l.lastCast := by
  obtain ⟨-, rfl, -⟩ | ⟨tip, lowest, -, -, rfl, -⟩ := clean_cases h <;> rfl

theorem lastCast_admitSome (h : AdmitsSome s l vs k ws) : k.lastCast = l.lastCast := by
  induction h with
  | nil => rfl
  | refused _ _ ih => exact ih
  | admitted hw _ ih => rw [ih, lastCast_admitVote hw]

/-- The last height never falls, and where votes are cast it rises to theirs. -/
theorem lastCast_cast (h : l.cast s height active = .ok (k, votes)) :
    l.lastCast ≤ k.lastCast ∧ (votes ≠ [] → l.lastCast < height ∧ k.lastCast = height) := by
  obtain ⟨node, -, -, h⟩ := cast_eq_ok.1 h
  cases h with
  | past => exact ⟨UInt64.le_refl _, fun hne => absurd rfl hne⟩
  | budget hnew =>
    exact ⟨UInt64.le_of_lt (UInt64.not_le.1 hnew), fun hne => absurd rfl hne⟩
  | refused _ _ hadmit =>
    rw [lastCast_admitSome hadmit]
    exact ⟨UInt64.le_refl _, fun hne => absurd rfl hne⟩
  | some hnew =>
    have hlt := UInt64.not_le.1 hnew
    exact ⟨UInt64.le_of_lt hlt, fun _ => ⟨hlt, rfl⟩⟩

end Ledger

namespace Node

variable {n m : Node} {e : Event} {es : List Event} {height tip : Height}
  {active : ActiveMasternode} {votes : List Vote} {p : Height × List Vote}

/-! ## One event -/

/-- The height and the masternode that votes are to be cast for, if an event asks for any. -/
def request? (n : Node) : Event → Option (Height × ActiveMasternode)
  | .cast height active => some (height, active)
  | .newTip tip =>
    match n.active, add64 tip n.voteAhead with
    | some active, .ok height => if n.setting.config.liteMode then none else some (height, active)
    | _, _ => none
  | _ => none

/-- The votes that are cast in an event, with their height, if there are any. -/
def castBy (n : Node) (e : Event) : Option (Height × List Vote) :=
  match n.request? e with
  | some (height, active) =>
    match n.cast height active with
    | .ok (_, .ok (v :: vs)) => some (height, v :: vs)
    | _ => none
  | none => none

theorem cast_eq_ok {r : Except Rejection (List Vote)} (h : n.cast height active = .ok (m, r)) :
    (∃ cause, r = .error cause ∧ m = n) ∨
      ∃ k votes, r = .ok votes ∧ n.ledger.cast n.setting height active = .ok (k, votes) ∧
        m = { n with ledger := k } := by
  obtain ⟨cause | ⟨k, votes⟩, hsettle, h⟩ := bind_eq_ok.1 h
  · cases h
    exact .inl ⟨cause, rfl, rfl⟩
  · cases h
    exact .inr ⟨k, votes, rfl, settle_eq_ok_ok.1 hsettle, rfl⟩

theorem lastCast_cast {r : Except Rejection (List Vote)}
    (h : n.cast height active = .ok (m, r)) : n.ledger.lastCast ≤ m.ledger.lastCast ∧
      ∀ v vs, r = .ok (v :: vs) →
        n.ledger.lastCast < height ∧ m.ledger.lastCast = height := by
  obtain ⟨cause, rfl, rfl⟩ | ⟨k, votes, rfl, hcast, rfl⟩ := cast_eq_ok h
  · exact ⟨UInt64.le_refl _, fun v vs he => by cases he⟩
  · obtain ⟨hle, hrises⟩ := Ledger.lastCast_cast hcast
    refine ⟨hle, fun v vs he => ?_⟩
    cases he
    exact hrises (List.cons_ne_nil v vs)

/-- A new tip is a request, or the ledger stays as it is. -/
theorem newTip_request {count : Nat} (h : n.newTip tip = .ok (m, count)) :
    n.request? (.newTip tip) = none ∧ m.ledger = n.ledger ∨
      ∃ height active k r, n.request? (.newTip tip) = some (height, active) ∧
        n.cast height active = .ok (k, r) ∧ m.ledger = k.ledger := by
  unfold newTip at h
  unfold request?
  split at h
  · next hactive =>
    cases h
    exact .inl ⟨by simp [hactive], rfl⟩
  · next active hactive =>
    split at h
    · next hlite =>
      cases h
      refine .inl ⟨?_, rfl⟩
      cases hheight : add64 tip n.voteAhead <;> simp [hactive, hlite, hheight]
    · next hlite =>
      obtain ⟨height, hheight, h⟩ := bind_eq_ok.1 h
      obtain ⟨⟨k, r⟩, hcast, h⟩ := bind_eq_ok.1 h
      refine .inr ⟨height, active, k, r, by simp [hactive, hheight, hlite], hcast, ?_⟩
      cases r <;> cases h <;> rfl

theorem lastCast_clean {dropped : List Hash} (h : n.clean = .ok (m, dropped)) :
    m.ledger.lastCast = n.ledger.lastCast := by
  obtain ⟨⟨k, _⟩, hk, h⟩ := bind_eq_ok.1 h
  cases h
  exact Ledger.lastCast_clean hk

theorem lastCast_handle {index : Nat} {message : Message} (h : n.handle index message = .ok m) :
    m.ledger.lastCast = n.ledger.lastCast := by
  obtain ⟨rfl, -⟩ | ⟨peer, -, -, h⟩ := handle_cases h
  · rfl
  · cases h with
    | admitted _ hadmit => exact Ledger.lastCast_admitVote hadmit
    | rejected =>
      obtain ⟨peers, hpeers⟩ := onRejection_eq _ index _
      rw [hpeers]
    | _ => rfl

/-- What is not a request leaves the last height as it is; what is one is done as asked. -/
theorem step_request (h : n.step e = .ok m) :
    n.request? e = none ∧ m.ledger.lastCast = n.ledger.lastCast ∨
      ∃ height active k r, n.request? e = some (height, active) ∧
        n.cast height active = .ok (k, r) ∧ m.ledger = k.ledger := by
  cases e with
  | surroundings setting =>
    cases h
    exact .inl ⟨rfl, rfl⟩
  | syncState chain all =>
    cases h
    exact .inl ⟨rfl, rfl⟩
  | admitVote v =>
    obtain ⟨r, hr⟩ := map_fst_eq_ok.1 h
    obtain ⟨cause | k, hsettle, hr⟩ := bind_eq_ok.1 hr <;> cases hr
    · exact .inl ⟨rfl, rfl⟩
    · exact .inl ⟨rfl, Ledger.lastCast_admitVote (settle_eq_ok_ok.1 hsettle)⟩
  | prune height =>
    obtain ⟨dropped, hd⟩ := map_fst_eq_ok.1 h
    obtain ⟨-, lowest, -, hk⟩ := prune_drops hd
    exact .inl ⟨rfl, by rw [hk]; rfl⟩
  | clean =>
    obtain ⟨dropped, hd⟩ := map_fst_eq_ok.1 h
    exact .inl ⟨rfl, lastCast_clean hd⟩
  | announceTo peer count =>
    obtain ⟨sent, hs⟩ := map_fst_eq_ok.1 h
    obtain ⟨_ | announcements, -, hs⟩ := bind_eq_ok.1 hs <;> cases hs <;> exact .inl ⟨rfl, rfl⟩
  | cast height active =>
    obtain ⟨r, hr⟩ := map_fst_eq_ok.1 h
    exact .inr ⟨height, active, m, r, rfl, hr, rfl⟩
  | clear =>
    cases h
    exact .inl ⟨rfl, rfl⟩
  | restore snapshot =>
    cases h
    exact .inl ⟨rfl, rfl⟩
  | message index message => exact .inl ⟨rfl, lastCast_handle h⟩
  | newTip tip =>
    obtain ⟨count, hc⟩ := map_fst_eq_ok.1 h
    exact (newTip_request hc).imp (fun h => ⟨h.1, by rw [h.2]⟩) id
  | maintain =>
    obtain ⟨count, hc⟩ := map_fst_eq_ok.1 h
    obtain ⟨⟨k, dropped⟩, hk, hc⟩ := bind_eq_ok.1 hc
    cases hc
    exact .inl ⟨rfl, lastCast_clean hk⟩

theorem castBy_eq_some (h : n.castBy e = some p) :
    ∃ height active m v vs, n.request? e = some (height, active) ∧
      n.cast height active = .ok (m, .ok (v :: vs)) ∧ p = (height, v :: vs) := by
  unfold castBy at h
  split at h
  · next height active hrequest =>
    split at h
    · next m v vs hcast =>
      cases h
      exact ⟨height, active, m, v, vs, hrequest, hcast, rfl⟩
    · cases h
  · cases h

theorem lt_of_castBy (h : n.castBy e = some p) : n.ledger.lastCast < p.1 := by
  obtain ⟨height, active, m, v, vs, -, hcast, rfl⟩ := castBy_eq_some h
  exact ((lastCast_cast hcast).2 v vs rfl).1

/-- **The last height** never falls in an event, and rises to the height of the votes that are
cast. -/
theorem step_lastCast (h : n.step e = .ok m) : n.ledger.lastCast ≤ m.ledger.lastCast ∧
    ∀ p, n.castBy e = some p → m.ledger.lastCast = p.1 := by
  obtain ⟨hnone, hsame⟩ | ⟨height, active, k, r, hrequest, hcast, hk⟩ := step_request h
  · refine ⟨by rw [hsame]; exact UInt64.le_refl _, fun p hp => ?_⟩
    obtain ⟨_, _, _, _, _, hsome, -⟩ := castBy_eq_some hp
    cases hnone.symm.trans hsome
  · rw [hk]
    refine ⟨(lastCast_cast hcast).1, fun p hp => ?_⟩
    obtain ⟨_, _, m', v, vs, hrequest', hcast', rfl⟩ := castBy_eq_some hp
    cases hrequest.symm.trans hrequest'
    cases hcast.symm.trans hcast'
    exact ((lastCast_cast hcast).2 v vs rfl).2

/-! ## Runs -/

/-- All votes that a node casts in a run, with their heights, up to an overflow. -/
def castings (n : Node) : List Event → List (Height × List Vote)
  | [] => []
  | e :: es =>
    (n.castBy e).toList ++
      match n.step e with
      | .ok m => m.castings es
      | .error _ => []

theorem castings_cons_of_ok (h : n.step e = .ok m) :
    n.castings (e :: es) = (n.castBy e).toList ++ m.castings es := by
  rw [castings, h]

theorem castings_cons_of_error {o : Overflow} (h : n.step e = .error o) :
    n.castings (e :: es) = (n.castBy e).toList := by
  rw [castings, h, List.append_nil]

theorem lt_of_mem_castings (h : p ∈ n.castings es) : n.ledger.lastCast < p.1 := by
  induction es generalizing n with
  | nil => cases h
  | cons e es ih =>
    cases hs : n.step e with
    | error o =>
      rw [castings_cons_of_error hs, Option.mem_toList] at h
      exact lt_of_castBy h
    | ok m =>
      rw [castings_cons_of_ok hs, List.mem_append, Option.mem_toList] at h
      rcases h with h | h
      · exact lt_of_castBy h
      · exact UInt64.lt_of_le_of_lt (step_lastCast hs).1 (ih h)

/-- **Votes are cast for one height after the other**, upwards, whatever happens in between. -/
theorem castings_increasing (n : Node) (es : List Event) :
    (n.castings es).Pairwise fun p q => p.1 < q.1 := by
  have hone : ∀ (n : Node) e, (n.castBy e).toList.Pairwise fun p q => p.1 < q.1 := by
    intro n e
    cases n.castBy e <;> simp
  induction es generalizing n with
  | nil => exact .nil
  | cons e es ih =>
    cases hs : n.step e with
    | error o =>
      rw [castings_cons_of_error hs]
      exact hone n e
    | ok m =>
      rw [castings_cons_of_ok hs]
      refine List.pairwise_append.2 ⟨hone n e, ih m, fun p hp q hq => ?_⟩
      rw [← (step_lastCast hs).2 p (Option.mem_toList.1 hp)]
      exact lt_of_mem_castings hq

end Node
end MasternodePayments
