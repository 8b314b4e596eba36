import MasternodePayments.Proofs.Ledger.Tallied

/-!
# Votes admitted one after the other

`Node.admitEach` offers a list of votes to a node and tells what became of each. In an `Independent`
list no vote is in the way of another one, so that what becomes of it is what the ledger would have
said of it at the start, its `Ledger.verdict`. `Ledger.Settles` describes the outcome in these
terms, which do not mention the order of the votes.

* `check_congr_within`, `check_congr`: what the checks on a vote depend on.
* `Node.settles_admitEach`: the outcome of an independent list.
* `Node.exists_admitEach`: there is one, if some ledger holds all that is admitted.
-/

namespace MasternodePayments

/-- Votes of which no two are the same and no two use up the same ballot. -/
structure Setting.Independent (s : Setting) (vs : List Vote) : Prop where
  identities : (vs.map (·.identity)).Nodup
  ballots : (vs.filterMap s.ballot?).Nodup

namespace Setting.Independent

variable {s : Setting} {v w : Vote} {vs ws : List Vote}

theorem perm (h : s.Independent vs) (hp : vs.Perm ws) : s.Independent ws :=
  ⟨(hp.map _).nodup_iff.1 h.identities, (hp.filterMap _).nodup_iff.1 h.ballots⟩

theorem tail (h : s.Independent (v :: vs)) : s.Independent vs := by
  refine ⟨(List.nodup_cons.1 h.identities).2, h.ballots.sublist ?_⟩
  exact (List.sublist_cons_self v vs).filterMap _

theorem identity_ne (h : s.Independent (v :: vs)) (hw : w ∈ vs) : w.identity ≠ v.identity :=
  fun he => (List.nodup_cons.1 h.identities).1 (List.mem_map.2 ⟨w, hw, he⟩)

theorem ballot?_ne (h : s.Independent (v :: vs)) (hw : w ∈ vs) {b : Ballot}
    (hb : s.ballot? w = some b) : s.ballot? v ≠ some b := by
  intro hv
  have hn := h.ballots
  rw [List.filterMap_cons_some hv, List.nodup_cons] at hn
  exact hn.1 (List.mem_filterMap.2 ⟨w, hw, hb⟩)

end Setting.Independent

namespace Ledger

variable {s : Setting} {j k l : Ledger} {v w : Vote} {vs : List Vote}
  {rs : List (Vote × Except Rejection Unit)} {cause : Rejection}

/-- What the checks say about a vote, if they come to an end. -/
def verdict (l : Ledger) (s : Setting) (v : Vote) : Checked (Except Rejection Unit) :=
  (·.map fun _ => ()) <$> settle (l.check s v)

theorem verdict_eq_admitted : l.verdict s v = .ok (.ok ()) ↔ ∃ a, l.Admits s v a := by
  simp only [verdict, map_eq_ok, ← check_eq_ok]
  constructor
  · rintro ⟨r, hr, he⟩
    cases r with
    | error cause => cases he
    | ok a => exact ⟨a, settle_eq_ok_ok.1 hr⟩
  · rintro ⟨a, ha⟩
    exact ⟨.ok a, settle_eq_ok_ok.2 ha, rfl⟩

theorem verdict_eq_rejected :
    l.verdict s v = .ok (.error cause) ↔ l.check s v = .error (.rejected cause) := by
  rw [verdict, map_eq_ok, ← settle_eq_ok_error]
  constructor
  · rintro ⟨r, hr, he⟩
    cases r with
    | error cause' =>
      cases he
      exact hr
    | ok a => cases he
  · exact fun h => ⟨.error cause, h, rfl⟩

/-- A vote is refused by the checks only: to enter it can overflow, but it cannot be refused. -/
theorem admitVote_eq_rejected :
    l.admitVote s v = .error (.rejected cause) ↔ l.check s v = .error (.rejected cause) := by
  unfold admitVote
  cases l.check s v with
  | error fault => simp only [bind, Except.bind, Except.error.injEq]
  | ok a =>
    have never : ∀ x : Checked Ledger,
        (liftM x : Except Fault Ledger) ≠ .error (.rejected cause) := by
      intro x h
      cases x <;> cases h
    exact ⟨fun h => absurd h (never _), fun h => by cases h⟩

/-- Two ledgers say the same of a vote if both have it stored or not, and its ballot used up or not.
Of a vote outside the window no ballot is looked for. -/
theorem check_congr_within (hid : v.identity ∈ l.votes ↔ v.identity ∈ k.votes)
    (hb : ∀ b tip, s.ballot? v = some b → s.chain.tip? = some tip →
      s.checkWindow v.height b.tier tip = .ok () → (b ∈ l.ballots ↔ b ∈ k.ballots)) :
    l.check s v = k.check s v := by
  have hstored : l.votes.contains v.identity = k.votes.contains v.identity := by
    rw [Bool.eq_iff_iff, Std.ExtTreeMap.contains_iff_mem, Std.ExtTreeMap.contains_iff_mem, hid]
  simp only [check, hstored]
  refine bind_congr fun _ => bind_congr fun voter => ?_
  cases hp : s.resolve? v.payee with
  | none => rfl
  | some p =>
    obtain ⟨script, tier⟩ := p
    cases htip : s.chain.tip? with
    | none => rfl
    | some tip =>
      simp only [obtain?_some, ok_bind]
      cases hw : s.checkWindow v.height tier tip with
      | error fault => rfl
      | ok u =>
        have hused : l.ballots.contains ⟨v.voter, tier, v.height⟩ =
            k.ballots.contains ⟨v.voter, tier, v.height⟩ := by
          rw [Bool.eq_iff_iff, Std.ExtTreeSet.contains_iff_mem, Std.ExtTreeSet.contains_iff_mem]
          exact hb _ tip (ballot?_eq_of_origin? hp) htip hw
        rw [hused]

theorem check_congr (hid : v.identity ∈ l.votes ↔ v.identity ∈ k.votes)
    (hb : ∀ b, s.ballot? v = some b → (b ∈ l.ballots ↔ b ∈ k.ballots)) :
    l.check s v = k.check s v :=
  check_congr_within hid fun b _ hballot _ _ => hb b hballot

theorem verdict_congr (hid : v.identity ∈ l.votes ↔ v.identity ∈ k.votes)
    (hb : ∀ b, s.ballot? v = some b → (b ∈ l.ballots ↔ b ∈ k.ballots)) :
    l.verdict s v = k.verdict s v := by
  rw [verdict, verdict, check_congr hid hb]

/-! ## The outcome -/

/-- The ledger `l` was offered votes and turned into `k`; `rs` tells what became of each vote. All
is said in terms of the ledger at the start. -/
structure Settles (s : Setting) (l : Ledger) (vs : List Vote) (k : Ledger)
    (rs : List (Vote × Except Rejection Unit)) : Prop where
  offered : rs.map (·.1) = vs
  verdict : ∀ p ∈ rs, l.verdict s p.1 = .ok p.2
  votes : ∀ {id : Hash} {w}, k.votes[id]? = some w ↔
    l.votes[id]? = some w ∨ w ∈ vs ∧ w.identity = id ∧ l.verdict s w = .ok (.ok ())
  ballots : ∀ {b}, b ∈ k.ballots ↔
    b ∈ l.ballots ∨ ∃ w ∈ vs, l.verdict s w = .ok (.ok ()) ∧ s.ballot? w = some b
  takesIn : TakesIn s l k

namespace Settles

theorem nil (s : Setting) (l : Ledger) : Settles s l [] l [] where
  offered := rfl
  verdict _ hp := absurd hp List.not_mem_nil
  votes := by simp
  ballots := by simp
  takesIn := .refl

theorem admitted {a : Admission} (ha : l.Admits s v a) (hr : l.record v a = .ok k) :
    Settles s l [v] k [(v, .ok ())] where
  offered := rfl
  verdict p hp := by
    rw [List.mem_singleton.1 hp]
    exact verdict_eq_admitted.2 ⟨a, ha⟩
  votes {id w} := by
    rw [stored_record ha.not_mem hr, or_comm, ha.identity, List.mem_singleton]
    refine or_congr_right ⟨?_, ?_⟩
    · rintro ⟨rfl, rfl⟩
      exact ⟨rfl, rfl, verdict_eq_admitted.2 ⟨a, ha⟩⟩
    · rintro ⟨rfl, rfl, -⟩
      exact ⟨rfl, rfl⟩
  ballots {b} := by
    have hb := ha.ballot?_eq
    rw [mem_ballots_record hr, or_comm]
    refine or_congr_right ⟨?_, ?_⟩
    · rintro rfl
      exact ⟨v, List.mem_singleton_self v, verdict_eq_admitted.2 ⟨a, ha⟩, hb⟩
    · rintro ⟨w, hw, -, hwb⟩
      rw [List.mem_singleton.1 hw, hb] at hwb
      exact (Option.some.inj hwb).symm
  takesIn := .vote .refl ha hr

theorem refused (h : l.verdict s v = .ok (.error cause)) :
    Settles s l [v] l [(v, .error cause)] where
  offered := rfl
  verdict p hp := by
    rw [List.mem_singleton.1 hp]
    exact h
  votes := by simp +contextual [h]
  ballots := by simp +contextual [h]
  takesIn := .refl

/-- One vote does not change the verdict on a vote that is independent of it. -/
theorem verdict_eq {r : Except Rejection Unit} (h : Settles s l [v] k [(v, r)])
    (hvs : s.Independent (v :: vs)) (hw : w ∈ vs) : k.verdict s w = l.verdict s w := by
  refine verdict_congr ?_ fun b hb => ?_
  · simp only [mem_votes_iff, h.votes, exists_or, List.mem_singleton]
    refine or_iff_left ?_
    rintro ⟨x, rfl, hx, -⟩
    exact hvs.identity_ne hw hx.symm
  · rw [h.ballots]
    refine or_iff_left ?_
    rintro ⟨x, hx, -, hxb⟩
    exact hvs.ballot?_ne hw hb (List.mem_singleton.1 hx ▸ hxb)

/-- One vote and then the others. -/
theorem cons {r : Except Rejection Unit} (h : Settles s l [v] k [(v, r)])
    (hvs : s.Independent (v :: vs)) (hj : Settles s k vs j rs) :
    Settles s l (v :: vs) j ((v, r) :: rs) where
  offered := by rw [List.map_cons, hj.offered]
  verdict p hp := by
    rcases List.mem_cons.1 hp with rfl | hp
    · exact h.verdict _ (List.mem_singleton_self _)
    · have hmem : p.1 ∈ vs := hj.offered ▸ List.mem_map_of_mem hp
      rw [← h.verdict_eq hvs hmem]
      exact hj.verdict p hp
  votes {id w} := by
    rw [hj.votes, h.votes, List.mem_singleton, List.mem_cons, or_assoc]
    refine or_congr_right ⟨?_, ?_⟩
    · rintro (⟨hw, hrest⟩ | ⟨hw, hid, hv⟩)
      · exact ⟨.inl hw, hrest⟩
      · exact ⟨.inr hw, hid, (h.verdict_eq hvs hw) ▸ hv⟩
    · rintro ⟨hw | hw, hid, hv⟩
      · exact .inl ⟨hw, hid, hv⟩
      · exact .inr ⟨hw, hid, (h.verdict_eq hvs hw).trans hv⟩
  ballots {b} := by
    rw [hj.ballots, h.ballots, or_assoc]
    refine or_congr_right ⟨?_, ?_⟩
    · rintro (⟨w, hw, hrest⟩ | ⟨w, hw, hv, hb⟩)
      · exact ⟨w, List.mem_singleton.1 hw ▸ List.mem_cons_self, hrest⟩
      · exact ⟨w, List.mem_cons_of_mem v hw, (h.verdict_eq hvs hw) ▸ hv, hb⟩
    · rintro ⟨w, hw, hv, hb⟩
      rcases List.mem_cons.1 hw with rfl | hw
      · exact .inl ⟨w, List.mem_singleton_self w, hv, hb⟩
      · exact .inr ⟨w, hw, (h.verdict_eq hvs hw).trans hv, hb⟩
  takesIn := h.takesIn.trans hj.takesIn

end Settles

end Ledger

namespace Node

variable {n m : Node} {v : Vote} {vs : List Vote} {r : Except Rejection Unit}
  {rs : List (Vote × Except Rejection Unit)} {k : Ledger}

/-- Offers votes to a node, one after the other; also gives what became of each. -/
def admitEach (n : Node) : List Vote → Checked (Node × List (Vote × Except Rejection Unit))
  | [] => .ok (n, [])
  | v :: vs => do
    let (m, r) ← n.admitVote v
    let (final, rs) ← m.admitEach vs
    pure (final, (v, r) :: rs)

theorem admitVote_admitted (h : n.admitVote v = .ok (m, .ok ())) : ∃ a,
    n.ledger.Admits n.setting v a ∧ n.ledger.record v a = .ok m.ledger ∧
      m = { n with ledger := m.ledger } := by
  obtain ⟨cause | k, hsettle, h⟩ := bind_eq_ok.1 h
  · cases h
  · cases h
    obtain ⟨a, ha, hr⟩ := Ledger.admitVote_eq_ok.1 (settle_eq_ok_ok.1 hsettle)
    exact ⟨a, ha, hr, rfl⟩

theorem admitVote_refused {cause : Rejection} (h : n.admitVote v = .ok (m, .error cause)) :
    n.ledger.check n.setting v = .error (.rejected cause) ∧ m = n := by
  obtain ⟨cause' | k, hsettle, h⟩ := bind_eq_ok.1 h
  · cases h
    exact ⟨Ledger.admitVote_eq_rejected.1 (settle_eq_ok_error.1 hsettle), rfl⟩
  · cases h

theorem settles_admitVote (h : n.admitVote v = .ok (m, r)) :
    m.setting = n.setting ∧ n.ledger.Settles n.setting [v] m.ledger [(v, r)] := by
  cases r with
  | ok u =>
    obtain ⟨a, ha, hr, hm⟩ := admitVote_admitted h
    exact ⟨by rw [hm], .admitted ha hr⟩
  | error cause =>
    obtain ⟨hc, rfl⟩ := admitVote_refused h
    exact ⟨rfl, .refused (Ledger.verdict_eq_rejected.2 hc)⟩

/-- **The outcome of independent votes.** -/
theorem settles_admitEach (hvs : n.setting.Independent vs) (h : n.admitEach vs = .ok (m, rs)) :
    m.setting = n.setting ∧ n.ledger.Settles n.setting vs m.ledger rs := by
  induction vs generalizing n rs with
  | nil =>
    cases h
    exact ⟨rfl, .nil ..⟩
  | cons v vs ih =>
    simp only [admitEach, bind_eq_ok] at h
    obtain ⟨⟨k, r⟩, hk, ⟨final, rest⟩, hrest, h⟩ := h
    cases h
    obtain ⟨hset, hv⟩ := settles_admitVote hk
    obtain ⟨hset', hsettles⟩ := ih (hset ▸ hvs.tail) hrest
    rw [hset] at hset' hsettles
    exact ⟨hset', hv.cons hvs hsettles⟩

theorem exists_admitVote (hl : n.ledger.Tallied n.setting) (hk : k.Tallied n.setting)
    (hsub : ∀ w ∈ n.ledger.voteList, w ∈ k.voteList)
    (hr : n.ledger.verdict n.setting v = .ok r) (hv : r = .ok () → v ∈ k.voteList) :
    ∃ m, n.admitVote v = .ok (m, r) := by
  cases r with
  | error cause =>
    have hc := Ledger.admitVote_eq_rejected.2 (Ledger.verdict_eq_rejected.1 hr)
    exact ⟨n, by rw [admitVote, settle_eq_ok_error.2 hc]; rfl⟩
  | ok u =>
    obtain ⟨a, ha⟩ := Ledger.verdict_eq_admitted.1 hr
    obtain ⟨l, hl⟩ := hl.exists_record hk hsub ha (hv rfl)
    have hadmit := Ledger.admitVote_eq_ok.2 ⟨a, ha, hl⟩
    exact ⟨{ n with ledger := l }, by rw [admitVote, settle_eq_ok_ok.2 hadmit]; rfl⟩

/-- **There is an outcome** if no check overflows and some ledger holds everything that is stored
and everything that is to be admitted. -/
theorem exists_admitEach (hl : n.ledger.Tallied n.setting) (hk : k.Tallied n.setting)
    (hsub : ∀ w ∈ n.ledger.voteList, w ∈ k.voteList) (hvs : n.setting.Independent vs)
    (hv : ∀ v ∈ vs, ∃ r, n.ledger.verdict n.setting v = .ok r ∧ (r = .ok () → v ∈ k.voteList)) :
    ∃ m rs, n.admitEach vs = .ok (m, rs) := by
  induction vs generalizing n with
  | nil => exact ⟨n, [], rfl⟩
  | cons v vs ih =>
    obtain ⟨r, hr, hin⟩ := hv v List.mem_cons_self
    obtain ⟨m, hm⟩ := exists_admitVote hl hk hsub hr hin
    obtain ⟨hset, hsettles⟩ := settles_admitVote hm
    have hml : m.ledger.Tallied n.setting := hl.takesIn hsettles.takesIn
    have hmsub : ∀ w ∈ m.ledger.voteList, w ∈ k.voteList := by
      intro w hw
      rw [hml.mem_voteList_iff, hsettles.votes] at hw
      rcases hw with hw | ⟨hw, -, hadmitted⟩
      · exact hsub w (hl.mem_voteList_iff.2 hw)
      · rw [List.mem_singleton.1 hw] at hadmitted ⊢
        exact hin (Except.ok.inj (hr.symm.trans hadmitted))
    obtain ⟨final, rs, hrest⟩ : ∃ final rs, m.admitEach vs = .ok (final, rs) := by
      refine ih (hset ▸ hml) (hset ▸ hk) hmsub (hset ▸ hvs.tail) fun w hw => ?_
      rw [hset, hsettles.verdict_eq hvs hw]
      exact hv w (List.mem_cons_of_mem v hw)
    refine ⟨final, (v, r) :: rs, ?_⟩
    simp only [admitEach, hm, hrest, bind, Except.bind, pure, Except.pure]

end Node
end MasternodePayments
