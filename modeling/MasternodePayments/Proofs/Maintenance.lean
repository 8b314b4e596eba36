import MasternodePayments.Proofs.Atomicity
import MasternodePayments.Proofs.Horizon
import MasternodePayments.Proofs.Ledger.Gains
import MasternodePayments.Proofs.Restart

/-!
# Cleaning at any moment

Under fixed surroundings a cleaning drops what lies below a height that no vote can be admitted for
any more. So it does not matter whether a ledger is cleaned between the votes that it is offered, as
long as it is cleaned in the end (`World.clean_any_time`). Only a vote that was stored long ago is
told something else when it is offered again: without the cleaning it is a duplicate, afterwards it
is outside the window. It is refused either way.

* `Ledger.record_dropBelow`, `Ledger.check_dropBelow`: what a vote that is admitted does to a
  cleaned ledger, and what the checks say of a vote then.
* `Ledger.Trails`, `Ledger.lags_run`: the ledger with the early cleanings is the other one, or the
  other one cleaned.
* `World.run_keyed`: the votes are stored under their identities, also after restarts.
-/

namespace MasternodePayments

namespace Setting

/-- The heights below this one are dropped by a cleaning. -/
def CleansBelow (s : Setting) (lowest : Height) : Prop :=
  ∃ tip, s.chain.tip? = some tip ∧ Ledger.cutoff s tip = .ok lowest

/-- The last height of the window is a word. -/
def WindowFits (s : Setting) : Prop :=
  ∀ tip, s.chain.tip? = some tip → ∃ last, add64 tip s.config.futureWindow = .ok last

variable {s : Setting} {lowest tip : Height} {tier : Tier} {b : Ballot}

/-- No window reaches below what a cleaning keeps. -/
theorem le_of_window {u : Unit} (h : s.CleansBelow lowest) (htip : s.chain.tip? = some tip)
    (hwindow : s.checkWindow b.height b.tier tip = .ok u) : lowest ≤ b.height := by
  apply Decidable.byContradiction
  intro hlow
  obtain ⟨tip', htip', hcut⟩ := h
  have hpassed : s.Passed b := passed_of_cutoff htip' hcut hlow
  exact not_passed_of_window htip hwindow hpassed

theorem exists_window (h : s.CleansBelow lowest) (hfits : s.WindowFits)
    (htip : s.chain.tip? = some tip) (tier : Tier) :
    ∃ first last, s.window tier tip = .ok (first, last) := by
  obtain ⟨tip', htip', hcut⟩ := h
  obtain rfl : tip' = tip := Option.some.inj (htip'.symm.trans htip)
  obtain ⟨horizon, hhorizon, -⟩ := bind_eq_ok.1 hcut
  obtain ⟨scaled, hscaled, -⟩ := Config.retentionHorizon_eq_ok.1 hhorizon
  obtain ⟨span, hspan, -⟩ :=
    Config.scaledPopulation_mono (s.registry.countInTier_le tier) hscaled
  obtain ⟨last, hlast⟩ := hfits tip' htip
  exact ⟨_, last, window_eq_ok.2 ⟨span, hspan, hlast, rfl⟩⟩

end Setting

namespace Ledger

variable {s : Setting} {i j k l : Ledger} {v x : Vote} {a : Admission} {id : Hash}
  {lowest : Height} {es : List Node.Event} {dropped : List Hash}

/-! ## One vote and a cleaned ledger -/

theorem le_height_of_admits (h : s.CleansBelow lowest) (ha : l.Admits s v a) :
    lowest ≤ v.height := by
  obtain ⟨tip, first, last, htip, hwindow, hwithin⟩ := ha.window
  have hcheck : s.checkWindow v.height a.tier tip = .ok () :=
    Setting.checkWindow_eq_ok.2 ⟨first, last, hwindow, hwithin⟩
  exact Setting.le_of_window (b := ⟨v.voter, a.tier, v.height⟩) h htip hcheck

theorem clean_eq (h : s.CleansBelow lowest) (l : Ledger) :
    l.clean s = .ok (l.dropBelow lowest, l.expired lowest) := by
  obtain ⟨tip, htip, hcut⟩ := h
  unfold clean
  rw [htip]
  exact prune_eq_ok.2 ⟨lowest, hcut, rfl, rfl⟩

/-- The checks look at nothing that a cleaning drops, but for the identity of the vote. -/
theorem check_dropBelow (h : s.CleansBelow lowest)
    (hid : v.identity ∈ l.votes → v.identity ∈ (l.dropBelow lowest).votes) :
    (l.dropBelow lowest).check s v = l.check s v := by
  refine check_congr_within ⟨mem_of_mem_dropBelow, hid⟩ fun b tip hb htip hwindow => ?_
  obtain ⟨-, -, hheight⟩ := Setting.ballot?_eq_some.1 hb
  rw [hheight] at hwindow
  have hle : lowest ≤ b.height := Setting.le_of_window h htip hwindow
  simp [mem_ballots_dropBelow, hle]

/-- A vote for a height that is dropped is refused, whatever is stored. -/
theorem exists_refuses (h : s.CleansBelow lowest) (hfits : s.WindowFits)
    (hlow : ¬lowest ≤ v.height) : ∃ cause, l.Refuses s v cause := by
  by_cases hfresh : v.identity ∈ l.votes
  · exact ⟨_, .duplicate hfresh⟩
  cases hvoter : s.registry.find? v.voter with
  | none => exact ⟨_, .unknownVoter hfresh hvoter⟩
  | some m =>
    cases hpayee : s.resolve? v.payee with
    | none => exact ⟨_, .unknownPayee hfresh hvoter hpayee⟩
    | some p =>
      obtain ⟨script, tier⟩ := p
      obtain ⟨tip, htip, -⟩ := id h
      obtain ⟨first, last, hwindow⟩ := Setting.exists_window h hfits htip tier
      have hout : ¬(first ≤ v.height ∧ v.height ≤ last) := by
        intro hwithin
        have hcheck : s.checkWindow v.height tier tip = .ok () :=
          Setting.checkWindow_eq_ok.2 ⟨first, last, hwindow, hwithin⟩
        exact hlow (Setting.le_of_window (b := ⟨v.voter, tier, v.height⟩) h htip hcheck)
      exact ⟨_, .window ⟨hfresh, hvoter, hpayee, htip⟩
        (Setting.checkWindow_eq_rejected.2 ⟨first, last, hwindow, hout, rfl⟩)⟩

/-! ## One step -/

/-- The ledger once a vote was offered to it: a vote that is refused leaves it as it is. -/
def offer (l : Ledger) (s : Setting) (v : Vote) : Checked Ledger :=
  (·.toOption.getD l) <$> settle (l.admitVote s v)

/-- What a ledger becomes when a vote is offered to it or when it is cleaned. -/
def tend (s : Setting) (l : Ledger) : Node.Event → Checked Ledger
  | .admitVote v => l.offer s v
  | .clean => Prod.fst <$> l.clean s
  | _ => .ok l

theorem offer_of_refuses {cause : Rejection} (h : l.Refuses s v cause) : l.offer s v = .ok l := by
  unfold offer
  rw [admitVote_eq_rejected.2 (check_eq_rejected.2 h)]
  rfl

theorem offer_cases (h : l.offer s v = .ok k) :
    k = l ∨ ∃ a, l.Admits s v a ∧ l.record v a = .ok k := by
  obtain ⟨r, hr, rfl⟩ := map_eq_ok.1 h
  cases r with
  | error cause => exact .inl rfl
  | ok k => exact .inr (admitVote_eq_ok.1 (settle_eq_ok_ok.1 hr))

theorem offer_dropBelow (h : s.CleansBelow lowest)
    (hid : v.identity ∈ l.votes → v.identity ∈ (l.dropBelow lowest).votes) :
    (l.dropBelow lowest).offer s v = (·.dropBelow lowest) <$> l.offer s v := by
  unfold offer admitVote
  rw [check_dropBelow h hid]
  cases hc : l.check s v with
  | error fault => cases fault <;> rfl
  | ok a =>
    have hle := le_height_of_admits h (check_eq_ok.1 hc)
    simp only [ok_bind, record_dropBelow hle]
    cases l.record v a <;> rfl

theorem tend_clean (h : s.CleansBelow lowest) (l : Ledger) :
    l.tend s .clean = .ok (l.dropBelow lowest) := by
  unfold tend
  rw [clean_eq h]
  rfl

/-! ## Early cleanings and late ones -/

/-- The first ledger is the second one, or the second one cleaned. -/
def Trails (lowest : Height) (i j : Ledger) : Prop := i = j ∨ i = j.dropBelow lowest

/-- Where the first computation comes to an end, so does the second; the other way round, if the
window fits. The ledgers are the same then, or the first one has been cleaned. -/
structure Lags (s : Setting) (lowest : Height) (x y : Checked Ledger) : Prop where
  ends : ∀ i, x = .ok i → ∃ j, y = .ok j ∧ Trails lowest i j
  started : s.WindowFits → ∀ j, y = .ok j → ∃ i, x = .ok i ∧ Trails lowest i j

/-- The stored votes that share the identity of one that is yet to be offered and may be admitted
are recent. -/
def HoldsRecent (lowest : Height) (l : Ledger) (es : List Node.Event) : Prop :=
  ∀ v, .admitVote v ∈ es → ∀ x, l.votes[v.identity]? = some x → lowest ≤ v.height →
    lowest ≤ x.height

theorem Trails.dropBelow (h : Trails lowest i j) : i.dropBelow lowest = j.dropBelow lowest := by
  rcases h with rfl | rfl
  · rfl
  · exact dropBelow_self j lowest

theorem Lags.pure (h : Trails lowest i j) : Lags s lowest (.ok i) (.ok j) where
  ends _ hi := by
    cases hi
    exact ⟨j, rfl, h⟩
  started _ _ hj := by
    cases hj
    exact ⟨i, rfl, h⟩

theorem Lags.refl (x : Checked Ledger) : Lags s lowest x x :=
  ⟨fun i hi => ⟨i, hi, .inl rfl⟩, fun _ j hj => ⟨j, hj, .inl rfl⟩⟩

theorem Lags.dropBelow (y : Checked Ledger) : Lags s lowest ((·.dropBelow lowest) <$> y) y where
  ends i hi := by
    obtain ⟨j, hj, rfl⟩ := map_eq_ok.1 hi
    exact ⟨j, hj, .inr rfl⟩
  started _ j hj := ⟨_, map_eq_ok.2 ⟨j, hj, rfl⟩, .inr rfl⟩

theorem Lags.bind {x y : Checked Ledger} {f g : Ledger → Checked Ledger} (h : Lags s lowest x y)
    (hfg : ∀ i j, y = .ok j → Trails lowest i j → Lags s lowest (f i) (g j)) :
    Lags s lowest (x >>= f) (y >>= g) where
  ends k hk := by
    obtain ⟨i, hi, hk⟩ := bind_eq_ok.1 hk
    obtain ⟨j, hj, ht⟩ := h.ends i hi
    obtain ⟨k', hk', ht⟩ := (hfg i j hj ht).ends k hk
    exact ⟨k', bind_eq_ok.2 ⟨j, hj, hk'⟩, ht⟩
  started hfits k hk := by
    obtain ⟨j, hj, hk⟩ := bind_eq_ok.1 hk
    obtain ⟨i, hi, ht⟩ := h.started hfits j hj
    obtain ⟨k', hk', ht⟩ := (hfg i j hj ht).started hfits k hk
    exact ⟨k', bind_eq_ok.2 ⟨i, hi, hk'⟩, ht⟩

/-- **One vote** offered to a ledger and to the same one cleaned. -/
theorem lags_offer (h : s.CleansBelow lowest) (ht : Trails lowest i j)
    (hrecent : ∀ x, j.votes[v.identity]? = some x → lowest ≤ v.height → lowest ≤ x.height) :
    Lags s lowest (i.offer s v) (j.offer s v) := by
  rcases ht with rfl | rfl
  · exact .refl _
  by_cases hid : v.identity ∈ j.votes → v.identity ∈ (j.dropBelow lowest).votes
  · rw [offer_dropBelow h hid]
    exact .dropBelow _
  · -- The vote is stored and would be dropped: a duplicate, or else outside the window.
    obtain ⟨hstored, hdropped⟩ := Classical.not_imp.1 hid
    obtain ⟨x, hx⟩ := mem_votes_iff.1 hstored
    have hlow : ¬lowest ≤ v.height := by
      intro hle
      exact hdropped (mem_votes_iff.2 ⟨x, stored_dropBelow.2 ⟨hx, hrecent x hx hle⟩⟩)
    rw [offer_of_refuses (.duplicate hstored)]
    refine ⟨fun i hi => ⟨j, rfl, ?_⟩, fun hfits k hk => ?_⟩
    · rcases offer_cases hi with rfl | ⟨a, ha, -⟩
      · exact .inr rfl
      · exact absurd (le_height_of_admits h ha) hlow
    · cases hk
      obtain ⟨cause, hcause⟩ := exists_refuses (l := j.dropBelow lowest) h hfits hlow
      exact ⟨_, offer_of_refuses hcause, .inr rfl⟩

/-- What is admitted is recent. -/
theorem HoldsRecent.offer (hj : j.HoldsRecent lowest es) (h : s.CleansBelow lowest)
    (hk : j.offer s v = .ok k) : k.HoldsRecent lowest es := by
  rcases offer_cases hk with rfl | ⟨a, ha, hr⟩
  · exact hj
  · intro w hw x hx hle
    rcases (stored_record ha.not_mem hr).1 hx with ⟨-, rfl⟩ | hx
    · exact le_height_of_admits h ha
    · exact hj w hw x hx hle

end Ledger

namespace Node.Event

/-- A vote is offered, or the ledger is cleaned. -/
def Tends : Event → Prop
  | .admitVote _ | .clean => True
  | _ => False

def isAdmission (e : Event) : Bool := e.admission?.isSome

end Node.Event

namespace Ledger

variable {s : Setting} {i j k l : Ledger} {lowest : Height} {es : List Node.Event}

/-- **A sequence of votes**, with cleanings and without. -/
theorem lags_run (h : s.CleansBelow lowest) (hes : ∀ e ∈ es, e.Tends) (ht : Trails lowest i j)
    (hj : j.HoldsRecent lowest es) :
    Lags s lowest (es.foldlM (tend s) i) ((es.filter (·.isAdmission)).foldlM (tend s) j) := by
  induction es generalizing i j with
  | nil => exact .pure ht
  | cons e es ih =>
    obtain ⟨he, htail⟩ := List.forall_mem_cons.1 hes
    have hrest : j.HoldsRecent lowest es := fun v hv => hj v (List.mem_cons_of_mem _ hv)
    cases e with
    | admitVote v =>
      rw [List.filter_cons_of_pos rfl, List.foldlM_cons, List.foldlM_cons]
      refine (lags_offer h ht (hj v List.mem_cons_self)).bind fun i' j' hj' ht' => ?_
      exact ih htail ht' (hrest.offer h hj')
    | clean =>
      rw [List.filter_cons_of_neg (by decide), List.foldlM_cons, tend_clean h]
      exact ih htail (.inr ht.dropBelow) hrest
    | _ => exact he.elim

/-- While the tip cannot be read, a cleaning does nothing. -/
theorem foldlM_tend_of_busy (hbusy : s.chain.tip? = none) (hes : ∀ e ∈ es, e.Tends) (l : Ledger) :
    es.foldlM (tend s) l = (es.filter (·.isAdmission)).foldlM (tend s) l := by
  induction es generalizing l with
  | nil => rfl
  | cons e es ih =>
    obtain ⟨he, htail⟩ := List.forall_mem_cons.1 hes
    cases e with
    | admitVote v =>
      rw [List.filter_cons_of_pos rfl, List.foldlM_cons, List.foldlM_cons]
      exact bind_congr fun k => ih htail k
    | clean =>
      have hclean : l.tend s .clean = .ok l := by
        unfold tend clean
        rw [hbusy]
        rfl
      rw [List.filter_cons_of_neg (by decide), List.foldlM_cons, hclean]
      exact ih htail l
    | _ => exact he.elim

/-- **Cleanings in between make no difference** to the ledger that is cleaned in the end. -/
theorem tend_clean_congr (hes : ∀ e ∈ es, e.Tends)
    (hl : ∀ lowest, s.CleansBelow lowest → l.HoldsRecent lowest es) :
    (∀ k, (es ++ [Node.Event.clean]).foldlM (tend s) l = .ok k →
      (es.filter (·.isAdmission) ++ [Node.Event.clean]).foldlM (tend s) l = .ok k) ∧
    (s.WindowFits → ∀ k,
      (es.filter (·.isAdmission) ++ [Node.Event.clean]).foldlM (tend s) l = .ok k →
      (es ++ [Node.Event.clean]).foldlM (tend s) l = .ok k) := by
  simp only [List.foldlM_append, List.foldlM_cons, List.foldlM_nil, bind_pure]
  cases htip : s.chain.tip? with
  | none => simp only [foldlM_tend_of_busy htip hes l, imp_self, implies_true, and_self]
  | some tip =>
    cases hcut : cutoff s tip with
    | error o =>
      have hfails : ∀ j : Ledger, j.tend s .clean = .error o := by
        intro j
        simp only [tend, clean, htip, prune, hcut]
        rfl
      refine ⟨fun k hk => ?_, fun _ k hk => ?_⟩
      · obtain ⟨j, -, hj⟩ := bind_eq_ok.1 hk
        cases (hfails j).symm.trans hj
      · obtain ⟨j, -, hj⟩ := bind_eq_ok.1 hk
        cases (hfails j).symm.trans hj
    | ok lowest =>
      have h : s.CleansBelow lowest := ⟨tip, htip, hcut⟩
      have hlags := lags_run h hes (.inl rfl) (hl lowest h)
      refine ⟨fun k hk => ?_, fun hfits k hk => ?_⟩
      · obtain ⟨i, hi, hk⟩ := bind_eq_ok.1 hk
        obtain ⟨j, hj, ht⟩ := hlags.ends i hi
        refine bind_eq_ok.2 ⟨j, hj, ?_⟩
        rw [← hk, tend_clean h, tend_clean h, ht.dropBelow]
      · obtain ⟨j, hj, hk⟩ := bind_eq_ok.1 hk
        obtain ⟨i, hi, ht⟩ := hlags.started hfits j hj
        refine bind_eq_ok.2 ⟨i, hi, ?_⟩
        rw [← hk, tend_clean h, tend_clean h, ht.dropBelow]

/-- A vote that could be admitted now is not dropped by a cleaning. -/
theorem kept_of_admitVote {l' k' : Ledger} {v : Vote} {dropped : List Hash}
    (hv : l.admitVote s v = .ok l') (hk : k.votes[v.identity]? = some v)
    (hclean : k.clean s = .ok (k', dropped)) :
    k'.votes[v.identity]? = some v ∧ v.identity ∉ dropped := by
  rcases clean_cases hclean with ⟨-, rfl, rfl⟩ | ⟨tip, lowest, htip, hcut, rfl, rfl⟩
  · exact ⟨hk, List.not_mem_nil⟩
  · obtain ⟨a, ha, -⟩ := admitVote_eq_ok.1 hv
    have hle := le_height_of_admits ⟨tip, htip, hcut⟩ ha
    refine ⟨stored_dropBelow.2 ⟨hk, hle⟩, fun hdropped => ?_⟩
    obtain ⟨x, hx, hlow⟩ := mem_expired.1 hdropped
    obtain rfl : v = x := Option.some.inj (hk.symm.trans hx)
    exact hlow hle

/-- Every vote is stored under its identity. -/
def Keyed (votes : Std.ExtTreeMap Hash Vote) : Prop :=
  ∀ (id : Hash) v, votes[id]? = some v → v.identity = id

theorem keyed_kept :
    Notes.Kept (fun _ _ => ()) (fun _ => True) fun l _ => Keyed l.votes where
  record _ hl ha hr id w hw := by
    rcases (stored_record ha.not_mem hr).1 hw with ⟨rfl, rfl⟩ | hw
    · exact ha.identity.symm
    · exact hl id w hw
  noteCast _ hl := hl
  dropBelow _ hl id v hv := hl id v (stored_dropBelow.1 hv).1
  clear _ id v hv := by simp [clear] at hv

end Ledger

/-! ## Runs and restarts -/

namespace Node

variable {n : Node} {e : Event} {es : List Event}

theorem step_tends (he : e.Tends) (n : Node) :
    (·.ledger) <$> n.step e = n.ledger.tend n.setting e := by
  cases e with
  | admitVote v =>
    simp only [step, admitVote, Ledger.tend, Ledger.offer]
    rcases settle (n.ledger.admitVote n.setting v) with _ | _ | _ <;> rfl
  | clean =>
    simp only [step, clean, Ledger.tend]
    cases n.ledger.clean n.setting <;> rfl
  | _ => exact he.elim

theorem settingAfter_of_tends (he : e.Tends) (s : Setting) : e.settingAfter s = s := by
  cases e with
  | surroundings t => exact he.elim
  | _ => rfl

theorem run_tends (hes : ∀ e ∈ es, e.Tends) :
    (·.ledger) <$> n.run es = es.foldlM (Ledger.tend n.setting) n.ledger := by
  induction es generalizing n with
  | nil => rfl
  | cons e es ih =>
    obtain ⟨he, htail⟩ := List.forall_mem_cons.1 hes
    rw [run_cons, map_bind, List.foldlM_cons, ← step_tends he]
    cases hm : n.step e with
    | error o => rfl
    | ok m =>
      obtain ⟨hset, -⟩ := step_effect hm
      rw [settingAfter_of_tends he] at hset
      rw [← hset]
      exact ih htail

end Node

namespace World

variable {w w' : World} {move : Move} {moves : List Move} {es : List Node.Event}

/-- The votes are stored under their identities, also in what was saved. -/
structure Keyed (w : World) : Prop where
  ledger : Ledger.Keyed w.node.ledger.votes
  saved : ∀ p ∈ w.saved, Ledger.Keyed p.1.votes

theorem keyed_start {n : Node} (hn : n.ledger = {}) : Keyed { node := n } := by
  refine ⟨?_, by simp⟩
  show Ledger.Keyed n.ledger.votes
  rw [hn]
  intro id v hv
  simp at hv

theorem step_keyed (h : w.Keyed) (hs : w.step move = .ok w') : w'.Keyed := by
  rcases step_cases hs with rfl | ⟨e, m, hr, hm, rfl⟩ | rfl | ⟨snapshot, o, m, hsaved, hm, rfl⟩
  · exact h
  · have hkept := Ledger.keyed_kept.effect (o := fun _ => ()) trivial h.ledger hr
      (Node.step_effect hm).2
    exact ⟨hkept, h.saved⟩
  · refine ⟨h.ledger, fun p hp => ?_⟩
    rcases List.mem_cons.1 hp with rfl | hp
    · exact h.ledger
    · exact h.saved p hp
  · refine ⟨?_, h.saved⟩
    rcases hm with hl | ⟨tip, lowest, -, -, hl⟩
    · show Ledger.Keyed m.ledger.votes
      rw [hl]
      exact h.saved _ hsaved
    · show Ledger.Keyed m.ledger.votes
      rw [hl]
      exact fun id v hv => h.saved _ hsaved id v (Ledger.stored_dropBelow.1 hv).1

theorem run_keyed (h : w.Keyed) (hr : w.run moves = .ok w') : w'.Keyed :=
  run_induction (fun _ _ _ => step_keyed) h hr

/-- **A ledger may be cleaned at any time.** A node, however its ledger was filled and whatever
restarts it went through, is offered votes in fixed surroundings, with cleanings in between, and
cleans its ledger in the end. If no stored vote shares its identity with another one that is offered,
the ledger is then the same as without the cleanings in between. If an overflow stops only one of the
two runs, it is the one with these cleanings, and the last height of the window is no word. In
particular no vote that is admitted in these surroundings is ever dropped by a cleaning. -/
theorem clean_any_time {n : Node} (hn : n.ledger = {}) (h : run { node := n } moves = .ok w)
    (hes : ∀ e ∈ es, e.Tends)
    (happart : ∀ v, .admitVote v ∈ es → ∀ x ∈ w.node.ledger.voteList,
      x.identity = v.identity → x = v) :
    (∀ k, (·.ledger) <$> w.node.run (es ++ [.clean]) = .ok k →
      (·.ledger) <$> w.node.run (es.filter (·.isAdmission) ++ [.clean]) = .ok k) ∧
    (w.node.setting.WindowFits →
      ∀ k, (·.ledger) <$> w.node.run (es.filter (·.isAdmission) ++ [.clean]) = .ok k →
        (·.ledger) <$> w.node.run (es ++ [.clean]) = .ok k) ∧
    ∀ v l l' k k' dropped, Ledger.admitVote l w.node.setting v = .ok l' →
      k.votes[v.identity]? = some v → Ledger.clean k w.node.setting = .ok (k', dropped) →
      k'.votes[v.identity]? = some v ∧ v.identity ∉ dropped := by
  have hkeyed := (run_keyed (keyed_start hn) h).ledger
  have hrecent : ∀ lowest, w.node.setting.CleansBelow lowest →
      w.node.ledger.HoldsRecent lowest es := by
    intro lowest _ v hv x hx hle
    rw [happart v hv x (Ledger.mem_voteList.2 ⟨_, hx⟩) (hkeyed _ x hx)]
    exact hle
  have hall : ∀ e ∈ es ++ [.clean], e.Tends := by
    intro e he
    rcases List.mem_append.1 he with he | he
    · exact hes e he
    · rw [List.mem_singleton.1 he]
      trivial
  have hsome : ∀ e ∈ es.filter (·.isAdmission) ++ [.clean], e.Tends := by
    intro e he
    refine hall e ?_
    rcases List.mem_append.1 he with he | he
    · exact List.mem_append_left _ (List.mem_filter.1 he).1
    · exact List.mem_append_right _ he
  obtain ⟨hends, hstarted⟩ := Ledger.tend_clean_congr hes hrecent
  rw [Node.run_tends hall, Node.run_tends hsome]
  exact ⟨hends, hstarted, fun v l l' k k' dropped => Ledger.kept_of_admitVote⟩

end World

/-! ## An old vote that is offered again -/

namespace Sample

/-- A node of two masternodes. -/
def newNode : Node where
  setting := setting {} [0, 1] 1000

/-- The node saves an admitted vote and takes it over again; then the chain grows on. -/
def grown : List World.Move :=
  [.event (.admitVote (vote 0 1 1005)), .save, .restore 0,
    .event (.surroundings (setting {} [0, 1] 2010))]

/-- The vote is old by now, and it is offered again after a cleaning. -/
def cleanedBetween : List Node.Event :=
  [.clean, .admitVote (vote 0 1 1005), .admitVote (vote 1 0 2015), .clean,
    .admitVote (scriptVote 0 1 2020)]

theorem run_grown :
    (fun w => (w.node.ledger.voteList, w.node.setting.chain.tip?,
      w.node.setting.config.futureWindow,
      (·.ledger.voteCount) <$> w.node.run (cleanedBetween ++ [.clean]))) <$>
      World.run { node := newNode } grown =
    .ok ([vote 0 1 1005], some 2010, 20, .ok 2) := by decide +kernel

theorem identity_cleanedBetween : (vote 0 1 1005).identity ≠ (vote 1 0 2015).identity ∧
    (vote 0 1 1005).identity ≠ (scriptVote 0 1 2020).identity := by decide +kernel

end Sample

open Sample in
theorem World.clean_any_time_grown : ∃ w k,
    run { node := newNode } grown = .ok w ∧
      w.node.setting.WindowFits ∧ k.voteCount = 2 ∧
      (·.ledger) <$> w.node.run (cleanedBetween ++ [.clean]) = .ok k ∧
      (·.ledger) <$> w.node.run (cleanedBetween.filter (·.isAdmission) ++ [.clean]) = .ok k := by
  obtain ⟨w, hw, he⟩ := map_eq_ok.1 run_grown
  simp only [Prod.mk.injEq] at he
  obtain ⟨hvotes, htip, hwindow, hcount⟩ := he
  obtain ⟨m, hm, hcount⟩ := map_eq_ok.1 hcount
  have hes : ∀ e ∈ cleanedBetween, e.Tends := by
    simp [cleanedBetween, Node.Event.Tends]
  have happart : ∀ v, .admitVote v ∈ cleanedBetween → ∀ x ∈ w.node.ledger.voteList,
      x.identity = v.identity → x = v := by
    obtain ⟨hfirst, hsecond⟩ := identity_cleanedBetween
    rw [hvotes]
    simp [cleanedBetween, hfirst, hsecond]
  obtain ⟨hends, -, -⟩ := clean_any_time rfl hw hes happart
  have hledger : (·.ledger) <$> w.node.run (cleanedBetween ++ [.clean]) = .ok m.ledger :=
    map_eq_ok.2 ⟨m, hm, rfl⟩
  refine ⟨w, m.ledger, hw, fun tip ht => ?_, hcount, hledger, hends _ hledger⟩
  rw [hwindow]
  obtain rfl : tip = 2010 := Option.some.inj (ht.symm.trans htip)
  exact ⟨2030, by decide⟩

end MasternodePayments
