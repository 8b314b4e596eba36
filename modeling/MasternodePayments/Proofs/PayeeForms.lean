import Mathlib.Data.List.Forall2
import MasternodePayments.Proofs.Ledger.Batch
import MasternodePayments.Proofs.Ledger.Refusal
import MasternodePayments.Proofs.Vote.Preimage

/-!
# The two forms of a payee

A vote can name a masternode by its collateral or by its payout script. The form is part of the
vote's identity but not of its ballot, so a second vote in the other form is no duplicate, yet it is
refused all the same. Two lists of votes that differ in the forms alone fare the same
(`Node.admitEach_forms`).

* `Registry.SamePayee.obtain?_eq`: both forms stand for the same script and the same tier.
* `Ledger.outcome_anonymous`: a ledger that forgot which votes it has stored admits the same votes,
  as a stored vote that comes again is refused for its ballot too.
* `Ledger.outcome_reencoded`: such a ledger does the same with a vote in either form.
* `Node.Twins.admitVote`: so two nodes that get the votes in different forms stay alike.
-/

namespace MasternodePayments

/-! ## Payees -/

theorem find?_of_nodup {α β : Type} [BEq β] [LawfulBEq β] {f : α → β} {xs : List α} {x : α}
    (h : (xs.map f).Nodup) (hx : x ∈ xs) : xs.find? (f · == f x) = some x := by
  obtain ⟨pre, post, rfl⟩ := List.append_of_mem hx
  refine List.find?_eq_some_iff_append.2 ⟨by simp, pre, post, rfl, fun y hy => ?_⟩
  rw [List.map_append, List.map_cons] at h
  have hne : f y ≠ f x :=
    (List.nodup_append.1 h).2.2 _ (List.mem_map_of_mem hy) _ List.mem_cons_self
  simpa using hne

namespace Registry

/-- No two masternodes have the same identity or the same payout script. -/
structure Distinct (r : Registry) : Prop where
  ids : (r.entries.map (·.node.id)).Nodup
  payouts : (r.entries.map (·.node.payout)).Nodup

/-- Two payees are the same, or they are the two forms of naming one masternode. -/
inductive SamePayee (r : Registry) : Payee → Payee → Prop
  | refl (payee : Payee) : SamePayee r payee payee
  | toScript {e : Registration} (he : e ∈ r.entries) :
    SamePayee r (.collateral e.node.id) (.script e.node.payout)
  | toCollateral {e : Registration} (he : e ∈ r.entries) :
    SamePayee r (.script e.node.payout) (.collateral e.node.id)

variable {r : Registry} {e : Registration}

theorem find?_of_nodup_ids (h : (r.entries.map (·.node.id)).Nodup) (he : e ∈ r.entries) :
    r.find? e.node.id = some e.node := by
  rw [find?, find?_of_nodup h he, Option.map_some]

theorem Distinct.findByScript?_eq (h : r.Distinct) (he : e ∈ r.entries) :
    r.findByScript? e.node.payout = some e.node := by
  rw [findByScript?, find?_of_nodup h.payouts he, Option.map_some]

end Registry

namespace Setting

variable {s : Setting} {e : Registration} {p q : Payee}

theorem resolve?_collateral (h : (s.registry.entries.map (·.node.id)).Nodup)
    (he : e ∈ s.registry.entries) :
    s.resolve? (.collateral e.node.id) = some (e.node.payout, e.node.tier) := by
  simp [resolve?, payeeScript?, payeeTier?, payeeNode?, Registry.find?_of_nodup_ids h he]

theorem resolve?_script (h : s.registry.Distinct) (he : e ∈ s.registry.entries) :
    s.resolve? (.script e.node.payout) = some (e.node.payout, e.node.tier) := by
  simp [resolve?, payeeScript?, payeeTier?, payeeNode?, h.findByScript?_eq he]

end Setting

/-- Either form of a payee stands for the same, or is just as unknown. -/
theorem Registry.SamePayee.obtain?_eq {s : Setting} {p q : Payee} (h : s.registry.SamePayee p q)
    (hr : s.registry.Distinct) : obtain? (s.resolve? p) (.unknownPayee p) =
      obtain? (s.resolve? q) (.unknownPayee q) := by
  cases h with
  | refl => rfl
  | toScript he =>
    rw [Setting.resolve?_collateral hr.ids he, Setting.resolve?_script hr he, obtain?_some,
      obtain?_some]
  | toCollateral he =>
    rw [Setting.resolve?_collateral hr.ids he, Setting.resolve?_script hr he, obtain?_some,
      obtain?_some]

/-! ## Votes -/

namespace Setting

/-- Two votes of one voter for one height that name the same payee, in whichever form. -/
structure Reencodes (s : Setting) (v w : Vote) : Prop where
  voter : v.voter = w.voter
  height : v.height = w.height
  payee : s.registry.SamePayee v.payee w.payee

/-- Validly signed votes whose identities tell them apart. -/
structure Genuine (s : Setting) (vs : List Vote) : Prop where
  signed : ∀ v ∈ vs, ∀ m ∈ s.registry.find? v.voter, v.isSignedBy m.operatorKey = true
  apart : ∀ v ∈ vs, ∀ w ∈ vs, v.identity = w.identity → v.preimage = w.preimage

theorem Genuine.subset {s : Setting} {vs ws : List Vote} (h : s.Genuine vs) (hws : ws ⊆ vs) :
    s.Genuine ws where
  signed v hv := h.signed v (hws hv)
  apart v hv w hw := h.apart v (hws hv) w (hws hw)

end Setting

namespace Ledger

/-- The ledger without the votes, but with what was derived from them. -/
def anonymous (l : Ledger) : Ledger := { l with votes := ∅ }

/-- The ledger that a vote leads to, without its votes; nothing if the vote is refused. -/
def outcome (l : Ledger) (s : Setting) (v : Vote) : Checked (Option Ledger) :=
  Except.toOption <$> settle (anonymous <$> l.admitVote s v)

/-- Every stored vote is one of the given ones, and was admitted for a ballot that is still there. -/
structure FilledFrom (l : Ledger) (s : Setting) (vs : List Vote) : Prop where
  mem : ∀ {id : Hash} {v}, l.votes[id]? = some v → v ∈ vs
  keyed : ∀ {id : Hash} {v}, l.votes[id]? = some v → v.identity = id
  admitted : ∀ {id : Hash} {v}, l.votes[id]? = some v →
    ∃ k a, Ledger.Admits k s v a ∧ ⟨v.voter, a.tier, v.height⟩ ∈ l.ballots

variable {l k : Ledger} {s : Setting} {v w x : Vote} {a b : Admission} {vs : List Vote}
  {cause : Rejection}

theorem filledFrom_empty (s : Setting) (vs : List Vote) : FilledFrom {} s vs where
  mem h := by simp at h
  keyed h := by simp at h
  admitted h := by simp at h

theorem FilledFrom.record (h : l.FilledFrom s vs) (hv : v ∈ vs) (ha : l.Admits s v a)
    (hr : l.record v a = .ok k) : k.FilledFrom s vs where
  mem hx := by
    rcases (stored_record ha.not_mem hr).1 hx with ⟨-, rfl⟩ | hx
    · exact hv
    · exact h.mem hx
  keyed hx := by
    rcases (stored_record ha.not_mem hr).1 hx with ⟨rfl, rfl⟩ | hx
    · exact ha.identity.symm
    · exact h.keyed hx
  admitted hx := by
    simp only [mem_ballots_record hr]
    rcases (stored_record ha.not_mem hr).1 hx with ⟨-, rfl⟩ | hx
    · exact ⟨l, a, ha, .inl rfl⟩
    · obtain ⟨j, a, ha, hb⟩ := h.admitted hx
      exact ⟨j, a, ha, .inr hb⟩

/-! ## Stored votes make no difference -/

theorem outcome_refused (h : l.Refuses s v cause) : l.outcome s v = .ok none := by
  rw [outcome, admitVote_eq_rejected.2 (check_eq_rejected.2 h)]
  rfl

/-- The same claim as one that was admitted before is refused for its ballot at the latest. -/
theorem refuses_of_used (hx : k.Admits s x a) (hvoter : v.voter = x.voter)
    (hheight : v.height = x.height) (hpayee : v.payee = x.payee) (hfresh : v.identity ∉ l.votes)
    (hb : ⟨x.voter, a.tier, x.height⟩ ∈ l.ballots) :
    l.Refuses s v (.doubleVote v.voter a.tier v.height) := by
  obtain ⟨m, hm, hproto, hrank, -⟩ := hx.voter
  obtain ⟨tip, first, last, htip, hwindow, hwithin⟩ := hx.window
  have hresolve := hx.payee
  rw [← hvoter] at hm
  rw [← hheight] at hwithin
  rw [← hpayee] at hresolve
  rw [← hvoter, ← hheight] at hb
  exact .doubleVote ⟨hfresh, hm, hresolve, htip⟩
    (Setting.checkWindow_eq_ok.2 ⟨first, last, hwindow, hwithin⟩)
    (Setting.checkEligibility_eq_ok.2 ⟨hproto, hrank⟩) hb

theorem record_anonymous (l : Ledger) (v : Vote) (a : Admission) :
    anonymous <$> l.anonymous.record v a = anonymous <$> l.record v a := by
  have htally : l.anonymous.tallyAt v.height = l.tallyAt v.height := rfl
  simp only [Ledger.record, htally]
  cases (l.tallyAt v.height).add a.script a.tier 1 <;> rfl

/-- The outcome depends on what the checks find out and on what is recorded then. -/
theorem outcome_congr {γ : Type} {f : Admission → γ} (hcheck : f <$> l.check s v = f <$> k.check s w)
    (hrecord : ∀ a b, f a = f b → anonymous <$> l.record v a = anonymous <$> k.record w b) :
    l.outcome s v = k.outcome s w := by
  have hadmit : anonymous <$> l.admitVote s v = anonymous <$> k.admitVote s w := by
    simp only [admitVote, map_bind]
    refine bind_congr_of_map hcheck fun a b hab => ?_
    rw [map_liftM, map_liftM, hrecord a b hab]
  rw [outcome, outcome, hadmit]

theorem outcome_anonymous (hl : l.FilledFrom s vs) (hvs : s.Genuine vs) (hv : v ∈ vs) :
    l.anonymous.outcome s v = l.outcome s v := by
  have hempty : v.identity ∉ l.anonymous.votes := by simp [anonymous]
  by_cases hstored : v.identity ∈ l.votes
  · obtain ⟨x, hx⟩ := mem_votes_iff.1 hstored
    obtain ⟨k, a, ha, hb⟩ := hl.admitted hx
    obtain ⟨hvoter, hheight, hpayee⟩ :=
      Vote.claim_of_preimage (hvs.apart v hv x (hl.mem hx) (hl.keyed hx).symm)
    rw [outcome_refused (refuses_of_used ha hvoter hheight hpayee hempty hb),
      outcome_refused (.duplicate hstored)]
  · have hcheck : l.anonymous.check s v = l.check s v :=
      check_congr (iff_of_false hempty hstored) fun _ _ => Iff.rfl
    refine outcome_congr (f := id) (by rw [hcheck]) fun a b hab => ?_
    cases hab
    exact record_anonymous l v a

/-! ## The form makes no difference -/

theorem check_reencoded (h : s.Reencodes v w) (hr : s.registry.Distinct)
    (hv : ∀ m ∈ s.registry.find? v.voter, v.isSignedBy m.operatorKey = true)
    (hw : ∀ m ∈ s.registry.find? w.voter, w.isSignedBy m.operatorKey = true) :
    (fun a => (a.script, a.tier)) <$> l.anonymous.check s v =
      (fun a => (a.script, a.tier)) <$> l.anonymous.check s w := by
  have hempty : ∀ id, l.anonymous.votes.contains id = false := fun id => by simp [anonymous]
  rw [h.voter] at hv
  simp only [check, hempty, Bool.not_false, require_true, h.voter, h.height,
    h.payee.obtain?_eq hr, map_bind, map_pure, ok_bind]
  cases hm : s.registry.find? w.voter with
  | none => simp only [obtain?_none, error_bind]
  | some m => simp only [obtain?_some, ok_bind, hv m hm, hw m hm]

theorem record_reencoded (h : s.Reencodes v w) (hab : (a.script, a.tier) = (b.script, b.tier)) :
    anonymous <$> l.record v a = anonymous <$> l.record w b := by
  obtain ⟨hscript, htier⟩ := Prod.mk.inj hab
  simp only [Ledger.record, h.voter, h.height, hscript, htier]
  cases (l.tallyAt w.height).add b.script b.tier 1 <;> rfl

/-- Two ledgers that are the same without their votes do the same with a vote in either form. -/
theorem outcome_reencoded (hlk : l.anonymous = k.anonymous) (h : s.Reencodes v w)
    (hr : s.registry.Distinct) (hl : l.FilledFrom s vs) (hk : k.FilledFrom s ws)
    (hvs : s.Genuine vs) (hws : s.Genuine ws) (hv : v ∈ vs) (hw : w ∈ ws) :
    l.outcome s v = k.outcome s w := by
  rw [← outcome_anonymous hl hvs hv, ← outcome_anonymous hk hws hw, hlk]
  exact outcome_congr (check_reencoded h hr (hvs.signed v hv) (hws.signed w hw))
    fun _ _ => record_reencoded h

end Ledger

/-! ## Lists of votes -/

namespace Node

/-- Two nodes that are offered votes from one list each. But for the votes that they store, their
ledgers are the same. -/
structure Twins (s : Setting) (us ws : List Vote) (n m : Node) : Prop where
  setting : n.setting = s
  setting' : m.setting = s
  filled : n.ledger.FilledFrom s us
  filled' : m.ledger.FilledFrom s ws
  same : n.ledger.anonymous = m.ledger.anonymous

variable {n m n' : Node} {s : Setting} {v w : Vote} {vs ws us xs : List Vote}
  {r : Except Rejection Unit}

/-- What one vote does to a node, but for the stored votes and the cause of a refusal. -/
theorem admitVote_outcome (n : Node) (v : Vote) :
    (fun p => (p.1.ledger.anonymous, p.2.isOk)) <$> n.admitVote v =
      (fun o => (o.getD n.ledger.anonymous, o.isSome)) <$> n.ledger.outcome n.setting v := by
  unfold admitVote Ledger.outcome
  rcases n.ledger.admitVote n.setting v with (_ | _) | _ <;> rfl

theorem filledFrom_admitVote (hset : n.setting = s) (hn : n.ledger.FilledFrom s vs) (hv : v ∈ vs)
    (h : n.admitVote v = .ok (n', r)) : n'.setting = s ∧ n'.ledger.FilledFrom s vs := by
  subst hset
  cases r with
  | ok u =>
    obtain ⟨a, ha, hr, hn'⟩ := admitVote_admitted h
    exact ⟨by rw [hn'], hn.record hv ha hr⟩
  | error cause =>
    obtain ⟨-, rfl⟩ := admitVote_refused h
    exact ⟨rfl, hn⟩

/-- A vote and the same one in the other form: there is an overflow for both of them or for none,
both are admitted or none is, and the nodes stay alike. -/
theorem Twins.admitVote (h : Twins s us xs n m) (hr : s.registry.Distinct) (hus : s.Genuine us)
    (hxs : s.Genuine xs) (hvw : s.Reencodes v w) (hv : v ∈ us) (hw : w ∈ xs) :
    (∃ o, n.admitVote v = .error o ∧ m.admitVote w = .error o) ∨
      ∃ n' m' r r', n.admitVote v = .ok (n', r) ∧ m.admitVote w = .ok (m', r') ∧
        r.isOk = r'.isOk ∧ Twins s us xs n' m' := by
  have hsame : (fun p => (p.1.ledger.anonymous, p.2.isOk)) <$> n.admitVote v =
      (fun p => (p.1.ledger.anonymous, p.2.isOk)) <$> m.admitVote w := by
    rw [admitVote_outcome, admitVote_outcome, h.setting, h.setting', h.same,
      Ledger.outcome_reencoded h.same hvw hr h.filled h.filled' hus hxs hv hw]
  cases hvote : n.admitVote v with
  | error o =>
    rw [hvote] at hsame
    exact .inl ⟨o, rfl, map_eq_error.1 hsame.symm⟩
  | ok p =>
    obtain ⟨n', r⟩ := p
    rw [hvote] at hsame
    obtain ⟨⟨m', r'⟩, hvote', he⟩ := map_eq_ok.1 hsame.symm
    obtain ⟨hledger, hok⟩ := Prod.mk.inj he
    obtain ⟨hset, hfilled⟩ := filledFrom_admitVote h.setting h.filled hv hvote
    obtain ⟨hset', hfilled'⟩ := filledFrom_admitVote h.setting' h.filled' hw hvote'
    exact .inr ⟨n', m', r, r', rfl, hvote', hok.symm, hset, hset', hfilled, hfilled', hledger.symm⟩

theorem Twins.admitEach (h : Twins s us xs n m) (hr : s.registry.Distinct) (hus : s.Genuine us)
    (hxs : s.Genuine xs) (hvws : List.Forall₂ s.Reencodes vs ws) (hvs : vs ⊆ us) (hws : ws ⊆ xs) :
    (fun p => (p.1.ledger.anonymous, p.2.map (·.2.isOk))) <$> n.admitEach vs =
      (fun p => (p.1.ledger.anonymous, p.2.map (·.2.isOk))) <$> m.admitEach ws := by
  induction hvws generalizing n m with
  | nil => simp only [Node.admitEach, Functor.map, Except.map, h.same, List.map_nil]
  | cons hvw _ ih =>
    obtain ⟨hv, hvs⟩ := List.cons_subset.1 hvs
    obtain ⟨hw, hws⟩ := List.cons_subset.1 hws
    rcases h.admitVote hr hus hxs hvw hv hw with
      ⟨o, hvote, hvote'⟩ | ⟨n', m', r, r', hvote, hvote', hok, h'⟩
    · simp only [Node.admitEach, hvote, hvote', error_bind]
    · simp only [Node.admitEach, hvote, hvote', ok_bind, map_bind, map_pure, List.map_cons, hok]
      refine bind_congr_of_map (ih h' hvs hws) fun a b hab => ?_
      obtain ⟨hledger, hrs⟩ := Prod.mk.inj hab
      rw [hledger, hrs]

/-- **Both forms of a payee count alike.** In a registry where no two masternodes share an identity
or a payout script, an empty ledger is offered two lists of validly signed votes that differ in the
forms of their payees alone, and no two votes of a list that are not the same have the same
identity. Then the same votes are admitted of both, and the tallies and the ballots are the same. -/
theorem admitEach_forms (hl : n.ledger = {}) (hr : n.setting.registry.Distinct)
    (hvs : n.setting.Genuine vs) (hws : n.setting.Genuine ws)
    (h : List.Forall₂ n.setting.Reencodes vs ws) :
    (fun p => (p.1.ledger.tallies, p.1.ledger.ballots, p.2.map (·.2.isOk))) <$> n.admitEach vs =
      (fun p => (p.1.ledger.tallies, p.1.ledger.ballots, p.2.map (·.2.isOk))) <$>
        n.admitEach ws := by
  have hempty : ∀ us, n.ledger.FilledFrom n.setting us := fun us => by
    rw [hl]
    exact Ledger.filledFrom_empty ..
  have htwins : Twins n.setting vs ws n n := ⟨rfl, rfl, hempty vs, hempty ws, rfl⟩
  have hsame := htwins.admitEach hr hvs hws h (List.Subset.refl _) (List.Subset.refl _)
  have hread := congrArg
    ((fun q : Ledger × List Bool => (q.1.tallies, q.1.ballots, q.2)) <$> ·) hsame
  rw [Functor.map_map, Functor.map_map] at hread
  exact hread

end Node

/-! ## A vote in both forms -/

namespace Sample

/-- A node with three masternodes. -/
def threeNodes : Node where
  setting := setting {} [0, 1, 2] 1000

/-- Two votes for the same masternode, the first one twice. -/
def oneForm : List Vote := [vote 0 2 1005, vote 0 2 1005, vote 1 2 1005]

/-- The same votes, the first one in the other form. Now the second one is a double vote. -/
def bothForms : List Vote := [scriptVote 0 2 1005, vote 0 2 1005, vote 1 2 1005]

theorem distinct_threeNodes : threeNodes.setting.registry.Distinct :=
  ⟨by decide +kernel, by decide +kernel⟩

theorem genuine_forms : threeNodes.setting.Genuine (oneForm ++ bothForms) :=
  ⟨by decide +kernel, by decide +kernel⟩

theorem reencodes_bothForms : List.Forall₂ threeNodes.setting.Reencodes oneForm bothForms := by
  have he : (⟨masternode 2, true, 0⟩ : Registration) ∈ threeNodes.setting.registry.entries := by
    decide
  exact .cons ⟨rfl, rfl, .toScript he⟩
    (.cons ⟨rfl, rfl, .refl _⟩ (.cons ⟨rfl, rfl, .refl _⟩ .nil))

theorem admitEach_oneForm :
    (fun p => (p.1.ledger.tallies[(1005 : Height)]?, p.2.map (·.2.isOk))) <$>
      threeNodes.admitEach oneForm =
        .ok (some ⟨1005, [⟨(masternode 2).payout, 1, 2⟩]⟩, [true, false, true]) := by
  decide +kernel

end Sample

open Sample in
theorem Node.admitEach_forms_bothForms : ∃ m rs,
    threeNodes.admitEach bothForms = .ok (m, rs) ∧
      m.ledger.tallies[(1005 : Height)]? = some ⟨1005, [⟨(masternode 2).payout, 1, 2⟩]⟩ ∧
      rs.map (·.2.isOk) = [true, false, true] := by
  obtain ⟨⟨n, qs⟩, hn, hread⟩ := map_eq_ok.1 admitEach_oneForm
  obtain ⟨htally, hqs⟩ := Prod.mk.inj hread
  have hforms := admitEach_forms rfl distinct_threeNodes
    (genuine_forms.subset (List.subset_append_left ..))
    (genuine_forms.subset (List.subset_append_right ..)) reencodes_bothForms
  rw [hn] at hforms
  obtain ⟨⟨m, rs⟩, hm, hsame⟩ := map_eq_ok.1 hforms.symm
  obtain ⟨htallies, hrest⟩ := Prod.mk.inj hsame
  obtain ⟨-, hrs⟩ := Prod.mk.inj hrest
  exact ⟨m, rs, hm, by rw [htallies, htally], by rw [hrs, hqs]⟩

end MasternodePayments
