import MasternodePayments.Node.Run
import MasternodePayments.Proofs.Ledger.Batch
import MasternodePayments.Proofs.Ledger.Refusal

/-!
# Admission is exact and atomic

`Ledger.Admissible` says of a vote, without a word about the order of the checks, what it takes to be
admitted. Where no word overflows, the votes that have all of it are the ones that are admitted. One
that is admitted adds itself, its ballot and one vote for its candidate (`Ledger.GainsVote`), and one
that is refused leaves no trace, so that it might as well not have been there (`Node.run_without`).

* `Ledger.Admissible.not_rejected`, `Ledger.Admits.admissible`: the two directions.
* `Ledger.gainsVote`: what an admitted vote adds.
* `Node.admission_exact`: all of it, and what follows for the runs of a node.
-/

namespace MasternodePayments

/-- The window of a tier, in numbers. -/
theorem Setting.within_window {s : Setting} {tier : Tier} {tip first last height : Height}
    {span : UInt64} (hspan : s.config.scaledPopulation (s.registry.countInTier tier) = .ok span)
    (hwindow : s.window tier tip = .ok (first, last)) : first ≤ height ∧ height ≤ last ↔
      tip.toNat - span.toNat ≤ height.toNat ∧
        height.toNat ≤ tip.toNat + s.config.futureWindow.toNat := by
  obtain ⟨span', hspan', hadd, rfl⟩ := window_eq_ok.1 hwindow
  cases hspan.symm.trans hspan'
  rw [UInt64.le_iff_toNat_le, UInt64.le_iff_toNat_le, toNat_monus, add64_eq_ok.1 hadd]

namespace Ledger

/-- What it takes for a vote to be admitted for a script in a tier. -/
structure Admissible (l : Ledger) (s : Setting) (v : Vote) (script : Script) (tier : Tier) :
    Prop where
  fresh : v.identity ∉ l.votes
  voter : ∃ m, s.registry.find? v.voter = some m ∧ s.minProtocol ≤ m.protocol ∧
    v.isSignedBy m.operatorKey = true
  payee : s.resolve? v.payee = some (script, tier)
  window : ∃ tip span, s.chain.tip? = some tip ∧
    s.config.scaledPopulation (s.registry.countInTier tier) = .ok span ∧
    tip.toNat - span.toNat ≤ v.height.toNat ∧
    v.height.toNat ≤ tip.toNat + s.config.futureWindow.toNat
  rank : ∃ rank, s.registry.rank? v.voter s.minProtocol = some rank ∧
    rank ≤ s.config.signaturesTotal.toNat
  ballot : ⟨v.voter, tier, v.height⟩ ∉ l.ballots
  reference : ∃ hash, s.chain.hashAt? (monus v.height s.config.referenceOffset) = some hash

/-- The ledger `k` is `l` with a vote, its ballot and one vote for a script in a tier. -/
structure GainsVote (l : Ledger) (v : Vote) (script : Script) (tier : Tier) (k : Ledger) :
    Prop where
  votes : ∀ id : Hash, k.votes[id]? = if id = v.identity then some v else l.votes[id]?
  voteCount : k.votes.size = l.votes.size + 1
  ballots : ∀ b, b ∈ k.ballots ↔ b = ⟨v.voter, tier, v.height⟩ ∨ b ∈ l.ballots
  ballotCount : k.ballots.size = l.ballots.size + 1
  tally : ∃ tally, k.tallies[v.height]? = some tally ∧ tally.height = (l.tallyAt v.height).height ∧
    Tally.Adds script tier 1 (l.tallyAt v.height).candidates tally.candidates
  tallies : ∀ height : Height, height ≠ v.height → k.tallies[height]? = l.tallies[height]?
  lastCast : k.lastCast = l.lastCast

variable {l k : Ledger} {s : Setting} {v : Vote} {a : Admission} {script : Script} {tier : Tier}
  {cause : Rejection}

/-! ## Which votes are admitted -/

theorem Admits.admissible (h : l.Admits s v a) : l.Admissible s v a.script a.tier where
  fresh := h.fresh
  voter := by
    obtain ⟨m, hm, hproto, -, hsigned⟩ := h.voter
    exact ⟨m, hm, hproto, hsigned⟩
  payee := h.payee
  window := by
    obtain ⟨tip, first, last, htip, hwindow, hwithin⟩ := h.window
    obtain ⟨span, hspan, -⟩ := Setting.window_eq_ok.1 hwindow
    exact ⟨tip, span, htip, hspan, (Setting.within_window hspan hwindow).1 hwithin⟩
  rank := by
    obtain ⟨m, hm, -, hrank, -⟩ := h.voter
    rw [Registry.id_of_find? hm] at hrank
    exact Setting.mayVote_iff.1 hrank
  ballot := h.ballot
  reference := Option.isSome_iff_exists.1 h.reference

/-- Every cause to refuse a vote is something that it lacks. -/
theorem Admissible.not_rejected (h : l.Admissible s v script tier) :
    l.check s v ≠ .error (.rejected cause) := by
  intro hc
  obtain ⟨m, hm, hproto, hsigned⟩ := h.voter
  obtain ⟨tip, span, htip, hspan, hwithin⟩ := h.window
  cases check_eq_rejected.1 hc with
  | duplicate hstored => exact h.fresh hstored
  | unknownVoter _ hunknown => cases hm.symm.trans hunknown
  | unknownPayee _ _ hunknown => cases h.payee.symm.trans hunknown
  | chainBusy _ _ _ hbusy => cases htip.symm.trans hbusy
  | window hknown hout =>
    cases h.payee.symm.trans hknown.payee
    cases htip.symm.trans hknown.tip
    obtain ⟨first, last, hwindow, hout, -⟩ := Setting.checkWindow_eq_rejected.1 hout
    exact hout ((Setting.within_window hspan hwindow).2 hwithin)
  | eligibility hknown _ hbarred =>
    cases hm.symm.trans hknown.voter
    have hvote : s.MayVote m.id := by
      rw [Registry.id_of_find? hm]
      exact Setting.mayVote_iff.2 h.rank
    have heligible : s.checkEligibility m = .ok () :=
      Setting.checkEligibility_eq_ok.2 ⟨hproto, hvote⟩
    cases hbarred.symm.trans heligible
  | doubleVote hknown _ _ hused =>
    cases h.payee.symm.trans hknown.payee
    exact h.ballot hused
  | badSignature hknown _ _ _ hforged =>
    cases hm.symm.trans hknown.voter
    cases hsigned.symm.trans hforged
  | unknownBlock _ _ _ _ _ hlost =>
    obtain ⟨hash, hhash⟩ := h.reference
    cases hhash.symm.trans hlost

/-! ## What an admitted vote adds -/

theorem gainsVote (ha : l.Admits s v a) (hr : l.record v a = .ok k) :
    l.GainsVote v a.script a.tier k where
  votes id := by rw [getElem?_votes_record hr, ha.identity]
  voteCount := by
    rw [votes_record hr, Std.ExtTreeMap.size_insert, if_neg (by simpa using ha.not_mem)]
  ballots b := mem_ballots_record hr
  ballotCount := by
    obtain ⟨tally, -, rfl⟩ := record_eq_ok.1 hr
    rw [Std.ExtTreeSet.size_insert, if_neg (by simpa using ha.ballot)]
  tally := by
    obtain ⟨tally, hadd, hget⟩ := getElem?_tallies_record hr
    obtain ⟨hheight, hcandidates⟩ := Tally.add_eq_ok.1 hadd
    exact ⟨tally, by rw [hget, if_pos rfl], hheight, Tally.adds_addTo hcandidates⟩
  tallies height hne := by
    obtain ⟨tally, -, hget⟩ := getElem?_tallies_record hr
    rw [hget, if_neg hne]
  lastCast := by
    obtain ⟨tally, -, rfl⟩ := record_eq_ok.1 hr
    rfl

/-- An admissible vote has one script and one tier. -/
theorem Admissible.eq_of_admits (h : l.Admissible s v script tier) (ha : l.Admits s v a) :
    script = a.script ∧ tier = a.tier := by
  cases h.payee.symm.trans ha.payee
  exact ⟨rfl, rfl⟩

end Ledger

namespace Node

variable {n m : Node} {v : Vote} {r : Except Rejection Unit} {es : List Event}

/-! ## One vote -/

/-- The votes that are admitted are the admissible ones. -/
theorem admitVote_iff (h : n.admitVote v = .ok (m, r)) :
    r = .ok () ↔ ∃ script tier, n.ledger.Admissible n.setting v script tier := by
  cases r with
  | ok u =>
    obtain ⟨a, ha, -⟩ := admitVote_admitted h
    exact iff_of_true rfl ⟨a.script, a.tier, ha.admissible⟩
  | error cause =>
    refine iff_of_false (fun he => by cases he) ?_
    rintro ⟨script, tier, hadmissible⟩
    exact hadmissible.not_rejected (admitVote_refused h).1

/-! ## Votes that leave no trace -/

def Event.admission? : Event → Option Vote
  | .admitVote v => some v
  | _ => none

theorem Event.admission?_eq_some {e : Event} : e.admission? = some v ↔ e = .admitVote v := by
  cases e <;> simp [admission?]

/-- The events of a run less certain votes, which are picked as they are offered. -/
def without (drops : Node → Vote → Bool) (n : Node) : List Event → List Event
  | [] => []
  | e :: es =>
    match n.step e with
    | .error _ => e :: es
    | .ok m => if e.admission?.any (drops n) then m.without drops es else e :: m.without drops es

/-- A vote that is offered and refused. -/
def refuses (n : Node) (v : Vote) : Bool :=
  match n.admitVote v with
  | .ok (_, .error _) => true
  | _ => false

/-- A vote that does not have the signature of a registered voter. -/
def badlySigned (n : Node) (v : Vote) : Bool :=
  !(n.setting.registry.find? v.voter).any fun m => v.isSignedBy m.operatorKey

/-- **Votes that leave no trace** can be left out. -/
theorem run_without {drops : Node → Vote → Bool}
    (hdrops : ∀ k v m r, drops k v = true → k.admitVote v = .ok (m, r) → m = k)
    (h : n.run es = .ok m) : n.run (n.without drops es) = .ok m := by
  induction h using run_induction with
  | nil => rfl
  | @cons n k e es hstep h ih =>
    simp only [without, hstep]
    split
    · next hdrop =>
      obtain ⟨v, hv, hdrop⟩ := (Option.any_eq_true ..).1 hdrop
      rw [Event.admission?_eq_some.1 hv, step, map_fst_eq_ok] at hstep
      obtain ⟨r, hr⟩ := hstep
      obtain rfl : k = n := hdrops n v k r hdrop hr
      exact ih
    · rw [run_cons_of_ok hstep]
      exact ih

theorem eq_of_refused (h : n.admitVote v = .ok (m, r)) (hr : r ≠ .ok ()) : m = n := by
  cases r with
  | ok u => exact absurd rfl hr
  | error cause => exact (admitVote_refused h).2

theorem eq_of_refuses (hrefuses : n.refuses v = true) (h : n.admitVote v = .ok (m, r)) : m = n := by
  refine eq_of_refused h ?_
  rintro rfl
  simp [refuses, h] at hrefuses

theorem eq_of_badlySigned (hbad : n.badlySigned v = true) (h : n.admitVote v = .ok (m, r)) :
    m = n := by
  refine eq_of_refused h fun hr => ?_
  obtain ⟨script, tier, hadmissible⟩ := (admitVote_iff h).1 hr
  obtain ⟨voter, hvoter, -, hsigned⟩ := hadmissible.voter
  simp [badlySigned, hvoter, hsigned] at hbad

/-- **Admission is exact and atomic.** Where no word overflows, a vote is admitted exactly if it is
admissible. It then adds itself, its ballot and one vote for its candidate to the ledger and changes
nothing else; otherwise it changes nothing at all. So all refused votes, in particular the badly
signed ones, can be left out of the events of a node without a change to where they lead. -/
theorem admission_exact (n : Node) :
    (∀ v m r, n.admitVote v = .ok (m, r) →
      (r = .ok () ↔ ∃ script tier, n.ledger.Admissible n.setting v script tier) ∧
      (∀ script tier, n.ledger.Admissible n.setting v script tier →
        m = { n with ledger := m.ledger } ∧ n.ledger.GainsVote v script tier m.ledger) ∧
      (r ≠ .ok () → m = n)) ∧
    ∀ es m, n.run es = .ok m →
      n.run (n.without refuses es) = .ok m ∧ n.run (n.without badlySigned es) = .ok m := by
  refine ⟨fun v m r h => ⟨admitVote_iff h, fun script tier hadmissible => ?_, eq_of_refused h⟩,
    fun es m h => ⟨run_without (fun _ _ _ _ => eq_of_refuses) h,
      run_without (fun _ _ _ _ => eq_of_badlySigned) h⟩⟩
  obtain rfl : r = .ok () := (admitVote_iff h).2 ⟨script, tier, hadmissible⟩
  obtain ⟨a, ha, hr, hm⟩ := admitVote_admitted h
  obtain ⟨rfl, rfl⟩ := hadmissible.eq_of_admits ha
  exact ⟨hm, Ledger.gainsVote ha hr⟩

end Node

/-! ## A badly signed vote and a double vote -/

namespace Sample

/-- A node that has seen no votes. -/
def unused : Node where
  setting := setting {} [0, 1] 1000

/-- A vote without its signature, the same with it, and a second vote of the voter. -/
def threeVotes : List Node.Event :=
  [.admitVote { vote 0 1 1005 with signature := [] }, .admitVote (vote 0 1 1005),
    .admitVote (scriptVote 0 1 1005)]

theorem run_threeVotes :
    (·.ledger.voteCount) <$> unused.run threeVotes = .ok 1 ∧
      (unused.without Node.refuses threeVotes).filterMap (·.admission?) = [vote 0 1 1005] ∧
      (unused.without Node.badlySigned threeVotes).filterMap (·.admission?) =
        [vote 0 1 1005, scriptVote 0 1 1005] := by
  decide +kernel

end Sample

open Sample in
theorem Node.admission_exact_threeVotes : ∃ m,
    unused.run threeVotes = .ok m ∧ m.ledger.voteCount = 1 ∧
      unused.run (unused.without refuses threeVotes) = .ok m ∧
      unused.run (unused.without badlySigned threeVotes) = .ok m ∧
      (unused.without refuses threeVotes).filterMap (·.admission?) = [vote 0 1 1005] ∧
      (unused.without badlySigned threeVotes).filterMap (·.admission?) =
        [vote 0 1 1005, scriptVote 0 1 1005] := by
  obtain ⟨-, hrun⟩ := admission_exact unused
  obtain ⟨hcount, hkept⟩ := run_threeVotes
  obtain ⟨m, hm, hcount⟩ := map_eq_ok.1 hcount
  obtain ⟨hrefused, hbad⟩ := hrun _ _ hm
  exact ⟨m, hm, hcount, hrefused, hbad, hkept⟩

end MasternodePayments
