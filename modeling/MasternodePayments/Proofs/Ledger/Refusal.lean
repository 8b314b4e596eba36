import MasternodePayments.Proofs.Ledger.Admission

/-!
# Why a vote is refused

The checks on a vote stop at the first one that fails. `Ledger.Refuses` has one case for each of
them, with what the checks before it found out; a vote is refused for a cause exactly if one of the
cases applies (`check_eq_rejected`).
-/

namespace MasternodePayments

/-! ## The checks on a vote alone -/

namespace Setting

variable {s : Setting} {height tip : Height} {tier : Tier} {voter : Masternode} {cause : Rejection}

theorem checkWindow_eq_rejected :
    s.checkWindow height tier tip = .error (.rejected cause) ↔
      ∃ first last, s.window tier tip = .ok (first, last) ∧
        ¬(first ≤ height ∧ height ≤ last) ∧ .outOfWindow height first last = cause := by
  simp only [checkWindow, bind_eq_error, liftM_ne_rejected, false_or, liftM_eq_ok,
    require_eq_rejected, decide_eq_false_iff_not, Prod.exists]

theorem checkEligibility_eq_rejected :
    s.checkEligibility voter = .error (.rejected cause) ↔
      ¬s.minProtocol ≤ voter.protocol ∧
        .protocolTooOld voter.protocol s.minProtocol = cause ∨
      s.minProtocol ≤ voter.protocol ∧
        s.withinLimit (s.registry.rank? voter.id s.minProtocol) = false ∧
        ((s.registry.rank? voter.id s.minProtocol).isSome = true →
          ∃ twice, mul64 s.config.signaturesTotal 2 = .ok twice) ∧
        .notEligible voter.id (s.registry.rank? voter.id s.minProtocol)
          s.config.signaturesTotal = cause := by
  simp only [checkEligibility, bind_eq_error, require_eq_rejected, require_eq_ok,
    decide_eq_false_iff_not, decide_eq_true_eq]
  rw [exists_const]
  refine or_congr_right (and_congr_right fun _ => ?_)
  by_cases hlimit : s.withinLimit (s.registry.rank? voter.id s.minProtocol) = true
  · simp [hlimit, pure, Except.pure]
  · cases hrank : s.registry.rank? voter.id s.minProtocol with
    | none => simp [withinLimit, reject]
    | some rank =>
      rw [hrank] at hlimit
      simp [hlimit, bind_eq_error, liftM_ne_rejected, liftM_eq_ok, reject]

end Setting

namespace Ledger

/-- A vote is new, and its voter, its payee and the tip are known. -/
structure Knows (l : Ledger) (s : Setting) (v : Vote) (m : Masternode) (script : Script)
    (tier : Tier) (tip : Height) : Prop where
  fresh : v.identity ∉ l.votes
  voter : s.registry.find? v.voter = some m
  payee : s.resolve? v.payee = some (script, tier)
  tip : s.chain.tip? = some tip

/-- The first check that fails. -/
inductive Refuses (l : Ledger) (s : Setting) (v : Vote) : Rejection → Prop
  | duplicate (h : v.identity ∈ l.votes) : Refuses l s v (.duplicate v.identity)
  | unknownVoter (hfresh : v.identity ∉ l.votes) (h : s.registry.find? v.voter = none) :
    Refuses l s v (.unknownVoter v.voter)
  | unknownPayee {m : Masternode} (hfresh : v.identity ∉ l.votes)
      (hvoter : s.registry.find? v.voter = some m) (h : s.resolve? v.payee = none) :
    Refuses l s v (.unknownPayee v.payee)
  | chainBusy {m : Masternode} {p : Script × Tier} (hfresh : v.identity ∉ l.votes)
      (hvoter : s.registry.find? v.voter = some m) (hpayee : s.resolve? v.payee = some p)
      (h : s.chain.tip? = none) :
    Refuses l s v .chainBusy
  | window {m : Masternode} {script : Script} {tier : Tier} {tip : Height} {cause : Rejection}
      (hknown : l.Knows s v m script tier tip)
      (h : s.checkWindow v.height tier tip = .error (.rejected cause)) :
    Refuses l s v cause
  | eligibility {m : Masternode} {script : Script} {tier : Tier} {tip : Height} {cause : Rejection}
      (hknown : l.Knows s v m script tier tip) (hwindow : s.checkWindow v.height tier tip = .ok ())
      (h : s.checkEligibility m = .error (.rejected cause)) :
    Refuses l s v cause
  | doubleVote {m : Masternode} {script : Script} {tier : Tier} {tip : Height}
      (hknown : l.Knows s v m script tier tip) (hwindow : s.checkWindow v.height tier tip = .ok ())
      (heligible : s.checkEligibility m = .ok ())
      (h : ⟨v.voter, tier, v.height⟩ ∈ l.ballots) :
    Refuses l s v (.doubleVote v.voter tier v.height)
  | badSignature {m : Masternode} {script : Script} {tier : Tier} {tip : Height}
      (hknown : l.Knows s v m script tier tip) (hwindow : s.checkWindow v.height tier tip = .ok ())
      (heligible : s.checkEligibility m = .ok ()) (hballot : ⟨v.voter, tier, v.height⟩ ∉ l.ballots)
      (h : v.isSignedBy m.operatorKey = false) :
    Refuses l s v (.badSignature v.voter)
  | unknownBlock {m : Masternode} {script : Script} {tier : Tier} {tip : Height}
      (hknown : l.Knows s v m script tier tip) (hwindow : s.checkWindow v.height tier tip = .ok ())
      (heligible : s.checkEligibility m = .ok ()) (hballot : ⟨v.voter, tier, v.height⟩ ∉ l.ballots)
      (hsigned : v.isSignedBy m.operatorKey = true)
      (h : s.chain.hashAt? (s.reference v.height) = none) :
    Refuses l s v (.unknownBlock (s.reference v.height))

variable {l : Ledger} {s : Setting} {v : Vote} {cause : Rejection}

theorem contains_votes_eq_false {id : Hash} : l.votes.contains id = false ↔ id ∉ l.votes := by
  rw [Bool.eq_false_iff, ne_eq, Std.ExtTreeMap.contains_iff_mem]

theorem contains_ballots_eq_false {b : Ballot} : l.ballots.contains b = false ↔ b ∉ l.ballots := by
  rw [Bool.eq_false_iff, ne_eq, Std.ExtTreeSet.contains_iff_mem]

/-- Where all that a vote names is known, the other checks follow. -/
theorem Knows.check_eq {m : Masternode} {script : Script} {tier : Tier} {tip : Height}
    (h : l.Knows s v m script tier tip) : l.check s v = (do
      s.checkWindow v.height tier tip
      s.checkEligibility m
      require (!l.ballots.contains ⟨v.voter, tier, v.height⟩) (.doubleVote v.voter tier v.height)
      require (v.isSignedBy m.operatorKey) (.badSignature v.voter)
      require (s.chain.hashAt? (s.reference v.height)).isSome
        (.unknownBlock (s.reference v.height))
      pure ⟨v.identity, script, tier⟩) := by
  simp only [check, contains_votes_eq_false.2 h.fresh, h.voter, h.payee, h.tip, Bool.not_false,
    require_true, obtain?_some, ok_bind]

theorem refuses_of_check (h : l.check s v = .error (.rejected cause)) : l.Refuses s v cause := by
  rcases bind_eq_error.1 h with h | ⟨_, hfresh, h⟩
  · obtain ⟨hstored, rfl⟩ := require_eq_rejected.1 h
    exact .duplicate (by simpa using hstored)
  replace hfresh : v.identity ∉ l.votes :=
    contains_votes_eq_false.1 (by simpa using require_eq_ok.1 hfresh)
  rcases bind_eq_error.1 h with h | ⟨m, hvoter, h⟩
  · obtain ⟨hunknown, rfl⟩ := obtain?_eq_rejected.1 h
    exact .unknownVoter hfresh hunknown
  replace hvoter := obtain?_eq_ok.1 hvoter
  rcases bind_eq_error.1 h with h | ⟨⟨script, tier⟩, hpayee, h⟩
  · obtain ⟨hunknown, rfl⟩ := obtain?_eq_rejected.1 h
    exact .unknownPayee hfresh hvoter hunknown
  replace hpayee := obtain?_eq_ok.1 hpayee
  rcases bind_eq_error.1 h with h | ⟨tip, htip, h⟩
  · obtain ⟨hbusy, rfl⟩ := obtain?_eq_rejected.1 h
    exact .chainBusy hfresh hvoter hpayee hbusy
  have hknown : l.Knows s v m script tier tip := ⟨hfresh, hvoter, hpayee, obtain?_eq_ok.1 htip⟩
  rcases bind_eq_error.1 h with h | ⟨_, hwindow, h⟩
  · exact .window hknown h
  rcases bind_eq_error.1 h with h | ⟨_, heligible, h⟩
  · exact .eligibility hknown hwindow h
  rcases bind_eq_error.1 h with h | ⟨_, hballot, h⟩
  · obtain ⟨hused, rfl⟩ := require_eq_rejected.1 h
    exact .doubleVote hknown hwindow heligible (by simpa using hused)
  replace hballot : ⟨v.voter, tier, v.height⟩ ∉ l.ballots :=
    contains_ballots_eq_false.1 (by simpa using require_eq_ok.1 hballot)
  rcases bind_eq_error.1 h with h | ⟨_, hsigned, h⟩
  · obtain ⟨hforged, rfl⟩ := require_eq_rejected.1 h
    exact .badSignature hknown hwindow heligible hballot hforged
  rcases bind_eq_error.1 h with h | ⟨_, -, h⟩
  · obtain ⟨hlost, rfl⟩ := require_eq_rejected.1 h
    exact .unknownBlock hknown hwindow heligible hballot (require_eq_ok.1 hsigned)
      (by simpa using hlost)
  · cases h

/-- **A vote is refused for the first check that fails.** -/
theorem check_eq_rejected : l.check s v = .error (.rejected cause) ↔ l.Refuses s v cause := by
  refine ⟨refuses_of_check, fun h => ?_⟩
  cases h with
  | duplicate h =>
    have hstored := Std.ExtTreeMap.contains_iff_mem.2 h
    simp only [check, hstored, Bool.not_true, require_false, error_bind]
  | unknownVoter hfresh h =>
    simp only [check, contains_votes_eq_false.2 hfresh, h, Bool.not_false, require_true,
      obtain?_none, ok_bind, error_bind]
  | unknownPayee hfresh hvoter h =>
    simp only [check, contains_votes_eq_false.2 hfresh, hvoter, h, Bool.not_false, require_true,
      obtain?_some, obtain?_none, ok_bind, error_bind]
  | chainBusy hfresh hvoter hpayee h =>
    simp only [check, contains_votes_eq_false.2 hfresh, hvoter, hpayee, h, Bool.not_false,
      require_true, obtain?_some, obtain?_none, ok_bind, error_bind]
  | window hknown h => simp only [hknown.check_eq, h, error_bind]
  | eligibility hknown hwindow h => simp only [hknown.check_eq, hwindow, h, ok_bind, error_bind]
  | doubleVote hknown hwindow heligible h =>
    have hused := Std.ExtTreeSet.contains_iff_mem.2 h
    simp only [hknown.check_eq, hwindow, heligible, hused, Bool.not_true, require_false, ok_bind,
      error_bind]
  | badSignature hknown hwindow heligible hballot h =>
    simp only [hknown.check_eq, hwindow, heligible, contains_ballots_eq_false.2 hballot, h,
      Bool.not_false, require_true, require_false, ok_bind, error_bind]
  | unknownBlock hknown hwindow heligible hballot hsigned h =>
    simp only [hknown.check_eq, hwindow, heligible, contains_ballots_eq_false.2 hballot, hsigned, h,
      Bool.not_false, Option.isSome_none, require_true, require_false, ok_bind, error_bind]

end Ledger
end MasternodePayments
