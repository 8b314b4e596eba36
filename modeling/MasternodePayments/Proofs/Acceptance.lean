import MasternodePayments.Ledger.Answers
import MasternodePayments.Proofs.Tally.Verdict
import MasternodePayments.Proofs.Template.Payments

/-!
# When a reward transaction is accepted

A tally asks something of a transaction only in the tiers in which somebody has enough votes, and
there it asks for a payment to one confirmed candidate (`Tally.PaysConfirmed`). That is all: each
tier is looked at by itself, and what no tier asks for is not looked at.

* `Tally.accepts_eq_true`, `Tally.exists_accepts`: what a tally accepts, and when it has an answer.
* `Ledger.accepts_of_paysConfirmed`, `Ledger.exists_accepts`: the same of a ledger at a height.
-/

namespace MasternodePayments

namespace Tally

variable {t : Tally} {tier : Tier} {rules : PaymentRules} {tx : Transaction}

/-! ## The verdict of a tally -/

/-- One of the confirmed candidates of a tier is paid what the tier is due. -/
def PaysTier (t : Tally) (rules : PaymentRules) (tx : Transaction) (tier : Tier) : Prop :=
  ∃ c ∈ t.confirmed tier rules.required,
    tx.pays c.script (rules.schedule.due tier rules.blockValue) = true

/-- Every tier in which somebody has enough votes is paid. -/
def PaysConfirmed (t : Tally) (rules : PaymentRules) (tx : Transaction) : Prop :=
  ∀ tier ∈ rules.schedule.tiers, rules.required ≤ t.mostVotes tier → t.PaysTier rules tx tier

theorem acceptsTier_eq_true : t.acceptsTier rules tx tier = .ok true ↔
    (rules.required ≤ t.mostVotes tier →
      rules.schedule.Fits tier rules.blockValue ∧ t.PaysTier rules tx tier) := by
  rw [acceptsTier_eq_meetsTier, meetsTier_eq_true]
  refine imp_congr_right fun _ => ?_
  simp only [PaymentRules.dues, Schedule.payment_eq_ok, PaysTier, and_assoc, exists_and_left,
    exists_eq_left]

/-- **What a tally accepts.** -/
theorem accepts_eq_true : t.accepts rules tx = .ok true ↔
    ∀ tier ∈ rules.schedule.tiers, rules.required ≤ t.mostVotes tier →
      rules.schedule.Fits tier rules.blockValue ∧ t.PaysTier rules tx tier := by
  simp only [accepts, allTiers_eq_true, acceptsTier_eq_true]

theorem accepts_of_paysConfirmed
    (hfits : ∀ tier ∈ rules.schedule.tiers, rules.schedule.Fits tier rules.blockValue)
    (h : t.PaysConfirmed rules tx) : t.accepts rules tx = .ok true :=
  accepts_eq_true.2 fun tier htier hvotes => ⟨hfits tier htier, h tier htier hvotes⟩

theorem paysConfirmed_of_accepts (h : t.accepts rules tx = .ok true) : t.PaysConfirmed rules tx :=
  fun tier htier hvotes => (accepts_eq_true.1 h tier htier hvotes).2

/-- A tally has an answer if what the tiers are due can be computed. -/
theorem exists_accepts
    (hfits : ∀ tier ∈ rules.schedule.tiers, rules.schedule.Fits tier rules.blockValue) :
    ∃ answer, t.accepts rules tx = .ok answer := by
  apply exists_allTiers
  intro tier htier
  rw [acceptsTier_eq_meetsTier]
  exact exists_meetsTier fun _ => ⟨_, Schedule.payment_eq_ok.2 ⟨hfits tier htier, rfl⟩⟩

/-- A transaction that pays every confirmed candidate what its tier is due is accepted. -/
theorem accepts_of_pays (hpos : 0 < rules.required)
    (hfits : ∀ tier ∈ rules.schedule.tiers, rules.schedule.Fits tier rules.blockValue)
    (h : ∀ tier ∈ rules.schedule.tiers, ∀ c ∈ t.confirmed tier rules.required,
      tx.pays c.script (rules.schedule.due tier rules.blockValue) = true) :
    t.accepts rules tx = .ok true := by
  apply accepts_of_paysConfirmed hfits
  intro tier htier hvotes
  obtain ⟨c, -, hc⟩ := exists_leader hpos hvotes
  exact ⟨c, hc, h tier htier c hc⟩

end Tally

namespace Ledger

variable {l : Ledger} {s : Setting} {tx : Transaction} {height : Height}

/-- Every tier that a ledger holds enough votes for at a height is paid. -/
def PaysConfirmed (l : Ledger) (s : Setting) (tx : Transaction) (height : Height) : Prop :=
  ∀ t, l.tallies[height]? = some t → t.PaysConfirmed s.rules tx

theorem accepts_of_paysConfirmed {count : Nat} (hcount : s.countWithDrift = .ok count)
    (hfits : ∀ tier ∈ s.schedule.tiers, s.schedule.Fits tier s.chain.blockValue)
    (h : l.PaysConfirmed s tx height) : l.accepts s tx height = .ok true := by
  refine bind_eq_ok.2 ⟨count, hcount, ?_⟩
  cases ht : l.tallies[height]? with
  | none => rfl
  | some t => exact Tally.accepts_of_paysConfirmed hfits (h t ht)

theorem accepts_tally {t : Tally} (ht : l.tallies[height]? = some t)
    (h : l.accepts s tx height = .ok true) : t.accepts s.rules tx = .ok true := by
  obtain ⟨_, -, h⟩ := bind_eq_ok.1 h
  rw [ht] at h
  exact h

/-- **What a ledger accepts**, as far as nothing overflows. -/
theorem exists_accepts {count : Nat} (hcount : s.countWithDrift = .ok count)
    (hfits : ∀ tier ∈ s.schedule.tiers, s.schedule.Fits tier s.chain.blockValue) :
    ∃ answer, l.accepts s tx height = .ok answer ∧
      (answer = true ↔ l.PaysConfirmed s tx height) := by
  have hanswer : ∃ answer, l.accepts s tx height = .ok answer := by
    cases ht : l.tallies[height]? with
    | none => exact ⟨true, bind_eq_ok.2 ⟨count, hcount, by rw [ht]; rfl⟩⟩
    | some t =>
      obtain ⟨answer, hanswer⟩ : ∃ answer, t.accepts s.rules tx = .ok answer :=
        Tally.exists_accepts hfits
      exact ⟨answer, bind_eq_ok.2 ⟨count, hcount, by rw [ht]; exact hanswer⟩⟩
  obtain ⟨answer, hanswer⟩ := hanswer
  refine ⟨answer, hanswer, fun htrue t ht => ?_, fun h => ?_⟩
  · rw [htrue] at hanswer
    exact Tally.paysConfirmed_of_accepts (accepts_tally ht hanswer)
  · rw [accepts_of_paysConfirmed hcount hfits h] at hanswer
    exact (Except.ok.inj hanswer).symm

end Ledger
end MasternodePayments
