import Mathlib.Data.List.Forall2
import MasternodePayments.Ledger.Snapshot
import MasternodePayments.Listing
import MasternodePayments.Proofs.Template.Value

/-!
# What a template takes out of the base output

Where every tier has a payee, a template leaves all outputs in their places, takes the payments of
all tiers out of the base output and adds them at the end, in the order of the tiers
(`Ledger.payTiers_of_payees`). The payments are taken out one after the other, and each difference
stops at zero; so does the one difference that they come to (`Output.less_deduct`).

* `Ledger.IsPayment`: the output that a tier is to get.
* `Ledger.lookup_nextWinners`: the voted payees are the ones that operators are told of.
-/

namespace MasternodePayments

namespace Ledger

variable {l : Ledger} {s : Setting} {height tip : Height} {staked : Bool} {tier : Tier}
  {tiers : List Tier} {base : Output} {tx : Transaction}

/-- The output pays a tier what it is due: to its voted winner, else to the masternode that the
registry has for it. -/
structure IsPayment (l : Ledger) (s : Setting) (height : Height) (tier : Tier) (o : Output) :
    Prop where
  due : s.schedule.payment tier s.chain.blockValue = .ok o.value
  payee : (l.winner? height tier).or ((s.registry.currentWinner? tier).map (·.payout)) =
    some o.script
  memo : o.memo = none

theorem payee?_ne_none : l.payee? s height tier ≠ none ↔
    l.winner? height tier ≠ none ∨ s.registry.currentWinner? tier ≠ none := by
  rw [payee?, ne_eq, Option.or_eq_none_iff, Option.map_eq_none_iff, not_and_or]

/-! ## The payments -/

theorem isPayment_of_payment? {o : Output} (hfits : s.schedule.Fits tier s.chain.blockValue)
    (h : l.payment? s height tier = some o) : l.IsPayment s height tier o := by
  obtain ⟨script, hscript, rfl⟩ := Option.map_eq_some_iff.1 h
  exact ⟨Schedule.payment_eq_ok.2 ⟨hfits, rfl⟩, hscript, rfl⟩

theorem forall₂_payments (hfits : ∀ tier ∈ tiers, s.schedule.Fits tier s.chain.blockValue)
    (h : ∀ tier ∈ tiers, l.payee? s height tier ≠ none) :
    List.Forall₂ (l.IsPayment s height) tiers (tiers.filterMap (l.payment? s height)) := by
  induction tiers with
  | nil => exact .nil
  | cons tier tiers ih =>
    obtain ⟨htier, htiers⟩ := List.forall_mem_cons.1 h
    obtain ⟨hfit, hfits⟩ := List.forall_mem_cons.1 hfits
    obtain ⟨script, hscript⟩ := Option.ne_none_iff_exists'.1 htier
    have hpayment : l.payment? s height tier =
        some ⟨s.schedule.due tier s.chain.blockValue, script, none⟩ := by
      rw [payment?, hscript, Option.map_some]
    rw [List.filterMap_cons_some hpayment]
    exact .cons (isPayment_of_payment? hfit hpayment) (ih hfits htiers)

/-! ## What operators are told -/

theorem lookup_filterMap {α β : Type} [BEq α] [LawfulBEq α] (f : α → Option β) (xs : List α)
    (x : α) : (xs.filterMap fun x => (f x).map (x, ·)).lookup x = if x ∈ xs then f x else none := by
  induction xs with
  | nil => simp
  | cons y xs ih =>
    by_cases hy : x = y
    · subst hy
      cases hf : f x <;> simp [hf, ih]
    · cases hf : f y <;> simp [hf, ih, hy, List.lookup_cons, beq_false_of_ne hy]

/-- The listing of the next winners has the winner of each tier. -/
theorem lookup_nextWinners (l : Ledger) (htip : s.chain.tip? = some tip)
    (hheight : add64 tip 1 = .ok height) : ∃ winners, l.nextWinners? s = .ok (some winners) ∧
      ∀ tier ∈ s.schedule.tiers, winners.lookup tier = l.winner? height tier := by
  refine ⟨s.schedule.tiers.filterMap fun tier => (l.winner? height tier).map (tier, ·), ?_,
    fun tier htier => ?_⟩
  · simp only [nextWinners?, htip, hheight]
    rfl
  · rw [lookup_filterMap, if_pos htier]

/-! ## The template -/

/-- What is taken out of the base output is what the payments add. -/
theorem total_less {pre rest payments : List Output} (hmint : Script.isMint base.script = false)
    (hle : (payments.map (·.value.toNat)).sum ≤ base.value.toNat) :
    ((pre ++ base.less (payments.map (·.value.toNat)).sum :: rest ++ payments).map
      (·.value.toNat)).sum = ((pre ++ base :: rest).map (·.value.toNat)).sum := by
  simp only [List.map_append, List.map_cons, List.sum_append, List.sum_cons,
    Output.toNat_value_less hmint]
  omega

/-- **A template where every tier has a payee.** If the tip is not the last height and what each tier
is due is a word, there is a template. It has the outputs of the transaction in their places, of
which the base output pays for all tiers if it is no mint, and then one payment for each tier, to its
voted winner or else to the masternode that the registry has for it. The voted winners are the ones
that operators are told of. A base output that can pay for all tiers does: the total stays. -/
theorem payTiers_of_payees (hbase : baseIndex staked < tx.outputs.length)
    (hheight : add64 tip 1 = .ok height)
    (hdue : ∀ tier ∈ s.schedule.tiers, ∃ due, s.schedule.payment tier s.chain.blockValue = .ok due)
    (hpayees : ∀ tier ∈ s.schedule.tiers,
      l.winner? height tier ≠ none ∨ s.registry.currentWinner? tier ≠ none) :
    ∃ filled payments, l.payTiers s tx tip staked = .ok filled ∧
      List.Forall₂ (l.IsPayment s height) s.schedule.tiers payments ∧
      filled = { tx with
        outputs := tx.outputs.modify (baseIndex staked)
          (·.less (payments.map (·.value.toNat)).sum) ++ payments } ∧
      (s.chain.tip? = some tip → ∃ winners, l.nextWinners? s = .ok (some winners) ∧
        ∀ tier ∈ s.schedule.tiers, winners.lookup tier = l.winner? height tier) ∧
      ∀ base, tx.outputs[baseIndex staked]? = some base → Script.isMint base.script = false →
        (payments.map (·.value.toNat)).sum ≤ base.value.toNat → filled.total = tx.total := by
  obtain ⟨pre, base, rest, hpre, htx⟩ := exists_base hbase
  have hfits : ∀ tier ∈ s.schedule.tiers, s.schedule.Fits tier s.chain.blockValue := by
    intro tier htier
    obtain ⟨due, hdue⟩ := hdue tier htier
    exact (Schedule.payment_eq_ok.1 hdue).1
  have hpayees : ∀ tier ∈ s.schedule.tiers, l.payee? s height tier ≠ none := fun tier htier =>
    payee?_ne_none.2 (hpayees tier htier)
  let payments := s.schedule.tiers.filterMap (l.payment? s height)
  have hfilled : l.payTiers s tx tip staked = .ok { tx with
      outputs := pre ++ base.less (payments.map (·.value.toNat)).sum :: rest ++ payments } := by
    refine (payTiers_eq_ok hpre htx).2 ⟨height, hheight, hfits, ?_⟩
    rw [foldl_rebase_eq fun tier htier => .inr (hpayees tier htier), List.append_assoc,
      List.cons_append]
    rfl
  refine ⟨_, payments, hfilled, forall₂_payments hfits hpayees, ?_,
    fun htip => l.lookup_nextWinners htip hheight, fun base' hbase' hmint hle => ?_⟩
  · rw [htx, modify_base hpre]
  · have hget : tx.outputs[baseIndex staked]? = some base := by
      rw [htx, ← hpre, List.getElem?_append_right (Nat.le_refl _), Nat.sub_self,
        List.getElem?_cons_zero]
    obtain rfl : base' = base := Option.some.inj (hbase'.symm.trans hget)
    rw [Transaction.total, Transaction.total, htx]
    exact total_less hmint hle

end Ledger

/-! ## Two tiers -/

namespace Sample

/-- The only masternode is of the second tier. -/
def secondTier : Setting where
  chain := { tip := some 1000, blockValue := 100 }
  registry := ⟨[⟨{ masternode 0 with tier := 2 }, true, 0⟩]⟩
  schedule := ⟨[50, 20]⟩

/-- Somebody has two votes in the first tier. -/
def firstVotes : Tally := ⟨1001, [⟨[0x53], 1, 2⟩]⟩

/-- A ledger after a restart. -/
def voted : Ledger :=
  ({} : Ledger).restore secondTier ⟨∅, .ofList [((1001 : Height), firstVotes)]⟩

/-- A reward of the stake with a further output. -/
def threeOutputs : Transaction :=
  ⟨.coinstake, [⟨0, [], none⟩, ⟨100, [0x51], none⟩, ⟨7, [0x52], some [1]⟩]⟩

/-- The first tier pays its voted winner and the second one its masternode. -/
def bothPaid : Transaction :=
  ⟨.coinstake, [⟨0, [], none⟩, ⟨30, [0x51], none⟩, ⟨7, [0x52], some [1]⟩, ⟨50, [0x53], none⟩,
    ⟨20, (masternode 0).payout, none⟩]⟩

end Sample

open Sample in
theorem Ledger.payTiers_of_payees_secondTier : ∃ payments,
    voted.payTiers secondTier threeOutputs 1000 true = .ok bothPaid ∧
      List.Forall₂ (voted.IsPayment secondTier 1001) [1, 2] payments ∧
      bothPaid.outputs = threeOutputs.outputs.modify 1
        (·.less (payments.map (·.value.toNat)).sum) ++ payments ∧
      bothPaid.total = threeOutputs.total := by
  have htiers : secondTier.schedule.tiers = [1, 2] := by decide
  have hfill : voted.payTiers secondTier threeOutputs 1000 true = .ok bothPaid := by
    decide +kernel
  have hbase : baseIndex true < threeOutputs.outputs.length := by decide
  have hheight : add64 1000 1 = .ok (1001 : Height) := rfl
  have hdue : ∀ tier ∈ secondTier.schedule.tiers, ∃ due,
      secondTier.schedule.payment tier secondTier.chain.blockValue = .ok due := by
    rw [htiers]
    simp only [List.mem_cons, List.not_mem_nil, or_false, forall_eq_or_imp, forall_eq]
    exact ⟨⟨50, by decide⟩, ⟨20, by decide⟩⟩
  have hpayees : ∀ tier ∈ secondTier.schedule.tiers,
      voted.winner? 1001 tier ≠ none ∨ secondTier.registry.currentWinner? tier ≠ none := by
    rw [htiers]
    simp only [List.mem_cons, List.not_mem_nil, or_false, forall_eq_or_imp, forall_eq]
    decide +kernel
  obtain ⟨filled, payments, hfilled, hpayments, hlayout, -, htotal⟩ :=
    payTiers_of_payees hbase hheight hdue hpayees
  cases hfill.symm.trans hfilled
  rw [htiers] at hpayments
  have hadded : payments = bothPaid.outputs.drop 3 := by
    rw [congrArg Transaction.outputs hlayout]
    rfl
  refine ⟨payments, hfill, hpayments, congrArg Transaction.outputs hlayout,
    htotal _ rfl (by decide) ?_⟩
  rw [hadded]
  decide

end MasternodePayments
