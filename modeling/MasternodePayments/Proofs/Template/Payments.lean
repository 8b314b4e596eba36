import MasternodePayments.Proofs.Checked
import MasternodePayments.Template

/-!
# The outputs of a template

A template has the outputs that the transaction had, of which the tiers changed only the base
output, one after the other (`Ledger.rebase`), and then one payment for every tier that has a payee
(`Ledger.payment?`). No tier touches the payment of another one.

* `Schedule.payment_eq_ok`: what a tier is due.
* `payTier_eq_ok`, `foldlM_payTier_eq_ok`: the outputs after one tier and after several.
* `payTiers_eq_ok`: the template.
-/

namespace MasternodePayments

namespace Schedule

variable {s : Schedule} {tier : Tier} {blockValue amount : Amount}

/-- What a tier is due of a block value. -/
def due (s : Schedule) (tier : Tier) (blockValue : Amount) : Amount :=
  blockValue * s.share tier / 100

/-- The percentage of a tier can be taken of a block value. -/
def Fits (s : Schedule) (tier : Tier) (blockValue : Amount) : Prop :=
  blockValue.toNat * (s.share tier).toNat < UInt64.size

instance : Decidable (s.Fits tier blockValue) :=
  inferInstanceAs (Decidable (blockValue.toNat * (s.share tier).toNat < UInt64.size))

theorem payment_eq_ok : s.payment tier blockValue = .ok amount ↔
    s.Fits tier blockValue ∧ amount = s.due tier blockValue := by
  simp only [payment, bind_eq_ok, pure_eq_ok, mul64]
  by_cases h : blockValue.toNat * (s.share tier).toNat < UInt64.size
  · simp [h, Fits, due, eq_comm]
  · simp [h, Fits]

theorem toNat_due (h : s.Fits tier blockValue) : (s.due tier blockValue).toNat =
    blockValue.toNat * (s.share tier).toNat / 100 := by
  rw [due, UInt64.toNat_div, UInt64.toNat_mul, Nat.mod_eq_of_lt h]
  rfl

end Schedule

theorem Output.exists_deduct (o : Output) (amount : Amount) :
    ∃ value, o.deduct amount = { o with value := value } := by
  unfold deduct
  split
  · exact ⟨o.value, rfl⟩
  · exact ⟨_, rfl⟩

theorem Output.script_deduct (o : Output) (amount : Amount) :
    (o.deduct amount).script = o.script := by
  obtain ⟨_, h⟩ := o.exists_deduct amount
  rw [h]

namespace Ledger

variable {l : Ledger} {s : Setting} {height tip : Height} {staked : Bool} {tier : Tier}
  {tiers : List Tier} {pre rest outputs : List Output} {base : Output} {tx filled : Transaction}

/-- The base output after the payment of a tier. -/
def rebase (l : Ledger) (s : Setting) (height : Height) (staked : Bool) (base : Output)
    (tier : Tier) : Output :=
  match l.payee? s height tier with
  | some _ => base.deduct (s.schedule.due tier s.chain.blockValue)
  | none =>
    if staked then base
    else { base with value := monus s.chain.blockValue (s.schedule.due tier s.chain.blockValue) }

/-- A tier changes nothing but the value of the base output. -/
theorem exists_rebase (l : Ledger) (s : Setting) (height : Height) (staked : Bool) (base : Output)
    (tier : Tier) : ∃ value, l.rebase s height staked base tier = { base with value := value } := by
  unfold rebase
  split
  · exact Output.exists_deduct ..
  · split
    · exact ⟨base.value, rfl⟩
    · exact ⟨_, rfl⟩

theorem exists_foldl_rebase (l : Ledger) (s : Setting) (height : Height) (staked : Bool)
    (tiers : List Tier) (base : Output) :
    ∃ value, tiers.foldl (l.rebase s height staked) base = { base with value := value } := by
  induction tiers generalizing base with
  | nil => exact ⟨base.value, rfl⟩
  | cons tier tiers ih =>
    obtain ⟨_, hbase⟩ := l.exists_rebase s height staked base tier
    obtain ⟨value, hvalue⟩ := ih (l.rebase s height staked base tier)
    exact ⟨value, by rw [List.foldl_cons, hvalue, hbase]⟩

/-- The output that pays a tier, if it has a payee. -/
def payment? (l : Ledger) (s : Setting) (height : Height) (tier : Tier) : Option Output :=
  (l.payee? s height tier).map fun script => ⟨s.schedule.due tier s.chain.blockValue, script, none⟩

/-- The base output among the others. -/
theorem exists_base (h : baseIndex staked < outputs.length) :
    ∃ pre base rest, pre.length = baseIndex staked ∧ outputs = pre ++ base :: rest := by
  refine ⟨outputs.take (baseIndex staked), outputs[baseIndex staked],
    outputs.drop (baseIndex staked + 1), ?_, ?_⟩
  · rw [List.length_take, Nat.min_eq_left (Nat.le_of_lt h)]
  · rw [← List.drop_eq_getElem_cons h, List.take_append_drop]

theorem getElem?_base (h : pre.length = baseIndex staked) :
    (pre ++ base :: rest)[baseIndex staked]? = some base := by
  rw [← h, List.getElem?_append_right (Nat.le_refl _), Nat.sub_self, List.getElem?_cons_zero]

theorem modify_base (h : pre.length = baseIndex staked) (f : Output → Output) :
    (pre ++ base :: rest).modify (baseIndex staked) f = pre ++ f base :: rest := by
  have hlt : baseIndex staked < (pre ++ base :: rest).length := by simp [← h]
  rw [List.modify_eq_take_cons_drop hlt]
  simp [← h]

/-- **What one tier does**: it changes the base output and adds its payment at the end. -/
theorem payTier_eq_ok (h : pre.length = baseIndex staked) :
    l.payTier s height staked (pre ++ base :: rest) tier = .ok outputs ↔
      s.schedule.Fits tier s.chain.blockValue ∧
        outputs = pre ++ l.rebase s height staked base tier ::
          (rest ++ (l.payment? s height tier).toList) := by
  simp only [payTier, bind_eq_ok, Schedule.payment_eq_ok, rebase, payment?, and_assoc,
    exists_and_left, exists_eq_left]
  refine and_congr_right fun _ => ?_
  rw [@eq_comm _ outputs]
  cases l.payee? s height tier with
  | some script =>
    simp only [List.append_assoc, List.cons_append, modify_base h, pure_eq_ok, Option.map_some,
      Option.toList_some]
  | none =>
    cases staked with
    | true => simp [pure_eq_ok]
    | false =>
      obtain rfl : pre = [] := List.length_eq_zero_iff.1 h
      simp [pure_eq_ok]

theorem foldlM_payTier_eq_ok (h : pre.length = baseIndex staked) :
    tiers.foldlM (l.payTier s height staked) (pre ++ base :: rest) = .ok outputs ↔
      (∀ tier ∈ tiers, s.schedule.Fits tier s.chain.blockValue) ∧
        outputs = pre ++ tiers.foldl (l.rebase s height staked) base ::
          (rest ++ tiers.filterMap (l.payment? s height)) := by
  induction tiers generalizing base rest with
  | nil => simp [pure, Except.pure, eq_comm]
  | cons tier tiers ih =>
    have hpaid : (tier :: tiers).filterMap (l.payment? s height) =
        (l.payment? s height tier).toList ++ tiers.filterMap (l.payment? s height) := by
      cases hp : l.payment? s height tier <;> simp [hp]
    simp only [List.foldlM_cons, bind_eq_ok, payTier_eq_ok h, and_assoc, exists_and_left,
      exists_eq_left, ih, hpaid, List.forall_mem_cons, List.foldl_cons, List.append_assoc]

/-- **The template**: the base output has gone through all tiers, and all payments follow. -/
theorem payTiers_eq_ok (h : pre.length = baseIndex staked)
    (htx : tx.outputs = pre ++ base :: rest) : l.payTiers s tx tip staked = .ok filled ↔
      ∃ height, add64 tip 1 = .ok height ∧
        (∀ tier ∈ s.schedule.tiers, s.schedule.Fits tier s.chain.blockValue) ∧
          filled = { tx with
            outputs := pre ++ s.schedule.tiers.foldl (l.rebase s height staked) base ::
              (rest ++ s.schedule.tiers.filterMap (l.payment? s height)) } := by
  simp only [payTiers, htx, bind_eq_ok, foldlM_payTier_eq_ok h, pure_eq_ok, and_assoc,
    exists_and_left, exists_eq_left, @eq_comm _ filled]

theorem fits_of_payTiers (hbase : baseIndex staked < tx.outputs.length)
    (hfill : l.payTiers s tx tip staked = .ok filled) :
    ∀ tier ∈ s.schedule.tiers, s.schedule.Fits tier s.chain.blockValue := by
  obtain ⟨pre, base, rest, hpre, htx⟩ := exists_base hbase
  obtain ⟨_, -, hfits, -⟩ := (payTiers_eq_ok hpre htx).1 hfill
  exact hfits

/-- A template pays the winners of all tiers what these are due. -/
theorem pays_of_payTiers {script : Script}
    (hbase : baseIndex staked < tx.outputs.length) (hheight : add64 tip 1 = .ok height)
    (hfill : l.payTiers s tx tip staked = .ok filled) (htier : tier ∈ s.schedule.tiers)
    (hw : l.winner? height tier = some script) :
    filled.pays script (s.schedule.due tier s.chain.blockValue) = true := by
  obtain ⟨pre, base, rest, hpre, htx⟩ := exists_base hbase
  obtain ⟨_, hheight', -, rfl⟩ := (payTiers_eq_ok hpre htx).1 hfill
  cases hheight.symm.trans hheight'
  have hpaid : (⟨s.schedule.due tier s.chain.blockValue, script, none⟩ : Output) ∈
      s.schedule.tiers.filterMap (l.payment? s height) := by
    refine List.mem_filterMap.2 ⟨tier, htier, ?_⟩
    rw [payment?, payee?, hw]
    rfl
  refine List.any_eq_true.2 ⟨_, List.mem_append_right pre (List.mem_cons_of_mem _
    (List.mem_append_right rest hpaid)), ?_⟩
  simp

end Ledger

/-- A reward transaction that holds a block value of 100. -/
def Sample.coinbase : Transaction := ⟨.coinbase, [⟨100, [0x51], none⟩]⟩

end MasternodePayments
