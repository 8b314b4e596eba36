import Mathlib.Algebra.BigOperators.Group.List.Basic
import Mathlib.Algebra.Order.Ring.Nat
import MasternodePayments.Proofs.Ledger.Admission
import MasternodePayments.Proofs.Template.Payments

/-!
# What a template mints

While every tier has a payee, each payment is taken out of the base output, and a template mints the
block value. A tier without a payee sets the base output to the block value less its own share, and
so forgets what was taken out before: the template then mints the block value less the share of the
last such tier and, on top, what the tiers before it were paid (`total_payTiers`).

* `Schedule.sum_due_le`: the shares of all tiers fit into the block value.
* `foldl_rebase_eq`, `foldl_rebase_of_none`: the base output after all tiers.
* `not_total_le_blockValue`: so it can be more than the block value.
-/

namespace MasternodePayments

def Transaction.total (tx : Transaction) : Nat := (tx.outputs.map (·.value.toNat)).sum

/-- A whole amount lies in the first output, which is no mint. -/
def Transaction.HoldsFirst (tx : Transaction) (amount : Amount) : Prop :=
  ∃ base rest, tx.outputs = base :: rest ∧ Script.isMint base.script = false ∧
    base.value = amount ∧ ∀ o ∈ rest, o.value = 0

/-- The output with an amount of any size taken out; the value of a mint is fixed. -/
def Output.less (o : Output) (amount : Nat) : Output :=
  if Script.isMint o.script then o else { o with value := UInt64.ofNat (o.value.toNat - amount) }

namespace Output

variable {o : Output}

theorem less_of_mint (h : Script.isMint o.script = true) (amount : Nat) : o.less amount = o := by
  rw [less, if_pos h]

theorem toNat_value_less (h : Script.isMint o.script = false) (amount : Nat) :
    (o.less amount).value.toNat = o.value.toNat - amount := by
  have hword := o.value.toNat_lt_size
  simp only [less, h, Bool.false_eq_true, if_false]
  exact UInt64.toNat_ofNat_of_lt' (by omega)

theorem less_zero (o : Output) : o.less 0 = o := by
  simp [less]

/-- Two deductions in a row are one. -/
theorem less_deduct (o : Output) (amount : Amount) (more : Nat) :
    (o.deduct amount).less more = o.less (amount.toNat + more) := by
  by_cases hmint : Script.isMint o.script = true
  · simp [deduct, less, hmint]
  · simp [deduct, less, hmint, Nat.sub_sub]

end Output

namespace Schedule

variable {s : Schedule} {blockValue : Amount}

theorem share_ofNat {i : Nat} (h : i + 1 < UInt32.size) :
    s.share (UInt32.ofNat (i + 1)) = s.shares.getD i 0 := by
  have htier : (UInt32.ofNat (i + 1)).toNat = i + 1 := UInt32.toNat_ofNat_of_lt' h
  have hpos : UInt32.ofNat (i + 1) ≠ 0 := by
    intro h0
    rw [h0] at htier
    cases htier
  rw [share, if_neg hpos, htier, Nat.add_sub_cancel]

/-- The tiers of a schedule have its shares, as far as tiers can be counted. -/
theorem map_share_tiers (s : Schedule) : s.tiers.map s.share = s.shares.take s.tierCount.toNat := by
  have hcount : s.tierCount.toNat ≤ s.shares.length := by
    rw [tierCount, UInt32.toNat_ofNat']
    exact Nat.mod_le ..
  have hword := s.tierCount.toNat_lt_size
  refine List.ext_getElem (by simp [tiers, hcount]) fun i hi hi' => ?_
  have hlt : i < s.tierCount.toNat := by simpa [tiers] using hi
  simp only [tiers, List.getElem_map, List.getElem_range, List.getElem_take]
  rw [share_ofNat (by omega)]
  exact List.getElem_eq_getD 0 |>.symm

theorem sum_map_div_le (n d : Nat) (xs : List Nat) :
    (xs.map fun x => n * x / d).sum ≤ n * xs.sum / d := by
  induction xs with
  | nil => exact Nat.zero_le _
  | cons x xs ih =>
    rw [List.map_cons, List.sum_cons, List.sum_cons, Nat.mul_add]
    exact (Nat.add_le_add_left ih _).trans (Nat.div_add_div_le_add_div)

/-- **What all tiers are due fits into the block value.** -/
theorem sum_due_le (hshares : (s.shares.map (·.toNat)).sum ≤ 100)
    (hfits : ∀ tier ∈ s.tiers, s.Fits tier blockValue) :
    (s.tiers.map fun tier => (s.due tier blockValue).toNat).sum ≤ blockValue.toNat := by
  have hshare : (s.tiers.map fun tier => (s.share tier).toNat).sum ≤ 100 := by
    have htake : (s.tiers.map fun tier => (s.share tier).toNat) =
        (s.shares.map (·.toNat)).take s.tierCount.toNat := by
      rw [← List.map_take, ← map_share_tiers, List.map_map]
      rfl
    have hsplit := List.sum_take_add_sum_drop (s.shares.map (·.toNat)) s.tierCount.toNat
    rw [htake]
    omega
  calc (s.tiers.map fun tier => (s.due tier blockValue).toNat).sum
    _ = ((s.tiers.map fun tier => (s.share tier).toNat).map fun share =>
          blockValue.toNat * share / 100).sum := by
      rw [List.map_map]
      exact congrArg List.sum (List.map_congr_left fun tier ht => toNat_due (hfits tier ht))
    _ ≤ blockValue.toNat * (s.tiers.map fun tier => (s.share tier).toNat).sum / 100 :=
      sum_map_div_le ..
    _ ≤ blockValue.toNat * 100 / 100 := Nat.div_le_div_right (Nat.mul_le_mul_left _ hshare)
    _ = blockValue.toNat := Nat.mul_div_cancel _ (by decide)

end Schedule

namespace Ledger

variable {l : Ledger} {s : Setting} {height tip : Height} {staked : Bool} {tier : Tier}
  {tiers earlier later : List Tier} {base : Output} {tx filled : Transaction}

/-- What tiers are paid together. -/
def paid (l : Ledger) (s : Setting) (height : Height) (tiers : List Tier) : Nat :=
  ((tiers.filterMap (l.payment? s height)).map (·.value.toNat)).sum

theorem paid_append (l : Ledger) (s : Setting) (height : Height) (earlier later : List Tier) :
    l.paid s height (earlier ++ later) = l.paid s height earlier + l.paid s height later := by
  simp [paid]

theorem paid_cons_some {script : Script} (h : l.payee? s height tier = some script) :
    l.paid s height (tier :: tiers) =
      (s.schedule.due tier s.chain.blockValue).toNat + l.paid s height tiers := by
  simp [paid, payment?, h]

theorem paid_cons_none (h : l.payee? s height tier = none) :
    l.paid s height (tier :: tiers) = l.paid s height tiers := by
  simp [paid, payment?, h]

theorem paid_le (l : Ledger) (s : Setting) (height : Height) (tiers : List Tier) :
    l.paid s height tiers ≤
      (tiers.map fun tier => (s.schedule.due tier s.chain.blockValue).toNat).sum := by
  induction tiers with
  | nil => exact Nat.le_refl 0
  | cons tier tiers ih =>
    rw [List.map_cons, List.sum_cons]
    cases h : l.payee? s height tier with
    | none =>
      rw [paid_cons_none h]
      omega
    | some script =>
      rw [paid_cons_some h]
      omega

/-- **The base output after tiers that all have payees**, or in a block made by stake: it pays for
all that are paid. -/
theorem foldl_rebase_eq (h : ∀ tier ∈ tiers, staked = true ∨ l.payee? s height tier ≠ none) :
    tiers.foldl (l.rebase s height staked) base = base.less (l.paid s height tiers) := by
  induction tiers generalizing base with
  | nil => exact base.less_zero.symm
  | cons tier tiers ih =>
    obtain ⟨htier, htiers⟩ := List.forall_mem_cons.1 h
    rw [List.foldl_cons, ih htiers]
    cases hpayee : l.payee? s height tier with
    | some script =>
      have hrebase : l.rebase s height staked base tier =
          base.deduct (s.schedule.due tier s.chain.blockValue) := by
        simp only [rebase, hpayee]
      rw [hrebase, Output.less_deduct, paid_cons_some hpayee]
    | none =>
      have hstaked : staked = true := htier.resolve_right (absurd hpayee)
      have hrebase : l.rebase s height staked base tier = base := by
        simp only [rebase, hpayee, hstaked, if_true]
      rw [hrebase, paid_cons_none hpayee]

/-- A tier without a payee forgets what was taken out for the tiers before it. -/
theorem foldl_rebase_of_none (hnone : l.payee? s height tier = none)
    (h : ∀ t ∈ later, l.payee? s height t ≠ none) :
    (earlier ++ tier :: later).foldl (l.rebase s height false) base =
      { base with
        value := monus s.chain.blockValue (s.schedule.due tier s.chain.blockValue) }.less
          (l.paid s height later) := by
  obtain ⟨value, hvalue⟩ := l.exists_foldl_rebase s height false earlier base
  have hreset : l.rebase s height false { base with value := value } tier = { base with
      value := monus s.chain.blockValue (s.schedule.due tier s.chain.blockValue) } := by
    simp [rebase, hnone]
  rw [List.foldl_append, hvalue, List.foldl_cons, hreset,
    foldl_rebase_eq fun t ht => .inr (h t ht)]

theorem value_foldl_rebase (hmint : Script.isMint base.script = false)
    (h : ∀ tier ∈ tiers, l.payee? s height tier ≠ none) :
    (tiers.foldl (l.rebase s height staked) base).value.toNat =
      base.value.toNat - l.paid s height tiers := by
  rw [foldl_rebase_eq fun tier ht => .inr (h tier ht), Output.toNat_value_less hmint]

theorem value_foldl_rebase_of_none (hmint : Script.isMint base.script = false)
    (hnone : l.payee? s height tier = none) (h : ∀ t ∈ later, l.payee? s height t ≠ none) :
    ((earlier ++ tier :: later).foldl (l.rebase s height false) base).value.toNat =
      s.chain.blockValue.toNat - (s.schedule.due tier s.chain.blockValue).toNat -
        l.paid s height later := by
  rw [foldl_rebase_of_none hnone h, Output.toNat_value_less (by exact hmint), toNat_monus]

/-- The outputs of a template, added up. -/
theorem total_of_payTiers {base : Output} {rest : List Output} (htx : tx.outputs = base :: rest)
    (hrest : ∀ o ∈ rest, o.value = 0) (hheight : add64 tip 1 = .ok height)
    (h : l.payTiers s tx tip false = .ok filled) :
    filled.total = (s.schedule.tiers.foldl (l.rebase s height false) base).value.toNat +
      l.paid s height s.schedule.tiers := by
  have hfirst : ([] : List Output).length = baseIndex false := rfl
  obtain ⟨_, hheight', -, rfl⟩ := (payTiers_eq_ok hfirst htx).1 h
  cases hheight.symm.trans hheight'
  have hzero : (rest.map (·.value.toNat)).sum = 0 := by
    refine List.sum_eq_zero fun n hn => ?_
    obtain ⟨o, ho, rfl⟩ := List.mem_map.1 hn
    rw [hrest o ho]
    rfl
  simp [Transaction.total, paid, hzero]

/-- **What a template mints**: the block value, if all tiers have payees. Otherwise the share of the
last tier without one is left out, and what the tiers before it were paid comes on top. -/
theorem total_payTiers (hshares : (s.schedule.shares.map (·.toNat)).sum ≤ 100)
    (htx : tx.HoldsFirst s.chain.blockValue) (hheight : add64 tip 1 = .ok height)
    (h : l.payTiers s tx tip false = .ok filled) :
    ((∀ tier ∈ s.schedule.tiers, l.payee? s height tier ≠ none) →
      filled.total = s.chain.blockValue.toNat) ∧
    ∀ earlier tier later, s.schedule.tiers = earlier ++ tier :: later →
      l.payee? s height tier = none → (∀ t ∈ later, l.payee? s height t ≠ none) →
      filled.total + (s.schedule.due tier s.chain.blockValue).toNat =
        s.chain.blockValue.toNat + l.paid s height earlier := by
  obtain ⟨base, rest, houtputs, hmint, hvalue, hrest⟩ := htx
  have hfirst : baseIndex false < tx.outputs.length := by simp [houtputs, baseIndex]
  have hfits := fits_of_payTiers hfirst h
  have hsum := Schedule.sum_due_le hshares hfits
  rw [total_of_payTiers houtputs hrest hheight h]
  constructor
  · intro hall
    have hpaid := l.paid_le s height s.schedule.tiers
    rw [value_foldl_rebase hmint hall, hvalue]
    omega
  · intro earlier tier later htiers hnone hlater
    have hpaid := l.paid_le s height later
    rw [htiers] at hsum ⊢
    rw [value_foldl_rebase_of_none hmint hnone hlater, paid_append, paid_cons_none hnone]
    rw [List.map_append, List.sum_append, List.map_cons, List.sum_cons] at hsum
    omega

end Ledger

/-- The second tier has no masternode. -/
def Sample.vacantTier : Setting := { setting {} [0] 1000 with schedule := ⟨[50, 20]⟩ }

theorem Sample.payTiers_vacantTier :
    ({} : Ledger).payTiers vacantTier coinbase 1000 false =
      .ok ⟨.coinbase, [⟨80, [0x51], none⟩, ⟨50, (masternode 0).payout, none⟩]⟩ := by
  decide +kernel

theorem Sample.holdsFirst_coinbase : coinbase.HoldsFirst 100 :=
  ⟨_, _, rfl, by decide, rfl, by simp⟩

theorem Ledger.total_payTiers_vacantTier : ∃ filled,
    ({} : Ledger).payTiers Sample.vacantTier Sample.coinbase 1000 false = .ok filled ∧
      filled.total + 20 = 100 + 50 := by
  obtain ⟨-, htotal⟩ := total_payTiers (by decide) Sample.holdsFirst_coinbase rfl
    Sample.payTiers_vacantTier
  exact ⟨_, Sample.payTiers_vacantTier, htotal [1] 2 [] rfl (by decide) (by simp)⟩

/-- **A template can mint more than the block value**: a tier was paid more than the next one is
due, and the next one has no payee. -/
theorem Ledger.not_total_le_blockValue : ¬∀ (l : Ledger) (s : Setting) (tx filled : Transaction)
    (tip : Height), (s.schedule.shares.map (·.toNat)).sum ≤ 100 →
      tx.HoldsFirst s.chain.blockValue → l.payTiers s tx tip false = .ok filled →
      filled.total ≤ s.chain.blockValue.toNat := by
  intro h
  have hle := h _ _ _ _ _ (by decide) Sample.holdsFirst_coinbase Sample.payTiers_vacantTier
  exact absurd hle (by decide)

end MasternodePayments
