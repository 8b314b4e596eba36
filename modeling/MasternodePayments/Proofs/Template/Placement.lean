import MasternodePayments.Proofs.Payees
import MasternodePayments.Proofs.Template.Deduction
import MasternodePayments.Proofs.Template.Mints

/-!
# Where the payments of a template are

Every tier with a payee appends one output to the transaction, behind those of the tiers before it,
and this output pays the tier in full: the payment is taken out of the base output, and the other
outputs are left alone. But where the transaction has too few outputs to have a base output, the
first payments are appended until there is one, and the payment that comes to lie there is the base
output from then on: it is taken out of itself (`Ledger.payment_in_place`). Then the payee gets
nothing (`Ledger.not_paysInFull`).

* `place`: the index of the output that a tier appends.
* `getElem?_payTier_added`, `getElem?_foldlM_payTier_added`: what a tier appends, when it is done
  and when all tiers are.
* `Becomes`: the three things that can become of it.
-/

namespace MasternodePayments

/-- The output without its value; the value of a mint is fixed. -/
def Output.emptied (o : Output) : Output :=
  if Script.isMint o.script then o else { o with value := 0 }

theorem Output.less_of_value_le {o : Output} {amount : Nat} (h : o.value.toNat ≤ amount) :
    o.less amount = o.emptied := by
  unfold less emptied
  split
  · rfl
  · rw [Nat.sub_eq_zero_of_le h]
    rfl

namespace Ledger

variable {l : Ledger} {s : Setting} {height tip : Height} {staked : Bool} {tier : Tier}
  {tiers earlier later : List Tier} {outputs next : List Output} {base payment : Output}
  {tx filled : Transaction}

/-- The index of the output that a tier appends, after the tiers before it. -/
def place (l : Ledger) (s : Setting) (height : Height) (outputs : List Output)
    (earlier : List Tier) : Nat :=
  outputs.length + (earlier.filterMap (l.payee? s height)).length

/-! ## Tier after tier -/

theorem length_foldlM_payTier (h : tiers.foldlM (l.payTier s height staked) outputs = .ok next) :
    next.length = l.place s height outputs tiers := by
  have hscripts := congrArg List.length (script_foldlM_payTier h)
  rwa [List.length_map, List.length_append, List.length_map] at hscripts

/-- A tier can be paid if what it is due is a word, whatever the outputs are. -/
theorem exists_payTier (hfit : s.schedule.Fits tier s.chain.blockValue) (outputs : List Output) :
    ∃ next, l.payTier s height staked outputs tier = .ok next := by
  have hdue := Schedule.payment_eq_ok.2 ⟨hfit, rfl⟩
  unfold payTier
  simp only [hdue, ok_bind]
  cases l.payee? s height tier with
  | some script => exact ⟨_, rfl⟩
  | none => cases staked <;> exact ⟨_, rfl⟩

theorem exists_foldlM_payTier (hfits : ∀ tier ∈ tiers, s.schedule.Fits tier s.chain.blockValue)
    (outputs : List Output) :
    ∃ next, tiers.foldlM (l.payTier s height staked) outputs = .ok next := by
  induction tiers generalizing outputs with
  | nil => exact ⟨outputs, rfl⟩
  | cons tier tiers ih =>
    obtain ⟨hfit, hfits⟩ := List.forall_mem_cons.1 hfits
    obtain ⟨mid, hmid⟩ := exists_payTier hfit outputs
    obtain ⟨next, hnext⟩ := ih hfits mid
    exact ⟨next, bind_eq_ok.2 ⟨mid, hmid, hnext⟩⟩

/-- **What a tier appends**: its payment, out of which it is taken itself if it is the base output
by now. -/
theorem getElem?_payTier_added (hpayment : l.payment? s height tier = some payment)
    (h : l.payTier s height staked outputs tier = .ok next) :
    next[outputs.length]? = some
      (if baseIndex staked = outputs.length then payment.deduct payment.value else payment) := by
  obtain ⟨script, hpayee, rfl⟩ := Option.map_eq_some_iff.1 hpayment
  obtain ⟨due, hdue, h⟩ := bind_eq_ok.1 h
  obtain ⟨-, rfl⟩ := Schedule.payment_eq_ok.1 hdue
  simp only [hpayee, pure_eq_ok] at h
  subst h
  rw [List.getElem?_modify, List.getElem?_append_right (Nat.le_refl _), Nat.sub_self,
    List.getElem?_cons_zero]
  split <;> rfl

/-- The output that one of the tiers appends, after all of them. -/
theorem getElem?_foldlM_payTier_added (hpayment : l.payment? s height tier = some payment)
    (h : (earlier ++ tier :: later).foldlM (l.payTier s height staked) outputs = .ok next) :
    next[l.place s height outputs earlier]? = some
      (if baseIndex staked = l.place s height outputs earlier then
        later.foldl (l.rebase s height staked) (payment.deduct payment.value) else payment) := by
  rw [List.foldlM_append, bind_eq_ok] at h
  obtain ⟨before, hbefore, h⟩ := h
  rw [List.foldlM_cons, bind_eq_ok] at h
  obtain ⟨after, hafter, h⟩ := h
  have hadded := getElem?_payTier_added hpayment hafter
  rw [← length_foldlM_payTier hbefore]
  split at hadded
  · next hbase =>
    rw [← hbase] at hadded ⊢
    rw [if_pos rfl, getElem?_foldlM_payTier_base hadded h]
  · next hne =>
    obtain ⟨hlt, -⟩ := List.getElem?_eq_some_iff.1 hadded
    rw [if_neg hne, getElem?_foldlM_payTier hlt hne h, hadded]

/-! ## The template -/

/-- A template that pays the payees of all tiers in full, by outputs that it adds. -/
def PaysInFull (l : Ledger) (s : Setting) (height : Height) (filled : Transaction) : Prop :=
  ∀ tier ∈ s.schedule.tiers, l.payee? s height tier ≠ none →
    ∃ o ∈ filled.outputs, l.IsPayment s height tier o

/-- What becomes of the payment that a tier appends at an index, with some tiers yet to be paid. -/
inductive Becomes (l : Ledger) (s : Setting) (height : Height) (staked : Bool) (place : Nat)
    (later : List Tier) (payment : Output) : Output → Prop where
  /-- It is left alone. -/
  | full (hplace : baseIndex staked ≠ place) :
      Becomes l s height staked place later payment payment
  /-- It is the base output, and has been taken out of itself. -/
  | emptied (hplace : baseIndex staked = place)
      (hlater : staked = true ∨ ∀ t ∈ later, l.payee? s height t ≠ none) :
      Becomes l s height staked place later payment payment.emptied
  /-- It is the base output of a block made by work, and a tier without a payee has set it. -/
  | reset {between rest : List Tier} {vacant : Tier} (hplace : baseIndex staked = place)
      (hwork : staked = false) (hlater : later = between ++ vacant :: rest)
      (hvacant : l.payee? s height vacant = none)
      (hrest : ∀ t ∈ rest, l.payee? s height t ≠ none) :
      Becomes l s height staked place later payment
        ({ payment with
          value := monus s.chain.blockValue (s.schedule.due vacant s.chain.blockValue)
          }.less (l.paid s height rest))

/-- The last tier without a payee, if there is one. -/
theorem exists_last_vacant (l : Ledger) (s : Setting) (height : Height) (tiers : List Tier) :
    (∀ t ∈ tiers, l.payee? s height t ≠ none) ∨ ∃ between vacant rest,
      tiers = between ++ vacant :: rest ∧ l.payee? s height vacant = none ∧
        ∀ t ∈ rest, l.payee? s height t ≠ none := by
  induction tiers with
  | nil => exact .inl (by simp)
  | cons tier tiers ih =>
    obtain hall | ⟨between, vacant, rest, rfl, hvacant, hrest⟩ := ih
    · by_cases htier : l.payee? s height tier = none
      · exact .inr ⟨[], tier, tiers, rfl, htier, hall⟩
      · exact .inl (List.forall_mem_cons.2 ⟨htier, hall⟩)
    · exact .inr ⟨tier :: between, vacant, rest, rfl, hvacant, hrest⟩

/-- The base output goes through the tiers that are left, once its own payment is taken out. -/
theorem becomes_foldl_rebase {place : Nat} (hplace : baseIndex staked = place) :
    l.Becomes s height staked place later payment
      (later.foldl (l.rebase s height staked) (payment.deduct payment.value)) := by
  have hkept (h : staked = true ∨ ∀ t ∈ later, l.payee? s height t ≠ none) :
      l.Becomes s height staked place later payment
        (later.foldl (l.rebase s height staked) (payment.deduct payment.value)) := by
    rw [foldl_rebase_eq fun t ht => h.imp_right (· t ht), Output.less_deduct,
      Output.less_of_value_le (Nat.le_add_right _ _)]
    exact .emptied hplace h
  cases staked with
  | true => exact hkept (.inl rfl)
  | false =>
    obtain hall | ⟨between, vacant, rest, rfl, hvacant, hrest⟩ :=
      exists_last_vacant l s height later
    · exact hkept (.inr hall)
    · obtain ⟨value, hvalue⟩ := payment.exists_deduct payment.value
      rw [foldl_rebase_of_none hvacant hrest, hvalue]
      exact .reset hplace rfl rfl hvacant hrest

/-- **Where the payments are, and what becomes of them.** If the tip is not the last height and what
each tier is due is a word, there is a template for every transaction, and it appends one output for
each tier with a payee. What the tier is due is in it, unless it is the base output. -/
theorem payment_in_place (l : Ledger) (tx : Transaction) (staked : Bool)
    (hheight : add64 tip 1 = .ok height)
    (hdue : ∀ tier ∈ s.schedule.tiers, ∃ due,
      s.schedule.payment tier s.chain.blockValue = .ok due) :
    ∃ filled, l.payTiers s tx tip staked = .ok filled ∧
      filled.outputs.length = l.place s height tx.outputs s.schedule.tiers ∧
      ∀ earlier tier later, s.schedule.tiers = earlier ++ tier :: later →
        (l.winner? height tier ≠ none ∨ s.registry.currentWinner? tier ≠ none) →
        ∃ payment o, l.IsPayment s height tier payment ∧
          filled.outputs[l.place s height tx.outputs earlier]? = some o ∧
          l.Becomes s height staked (l.place s height tx.outputs earlier) later payment o := by
  have hfits : ∀ tier ∈ s.schedule.tiers, s.schedule.Fits tier s.chain.blockValue := by
    intro tier htier
    obtain ⟨due, hdue⟩ := hdue tier htier
    exact (Schedule.payment_eq_ok.1 hdue).1
  obtain ⟨outputs, houtputs⟩ : ∃ outputs,
      s.schedule.tiers.foldlM (l.payTier s height staked) tx.outputs = .ok outputs :=
    exists_foldlM_payTier hfits tx.outputs
  refine ⟨{ tx with outputs := outputs }, ?_, length_foldlM_payTier houtputs,
    fun earlier tier later htiers hpayee => ?_⟩
  · exact bind_eq_ok.2 ⟨height, hheight, bind_eq_ok.2 ⟨outputs, houtputs, rfl⟩⟩
  obtain ⟨script, hscript⟩ := Option.ne_none_iff_exists'.1 (payee?_ne_none.2 hpayee)
  have hpayment : l.payment? s height tier =
      some ⟨s.schedule.due tier s.chain.blockValue, script, none⟩ := by
    rw [payment?, hscript, Option.map_some]
  have hmem : tier ∈ s.schedule.tiers := htiers ▸ List.mem_append_right _ List.mem_cons_self
  rw [htiers] at houtputs
  refine ⟨_, _, isPayment_of_payment? (hfits tier hmem) hpayment,
    getElem?_foldlM_payTier_added hpayment houtputs, ?_⟩
  split
  · next hplace => exact becomes_foldl_rebase hplace
  · next hplace => exact .full hplace

end Ledger

/-! ## Transactions without a base output -/

namespace Sample

/-- A reward of the stake that lacks the output of the stake. -/
def noStake : Transaction := ⟨.coinstake, [⟨0, [], none⟩]⟩

/-- The first payment has become the base output, out of which both payments are taken. -/
def selfPaid : Transaction :=
  ⟨.coinstake, [⟨0, [], none⟩, ⟨0, [0x53], none⟩, ⟨20, (masternode 0).payout, none⟩]⟩

/-- There is one masternode, and a reward by work without outputs to pay it from. -/
theorem payTiers_noOutputs :
    ({} : Ledger).payTiers (setting {} [0] 1000) ⟨.coinbase, []⟩ 1000 false =
      .ok ⟨.coinbase, [⟨0, (masternode 0).payout, none⟩]⟩ := by
  decide +kernel

end Sample

namespace Ledger

open Sample

theorem payment_in_place_noStake :
    voted.payTiers secondTier noStake 1000 true = .ok selfPaid ∧
      (∃ payment, voted.IsPayment secondTier 1001 1 payment ∧
        selfPaid.outputs[1]? = some payment.emptied) ∧
      ∃ payment, voted.IsPayment secondTier 1001 2 payment ∧
        selfPaid.outputs[2]? = some payment := by
  have htiers : secondTier.schedule.tiers = [1, 2] := by decide
  have hfill : voted.payTiers secondTier noStake 1000 true = .ok selfPaid := by decide +kernel
  have hheight : add64 1000 1 = .ok (1001 : Height) := rfl
  have hdue : ∀ tier ∈ secondTier.schedule.tiers, ∃ due,
      secondTier.schedule.payment tier secondTier.chain.blockValue = .ok due := by
    rw [htiers]
    simp only [List.mem_cons, List.not_mem_nil, or_false, forall_eq_or_imp, forall_eq]
    exact ⟨⟨50, by decide⟩, ⟨20, by decide⟩⟩
  have hfirst : voted.place secondTier 1001 noStake.outputs [] = 1 := rfl
  have hsecond : voted.place secondTier 1001 noStake.outputs [1] = 2 := by decide +kernel
  obtain ⟨filled, hfilled, -, hplaces⟩ := payment_in_place voted noStake true hheight hdue
  cases hfill.symm.trans hfilled
  obtain ⟨one, o, hone, hget, hfate⟩ := hplaces [] 1 [2] htiers (.inl (by decide +kernel))
  obtain ⟨two, o', htwo, hget', hfate'⟩ := hplaces [1] 2 [] htiers (.inr (by decide +kernel))
  rw [hfirst] at hget hfate
  rw [hsecond] at hget' hfate'
  refine ⟨hfill, ⟨one, hone, ?_⟩, two, htwo, ?_⟩
  · cases hfate with
    | full hplace => exact absurd rfl hplace
    | emptied => exact hget
    | reset _ hwork => cases hwork
  · cases hfate' with
    | full => exact hget'
    | emptied hplace => exact absurd hplace (by decide)
    | reset hplace => exact absurd hplace (by decide)

/-- **A payee need not be paid in full**: where the transaction has no outputs, the payment is taken
out of itself. -/
theorem not_paysInFull : ¬∀ (l : Ledger) (s : Setting) (tx filled : Transaction)
    (tip height : Height) (staked : Bool), add64 tip 1 = .ok height →
      l.payTiers s tx tip staked = .ok filled → l.PaysInFull s height filled := by
  intro h
  obtain ⟨o, ho, hpayment⟩ := h _ _ _ _ _ 1001 _ rfl payTiers_noOutputs 1 (by decide)
    (by decide +kernel)
  obtain rfl := List.mem_singleton.1 ho
  exact absurd hpayment.due (by decide)

end Ledger
end MasternodePayments
