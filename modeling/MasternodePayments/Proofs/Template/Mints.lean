import MasternodePayments.Proofs.Template.Value

/-!
# Mints in a template

A template leaves every output in its place but the base output. If that one is a mint, no payment
is taken out of it; but a tier without a payee, in a block made by work, writes to the first output
without a look at its script, and a mint there loses its value (`Ledger.mint_payTiers`).

* `getElem?_payTier`, `getElem?_foldlM_payTier`: all outputs but the base output are left alone, by
  one tier and by several.
* `getElem?_foldlM_payTier_base`: the base output, which goes through all tiers.
* `not_keepsMints`: so mints are not always kept.
-/

namespace MasternodePayments

/-- Every mint of the one transaction is in its place in the other, with its value. -/
def Transaction.KeepsMints (tx filled : Transaction) : Prop :=
  ∀ (i : Nat) (o : Output), tx.outputs[i]? = some o → Script.isMint o.script = true →
    ∃ o' : Output, filled.outputs[i]? = some o' ∧ Script.isMint o'.script = true ∧ o'.value = o.value

namespace Ledger

variable {l : Ledger} {s : Setting} {height tip : Height} {staked : Bool} {tier : Tier}
  {tiers : List Tier} {outputs next : List Output} {base o : Output}
  {tx filled : Transaction} {i : Nat}

/-! ## The other outputs -/

/-- One tier leaves every output but the base output as it is, and takes none away. -/
theorem getElem?_payTier (hi : i < outputs.length) (hne : baseIndex staked ≠ i)
    (h : l.payTier s height staked outputs tier = .ok next) :
    next[i]? = outputs[i]? ∧ outputs.length ≤ next.length := by
  obtain ⟨due, -, h⟩ := bind_eq_ok.1 h
  cases hpayee : l.payee? s height tier with
  | some script =>
    simp only [hpayee, pure_eq_ok] at h
    subst h
    rw [List.getElem?_modify_ne _ _ hne, List.getElem?_append_left hi]
    exact ⟨rfl, by simp⟩
  | none =>
    simp only [hpayee] at h
    cases staked with
    | true =>
      cases h
      exact ⟨rfl, Nat.le_refl _⟩
    | false =>
      cases h
      have hne : 0 ≠ i := hne
      rw [List.getElem?_modify_ne _ _ hne, List.length_modify]
      exact ⟨rfl, Nat.le_refl _⟩

/-- All tiers leave every output but the base output as it is. -/
theorem getElem?_foldlM_payTier (hi : i < outputs.length) (hne : baseIndex staked ≠ i)
    (h : tiers.foldlM (l.payTier s height staked) outputs = .ok next) :
    next[i]? = outputs[i]? := by
  induction tiers generalizing outputs with
  | nil =>
    cases h
    rfl
  | cons tier tiers ih =>
    obtain ⟨mid, hmid, h⟩ := bind_eq_ok.1 h
    obtain ⟨hget, hlength⟩ := getElem?_payTier hi hne hmid
    rw [ih (Nat.lt_of_lt_of_le hi hlength) h, hget]

/-- A template leaves every output but the base output as it is. -/
theorem getElem?_payTiers (hi : i < tx.outputs.length) (hne : baseIndex staked ≠ i)
    (h : l.payTiers s tx tip staked = .ok filled) : filled.outputs[i]? = tx.outputs[i]? := by
  obtain ⟨height, -, h⟩ := bind_eq_ok.1 h
  obtain ⟨outputs, houtputs, h⟩ := bind_eq_ok.1 h
  cases h
  exact getElem?_foldlM_payTier hi hne houtputs

/-- The base output, if there is one, goes through all tiers. -/
theorem getElem?_foldlM_payTier_base (hget : outputs[baseIndex staked]? = some base)
    (h : tiers.foldlM (l.payTier s height staked) outputs = .ok next) :
    next[baseIndex staked]? = some (tiers.foldl (l.rebase s height staked) base) := by
  obtain ⟨hlt, -⟩ := List.getElem?_eq_some_iff.1 hget
  obtain ⟨pre, base', rest, hpre, rfl⟩ := exists_base hlt
  obtain rfl : base' = base := Option.some.inj ((getElem?_base hpre).symm.trans hget)
  obtain ⟨-, rfl⟩ := (foldlM_payTier_eq_ok hpre).1 h
  exact getElem?_base hpre

theorem getElem?_payTiers_base (hget : tx.outputs[baseIndex staked]? = some base)
    (hheight : add64 tip 1 = .ok height) (h : l.payTiers s tx tip staked = .ok filled) :
    filled.outputs[baseIndex staked]? =
      some (s.schedule.tiers.foldl (l.rebase s height staked) base) := by
  obtain ⟨height', hheight', h⟩ := bind_eq_ok.1 h
  cases hheight.symm.trans hheight'
  obtain ⟨outputs, houtputs, h⟩ := bind_eq_ok.1 h
  cases h
  exact getElem?_foldlM_payTier_base hget houtputs

/-! ## Mints in any place -/

/-- **What a template does to a mint**: nothing, unless the mint is the first output, the block is
made by work and there is a tier without a payee. Then the last such tier sets the value of the mint
to the rest of the block value. -/
theorem mint_payTiers (hget : tx.outputs[i]? = some o) (hmint : Script.isMint o.script = true)
    (hheight : add64 tip 1 = .ok height) (h : l.payTiers s tx tip staked = .ok filled) :
    (i ≠ 0 ∨ staked = true ∨ (∀ tier ∈ s.schedule.tiers, l.payee? s height tier ≠ none) →
      filled.outputs[i]? = some o) ∧
    (i = 0 → staked = false → ∀ earlier tier later, s.schedule.tiers = earlier ++ tier :: later →
      l.payee? s height tier = none → (∀ t ∈ later, l.payee? s height t ≠ none) →
      filled.outputs[i]? = some { o with
        value := monus s.chain.blockValue (s.schedule.due tier s.chain.blockValue) }) := by
  constructor
  · intro hkept
    obtain hne | rfl := ne_or_eq (baseIndex staked) i
    · obtain ⟨hi, -⟩ := List.getElem?_eq_some_iff.1 hget
      rw [getElem?_payTiers hi hne h, hget]
    · rw [getElem?_payTiers_base hget hheight h, foldl_rebase_eq fun tier htier => ?_,
        Output.less_of_mint hmint]
      cases staked with
      | true => exact .inl rfl
      | false =>
        obtain hne | hstaked | hall := hkept
        · exact absurd rfl hne
        · cases hstaked
        · exact .inr (hall tier htier)
  · rintro rfl rfl earlier tier later htiers hnone hlater
    have hbase : filled.outputs[baseIndex false]? = _ := getElem?_payTiers_base hget hheight h
    rw [htiers, foldl_rebase_of_none hnone hlater, Output.less_of_mint (by exact hmint)] at hbase
    exact hbase

end Ledger

/-! ## A mint as the first output -/

namespace Sample

/-- There are no masternodes, and the only tier is due half of the block value. -/
def noMasternodes : Setting where
  chain := { tip := some 1000, blockValue := 100 }
  schedule := ⟨[50]⟩

/-- Two mints, of which the first is the base output of a block made by work. -/
def mints : Transaction := ⟨.coinbase, [⟨70, [0xc1, 0x01], none⟩, ⟨5, [0xc1], none⟩]⟩

theorem payTiers_mints : ({} : Ledger).payTiers noMasternodes mints 1000 false =
    .ok ⟨.coinbase, [⟨50, [0xc1, 0x01], none⟩, ⟨5, [0xc1], none⟩]⟩ := by
  decide +kernel

end Sample

namespace Ledger

open Sample

theorem mint_payTiers_mints : ∃ filled,
    ({} : Ledger).payTiers noMasternodes mints 1000 false = .ok filled ∧
      filled.outputs[0]? = some ⟨50, [0xc1, 0x01], none⟩ ∧
      filled.outputs[1]? = mints.outputs[1]? := by
  obtain ⟨-, hfirst⟩ := mint_payTiers (i := 0) rfl (by decide) rfl payTiers_mints
  obtain ⟨hsecond, -⟩ := mint_payTiers (i := 1) rfl (by decide) rfl payTiers_mints
  exact ⟨_, payTiers_mints, hfirst rfl rfl [] 1 [] rfl (by decide) (by simp),
    hsecond (.inl (by decide))⟩

/-- **A template can change the value of a mint**: of one that is the first output, where a tier has
no payee. -/
theorem not_keepsMints : ¬∀ (l : Ledger) (s : Setting) (tx filled : Transaction) (tip : Height)
    (staked : Bool), l.payTiers s tx tip staked = .ok filled → tx.KeepsMints filled := by
  intro h
  obtain ⟨o, hget, -, hvalue⟩ := h _ _ _ _ _ _ payTiers_mints 0 _ rfl (by decide)
  cases hget
  exact absurd hvalue (by decide)

end Ledger
end MasternodePayments
