/-!
# Arithmetic on words

Heights, amounts and counts are 64-bit words and tiers and vote weights 32-bit words. A sum or a
product that does not fit is an `Overflow`, never a wrapped number; a difference stops at zero.

* `add64_eq_ok`, `mul64_eq_ok`, `add32_eq_ok`: when an operation has a value, and which.
* `toNat_monus`: the difference is the one of `Nat`.
-/

namespace MasternodePayments

/-- The height of a block. -/
abbrev Height := UInt64

/-- An amount of coins, in the smallest unit. -/
abbrev Amount := UInt64

/-- The collateral class of a masternode, counted from 1. -/
abbrev Tier := UInt32

/-- Stands for a tier that nothing could be said about. -/
def unknownTier : Tier := 0

/-- Which operation left the range of its word. -/
inductive Overflow where
  | addition
  | multiplication
deriving DecidableEq, Repr

def Overflow.message : Overflow → String
  | .addition => "attempt to add with overflow"
  | .multiplication => "attempt to multiply with overflow"

/-- A value, unless a word overflows on the way to it. -/
abbrev Checked := Except Overflow

def add64 (a b : UInt64) : Checked UInt64 :=
  if a.toNat + b.toNat < UInt64.size then .ok (a + b) else .error .addition

def mul64 (a b : UInt64) : Checked UInt64 :=
  if a.toNat * b.toNat < UInt64.size then .ok (a * b) else .error .multiplication

def add32 (a b : UInt32) : Checked UInt32 :=
  if a.toNat + b.toNat < UInt32.size then .ok (a + b) else .error .addition

/-- The difference of two 64-bit words, zero if the second is the larger. -/
def monus (a b : UInt64) : UInt64 := if b ≤ a then a - b else 0

theorem add64_eq_ok {a b c : UInt64} : add64 a b = .ok c ↔ a.toNat + b.toNat = c.toNat := by
  have hc := c.toNat_lt_size
  unfold add64
  split
  · rw [Except.ok.injEq, ← UInt64.toNat_inj, UInt64.toNat_add, Nat.mod_eq_of_lt ‹_›]
  · simp only [reduceCtorEq, false_iff]
    omega

theorem add64_eq_error {a b : UInt64} {o : Overflow} :
    add64 a b = .error o ↔ UInt64.size ≤ a.toNat + b.toNat ∧ o = .addition := by
  unfold add64
  split
  · simp only [reduceCtorEq, false_iff]
    omega
  · rw [Except.error.injEq, eq_comm]
    exact ⟨fun h => ⟨by omega, h⟩, fun h => h.2⟩

theorem mul64_eq_ok {a b c : UInt64} : mul64 a b = .ok c ↔ a.toNat * b.toNat = c.toNat := by
  have hc := c.toNat_lt_size
  unfold mul64
  split
  · rw [Except.ok.injEq, ← UInt64.toNat_inj, UInt64.toNat_mul, Nat.mod_eq_of_lt ‹_›]
  · simp only [reduceCtorEq, false_iff]
    omega

theorem mul64_eq_error {a b : UInt64} {o : Overflow} :
    mul64 a b = .error o ↔ UInt64.size ≤ a.toNat * b.toNat ∧ o = .multiplication := by
  unfold mul64
  split
  · simp only [reduceCtorEq, false_iff]
    omega
  · rw [Except.error.injEq, eq_comm]
    exact ⟨fun h => ⟨by omega, h⟩, fun h => h.2⟩

theorem add32_eq_ok {a b c : UInt32} : add32 a b = .ok c ↔ a.toNat + b.toNat = c.toNat := by
  have hc := c.toNat_lt_size
  unfold add32
  split
  · rw [Except.ok.injEq, ← UInt32.toNat_inj, UInt32.toNat_add, Nat.mod_eq_of_lt ‹_›]
  · simp only [reduceCtorEq, false_iff]
    omega

@[simp] theorem toNat_monus (a b : UInt64) : (monus a b).toNat = a.toNat - b.toNat := by
  unfold monus
  split
  · next h => exact UInt64.toNat_sub_of_le _ _ h
  · next h =>
    have : a.toNat < b.toNat := by simpa [UInt64.le_iff_toNat_le] using h
    simp
    omega

end MasternodePayments
