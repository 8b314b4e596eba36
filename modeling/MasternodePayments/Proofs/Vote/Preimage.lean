import MasternodePayments.Vote.Basic

/-!
# What the bytes of a vote tell

The bytes behind the identity of a vote end with a height and a voter, which have a fixed length; a
script before them, of any length, is all that is left. So the claim can be read back from the bytes
(`Vote.claim_of_preimage`), and where the digest tells byte strings apart, it tells claims apart.

The bytes that are signed have the payee last and the domain and the parts of a fixed length in
front of it (`Vote.claim_of_signingMessage`).
-/

namespace MasternodePayments

theorem word32_inj {a b : UInt32} : word32 a = word32 b ↔ a = b := by
  refine ⟨fun h => ?_, congrArg word32⟩
  have hnat := congrArg ofLittleEndian h
  rwa [ofLittleEndian_word32, ofLittleEndian_word32, UInt32.toNat_inj] at hnat

theorem word64_inj {a b : UInt64} : word64 a = word64 b ↔ a = b := by
  refine ⟨fun h => ?_, congrArg word64⟩
  have hnat := congrArg ofLittleEndian h
  rwa [ofLittleEndian_word64, ofLittleEndian_word64, UInt64.toNat_inj] at hnat

namespace OutPoint

@[simp] theorem length_preimage (o : OutPoint) : o.preimage.length = 36 := by
  rw [preimage, List.length_append, o.txid.length_bytes, length_word32]

theorem preimage_inj {o o' : OutPoint} : o.preimage = o'.preimage ↔ o = o' := by
  refine ⟨fun h => ?_, congrArg preimage⟩
  obtain ⟨htxid, hvout⟩ := List.append_inj h (by rw [o.txid.length_bytes, o'.txid.length_bytes])
  obtain ⟨txid, vout⟩ := o
  obtain ⟨txid', vout'⟩ := o'
  obtain rfl : txid = txid' := FixedBytes.ext htxid
  obtain rfl : vout = vout' := word32_inj.1 hvout
  rfl

end OutPoint

/-- The form comes first, and what names the payee in that form is what is left. -/
theorem Payee.preimage_inj {p q : Payee} : p.preimage = q.preimage ↔ p = q := by
  refine ⟨fun h => ?_, congrArg preimage⟩
  cases p with
  | script script =>
    cases q with
    | script script' =>
      obtain ⟨-, hscript⟩ := List.append_inj h (by simp)
      rw [hscript]
    | collateral o =>
      rw [preimage, preimage, List.append_assoc] at h
      obtain ⟨hform, -⟩ := List.append_inj h (by simp)
      exact absurd (word32_inj.1 hform) (by decide)
  | collateral o =>
    cases q with
    | script script' =>
      rw [preimage, preimage, List.append_assoc] at h
      obtain ⟨hform, -⟩ := List.append_inj h (by simp)
      exact absurd (word32_inj.1 hform) (by decide)
    | collateral o' =>
      obtain ⟨-, ho⟩ := List.append_inj h (by simp)
      rw [OutPoint.preimage_inj.1 ho]

/-- **The bytes of an identity tell the claim.** -/
theorem Vote.claim_of_preimage {v w : Vote} (h : v.preimage = w.preimage) :
    v.voter = w.voter ∧ v.height = w.height ∧ v.payee = w.payee := by
  obtain ⟨h, hvoter⟩ := List.append_inj' h (by simp)
  obtain ⟨hpayee, hheight⟩ := List.append_inj' h (by simp)
  exact ⟨OutPoint.preimage_inj.1 hvoter, word64_inj.1 hheight, Payee.preimage_inj.1 hpayee⟩

/-- **The bytes that are signed tell the claim.** -/
theorem Vote.claim_of_signingMessage {v w : Vote} (h : v.signingMessage = w.signingMessage) :
    v.voter = w.voter ∧ v.height = w.height ∧ v.payee = w.payee := by
  obtain ⟨h, hpayee⟩ := List.append_inj h (by simp)
  obtain ⟨h, hheight⟩ := List.append_inj h (by simp)
  obtain ⟨-, hvoter⟩ := List.append_inj h (by simp)
  exact ⟨OutPoint.preimage_inj.1 hvoter, word64_inj.1 hheight, Payee.preimage_inj.1 hpayee⟩

end MasternodePayments
