import MasternodePayments.Proofs.Vote.Preimage
import MasternodePayments.Snapshot.Format

/-!
# The layout of the bytes of a vote

The bytes behind an identity and the bytes that are signed are put together by hand, apart from the
codec that writes snapshots.

* `Codec.write_payee`, `Codec.write_outPoint`: the codec writes a payee and an outpoint as they are
  put together by hand.
* `Vote.layout`: what the two byte strings are in terms of the codec, and that each of them tells
  the claim, neither more nor less.
-/

namespace MasternodePayments

namespace Codec

@[simp] theorem write_word32 (w : UInt32) : word32.write w = MasternodePayments.word32 w := rfl

@[simp] theorem write_word64 (w : UInt64) : word64.write w = MasternodePayments.word64 w := rfl

@[simp] theorem write_outPoint (o : OutPoint) : outPoint.write o = o.preimage := rfl

/-- A script has its length in front, and its bytes follow one by one. -/
theorem write_script (s : Script) : script.write s = lengthWord s ++ s := by
  show lengthWord s ++ s.flatMap (fun b => [b]) = _
  simp

@[simp] theorem write_payee (p : Payee) : payee.write p = p.preimage := by
  cases p with
  | script s =>
    show MasternodePayments.word32 0 ++ script.write s = _
    rw [write_script, Payee.preimage, List.append_assoc]
  | collateral o => rfl

variable {α β : Type} (c : Codec α) (d : Codec β)

theorem write_pair (a : α) (b : β) : (pair c d).write (a, b) = c.write a ++ d.write b := rfl

end Codec

namespace Vote

theorem preimage_eq_write (v : Vote) :
    v.preimage =
      (Codec.pair Codec.payee (Codec.pair Codec.word64 Codec.outPoint)).write
        (v.payee, v.height, v.voter) := by
  simp [preimage, Codec.write_pair]

theorem signingMessage_eq_write (v : Vote) :
    v.signingMessage =
      signingDomain ++
        (Codec.pair Codec.outPoint (Codec.pair Codec.word64 Codec.payee)).write
          (v.voter, v.height, v.payee) := by
  simp [signingMessage, Codec.write_pair]

variable {v w : Vote}

theorem preimage_congr (h : v.voter = w.voter ∧ v.height = w.height ∧ v.payee = w.payee) :
    v.preimage = w.preimage := by
  unfold preimage
  rw [h.1, h.2.1, h.2.2]

theorem signingMessage_congr (h : v.voter = w.voter ∧ v.height = w.height ∧ v.payee = w.payee) :
    v.signingMessage = w.signingMessage := by
  unfold signingMessage
  rw [h.1, h.2.1, h.2.2]

/-- **The bytes of a vote are its claim in the layout of the snapshots.** Two votes have the same
bytes exactly when they make the same claim, whatever their scripts are: behind the identity, where
the payee comes first, and in what is signed, where it comes last. -/
theorem layout (v w : Vote) :
    (v.preimage = w.preimage ↔
        v.voter = w.voter ∧ v.height = w.height ∧ v.payee = w.payee) ∧
      (v.signingMessage = w.signingMessage ↔
        v.voter = w.voter ∧ v.height = w.height ∧ v.payee = w.payee) ∧
      v.preimage =
        (Codec.pair Codec.payee (Codec.pair Codec.word64 Codec.outPoint)).write
          (v.payee, v.height, v.voter) ∧
      v.signingMessage =
        signingDomain ++
          (Codec.pair Codec.outPoint (Codec.pair Codec.word64 Codec.payee)).write
            (v.voter, v.height, v.payee) :=
  ⟨⟨claim_of_preimage, preimage_congr⟩, ⟨claim_of_signingMessage, signingMessage_congr⟩,
    v.preimage_eq_write, v.signingMessage_eq_write⟩

end Vote
end MasternodePayments
