import MasternodePayments.Bytes.Basic

/-!
# Numbers as bytes

`littleEndian k n` writes the last `k` base-256 digits of `n`, least digit first, and
`ofLittleEndian` reads such digits back. The two undo each other: `ofLittleEndian_littleEndian`
gives the number modulo `256 ^ k`, `littleEndian_ofLittleEndian` gives the bytes.
-/

namespace MasternodePayments

def littleEndian : Nat → Nat → Bytes
  | 0, _ => []
  | k + 1, n => UInt8.ofNat n :: littleEndian k (n / 256)

def ofLittleEndian : Bytes → Nat
  | [] => 0
  | b :: bs => b.toNat + 256 * ofLittleEndian bs

def bigEndian (k n : Nat) : Bytes := (littleEndian k n).reverse

def ofBigEndian (b : Bytes) : Nat := ofLittleEndian b.reverse

def word32 (w : UInt32) : Bytes := littleEndian 4 w.toNat

def word64 (w : UInt64) : Bytes := littleEndian 8 w.toNat

def lengthWord (b : Bytes) : Bytes := littleEndian 8 b.length

@[simp] theorem length_littleEndian (k n : Nat) : (littleEndian k n).length = k := by
  induction k generalizing n <;> simp [littleEndian, *]

@[simp] theorem length_bigEndian (k n : Nat) : (bigEndian k n).length = k := by
  simp [bigEndian]

@[simp] theorem length_word32 (w : UInt32) : (word32 w).length = 4 := length_littleEndian ..

@[simp] theorem length_word64 (w : UInt64) : (word64 w).length = 8 := length_littleEndian ..

@[simp] theorem length_lengthWord (b : Bytes) : (lengthWord b).length = 8 :=
  length_littleEndian ..

theorem ofLittleEndian_lt (b : Bytes) : ofLittleEndian b < Nat.pow 256 b.length := by
  induction b with
  | nil => simp [ofLittleEndian]
  | cons c b ih =>
    have hc := c.toNat_lt
    simp only [ofLittleEndian, List.length_cons, Nat.pow_eq, Nat.pow_succ] at *
    omega

theorem ofLittleEndian_littleEndian (k n : Nat) :
    ofLittleEndian (littleEndian k n) = n % Nat.pow 256 k := by
  induction k generalizing n with
  | zero => simp [littleEndian, ofLittleEndian, Nat.mod_one]
  | succ k ih =>
    have hr : (UInt8.ofNat n).toNat = n % 256 := UInt8.toNat_ofNat'
    rw [littleEndian, ofLittleEndian, ih, hr, Nat.pow_eq, Nat.pow_eq, Nat.pow_succ,
      Nat.mul_comm _ 256, Nat.mod_mul]

theorem littleEndian_ofLittleEndian (b : Bytes) :
    littleEndian b.length (ofLittleEndian b) = b := by
  induction b with
  | nil => rfl
  | cons c b ih =>
    have hc := c.toNat_lt
    have hq : (c.toNat + 256 * ofLittleEndian b) / 256 = ofLittleEndian b := by omega
    have hr : UInt8.ofNat (c.toNat + 256 * ofLittleEndian b) = c := by
      apply UInt8.toNat_inj.1
      rw [UInt8.toNat_ofNat']
      omega
    simp only [ofLittleEndian, List.length_cons, littleEndian, hq, hr, ih]

theorem ofLittleEndian_word64 (w : UInt64) : ofLittleEndian (word64 w) = w.toNat := by
  have := w.toNat_lt
  rw [word64, ofLittleEndian_littleEndian, Nat.mod_eq_of_lt (by simpa using this)]

theorem ofLittleEndian_word32 (w : UInt32) : ofLittleEndian (word32 w) = w.toNat := by
  have := w.toNat_lt
  rw [word32, ofLittleEndian_littleEndian, Nat.mod_eq_of_lt (by simpa using this)]

end MasternodePayments
