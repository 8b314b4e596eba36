import MasternodePayments.Bytes.Basic

/-!
# Hexadecimal text

`hex` writes a byte string with two lower-case digits a byte, and `ofHex?` reads such text back.
Main statement: `ofHex?_hex`, what `hex` wrote is read back, so no two byte strings share a text.
-/

namespace MasternodePayments

/-- The two hexadecimal digits of a byte, high digit first. -/
def hexDigits (b : UInt8) : List Char :=
  [Nat.digitChar (b.toNat / 16), Nat.digitChar (b.toNat % 16)]

/-- A byte string with two lower-case hexadecimal digits a byte. -/
def hex (b : Bytes) : String := String.ofList (b.flatMap hexDigits)

def digitValue? (c : Char) : Option Nat :=
  if '0' ≤ c ∧ c ≤ '9' then some (c.toNat - 48)
  else if 'a' ≤ c ∧ c ≤ 'f' then some (c.toNat - 87)
  else if 'A' ≤ c ∧ c ≤ 'F' then some (c.toNat - 55)
  else none

def bytesOfDigits? : List Char → Option Bytes
  | [] => some []
  | [_] => none
  | c :: d :: rest => do
    let high ← digitValue? c
    let low ← digitValue? d
    let bytes ← bytesOfDigits? rest
    pure (UInt8.ofNat (16 * high + low) :: bytes)

def ofHex? (text : String) : Option Bytes := bytesOfDigits? text.toList

theorem digitValue?_digitChar : ∀ n < 16, digitValue? (Nat.digitChar n) = some n := by decide

theorem bytesOfDigits?_hexDigits (b : Bytes) :
    bytesOfDigits? (b.flatMap hexDigits) = some b := by
  induction b with
  | nil => rfl
  | cons c b ih =>
    have hc := c.toNat_lt
    have hb : UInt8.ofNat (16 * (c.toNat / 16) + c.toNat % 16) = c := by
      rw [Nat.div_add_mod, UInt8.ofNat_toNat]
    simp only [hexDigits, List.flatMap_cons, List.cons_append, List.nil_append, bytesOfDigits?,
      digitValue?_digitChar (c.toNat / 16) (by omega),
      digitValue?_digitChar (c.toNat % 16) (by omega)]
    change (bytesOfDigits? (b.flatMap hexDigits)).bind _ = _
    rw [ih]
    exact congrArg (fun d => some (d :: b)) hb

@[simp] theorem ofHex?_hex (b : Bytes) : ofHex? (hex b) = some b := by
  simp [ofHex?, hex, bytesOfDigits?_hexDigits]

theorem hex_injective {a b : Bytes} (h : hex a = hex b) : a = b := by
  have := congrArg ofHex? h
  simpa using this

end MasternodePayments
