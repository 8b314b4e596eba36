import MasternodePayments.Bytes.Hex

/-!
# Numbers

Whole numbers are written in decimal, with a sign if need be and without a leading zero, or after
`0x`, `0o` or `0b` in base 16, 8 or 2. They must fit into 64 bits with a sign. A single underscore
may stand between any two digits.

Of numbers with a fraction or an exponent only the form is looked at, and that a positive one does
not exceed the range of 64-bit binary floating point.
-/

namespace MasternodePayments.SettingsFile

/-- The digits of a number without the underscores between them; there is at least one digit. -/
def ungroup? (isDigit : Char → Bool) : List Char → Option (List Char)
  | [] => none
  | [c] => if isDigit c then some [c] else none
  | c :: '_' :: cs => if isDigit c then (ungroup? isDigit cs).map (c :: ·) else none
  | c :: cs => if isDigit c then (ungroup? isDigit cs).map (c :: ·) else none

def digitIn? (base : Nat) (c : Char) : Option Nat := (digitValue? c).filter (· < base)

def valueIn (base : Nat) (digits : List Char) : Nat :=
  digits.foldl (fun n c => base * n + ((digitIn? base c).getD 0)) 0

/-- The number that digits in a base, with underscores, stand for. -/
def natural? (base : Nat) (cs : List Char) : Option Nat :=
  (ungroup? (fun c => (digitIn? base c).isSome) cs).map (valueIn base)

/-- A text after its sign, and whether that is a minus. -/
def splitSign : List Char → Bool × List Char
  | '-' :: cs => (true, cs)
  | '+' :: cs => (false, cs)
  | cs => (false, cs)

/-- The digits of a decimal number without a leading zero. -/
def decimalDigits? (cs : List Char) : Option (List Char) := do
  match ← ungroup? Char.isDigit cs with
  | '0' :: _ :: _ => none
  | digits => some digits

/-- A number that fits into 64 bits with a sign. -/
def fitting? (n : Int) : Option Int :=
  if Int64.minValue.toInt ≤ n ∧ n ≤ Int64.maxValue.toInt then some n else none

/-- The whole number that a word stands for. -/
def integer? : List Char → Option Int
  | '0' :: 'x' :: cs => (natural? 16 cs).bind fun n => fitting? n
  | '0' :: 'o' :: cs => (natural? 8 cs).bind fun n => fitting? n
  | '0' :: 'b' :: cs => (natural? 2 cs).bind fun n => fitting? n
  | cs => do
    let (negative, cs) := splitSign cs
    let n := valueIn 10 (← decimalDigits? cs)
    fitting? (if negative then -n else n)

/-! ## Fractions and exponents -/

/-- The least number that is rounded to infinity. -/
def overflowBound : Nat := 1 <<< 1024 - 1 <<< 970

/-- Whether digits, taken as a whole number and multiplied by a power of ten, are rounded to
infinity. The number of digits decides unless it comes close to that of the bound. -/
def roundsToInfinity (digits : List Char) (exponent : Int) : Bool :=
  let significant := digits.dropWhile (· = '0')
  let magnitude := significant.length + exponent
  if significant.isEmpty ∨ magnitude < 309 then false
  else if 309 < magnitude then true
  else if 0 ≤ exponent then
    decide (overflowBound ≤ valueIn 10 significant * Nat.pow 10 exponent.toNat)
  else decide (overflowBound * Nat.pow 10 (-exponent).toNat ≤ valueIn 10 significant)

def exponent? (cs : List Char) : Option Int := do
  let (negative, cs) := splitSign cs
  let n ← natural? 10 cs
  some (if negative then -n else n)

def isExponentMark (c : Char) : Bool := c = 'e' || c = 'E'

/-- The digits behind the point, none if there is no point. -/
def fraction? : List Char → Option (List Char)
  | [] => some []
  | '.' :: cs => ungroup? Char.isDigit cs
  | _ => none

/-- Whether a text without its sign is a number with a fraction, an exponent or both. -/
def isUnsignedFloat (negative : Bool) (cs : List Char) : Bool :=
  let mantissa := cs.takeWhile fun c => !isExponentMark c
  let whole := mantissa.takeWhile (· ≠ '.')
  let shift := match cs.dropWhile fun c => !isExponentMark c with
    | _ :: cs => exponent? cs
    | [] => if mantissa.contains '.' then some 0 else none
  match decimalDigits? whole, fraction? (mantissa.dropWhile (· ≠ '.')), shift with
  | some whole, some fraction, some shift =>
    negative || !roundsToInfinity (whole ++ fraction) (shift - fraction.length)
  | _, _, _ => false

/-- Whether a word is a number with a fraction or an exponent, or one of the special ones. -/
def isFloat (word : List Char) : Bool :=
  let (negative, cs) := splitSign word
  cs = "inf".toList || cs = "nan".toList || isUnsignedFloat negative cs

end MasternodePayments.SettingsFile
