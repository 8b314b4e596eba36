/-!
# Dates and times

A moment is a date, a time of day, or both with a `T` or a space between them and, if need be, an
offset behind. Days have to exist in their month, and a minute may have a second 60.
-/

namespace MasternodePayments.SettingsFile.Moment

/-- The number at the front of a text that takes exactly so many digits, and what follows. -/
def digits? (count : Nat) (cs : List Char) : Option (Nat × List Char) :=
  let digits := cs.take count
  if digits.length = count ∧ digits.all Char.isDigit then
    some (digits.foldl (fun n c => 10 * n + (c.toNat - '0'.toNat)) 0, cs.drop count)
  else none

/-- What follows a number of two digits that lies in a range. -/
def after? (least greatest : Nat) (cs : List Char) : Option (List Char) := do
  let (n, rest) ← digits? 2 cs
  if least ≤ n ∧ n ≤ greatest then some rest else none

def afterChar? (expected : Char) : List Char → Option (List Char)
  | c :: rest => if c = expected then some rest else none
  | [] => none

def isLeap (year : Nat) : Bool := year % 4 = 0 && (year % 100 ≠ 0 || year % 400 = 0)

def daysIn (year month : Nat) : Nat :=
  if month = 2 then (if isLeap year then 29 else 28)
  else if [4, 6, 9, 11].contains month then 30
  else 31

def afterDate? (cs : List Char) : Option (List Char) := do
  let (year, rest) ← digits? 4 cs
  let (month, rest) ← digits? 2 (← afterChar? '-' rest)
  if 1 ≤ month ∧ month ≤ 12 then after? 1 (daysIn year month) (← afterChar? '-' rest) else none

/-- What follows an hour and a minute. -/
def afterMinute? (cs : List Char) : Option (List Char) := do
  after? 0 59 (← afterChar? ':' (← after? 0 23 cs))

def afterTime? (cs : List Char) : Option (List Char) := do
  let rest ← after? 0 60 (← afterChar? ':' (← afterMinute? cs))
  match rest with
  | '.' :: fraction =>
    if (fraction.takeWhile Char.isDigit).isEmpty then none
    else some (fraction.dropWhile Char.isDigit)
  | _ => some rest

def isOffset : List Char → Bool
  | ['Z'] => true
  | ['z'] => true
  | '+' :: cs => afterMinute? cs = some []
  | '-' :: cs => afterMinute? cs = some []
  | _ => false

/-- Whether a text is a time of day, with an offset behind it or not. -/
def isTimeWithOffset (cs : List Char) : Bool :=
  match afterTime? cs with
  | some rest => rest.isEmpty || isOffset rest
  | none => false

def isDate (cs : List Char) : Bool := afterDate? cs = some []

def isMoment (cs : List Char) : Bool :=
  match afterDate? cs with
  | some [] => true
  | some (c :: rest) => (c = 'T' || c = 't' || c = ' ') && isTimeWithOffset rest
  | none => afterTime? cs = some []

end MasternodePayments.SettingsFile.Moment
