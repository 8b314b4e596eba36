import MasternodePayments.SettingsFile.Moment
import MasternodePayments.SettingsFile.Number
import MasternodePayments.SettingsFile.Quoted
import MasternodePayments.SettingsFile.Table

/-!
# Reading keys and values

A key is made up of words or texts in quotes with points between them. A value is a text in quotes,
a word, a list in brackets, which may run over several lines, or a table in braces, which stands on
one line.

Lists and tables are nested less than `depthLimit` deep, and a key has fewer parts than that.
-/

namespace MasternodePayments.SettingsFile

open Scanner

/-- The nesting that is too deep. -/
def depthLimit : Nat := 80

/-! ## Keys -/

/-- A key with points in it: where it leads, and the last part. -/
structure Key where
  path : List String
  last : String
deriving DecidableEq, Repr

namespace Key

def parts (key : Key) : List String := key.path ++ [key.last]

def ofParts (first : String) (others : List String) : Key :=
  ⟨(first :: others).dropLast, others.getLastD first⟩

end Key

/-- A character that a key may have without quotes. -/
def isKeyChar (c : Char) : Bool := c.isAlphanum || c = '_' || c = '-'

def keyPart : Scanner String := do
  let bare ← takeWhile isKeyChar
  if bare.isEmpty then Quoted.line else return String.ofList bare

def key : Scanner Key := do
  let parts ← separatedBy '.' do
    blanks
    let part ← keyPart
    blanks
    return part
  match parts with
  | first :: others =>
    if parts.length < depthLimit then return Key.ofParts first others else failure
  | [] => failure

/-! ## Words -/

/-- A character of a number, a moment or a truth value. -/
def isWordChar (c : Char) : Bool := c.isAlphanum || ['_', '-', '+', '.', ':'].contains c

def ofWord? (word : List Char) : Option Value :=
  if word = "true".toList then some (.boolean true)
  else if word = "false".toList then some (.boolean false)
  else if Moment.isMoment word then some .moment
  else if isFloat word then some .float
  else (integer? word).map .integer

/-- A time of day that a space separates from the date in front of it. -/
def spacedTime : Scanner (List Char) := do
  accept [' ']
  let time ← takeWhile isWordChar
  if time.head?.any Char.isDigit then return ' ' :: time else failure

/-- A value that is a single word. -/
def word : Scanner Value := do
  let first ← takeWhile isWordChar
  let time ← if Moment.isDate first then spacedTime <|> pure [] else pure []
  ofWord? (first ++ time)

/-! ## Values -/

/-- Values in brackets with a comma between each two, and maybe one behind the last. -/
def list (item : Scanner Value) : Scanner (List Value) := do
  let spaced : Scanner Value := do
    gaps
    let v ← item
    gaps
    return v
  accept ['[']
  let items ← separatedBy ',' spaced <|> pure []
  unless items.isEmpty do
    let _ ← accepts [',']
  gaps
  accept [']']
  return items

def entry (item : Scanner Value) : Scanner (Key × Value) := do
  let k ← key
  accept ['=']
  blanks
  let v ← item
  return (k, v)

/-- Keys and values in braces with a comma between each two. -/
def inlineTable (item : Scanner Value) : Scanner Table := do
  let spaced : Scanner (Key × Value) := do
    let e ← entry item
    blanks
    return e
  accept ['{']
  let entries ← separatedBy ',' spaced <|> pure []
  blanks
  accept ['}']
  entries.foldlM (fun t (k, v) => Table.insert? t k.path k.last v) ([] : Table)

/-- A value in which at most so many lists and tables lie around one another. -/
def value : Nat → Scanner Value
  | 0 => (Value.text <$> Quoted.text) <|> word
  | depth + 1 =>
    (Value.text <$> Quoted.text) <|> (Value.list <$> list (value depth)) <|>
      (Value.table .complete <$> inlineTable (value depth)) <|> word

end MasternodePayments.SettingsFile
