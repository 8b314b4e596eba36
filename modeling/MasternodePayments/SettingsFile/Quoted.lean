import MasternodePayments.Bytes.Hex
import MasternodePayments.SettingsFile.Scanner

/-!
# Texts in quotes

A text stands between double quotes, where a backslash starts an escape, or between single quotes,
where every character stands for itself. Between three quotes on each side a text may run over
several lines; a line end right after the opening quotes is left out, up to two quotes in a row
belong to the text, and so do up to two more in front of the closing ones.
-/

namespace MasternodePayments.SettingsFile.Quoted

open Scanner

def double : Char := '\x22'

def single : Char := '\x27'

/-- A character that stands for itself between single quotes. -/
def isLiteral (c : Char) : Bool := isPrintable c && c != single

/-- A character that stands for itself between double quotes. -/
def isPlain (c : Char) : Bool := isPrintable c && c != double && c != '\\'

/-- The character with a code; codes of surrogates and codes that are too large have none. -/
def charOfCode? (n : Nat) : Option Char :=
  if n.isValidChar then some (Char.ofNat n) else none

/-- The character whose code is given by so many hexadecimal digits. -/
def code (digits : Nat) : Scanner Char := do
  let cs ← get
  let code ← (cs.take digits).foldlM (fun n c => (digitValue? c).map (16 * n + ·)) 0
  if cs.length < digits then failure
  set (cs.drop digits)
  charOfCode? code

def escaped : Scanner Char := do
  match ← char fun _ => true with
  | 'b' => return '\x08'
  | 't' => return '\t'
  | 'n' => return '\n'
  | 'f' => return '\x0c'
  | 'r' => return '\r'
  | '\x22' => return double
  | '\\' => return '\\'
  | 'u' => code 4
  | 'U' => code 8
  | _ => failure

/-- Text between double quotes: characters that stand for themselves, or an escape. -/
def plainPiece : Scanner (List Char) := do
  if ← accepts ['\\'] then return [← escaped] else takeSome isPlain

def literalPiece : Scanner (List Char) := takeSome isLiteral

/-- A backslash at the end of a line, which takes the blanks and line ends after it along. -/
def continuation : Scanner (List Char) := do
  accept ['\\']
  blanks
  newline
  let _ ← many (newline <|> discard (char isBlank))
  return []

def lineBreak : Scanner (List Char) := do
  newline
  return ['\n']

/-- One or two quotes inside a text that is enclosed by three. -/
def fewQuotes (quote : Char) : Scanner (List Char) := do
  let quotes ← takeWhile (· = quote)
  if 1 ≤ quotes.length ∧ quotes.length ≤ 2 then return quotes else failure

/-- The closing quotes of a text that is enclosed by three, with those that belong to the text. -/
def closingQuotes (quote : Char) : Scanner (List Char) := do
  let quotes ← takeWhile (· = quote)
  if 3 ≤ quotes.length ∧ quotes.length ≤ 5 then return quotes.drop 3 else failure

/-- The rest of a text that is enclosed by one quote on each side. -/
def short (quote : Char) (piece : Scanner (List Char)) : Scanner (List Char) := do
  let pieces ← many piece
  accept [quote]
  return pieces.flatten

/-- The rest of a text that is enclosed by three quotes on each side. -/
def long (quote : Char) (piece : Scanner (List Char)) : Scanner (List Char) := do
  newline <|> pure ()
  let pieces ← many (piece <|> lineBreak <|> fewQuotes quote)
  let last ← closingQuotes quote
  return pieces.flatten ++ last

def line : Scanner String := do
  if ← accepts [double] then return String.ofList (← short double plainPiece)
  else
    accept [single]
    return String.ofList (← short single literalPiece)

def text : Scanner String := do
  if ← accepts [double, double, double] then
    return String.ofList (← long double (continuation <|> plainPiece))
  else if ← accepts [single, single, single] then
    return String.ofList (← long single literalPiece)
  else line

end MasternodePayments.SettingsFile.Quoted
