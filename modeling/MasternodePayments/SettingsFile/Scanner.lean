/-!
# Scanning text

A `Scanner` takes something off the front of a list of characters, or fails and takes nothing.
`Scanner.many` repeats one as long as it succeeds and takes something, so it always ends.

Lines end with a line feed, which a carriage return may precede; a carriage return anywhere else is
no character of a settings file, and neither are the control characters other than the tab.
-/

namespace MasternodePayments.SettingsFile

/-- Takes something off the front of a text. -/
abbrev Scanner := StateT (List Char) Option

namespace Scanner

variable {α : Type}

/-- The next character, which is left where it is. -/
def next? : Scanner (Option Char) := do
  return (← get).head?

def char (p : Char → Bool) : Scanner Char := do
  match ← get with
  | c :: cs =>
    if p c then
      set cs
      return c
    else failure
  | [] => failure

def takeWhile (p : Char → Bool) : Scanner (List Char) := do
  let cs ← get
  set (cs.dropWhile p)
  return cs.takeWhile p

/-- As many characters of some kind as there are, at least one. -/
def takeSome (p : Char → Bool) : Scanner (List Char) := do
  let cs ← takeWhile p
  if cs.isEmpty then failure else return cs

def accept (expected : List Char) : Scanner Unit := do
  let cs ← get
  if expected.isPrefixOf cs then set (cs.drop expected.length) else failure

/-- Exactly these characters if they come next; says whether they did. -/
def accepts (expected : List Char) : Scanner Bool := do
  let cs ← get
  if expected.isPrefixOf cs then
    set (cs.drop expected.length)
    return true
  else return false

/-- Repeats a scanner on a text, after results that are collected last first. -/
def manyAfter (item : Scanner α) (before : List α) (cs : List Char) : List α × List Char :=
  match item.run cs with
  | some (a, rest) =>
    if rest.length < cs.length then manyAfter item (a :: before) rest else (before.reverse, cs)
  | none => (before.reverse, cs)
termination_by cs.length

/-- Repeats a scanner for as long as it succeeds and takes something. -/
def many (item : Scanner α) : Scanner (List α) := do
  let (results, rest) := manyAfter item [] (← get)
  set rest
  return results

/-- Several results of a scanner, at least one, with a character between each two. -/
def separatedBy (separator : Char) (item : Scanner α) : Scanner (List α) := do
  let first ← item
  let others ← many do
    accept [separator]
    item
  return first :: others

/-! ## Blanks and lines -/

def isBlank (c : Char) : Bool := c = ' ' || c = '\t'

/-- What may stand in a comment: everything but control characters, and the tab. -/
def isPrintable (c : Char) : Bool := c = '\t' || (decide (' ' ≤ c) && c != '\x7f')

def blanks : Scanner Unit := do
  let _ ← takeWhile isBlank

/-- The end of a line that is not the last. -/
def newline : Scanner Unit := do
  match ← get with
  | '\n' :: cs => set cs
  | '\r' :: '\n' :: cs => set cs
  | _ => failure

/-- A comment up to the end of its line, if there is one. -/
def comment : Scanner Unit := do
  if ← accepts ['#'] then
    let _ ← takeWhile isPrintable

/-- The rest of a line, without anything in it but a comment. -/
def lineEnd : Scanner Unit := do
  blanks
  comment
  match ← next? with
  | none => return
  | some _ => newline

/-- Blanks, comments and ends of lines, if there are any. -/
def gaps : Scanner Unit := do
  blanks
  let _ ← many do
    comment
    newline
    blanks

end Scanner
end MasternodePayments.SettingsFile
