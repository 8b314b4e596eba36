import MasternodePayments.SettingsFile.Reader

/-!
# Settings files

A settings file consists of lines, though a value may run over several of them. `Line.all?` reads
them and `Draft.add?` says what each contributes; `Table.ofText?` is the whole.
-/

namespace MasternodePayments.SettingsFile

open Scanner

inductive Line where
  | blank
  /-- The entries that follow lie in this table. -/
  | heading (key : Key)
  /-- The entries that follow lie in a further row of this list of tables. -/
  | row (key : Key)
  | entry (key : Key) (v : Value)

namespace Line

/-- A line with nothing on it but a comment. -/
def ofBlank : Scanner Line := do
  lineEnd
  return blank

/-- A key between brackets. -/
def ofHeading : Scanner Line := do
  if ← accepts ['[', '['] then
    let k ← key
    accept [']', ']']
    lineEnd
    return row k
  else
    accept ['[']
    let k ← key
    accept [']']
    lineEnd
    return heading k

def ofEntry : Scanner Line := do
  let (k, v) ← SettingsFile.entry (value (depthLimit - 1))
  lineEnd
  return entry k v

def scan : Scanner Line := do
  blanks
  ofBlank <|> ofHeading <|> ofEntry

/-- A text without the mark that may stand in front of it for the order of its bytes. -/
def withoutMark : List Char → List Char
  | '\uFEFF' :: cs => cs
  | cs => cs

def all? (text : String) : Option (List Line) :=
  match (many scan).run (withoutMark text.toList) with
  | some (lines, []) => some lines
  | _ => none

end Line

/-- The table so far, and where entries go. -/
structure Draft where
  root : Table := []
  current : List String := []

/-- The table and the place after a further line. -/
def Draft.add? (d : Draft) : Line → Option Draft
  | .blank => some d
  | .heading key => (d.root.open? key.path key.last).map fun t => ⟨t, key.parts⟩
  | .row key => (d.root.addRow? key.path key.last).map fun t => ⟨t, key.parts⟩
  | .entry key v =>
    let change (_ : Origin) (t : Table) : Option Table := t.insert? key.path key.last v
    (Table.alter? false change d.current .heading d.root).map fun t => { d with root := t }

/-- The table that the text of a settings file stands for. -/
def Table.ofText? (text : String) : Option Table := do
  let lines ← Line.all? text
  let draft ← lines.foldlM Draft.add? {}
  return draft.root

end MasternodePayments.SettingsFile
