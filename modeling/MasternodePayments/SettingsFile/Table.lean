/-!
# Values and tables

A settings file is a table of values, some of which are tables again. It matters how a table came
about: one with a heading of its own cannot get a second heading, one that arose from a point in a
key cannot get a heading at all, and one that is written out as a value is complete.

`Table.insert?`, `Table.open?` and `Table.addRow?` say what each line of a file adds.
-/

namespace MasternodePayments.SettingsFile

/-- How a table came about. -/
inductive Origin where
  /-- It has a heading, or is the whole file or a row of a list of tables. -/
  | heading
  /-- The heading of another table lies below it. -/
  | implied
  /-- A key with a point lies in it. -/
  | dotted
  /-- It is written out as a value. -/
  | complete
deriving DecidableEq, Repr

/-- A value. Of numbers with a fraction and of moments nothing is kept. -/
inductive Value where
  | text (s : String)
  | integer (n : Int)
  | float
  | boolean (b : Bool)
  | moment
  | list (items : List Value)
  /-- Rows that were added one by one, each by a heading. -/
  | rows (tables : List (List (String × Value)))
  | table (origin : Origin) (entries : List (String × Value))

abbrev Table := List (String × Value)

namespace Table

def get? (t : Table) (key : String) : Option Value := t.lookup key

/-- The table with another value for a key that it has. -/
def replace (t : Table) (key : String) (v : Value) : Table :=
  t.map fun entry => if entry.1 = key then (key, v) else entry

/-- The table with a value for a key that it does not have. -/
def add (t : Table) (key : String) (v : Value) : Table := t ++ [(key, v)]

/-- Changes the table at a path, which is made up of keys with points between them if `dotted`, or
else of headings. Tables that are missing arise on the way, and a path leads into the last row of a
list of tables. There is no way into complete tables nor, by points, into tables with a heading. -/
def alter? (dotted : Bool) (change : Origin → Table → Option Table) :
    List String → Origin → Table → Option Table
  | [], origin, t => change origin t
  | key :: path, _, t =>
    match t.get? key with
    | none => do
      let origin := if dotted then .dotted else .implied
      let inner ← alter? dotted change path origin []
      some (t.add key (.table origin inner))
    | some (.table origin inner) =>
      if origin = .complete ∨ (dotted ∧ origin = .heading) then none
      else do
        let inner ← alter? dotted change path origin inner
        some (t.replace key (.table origin inner))
    | some (.rows tables) => do
      let last ← tables.getLast?
      let last ← alter? dotted change path .heading last
      some (t.replace key (.rows (tables.dropLast ++ [last])))
    | some _ => none

/-- The table with a value for a dotted key. A key without points goes into every table, one with
points only into a table that arose from such a key. -/
def insert? (t : Table) (path : List String) (key : String) (v : Value) : Option Table :=
  let change (origin : Origin) (inner : Table) : Option Table :=
    if (inner.get? key).isSome ∨ (path ≠ [] ∧ origin ≠ .dotted) then none
    else some (inner.add key v)
  alter? true change path .heading t

/-- The table after a heading: a new table, or one that was only implied so far. -/
def open? (t : Table) (path : List String) (key : String) : Option Table :=
  let change (_ : Origin) (parent : Table) : Option Table :=
    match parent.get? key with
    | none => some (parent.add key (.table .heading []))
    | some (.table .implied inner) => some (parent.replace key (.table .heading inner))
    | some _ => none
  alter? false change path .heading t

/-- The table after the heading of a further row. -/
def addRow? (t : Table) (path : List String) (key : String) : Option Table :=
  let change (_ : Origin) (parent : Table) : Option Table :=
    match parent.get? key with
    | none => some (parent.add key (.rows [[]]))
    | some (.rows tables) => some (parent.replace key (.rows (tables ++ [[]])))
    | some _ => none
  alter? false change path .heading t

end Table
end MasternodePayments.SettingsFile
