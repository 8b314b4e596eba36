/-!
# Structured documents

A document is a value that is printed as JSON: fields stay in their order, every item and every
field stands on a line of its own, and each level is indented by two spaces.
-/

namespace MasternodePayments

inductive Document where
  | null
  | number (n : Nat)
  | text (s : String)
  | list (items : List Document)
  | record (fields : List (String × Document))

namespace Document

/-- A character inside quotes. -/
def escape (c : Char) : List Char :=
  if c = '"' then ['\\', '"']
  else if c = '\\' then ['\\', '\\']
  else if c = '\n' then ['\\', 'n']
  else if c = '\r' then ['\\', 'r']
  else if c = '\t' then ['\\', 't']
  else if c = '\x08' then ['\\', 'b']
  else if c = '\x0c' then ['\\', 'f']
  else if c.toNat < 32 then
    ['\\', 'u', '0', '0', Nat.digitChar (c.toNat / 16), Nat.digitChar (c.toNat % 16)]
  else [c]

def quote (s : String) : String := "\"" ++ String.ofList (s.toList.flatMap escape) ++ "\""

/-- Lines between brackets, or nothing between them if there are no lines. -/
def enclose (opening closing : String) (depth : Nat) (lines : List String) : String :=
  let indent := "\n" ++ String.ofList (List.replicate (2 * depth) ' ')
  match lines with
  | [] => opening ++ closing
  | _ :: _ =>
    opening ++ indent ++ "  " ++ (("," ++ indent ++ "  ").intercalate lines) ++ indent ++ closing

mutual
def renderAt (depth : Nat) : Document → String
  | null => "null"
  | number n => toString n
  | text s => quote s
  | list items => enclose "[" "]" depth (renderItems (depth + 1) items)
  | record fields => enclose "\x7b" "\x7d" depth (renderFields (depth + 1) fields)

def renderItems (depth : Nat) : List Document → List String
  | [] => []
  | d :: ds => renderAt depth d :: renderItems depth ds

def renderFields (depth : Nat) : List (String × Document) → List String
  | [] => []
  | (name, d) :: rest => (quote name ++ ": " ++ renderAt depth d) :: renderFields depth rest
end

def render (d : Document) : String := renderAt 0 d

/-- A number, or `null`. -/
def ofNumber? : Option Nat → Document
  | some n => number n
  | none => null

end Document
end MasternodePayments
