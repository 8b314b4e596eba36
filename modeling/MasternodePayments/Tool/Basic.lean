import MasternodePayments.Report.Basic
import MasternodePayments.Snapshot.Store
import MasternodePayments.Tool.Settings

/-!
# The snapshot tool

The tool prints a report on a snapshot file, verifies one, or writes one again, possibly elsewhere
or for another network. For that it loads the snapshot into a node without a chain or a registry,
which drops nothing. What it writes goes to a temporary file first, which then takes the place of
the other one.

`run` is the whole tool as a function on a `Disk`; a failure is a chain of causes, outermost first,
and leaves the disk as it was.
-/

namespace MasternodePayments.Tool

inductive Command where
  /-- Prints a report on the newest `last` heights, or on all. -/
  | inspect (last : Option Nat)
  | verify
  /-- Writes the snapshot again: into the directory `output`, for the network `toNetwork`. -/
  | resave (output toNetwork : Option String)
deriving DecidableEq

/-- A command with the settings that were given along with it. -/
structure Invocation where
  command : Command
  dataDir : Option String := none
  network : Option String := none
deriving DecidableEq

/-- Where the new content of a file is written before it takes the place of the old one: the file
`mnpayments.dat.new` beside `mnpayments.dat`. -/
def temporaryPath (path : String) : String := path ++ ".new"

/-- The contents of files by the place where they are. -/
@[ext]
structure Disk where
  workingDirectory : String
  files : Std.ExtTreeMap (List String) Bytes := ∅

namespace Disk

/-- What stands between the slashes of a path. -/
def parts (path : String) : List String := (path.toList.splitOn '/').map String.ofList

/-- Where a further part of a path leads: an empty one and `.` lead nowhere else, and `..` leads
up. -/
def descend (place : List String) (part : String) : List String :=
  if part = "" ∨ part = "." then place
  else if part = ".." then place.dropLast
  else place ++ [part]

/-- Where a path leads: the one way there from the root without detours. -/
def place (d : Disk) (path : String) : List String :=
  let steps := parts path
  (if steps.head? = some "" then steps else parts d.workingDirectory ++ steps).foldl descend []

def content (d : Disk) (path : String) : Option Bytes := d.files[d.place path]?

/-- Writes a file from its start, as a new one or over what it holds. -/
def write (d : Disk) (path : String) (content : Bytes) : Disk :=
  { d with files := d.files.insert (d.place path) content }

/-- Moves a file, onto another one if there is one; where there is none to move, nothing is done. -/
def rename (d : Disk) (source target : String) : Disk :=
  match d.content source with
  | some content => { d with files := d.files.erase (d.place source) }.write target content
  | none => d

/-- Writes a temporary file and moves it onto the file that is to have the content. -/
def replace (d : Disk) (path : String) (content : Bytes) : Disk :=
  (d.write (temporaryPath path) content).rename (temporaryPath path) path

def ofList (workingDirectory : String) (files : List (String × Bytes)) : Disk :=
  files.foldl (fun d (path, content) => d.write path content) ⟨workingDirectory, ∅⟩

end Disk

/-- Causes of a failure, outermost first. -/
abbrev Failure := List String

/-- What a failure is reported as: the outermost cause, then the others, counted if there are
several. -/
def Failure.message : Failure → String
  | [] => ""
  | [cause] => cause
  | [cause, inner] => cause ++ "\n\nCaused by:\n    " ++ inner
  | cause :: inner =>
    cause ++ "\n\nCaused by:" ++
      String.join (inner.zipIdx.map fun (c, i) => "\n    " ++ toString i ++ ": " ++ c)

def fileName : String := "mnpayments.dat"

def joinPath (directory name : String) : String :=
  if directory.isEmpty then name
  else if directory.toList.getLast? = some '/' then directory ++ name
  else directory ++ "/" ++ name

def storeIn (directory : String) (network : Network) : Store :=
  ⟨joinPath directory fileName, { network := network.magic }⟩

/-- What was given along with the command goes before the settings. -/
def Settings.override (s : Settings) (i : Invocation) : Settings :=
  ⟨i.dataDir.getD s.dataDir, i.network.getD s.network⟩

def findNetwork (name : String) : Except Failure Network :=
  match Network.byName? name with
  | some network => .ok network
  | none => .error ["unknown network '" ++ name ++ "'"]

/-- The causes of a file failure: of a missing file also what the system said. -/
def causes (f : FileFailure) : Failure :=
  if f.isMissing then [f.message, missingFileMessage] else [f.message]

/-- Puts what was being done in front of the causes of a failure. -/
def during {α : Type} (activity : String) (r : Except FileFailure α) : Except Failure α :=
  r.mapError fun f => activity :: causes f

def inspect (store : Store) (d : Disk) (last : Option Nat) : Except Failure String := do
  let snapshot ← during ("reading " ++ store.path) (store.read (d.content store.path))
  pure ((snapshot.report last).document.render ++ "\n")

def verify (store : Store) (d : Disk) : Except Failure String :=
  match store.read (d.content store.path) with
  | .ok snapshot => .ok (store.path ++ ": ok (" ++ snapshot.summary ++ ")\n")
  | .error f => .error [store.path ++ ": " ++ f.message]

/-- A node without a chain, a registry or peers: it holds a snapshot and drops nothing from it. -/
def offlineNode (network : Network) : Node where
  setting :=
    { config := { network := network }
      chain := { blockValue := 0 }
      schedule := { shares := [] } }

def resave (settings : Settings) (network : Network) (d : Disk)
    (output toNetwork : Option String) : Except Failure Disk := do
  let source := storeIn settings.dataDir network
  let (node, outcome) := source.restore (d.content source.path) (offlineNode network)
  during ("loading " ++ source.path) outcome
  let targetNetwork ← match toNetwork with
    | some name => findNetwork name
    | none => pure network
  let target := storeIn (output.getD settings.dataDir) targetNetwork
  let written ← during ("writing " ++ target.path)
    (target.dump (d.content target.path) node.ledger.snapshot)
  pure (d.replace target.path written)

/-- The files that a command may read or change, given the settings of its settings file. -/
def paths (settings : Settings) (i : Invocation) : List String :=
  let directory := (settings.override i).dataDir
  let source := joinPath directory fileName
  match i.command with
  | .resave output _ =>
    let target := joinPath (output.getD directory) fileName
    [source, target, temporaryPath target].eraseDups
  | _ => [source]

/-- Runs the tool: what it prints, and the disk afterwards. -/
def run (settings : Settings) (i : Invocation) (d : Disk) : Except Failure (String × Disk) := do
  let settings := settings.override i
  let network ← findNetwork settings.network
  match i.command with
  | .inspect last =>
    let printed ← inspect (storeIn settings.dataDir network) d last
    pure (printed, d)
  | .verify =>
    let printed ← verify (storeIn settings.dataDir network) d
    pure (printed, d)
  | .resave output toNetwork =>
    let after ← resave settings network d output toNetwork
    pure ("", after)

end MasternodePayments.Tool
