import MasternodePayments.Tool.Arguments

/-!
# The program

Reads the settings and the files that a command needs, runs the tool on them, prints what it has to
say and brings the files to where the command left them. A changed file is written by way of a new
one beside it.
-/

namespace MasternodePayments.Program

open Tool

def readFile? (path : String) : IO (Option ByteArray) := do
  try
    return some (← IO.FS.readBinFile path)
  catch
    | .noFileOrDirectory .. => return none
    | e => throw e

/-- The settings in a settings file. Where there is none, or none that is one, nothing is set. -/
def readSettings (path : Option String) : IO Settings := do
  let some path := path | return {}
  let some content ← readFile? path | return {}
  return ((String.fromUTF8? content).bind Settings.ofText?).getD {}

def readDisk (paths : List String) : IO Disk := do
  let files ← paths.filterMapM fun path => do
    return (← readFile? path).map fun content => (path, content.toList)
  return .ofList (← IO.currentDir).toString files

def replaceFile (path : String) (content : Bytes) : IO Unit := do
  IO.FS.writeBinFile (temporaryPath path) ⟨content.toArray⟩
  IO.FS.rename (temporaryPath path) path

/-- Removes the files that a command took away, and writes those whose content it changed. -/
def writeChanges (paths : List String) (before after : Disk) : IO Unit := do
  for path in paths do
    if (before.content path).isSome && (after.content path).isNone then IO.FS.removeFile path
  for path in paths do
    if let some content := after.content path then
      if before.content path ≠ some content then replaceFile path content

/-- Runs a command; gives the exit code. -/
def execute (c : CommandLine) : IO UInt32 := do
  let settings ← readSettings c.settingsPath
  let files := paths settings c.invocation
  let disk ← readDisk files
  match run settings c.invocation disk with
  | .ok (printed, after) =>
    writeChanges files disk after
    IO.print printed
    return 0
  | .error failure =>
    IO.eprintln ("Error: " ++ failure.message)
    return 1

end MasternodePayments.Program

def main (arguments : List String) : IO UInt32 := do
  match MasternodePayments.Tool.CommandLine.ofArguments arguments with
  | .ok commandLine =>
    try
      MasternodePayments.Program.execute commandLine
    catch e =>
      IO.eprintln ("Error: " ++ toString e)
      return 1
  | .error e =>
    IO.eprintln ("error: " ++ e.message)
    return 2
