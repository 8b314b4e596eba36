import MasternodePayments.Tool.Basic

/-!
# The command line

Options stand before the command or after it; those of a command stand after it. The value of an
option is the next argument or stands in the same one, after `=`.
-/

namespace MasternodePayments.Tool

structure CommandLine where
  invocation : Invocation
  /-- The path of the settings file. -/
  settingsPath : Option String := none
deriving DecidableEq

inductive UsageError where
  | noCommand
  | unexpected (argument : String)
  | missingValue (option : String)
  | repeated (option : String)
  | notANumber (text : String)
deriving DecidableEq, Repr

def UsageError.message : UsageError → String
  | noCommand => "a command is needed: inspect, verify or rewrite"
  | unexpected argument => "unexpected argument '" ++ argument ++ "'"
  | missingValue option => "a value is needed for '" ++ option ++ "'"
  | repeated option => "'" ++ option ++ "' cannot be used more than once"
  | notANumber text => "invalid number '" ++ text ++ "'"

namespace CommandLine

inductive Verb where
  | inspect
  | verify
  | resave
deriving DecidableEq, Repr

def Verb.ofName? : String → Option Verb
  | "inspect" => some .inspect
  | "verify" => some .verify
  | "rewrite" => some .resave
  | _ => none

/-- The options that stand before a command or after it. -/
def commonOptions : List String :=
  ["--data-dir", "--network", "--config", "--log-level", "--log-file"]

def Verb.options : Verb → List String
  | inspect => ["--last"]
  | verify => []
  | resave => ["--output", "--to-network"]

def fullName : String → String
  | "-d" => "--data-dir"
  | "-l" => "--log-level"
  | name => name

/-- The parts of an argument before and after the first `=`. -/
def splitValue (argument : String) : String × Option String :=
  let cs := argument.toList
  match cs.dropWhile (· ≠ '=') with
  | _ :: value => (String.ofList (cs.takeWhile (· ≠ '=')), some (String.ofList value))
  | [] => (argument, none)

/-- The command and the options that were found so far. -/
structure Found where
  verb : Option Verb := none
  options : List (String × String) := []

def Found.add (f : Found) (name value : String) : Except UsageError Found :=
  if f.options.any (·.1 = name) then .error (.repeated name)
  else .ok { f with options := f.options ++ [(name, value)] }

def Found.option? (f : Found) (name : String) : Option String :=
  (f.options.find? (·.1 = name)).map (·.2)

def Found.allows (f : Found) (name : String) : Bool :=
  commonOptions.contains name ||
    match f.verb with
    | some verb => verb.options.contains name
    | none => false

def collect (f : Found) : List String → Except UsageError Found
  | [] => .ok f
  | argument :: rest =>
    match splitValue argument with
    | (name, some value) =>
      if f.allows (fullName name) then do collect (← f.add (fullName name) value) rest
      else .error (.unexpected argument)
    | (name, none) =>
      if f.allows (fullName name) then
        match rest with
        | value :: rest => do collect (← f.add (fullName name) value) rest
        | [] => .error (.missingValue name)
      else
        match f.verb, Verb.ofName? argument with
        | none, some verb => collect { f with verb := some verb } rest
        | _, _ => .error (.unexpected argument)

/-- The number below `2 ^ 64` that digits stand for, with or without a plus sign in front. -/
def number? (text : String) : Option Nat :=
  let digits : List Char := match text.toList with
    | '+' :: cs => cs
    | cs => cs
  let n := digits.foldl (fun n c => 10 * n + (c.toNat - '0'.toNat)) 0
  if digits ≠ [] ∧ digits.all Char.isDigit ∧ n < UInt64.size then some n else none

/-- The command that was found, with its options. -/
def Found.command (f : Found) : Except UsageError Command :=
  match f.verb with
  | none => .error .noCommand
  | some .verify => .ok .verify
  | some .resave => .ok (.resave (f.option? "--output") (f.option? "--to-network"))
  | some .inspect =>
    match f.option? "--last" with
    | none => .ok (.inspect none)
    | some text =>
      match number? text with
      | some n => .ok (.inspect (some n))
      | none => .error (.notANumber text)

def ofArguments (arguments : List String) : Except UsageError CommandLine := do
  let found ← collect {} arguments
  let command ← found.command
  pure ⟨⟨command, found.option? "--data-dir", found.option? "--network"⟩, found.option? "--config"⟩

end CommandLine
end MasternodePayments.Tool
