import HealthRelay.Settings

/-!
# The command line

`beacond [OPTIONS] agent [OPTIONS]`. An option is taken in when the next one begins, so its faults
come to light there and not where it stands; the options of the command are read whole before those
in front of it are taken in.
-/

namespace HealthRelay

inductive LogFormat where
  | text
  | json
deriving DecidableEq, Repr

def LogFormat.ofWord? : String → Option LogFormat
  | "text" => some .text
  | "json" => some .json
  | _ => none

/-- The options that take a value. -/
inductive Flag where
  | logFormat
  | config
  | name
  | localAddr
  | externalAddr
  | apiKey
  | managementAddr
  | reportingInterval
deriving DecidableEq, Repr

namespace Flag

/-- The word of a flag, without its hyphens. -/
def word : Flag → String
  | .logFormat => "log-format"
  | .config => "config"
  | .name => "name"
  | .localAddr => "local-addr"
  | .externalAddr => "external-addr"
  | .apiKey => "api-key"
  | .managementAddr => "management-addr"
  | .reportingInterval => "reporting-interval"

/-- The word that stands for the value of a flag. -/
def placeholder (f : Flag) : String :=
  String.ofList (f.word.toList.map fun c => if c = '-' then '_' else c.toUpper)

def shown (f : Flag) : String := "--" ++ f.word ++ " <" ++ f.placeholder ++ ">"

/-- The flags of the agent command, in the order of its help. -/
def ofAgent : List Flag :=
  [.config, .logFormat, .name, .localAddr, .externalAddr, .apiKey, .managementAddr,
    .reportingInterval]

/-- The flags that may stand in front of a command. -/
def ofRoot : List Flag := [.logFormat]

example : shown .localAddr = "--local-addr <LOCAL_ADDR>" := by decide +kernel

end Flag

inductive UsageError where
  | unexpectedArgument (argument : String)
  | unrecognizedCommand (name : String)
  | missingCommand
  | missingValue (flag : Flag)
  | repeated (flag : Flag)
  | invalidValue (flag : Flag) (value : String)
  /-- A value for an option that takes none. -/
  | unexpectedValue (option value : String)
deriving DecidableEq, Repr

def programName : String := "beacond"

def UsageError.message : UsageError → String
  | .unexpectedArgument argument => "unexpected argument '" ++ argument ++ "' found"
  | .unrecognizedCommand name => "unrecognized subcommand '" ++ name ++ "'"
  | .missingCommand =>
    "'" ++ programName ++ "' requires a subcommand but one was not provided"
  | .missingValue flag =>
    "a value is required for '" ++ flag.shown ++ "' but none was supplied"
  | .repeated flag => "the argument '" ++ flag.shown ++ "' cannot be used multiple times"
  | .invalidValue flag value => "invalid value '" ++ value ++ "' for '" ++ flag.shown ++ "'"
  | .unexpectedValue option value =>
    "unexpected value '" ++ value ++ "' for '" ++ option ++ "' found; no more were expected"

inductive HelpTopic where
  | program
  | agent
  | help
deriving DecidableEq, Repr

/-- Why a command line names nothing to do. -/
inductive CommandLineStop where
  | help (topic : HelpTopic)
  | nothingGiven
  | wrong (error : UsageError)
deriving DecidableEq, Repr

/-- An agent to run. -/
structure Invocation where
  logFormat : LogFormat
  /-- The path of a configuration file. -/
  configPath : Option String
  /-- The settings given as flags; they win over those of the file. -/
  settings : Settings
deriving DecidableEq, Repr

namespace CommandLine

/-- What has been read on one level: the values taken in, and a flag that has not been taken in yet
with its value, if that has come. -/
structure Reading where
  values : List (Flag × String) := []
  pending : Option (Flag × Option String) := none
deriving DecidableEq, Repr

namespace Reading

def get? (r : Reading) (flag : Flag) : Option String := r.values.lookup flag

def wantsValue (r : Reading) : Bool :=
  match r.pending with
  | some (_, none) => true
  | _ => false

def checkValue (flag : Flag) (value : String) : Except UsageError Unit :=
  match flag with
  | .config => if value.isEmpty then .error (.missingValue flag) else .ok ()
  | .logFormat =>
    if value.isEmpty then .error (.missingValue flag)
    else if (LogFormat.ofWord? value).isNone then .error (.invalidValue flag value)
    else .ok ()
  | _ => .ok ()

def take (r : Reading) (flag : Flag) (value : String) : Except UsageError Reading :=
  if (r.get? flag).isSome then .error (.repeated flag)
  else (checkValue flag value).map fun () => { r with values := r.values ++ [(flag, value)] }

/-- Takes in what is pending. -/
def settle (r : Reading) : Except UsageError Reading :=
  match r.pending with
  | none => .ok r
  | some (flag, none) => .error (.missingValue flag)
  | some (flag, some value) => { r with pending := none }.take flag value

def give (r : Reading) (value : String) : Reading :=
  { r with pending := r.pending.map fun (flag, _) => (flag, some value) }

end Reading

/-- Where the reader is: in front of a command, or behind it. -/
inductive Place where
  | root
  | agent
deriving DecidableEq, Repr

def Place.flags : Place → List Flag
  | .root => Flag.ofRoot
  | .agent => Flag.ofAgent

def Place.topic : Place → HelpTopic
  | .root => .program
  | .agent => .agent

inductive Command where
  | agent
  | help
deriving DecidableEq, Repr

def Command.ofName? : String → Option Command
  | "agent" => some .agent
  | "help" => some .help
  | _ => none

/-- Lets a wrong command line stop the reading. -/
def orWrong {α : Type} : Except UsageError α → Except CommandLineStop α
  | .ok a => .ok a
  | .error e => .error (.wrong e)

/-- A long option: its word, and what follows an equals sign. -/
def splitLong (cs : List Char) : String × Option String :=
  let word := cs.takeWhile (· != '=')
  match cs.dropWhile (· != '=') with
  | _ :: value => (String.ofList word, some (String.ofList value))
  | [] => (String.ofList word, none)

def readLong (place : Place) (r : Reading) (cs : List Char) : Except CommandLineStop Reading :=
  let (word, value) := splitLong cs
  if word = "help" then
    match value with
    | some value => .error (.wrong (.unexpectedValue "--help" value))
    | none => (orWrong r.settle).bind fun _ => .error (.help place.topic)
  else
    match place.flags.find? fun flag => flag.word == word with
    | none => .error (.wrong (.unexpectedArgument ("--" ++ word)))
    | some flag =>
      (orWrong r.settle).bind fun r =>
        match value with
        | some value => orWrong (r.take flag value)
        | none => .ok { r with pending := some (flag, none) }

/-- Takes short options, given without their hyphen. Only the one for help exists. -/
def readShort (place : Place) (r : Reading) (c : Char) : Except CommandLineStop Reading :=
  if c = 'h' then (orWrong r.settle).bind fun _ => .error (.help place.topic)
  else .error (.wrong (.unexpectedArgument (String.ofList ['-', c])))

/-- An argument that stands for itself, where none is expected. -/
def stray (place : Place) (afterEscape : Bool) (argument : String) : UsageError :=
  match place with
  | .agent => .unexpectedArgument argument
  | .root =>
    if afterEscape && (Command.ofName? argument).isSome then .unexpectedArgument argument
    else .unrecognizedCommand argument

/-- Reads the arguments of one place, up to the command if one comes: the command, and the arguments
behind it. -/
def readPlace (place : Place) (escaped : Bool) (r : Reading) :
    List String → Except CommandLineStop (Reading × Option (Command × List String))
  | [] => .ok (r, none)
  | argument :: rest =>
    if escaped then .error (.wrong (stray place true argument))
    else
      let command :=
        if place = .root && !r.wantsValue then Command.ofName? argument else none
      match command, argument.toList with
      | some command, _ => .ok (r, some (command, rest))
      | none, ['-', '-'] => readPlace place true r rest
      | none, '-' :: '-' :: cs =>
        (readLong place r cs).bind fun r => readPlace place false r rest
      | none, '-' :: c :: _ =>
        (readShort place r c).bind fun r => readPlace place false r rest
      | none, _ =>
        if r.wantsValue then readPlace place false (r.give argument) rest
        else .error (.wrong (stray place false argument))

def readHelp : List String → CommandLineStop
  | [] => .help .program
  | name :: rest =>
    match Command.ofName? name, rest with
    | none, _ => .wrong (.unrecognizedCommand name)
    | some .agent, [] => .help .agent
    | some .help, [] => .help .help
    | some _, inner :: _ => .wrong (.unrecognizedCommand inner)

def settings (r : Reading) : Settings :=
  { agent := { name := r.get? .name, reportingInterval := r.get? .reportingInterval }
    server := {
      localAddr := r.get? .localAddr
      externalAddr := r.get? .externalAddr
      apiKey := r.get? .apiKey }
    management := { addr := r.get? .managementAddr } }

/-- The log format of both places, the one behind the command winning. -/
def logFormat (root agent : Reading) : LogFormat :=
  (((agent.get? .logFormat).or (root.get? .logFormat)).bind LogFormat.ofWord?).getD .text

def read (arguments : List String) : Except CommandLineStop Invocation := do
  let (root, command) ← readPlace .root false {} arguments
  match command with
  | some (.help, rest) => .error (readHelp rest)
  | some (.agent, rest) =>
    let (agent, _) ← readPlace .agent false {} rest
    let agent ← orWrong agent.settle
    let root ← orWrong root.settle
    .ok {
      logFormat := logFormat root agent
      configPath := agent.get? .config
      settings := settings agent }
  | none =>
    let root ← orWrong root.settle
    if root.values.isEmpty then .error .nothingGiven else .error (.wrong .missingCommand)

example : read [] = .error .nothingGiven := by cbv

example : read ["agent", "--name"] = .error (.wrong (.missingValue .name)) := by cbv

example : (read ["--log-format", "json", "agent", "--log-format=text"]).toOption.map (·.logFormat) =
    some .text := by decide +kernel

end CommandLine

end HealthRelay
