import LineageLoad.Text.Natural

/-!
The arguments of the command line: what they ask for, and why they are refused.
-/

namespace LineageLoad

/-- What the arguments of a run say. -/
structure Arguments where
  /-- The file of settings. -/
  config : Option String := none
  /-- The number of worker threads, in place of the one in the settings. -/
  threads : Option Nat := none
  deriving DecidableEq, Repr, Inhabited

/-- What an invocation asks for. -/
inductive Invocation where
  | help
  | run (arguments : Arguments)
  deriving DecidableEq, Repr, Inhabited

/-- Why arguments are refused. -/
inductive ArgumentError where
  | unrecognized (argument : String)
  | missingValue (option : String)
  | duplicate (option value : String)
  | notANumber (option value : String)
  | afterHelp
  deriving DecidableEq, Repr, Inhabited

def ArgumentError.message : ArgumentError → String
  | unrecognized argument => s!"Unrecognized argument: {argument}"
  | missingValue option => s!"No value provided for option '{option}'."
  | duplicate option value =>
    s!"Error parsing option '{option}' with value '{value}': duplicate values provided"
  | notANumber option value =>
    s!"Error parsing option '{option}' with value '{value}': invalid digit found in string"
  | afterHelp => "Trailing arguments are not allowed after `help`."

namespace Arguments

def usage : String :=
  "Usage: mlmd-bench [-c <config>] [-t <threads>] [--no-progress]\n\n"
    ++ "Synthetic load generator for metadata stores.\n\n"
    ++ "Options:\n"
    ++ "  -c, --config      path to the YAML configuration file\n"
    ++ "  -t, --threads     number of worker threads, overriding the configuration\n"
    ++ "  --no-progress     do not draw progress bars\n"
    ++ "  --help, help      display usage information"

def setConfig (option value : String) (arguments : Arguments) : Except ArgumentError Arguments :=
  if arguments.config.isSome then .error (.duplicate option value)
  else .ok { arguments with config := some value }

/-- Sets the number of threads, which has 64 bits. -/
def setThreads (option value : String) (arguments : Arguments) : Except ArgumentError Arguments :=
  if arguments.threads.isSome then .error (.duplicate option value)
  else match (Text.decimalNatural? value).filter (· < UInt64.size) with
    | some threads => .ok { arguments with threads := some threads }
    | none => .error (.notANumber option value)

def valueOptions
    : List (String × (String → String → Arguments → Except ArgumentError Arguments)) :=
  [("-c", setConfig), ("--config", setConfig), ("-t", setThreads), ("--threads", setThreads)]

/-- Reads arguments in order, after some that asked for help or set values. -/
def parseAfter (help : Bool) (arguments : Arguments)
    : List String → Except ArgumentError Invocation
  | [] => .ok (if help then .help else .run arguments)
  | "--help" :: rest => parseAfter true arguments rest
  | "help" :: rest => parseAfter true arguments rest
  | ["--"] => parseAfter help arguments []
  | "--" :: argument :: _ => .error (.unrecognized argument)
  | argument :: rest =>
    if !argument.startsWith "-" then .error (.unrecognized argument)
    else if help then .error .afterHelp
    else if argument = "--no-progress" then parseAfter help arguments rest
    else match valueOptions.lookup argument, rest with
      | none, _ => .error (.unrecognized argument)
      | some _, [] => .error (.missingValue argument)
      | some set, value :: rest => do
        parseAfter help (← set argument value arguments) rest

def parse (arguments : List String) : Except ArgumentError Invocation :=
  parseAfter false {} arguments

end Arguments

end LineageLoad
