import LineageLoad.Text.Natural

/-!
Log levels and log formats, and the texts they are read from.
-/

namespace LineageLoad

/-- How much is logged: everything up to a severity, or nothing. -/
inductive LogLevel where
  | off
  | error
  | warn
  | info
  | debug
  | trace
  deriving DecidableEq, Repr, Inhabited

namespace LogLevel

/-- All levels, from the one that logs least. -/
def all : List LogLevel := [off, error, warn, info, debug, trace]

/-- The name of a level. -/
def label : LogLevel → String
  | off => "off"
  | error => "error"
  | warn => "warn"
  | info => "info"
  | debug => "debug"
  | trace => "trace"

/-- Whether messages of the second level are logged under the first one. -/
def admits (limit level : LogLevel) : Bool := all.idxOf level ≤ all.idxOf limit

/-- A text with all ASCII letters in lower case. -/
def lowerCase (text : String) : String := text.map Char.toLower

/-- Reads a level: its name in any case, its number from 0 for the one that logs least, or nothing
at all for errors.
-/
def parse? (text : String) : Option LogLevel :=
  match Text.decimalNatural? text with
  | some number => all[number]?
  | none => if text = "" then some error else all.find? (·.label == lowerCase text)

end LogLevel

/-- How log lines look. -/
inductive LogFormat where
  | auto
  | pretty
  | simplified
  deriving DecidableEq, Repr, Inhabited

namespace LogFormat

def all : List LogFormat := [auto, pretty, simplified]

/-- The name of a format. -/
def label : LogFormat → String
  | auto => "auto"
  | pretty => "pretty"
  | simplified => "simplified"

/-- Reads a format: its name in any case, or nothing at all for the automatic choice. -/
def parse? (text : String) : Option LogFormat :=
  if text = "" then some auto else all.find? (·.label == LogLevel.lowerCase text)

def parseMessage (text : String) : String :=
  "error parsing \"" ++ text
    ++ "\" as format: expected one of \"auto\", \"pretty\", \"simplified\""

end LogFormat

/-- The settings of logging. -/
structure Logging where
  level : LogLevel := .info
  format : LogFormat := .auto
  deriving DecidableEq, Repr, Inhabited

end LineageLoad
