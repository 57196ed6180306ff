import ScopeSelectors.Log
import ScopeSelectors.Selector.Error
import ScopeSelectors.Text.Case
/-!
# Command-line configuration

The command-line program is configured by a log level and an output format.
Both are read first from the environment variables `SCOPE_MATCH_LOG_LEVEL` and
`SCOPE_MATCH_FORMAT`, in that order, and then overridden by the options
`--log-level` and `--format`.  Without either, the level is `warn` and the
format is text.

Names are compared case-insensitively and are not trimmed; `warning` is a
second name of `warn`.  A name that is not known is an `invalidConfig` error
that quotes the text as given.  The errors of the program's commands are here
too, each with its message (`CommandError.message`).
-/

namespace ScopeSelectors

/-- How the program writes its results. -/
inductive OutputFormat where
  /-- Lines of text. -/
  | text
  /-- Indented JSON. -/
  | json
  deriving DecidableEq, Repr

/-- The format as configuration names it. -/
def OutputFormat.name : OutputFormat → String
  | .text => "text"
  | .json => "json"

/-- Why a configuration value was refused. -/
inductive ConfigFault where
  /-- Not a log level. -/
  | unknownLevel (given : String)
  /-- Not an output format. -/
  | unknownFormat (given : String)
  deriving DecidableEq, Repr

/-- What the configuration fault says. -/
def ConfigFault.detail : ConfigFault → String
  | .unknownLevel s =>
    "unknown log level '" ++ s ++ "', expected one of: trace, debug, info, warn, error"
  | .unknownFormat s => "unknown output format '" ++ s ++ "', expected one of: text, json"

/-- An error of the command-line program. -/
inductive CommandError where
  /-- A configuration value was refused. -/
  | invalidConfig (fault : ConfigFault)
  /-- A rule argument has no `=`. -/
  | malformedRule (arg : String)
  /-- A selector given to evaluate does not parse. -/
  | selector (text : String) (source : ParseError)
  deriving DecidableEq, Repr

/-- The message of a command error. -/
def CommandError.message : CommandError → String
  | .invalidConfig f => "invalid configuration: " ++ f.detail
  | .malformedRule arg => "invalid rule `" ++ arg ++ "`: expected SELECTOR=VALUE"
  | .selector text e => "invalid selector `" ++ text ++ "`: " ++ e.message

/-- The message followed by the messages of the errors that caused it. -/
def CommandError.chain : CommandError → String
  | .selector text e => CommandError.message (.selector text e) ++ ": " ++ e.message
  | e => e.message

/-- The log level a name stands for. -/
def parseLevel (s : String) : Except CommandError Level :=
  if Text.lowersTo s "trace" then .ok .trace
  else if Text.lowersTo s "debug" then .ok .debug
  else if Text.lowersTo s "info" then .ok .info
  else if Text.lowersTo s "warn" || Text.lowersTo s "warning" then .ok .warn
  else if Text.lowersTo s "error" then .ok .error
  else .error (.invalidConfig (.unknownLevel s))

/-- The output format a name stands for. -/
def parseFormat (s : String) : Except CommandError OutputFormat :=
  if Text.lowersTo s "text" then .ok .text
  else if Text.lowersTo s "json" then .ok .json
  else .error (.invalidConfig (.unknownFormat s))

/-- The configuration of the program. -/
structure Config where
  /-- The least severe level of the records shown. -/
  level : Level := .warn
  /-- How results are written. -/
  format : OutputFormat := .text
  deriving DecidableEq, Repr

namespace Config

/-- The variable that sets the log level. -/
def levelVariable : String := "SCOPE_MATCH_LOG_LEVEL"

/-- The variable that sets the output format. -/
def formatVariable : String := "SCOPE_MATCH_FORMAT"

/-- The configuration read from variables: the level first, then the format. -/
def ofLookup (lookup : String → Option String) : Except CommandError Config := do
  let level ← match lookup levelVariable with
    | some s => parseLevel s
    | none => pure .warn
  let format ← match lookup formatVariable with
    | some s => parseFormat s
    | none => pure .text
  pure ⟨level, format⟩

/-- The configuration with the given overrides, where present. -/
def applyOverrides (c : Config) (level : Option Level) (format : Option OutputFormat) :
    Config :=
  ⟨level.getD c.level, format.getD c.format⟩

/-- The configuration with another log level. -/
def withLevel (c : Config) (level : Level) : Config := { c with level }

end Config

end ScopeSelectors
