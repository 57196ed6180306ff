/-!
# The command-line interface

The program `scope-match` takes global options, then one of the subcommands
`check`, `match`, `resolve` and `help`, then the subcommand's own arguments.
This module describes that interface as data: for each *scope* (the program
itself or one subcommand) the arguments it accepts, and the texts its help
shows.  Reading a command line (`Command.Args`) and writing help and usage
(`Command.Usage`) both work from this description.

An argument is an *option* written `--name value` or `--name=value` (or a
*flag* such as `-h`, which takes no value), or an *operand* given by position.
The global options `--log-level` and `--format` are accepted by every
subcommand but `help`.  Options without a display order of their own come
after the others (`Spec.order` 999).
-/

namespace ScopeSelectors

namespace Command

/-- The arguments the program knows. -/
inductive ArgId where
  /-- `--log-level`. -/
  | logLevel
  /-- `--format`. -/
  | format
  /-- `-h`, `--help`. -/
  | help
  /-- `-V`, `--version`. -/
  | version
  /-- The selectors of `check`. -/
  | selectors
  /-- The selector of `match`. -/
  | selector
  /-- `--path`. -/
  | path
  /-- `--rule`. -/
  | rule
  /-- The subcommand names after `help`. -/
  | topics
  deriving DecidableEq, Repr

/-- What an argument does when it is given. -/
inductive Action where
  /-- Takes a value, at most once. -/
  | set
  /-- Takes a value, as often as it is given. -/
  | append
  /-- Shows help. -/
  | help
  /-- Shows the version. -/
  | version
  deriving DecidableEq, Repr

/-- How an argument is written and read. -/
structure Spec where
  /-- Which argument. -/
  id : ArgId
  /-- Its long name, without the dashes. -/
  long : Option String := none
  /-- Its short name, without the dash. -/
  short : Option Char := none
  /-- The name of its value in help texts. -/
  valueName : String := ""
  /-- Its position among the operands, from 1, for an operand. -/
  index : Option Nat := none
  /-- What it does. -/
  action : Action := .set
  /-- Whether an operand takes all the values that follow it. -/
  multiple : Bool := false
  /-- Whether it must be given. -/
  required : Bool := false
  /-- Whether its values may start with `-`. -/
  allowHyphen : Bool := false
  /-- Its line of help. -/
  help : String
  /-- Its place among the options in help. -/
  order : Nat := 999
  deriving Repr

namespace Spec

/-- Whether the argument is an operand. -/
def isOperand (s : Spec) : Bool := s.index.isSome

/-- Whether the argument takes a value. -/
def takesValue (s : Spec) : Bool := s.action = .set || s.action = .append

/-- How help and errors name the argument: `--path <PATH>`, `--help`,
`<SELECTORS>...`, or `[COMMAND]...` for an operand that may be left out. -/
def display (s : Spec) : String :=
  match s.index with
  | some _ =>
    let name := if s.required then "<" ++ s.valueName ++ ">" else "[" ++ s.valueName ++ "]"
    if s.multiple then name ++ "..." else name
  | none =>
    let flag := match s.long, s.short with
      | some l, _ => "--" ++ l
      | none, some c => "-" ++ c.toString
      | none, none => ""
    if s.takesValue then flag ++ " <" ++ s.valueName ++ ">" else flag

end Spec

/-- `--log-level`, accepted by every subcommand but `help`. -/
def logLevelSpec : Spec :=
  { id := .logLevel, long := some "log-level", valueName := "LOG_LEVEL",
    help := "Log level (trace, debug, info, warn, error)", order := 0 }

/-- `--format`, accepted by every subcommand but `help`. -/
def formatSpec : Spec :=
  { id := .format, long := some "format", valueName := "FORMAT",
    help := "Output format (text, json)", order := 1 }

/-- `-h`, `--help`. -/
def helpSpec : Spec :=
  { id := .help, long := some "help", short := some 'h', action := .help, help := "Print help" }

/-- `-V`, `--version`, of the program only. -/
def versionSpec : Spec :=
  { id := .version, long := some "version", short := some 'V', action := .version,
    help := "Print version" }

/-- The program itself or one of its subcommands. -/
inductive Scope where
  /-- The program. -/
  | program
  /-- `check`. -/
  | check
  /-- `match`. -/
  | evaluate
  /-- `resolve`. -/
  | resolve
  /-- `help`. -/
  | help
  deriving DecidableEq, Repr

namespace Scope

/-- The program's name. -/
def programName : String := "scope-match"

/-- The program's version. -/
def version : String := "0.1.0"

/-- The name a subcommand is given by. -/
def name : Scope → String
  | .program => programName
  | .check => "check"
  | .evaluate => "match"
  | .resolve => "resolve"
  | .help => "help"

/-- The subcommands, in the order help lists them. -/
def subcommands : Scope → List Scope
  | .program => [.check, .evaluate, .resolve, .help]
  | _ => []

/-- The subcommand of this scope called `s`, if there is one. -/
def find? (scope : Scope) (s : String) : Option Scope :=
  scope.subcommands.find? fun sub => sub.name == s

/-- How usage lines name the scope. -/
def usageName : Scope → String
  | .program => programName
  | s => programName ++ " " ++ s.name

/-- The line help gives first. -/
def about : Scope → String
  | .program => "Command-line front end for checking, matching and resolving scope selectors"
  | .check => "Parse selectors and print their canonical form"
  | .evaluate => "Evaluate one selector against a scope path"
  | .resolve => "Pick the winning rule for a scope path"
  | .help => "Print this message or the help of the given subcommand(s)"

/-- The arguments of the scope, in the order they are defined: its own, then
the global options, then help. -/
def args : Scope → List Spec
  | .program => [logLevelSpec, formatSpec, helpSpec, versionSpec]
  | .check =>
    [{ id := .selectors, valueName := "SELECTORS", index := some 1, action := .append,
       multiple := true, required := true, allowHyphen := true,
       help := "Selectors to check" }, logLevelSpec, formatSpec, helpSpec]
  | .evaluate =>
    [{ id := .selector, valueName := "SELECTOR", index := some 1, required := true,
       allowHyphen := true, help := "Selector to evaluate" },
     { id := .path, long := some "path", valueName := "PATH", required := true,
       help := "Space-separated scope names, outermost first", order := 0 },
     logLevelSpec, formatSpec, helpSpec]
  | .resolve =>
    [{ id := .rule, long := some "rule", valueName := "RULES", action := .append,
       required := true, allowHyphen := true,
       help := "Rule as SELECTOR=VALUE; later rules win ties", order := 0 },
     { id := .path, long := some "path", valueName := "PATH", required := true,
       help := "Space-separated scope names, outermost first", order := 1 },
     logLevelSpec, formatSpec, helpSpec]
  | .help =>
    [{ id := .topics, valueName := "COMMAND", index := some 1, action := .append,
       multiple := true, help := "Print help for the subcommand(s)" }]

/-- The scope's own group of arguments: those its command defines itself, in
order, without the global options and help.  Once one of them is given, the
group counts as given too, which some usage lines show. -/
def groupMembers : Scope → List ArgId
  | .program => [.logLevel, .format]
  | .check => [.selectors]
  | .evaluate => [.selector, .path]
  | .resolve => [.rule, .path]
  | .help => []

/-- The argument of this scope with long name `l`. -/
def findLong? (scope : Scope) (l : String) : Option Spec :=
  scope.args.find? fun s => s.long == some l

/-- The argument of this scope with short name `c`. -/
def findShort? (scope : Scope) (c : Char) : Option Spec :=
  scope.args.find? fun s => s.short == some c

/-- The operand of this scope at position `i`. -/
def operand? (scope : Scope) (i : Nat) : Option Spec :=
  scope.args.find? fun s => s.index == some i

/-- The argument `id` of this scope. -/
def spec? (scope : Scope) (id : ArgId) : Option Spec :=
  scope.args.find? fun s => s.id == id

/-- Whether the scope has operands. -/
def hasOperands (scope : Scope) : Bool := scope.args.any Spec.isOperand

/-- Whether a subcommand must be given (so far only of the program). -/
def needsSubcommand (scope : Scope) : Bool := !scope.subcommands.isEmpty

/-- The flag that shows the scope's help, for the hint after an error. -/
def helpFlag? (scope : Scope) : Option String :=
  if (scope.spec? .help).isSome then some "--help"
  else if scope.needsSubcommand then some "help"
  else none

end Scope

end Command

end ScopeSelectors
