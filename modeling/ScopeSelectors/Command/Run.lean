import ScopeSelectors.Command.Args
import ScopeSelectors.Command.Render
import ScopeSelectors.Text.Terminal
/-!
# Running the program

`run` is the whole program as a function: from the words of the command line
and the environment to what it writes on standard output and standard error
and its exit status.

1. The command line is read; help, the version, or an error in it end the run
   there (status 0 for help and version, 2 otherwise).
2. The configuration is read from the environment and overridden by the
   options; a refused variable ends the run with status 2.
3. The command runs.  Its output goes to standard output; its records, and
   the library's, go to standard error as lines `LEVEL target: message`, the
   level right-aligned in five columns, if they are at least as severe as the
   configured level.  A selector that `match` cannot read ends the run with
   status 2 and an error record; otherwise the status is the command's.
-/

namespace ScopeSelectors

namespace Command

/-- What a run of the program writes, and its exit status. -/
structure Outcome where
  /-- Standard output. -/
  stdout : String
  /-- Standard error. -/
  stderr : String
  /-- The exit status. -/
  status : Nat
  deriving DecidableEq, Repr

/-- A record as a line of standard error; its message has its control
characters escaped, its fields are written as they are. -/
def Record.line (r : Record) : String :=
  let label := r.level.label
  spaces (5 - label.length) ++ label ++ " " ++ r.target.name ++ ": " ++
    Text.escapeControls r.message ++ r.fields ++ "\n"

/-- The lines of the records at least as severe as `level`. -/
def logText (level : Level) (records : List Record) : String :=
  String.join ((records.filter fun r => r.level.atLeast level).map Record.line)

/-- What the command line asks the program to do. -/
inductive Request where
  /-- `check`. -/
  | check (selectors : List String)
  /-- `match`. -/
  | evaluate (selector path : String)
  /-- `resolve`. -/
  | resolve (rules : List RuleArg) (path : String)

/-- A command line that was read: the options and the request. -/
structure Invocation where
  /-- `--log-level`, if given. -/
  level : Option Level
  /-- `--format`, if given. -/
  format : Option OutputFormat
  /-- What to do. -/
  request : Request

/-- The values of argument `id`: from the subcommand if it has them there,
else from the program's own arguments. -/
def Reading.values (r : Reading) (id : ArgId) : List String :=
  let inSub := match r.sub with
    | some (_, given) => given.lookup id
    | none => none
  (inSub.orElse fun _ => r.given.lookup id).getD []

/-- The first value of argument `id`, or the empty text. -/
def Reading.value (r : Reading) (id : ArgId) : String :=
  (r.values id).headD ""

/-- The invocation a command line reads as. -/
def Invocation.ofReading (r : Reading) : Invocation :=
  let level := (r.values .logLevel).head?.bind fun s => (parseLevel s).toOption
  let format := (r.values .format).head?.bind fun s => (parseFormat s).toOption
  let request := match r.sub with
    | some (.evaluate, _) => Request.evaluate (r.value .selector) (r.value .path)
    | some (.resolve, _) =>
      Request.resolve ((r.values .rule).filterMap fun s => (RuleArg.parse s).toOption)
        (r.value .path)
    | _ => Request.check (r.values .selectors)
  ⟨level, format, request⟩

/-- Runs a request: its output, its records, and its exit status. -/
def perform (format : OutputFormat) : Request → String × List Record × Nat
  | .check selectors =>
    let reports := check selectors
    (renderCheck format reports.value, reports.records,
      exitStatus (reports.value.all CheckReport.isOk))
  | .evaluate selector path =>
    let report := matchSelector selector path
    match report.value with
    | .ok m => (renderMatch format m, report.records, exitStatus m.result.matched)
    | .error e =>
      ("", report.records ++ [⟨.error, .program, "scope-match failed", " error=" ++ e.chain⟩], 2)
  | .resolve rules path =>
    let report := resolve rules path
    (renderResolve format report.value, report.records, exitStatus report.value.winner.isSome)

/-- The program, from its command line and environment to its outcome. -/
def run (args : List String) (env : String → Option String) : Outcome :=
  match readScope .program args with
  | .error (.help text) => ⟨Text.stripSequences text, "", 0⟩
  | .error (.version text) => ⟨Text.stripSequences text, "", 0⟩
  | .error (.helpOnMissing text) => ⟨"", Text.stripSequences text, 2⟩
  | .error (.failure f) => ⟨"", Text.stripStyled f.styled, 2⟩
  | .ok reading =>
    let inv := Invocation.ofReading reading
    match Config.ofLookup env with
    | .error e =>
      let config : Config := {}
      ⟨"", logText config.level
        [⟨.error, .program, "invalid configuration", " error=" ++ e.message⟩], 2⟩
    | .ok fromEnv =>
      let config := fromEnv.applyOverrides inv.level inv.format
      let start : Record := ⟨.debug, .program, "starting " ++ Scope.programName,
        " version=\"" ++ Scope.version ++ "\" format=" ++ config.format.name⟩
      let (stdout, records, status) := perform config.format inv.request
      ⟨stdout, logText config.level (start :: records), status⟩

end Command

end ScopeSelectors
