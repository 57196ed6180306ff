import ScopeSelectors.Command.Config
import ScopeSelectors.Rule.Table
import ScopeSelectors.Text.Escape
/-!
# The program's commands

The three commands of the command-line program, as functions from their
arguments to a report and the records they write:

* `check` reads each selector text and reports its canonical form or why it
  was refused, with a debug record for each refusal;
* `matchSelector` evaluates one selector against a path written as text;
* `resolve` compiles rules given as `SELECTOR=VALUE` through a fresh cache and
  reports the winning rule for a path, together with the rules it skipped.

A command *succeeds* when every selector checked, when the selector matched,
or when some rule won; the exit status is 0 then and 1 otherwise.  The debug
records carry their fields after the message as `key=value`, with texts quoted.
-/

namespace ScopeSelectors

namespace Command

/-- The verdict on one checked selector text. -/
structure CheckReport where
  /-- The text as given. -/
  selector : String
  /-- Its canonical form, or why it was refused. -/
  verdict : Except ParseError String

/-- Whether the text was accepted. -/
def CheckReport.isOk (r : CheckReport) : Bool :=
  match r.verdict with
  | .ok _ => true
  | .error _ => false

/-- Checks each selector text in order. -/
def check (selectors : List String) : Logged (List CheckReport) :=
  selectors.mapM fun text =>
    match Selector.parse text with
    | .ok x => pure ⟨text, .ok x.canonical⟩
    | .error e => do
      Logged.logFields .debug .commands "selector rejected"
        (" selector=" ++ Text.quoteString text ++ " error=" ++ e.message)
      pure ⟨text, .error e⟩

/-- The exit status of a command: 0 when it succeeded, 1 otherwise. -/
def exitStatus (succeeded : Bool) : Nat := if succeeded then 0 else 1

/-- The result of evaluating one selector against a path. -/
structure MatchReport where
  /-- The selector text. -/
  selector : String
  /-- The path. -/
  path : ScopePath
  /-- Whether and how specifically it matched. -/
  result : MatchResult

/-- Evaluates `selector` against the path written `pathText`. -/
def matchSelector (selector pathText : String) : Logged (Except CommandError MatchReport) :=
  match Selector.parse selector with
  | .error e => pure (.error (.selector selector e))
  | .ok x => do
    let path := ScopePath.ofText pathText
    let r := x.evaluate path
    Logged.logFields .debug .commands "evaluated selector"
      (" selector=" ++ Text.quoteString selector ++ " path=" ++ path.render ++
        " matched=" ++ toString r.matched)
    pure (.ok ⟨selector, path, r⟩)

/-- A rule as given on the command line. -/
structure RuleArg where
  /-- The selector text, without surrounding white space. -/
  selector : String
  /-- The value, as given. -/
  value : String
  deriving DecidableEq, Repr

/-- Splits `SELECTOR=VALUE` at its first `=`. -/
def RuleArg.parse (s : String) : Except CommandError RuleArg :=
  match s.toList.span (· ≠ '=') with
  | (sel, _ :: value) => .ok ⟨Text.trim (String.ofList sel), String.ofList value⟩
  | (_, []) => .error (.malformedRule s)

/-- The rule that won, numbered by its position among the arguments. -/
structure Winner where
  /-- Its value. -/
  value : String
  /-- Its selector text. -/
  selector : String
  /-- Its position among the rule arguments. -/
  rule : Nat
  /-- How specifically it matched. -/
  specificity : Specificity

/-- The outcome of resolving a path against rule arguments. -/
structure ResolveReport where
  /-- The path. -/
  path : ScopePath
  /-- The winning rule, if any matched. -/
  winner : Option Winner
  /-- The rules whose selector did not parse. -/
  rejected : List RejectedRule

/-- Resolves the path written `pathText` against `rules`. -/
def resolve (rules : List RuleArg) (pathText : String) : Logged ResolveReport := do
  let sources := rules.zipIdx.map fun (r, position) => (r.selector, (position, r.value))
  let ((table, rejected), cache) ← RuleTable.ofSourcesCached SelectorCache.empty sources
  Logged.logFields .debug .commands "compiled rule table"
    (" accepted=" ++ toString table.size ++ " rejected=" ++ toString rejected.length ++
      " distinct=" ++ toString cache.size)
  let path := ScopePath.ofText pathText
  let winner ← table.resolve path
  pure ⟨path, winner.map (fun w => ⟨w.value.2, w.selector.text, w.value.1, w.specificity⟩),
    rejected⟩

end Command

end ScopeSelectors
