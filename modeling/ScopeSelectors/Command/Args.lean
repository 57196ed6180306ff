import ScopeSelectors.Command.Usage
import ScopeSelectors.Command.Similarity
import ScopeSelectors.Command.Report
import ScopeSelectors.Text.Terminal
/-!
# Reading the command line

The words of a command line are read left to right against the interface of
`Command.Interface`, first for the program and then, from the subcommand's
name on, for the subcommand.  A word is, in this order of tests:

* a subcommand's name, when nothing waits for a value: the program's words end
  there and the subcommand's begin (`help` instead shows the help it names);
* `--`: every later word is an operand;
* `--name` or `--name=value`: an option, or a flag such as `--help`;
* `-abc`: a cluster of short flags;
* otherwise a value: of the option waiting for one, or the next operand.

A word that starts with `-` is read as a value instead when the argument it
would continue allows such values, or when the next operand does and the word
is no known flag.

Values are *pending* while they are gathered, and an argument is acted on
(`Reader.act`) only when the next argument starts, when an operand follows, or
when the words of its scope end: then it is recorded as given, its values are
checked one by one, and an option given twice that takes one value is refused.
So the words of a subcommand are read, and their errors reported, before the
program's last pending value is checked, and a help flag or the `help`
subcommand wins over a bad value still pending.

A failure (`ArgFailure`) is written as `error: …`, possibly tips, the usage
line, and a pointer to help.  Its message and tips are styled text
(`Text.Styled`): the arguments and values they quote are set off by style
marks.  Its usage line is the full one, or that of the
arguments in play, depending on the failure; an argument acted on before the
failure counts as in play even if its value was refused.
-/

namespace ScopeSelectors

namespace Command

open Text (Styled plain emphasized)

/-- An error in the command line, for the scope being read. -/
structure ArgFailure where
  /-- The scope whose arguments were being read. -/
  scope : Scope
  /-- What is wrong. -/
  message : Styled
  /-- Suggestions, each one line. -/
  tips : List Styled := []
  /-- The usage line to show, if any. -/
  usage : Option String := none

/-- `x` quoted, in a style of its own: `'x'`. -/
def quoted (x : String) : Styled := plain "'" ++ emphasized x ++ plain "'"

/-- The styled text of a failure. -/
def ArgFailure.styled (f : ArgFailure) : Styled :=
  emphasized "error:" ++ plain " " ++ f.message ++
    (if f.tips.isEmpty then []
     else plain "\n" ++
       (f.tips.map fun t => plain "\n  " ++ emphasized "tip:" ++ plain " " ++ t).flatten) ++
    (match f.usage with
      | some u => plain "\n\n" ++ emphasized "Usage:" ++ plain (" " ++ u)
      | none => []) ++
    (match f.scope.helpFlag? with
      | some flag => plain "\n\nFor more information, try " ++ quoted flag ++ plain ".\n"
      | none => plain "\n")

/-- Why reading the command line stopped before any command could run. -/
inductive Interruption where
  /-- Help was asked for: shown on standard output. -/
  | help (text : String)
  /-- The version was asked for: shown on standard output. -/
  | version (text : String)
  /-- Nothing was given: help is shown on standard error. -/
  | helpOnMissing (text : String)
  /-- The command line is wrong. -/
  | failure (f : ArgFailure)

/-- What the word being read continues. -/
inductive ReadState where
  /-- Nothing: a new argument starts. -/
  | ready
  /-- The option `id`, which waits for its value. -/
  | option (id : ArgId)
  /-- The operand `id`, which takes all further values. -/
  | operand (id : ArgId)
  deriving DecidableEq, Repr

/-- An argument whose values are still being gathered. -/
structure Pending where
  /-- Which argument. -/
  id : ArgId
  /-- Its values so far. -/
  values : List String

/-- How far the words of one scope have been read. -/
structure Reader where
  /-- The scope being read. -/
  scope : Scope
  /-- The arguments acted on so far, with their values, in order of first action. -/
  given : List (ArgId × List String) := []
  /-- Whether a member of the scope's group was acted on. -/
  grouped : Bool := false
  /-- The argument still gathering values. -/
  pending : Option Pending := none
  /-- What the next word continues. -/
  state : ReadState := .ready
  /-- The position of the next operand, from 1. -/
  position : Nat := 1
  /-- Whether `--` was read. -/
  escaped : Bool := false

namespace Reader

/-- A failure of the scope being read. -/
def failure (r : Reader) (message : Styled) (tips : List Styled) (usage : Option String) :
    Interruption :=
  .failure { scope := r.scope, message := message, tips := tips, usage := usage }

/-- Whether the argument `id` was acted on. -/
def has (r : Reader) (id : ArgId) : Bool := r.given.any (·.1 == id)

/-- The arguments acted on, in order. -/
def givenIds (r : Reader) : List ArgId := r.given.map (·.1)

/-- The reason a value is refused by its argument, if it is. -/
def refusal (id : ArgId) (value : String) : Option String :=
  match id with
  | .logLevel => match parseLevel value with
    | .error e => some e.message
    | .ok _ => none
  | .format => match parseFormat value with
    | .error e => some e.message
    | .ok _ => none
  | .rule => match RuleArg.parse value with
    | .error e => some e.message
    | .ok _ => none
  | _ => none

/-! ## Acting on an argument -/

/-- Records the argument `s` as given, with no values yet, and its group. -/
def start (r : Reader) (s : Spec) : Reader :=
  { r with
    given := if r.has s.id then r.given else r.given ++ [(s.id, [])]
    grouped := r.grouped || r.scope.groupMembers.contains s.id }

/-- Adds `value` to the argument `id`. -/
def addValue (r : Reader) (id : ArgId) (value : String) : Reader :=
  { r with given := r.given.map fun (i, vs) => if i == id then (i, vs ++ [value]) else (i, vs) }

/-- Checks the values of `s` in turn and adds them, up to the first refused. -/
def addValues (r : Reader) (s : Spec) : List String → Reader × Option Interruption
  | [] => (r, none)
  | v :: rest =>
    match refusal s.id v with
    | some why =>
      (r, some (r.failure (plain "invalid value " ++ quoted v ++ plain " for " ++
        quoted s.display ++ plain (": " ++ why)) [] none))
    | none => addValues (r.addValue s.id v) s rest

/-- Acts on the argument `s` given with `values`: the reader afterwards, and
the interruption the action ends in, if any.  What was recorded before a
failure stays recorded; an option given twice is forgotten. -/
def act (r : Reader) (s : Spec) (values : List String) : Reader × Option Interruption :=
  if s.takesValue && values.isEmpty then
    (r, some (r.failure (plain "a value is required for " ++ quoted s.display ++
      plain " but none was supplied") [] none))
  else
    match s.action with
    | .help => (r, some (.help r.scope.helpText))
    | .version => (r, some (.version versionText))
    | .set =>
      if r.has s.id then
        let r := { r with given := r.given.filter (·.1 != s.id) }
        (r, some (r.failure (plain "the argument " ++ quoted s.display ++
          plain " cannot be used multiple times") [] (some r.scope.helpUsage)))
      else (r.start s).addValues s values
    | .append => (r.start s).addValues s values

/-- Acts on the argument still gathering values, if any. -/
def resolve (r : Reader) : Reader × Option Interruption :=
  match r.pending with
  | none => (r, none)
  | some p =>
    let r := { r with pending := none }
    match r.scope.spec? p.id with
    | some s => r.act s p.values
    | none => (r, none)

/-- `resolve`, stopping at its failure. -/
def settle (r : Reader) : Except Interruption Reader :=
  match r.resolve with
  | (r, none) => .ok r
  | (_, some e) => .error e

/-- `resolve`, where a failure is of no interest because another one is
reported; what it recorded stays. -/
def quietly (r : Reader) : Reader := r.resolve.1

/-- Acts on the argument `s` given with `values`, once the pending one is
acted on. -/
def react (r : Reader) (s : Spec) (values : List String) : Except Interruption Reader := do
  let r ← r.settle
  match r.act s values with
  | (r, none) => .ok r
  | (_, some e) => .error e

/-! ## Failures for words that fit nowhere -/

/-- Whether the argument being continued takes values that start with `-`. -/
def continuesHyphen (r : Reader) : Bool :=
  match r.state with
  | .option id | .operand id => ((r.scope.spec? id).map Spec.allowHyphen).getD false
  | .ready => false

/-- Whether the next operand takes values that start with `-`. -/
def operandTakesHyphen (r : Reader) : Bool :=
  ((r.scope.operand? r.position).map Spec.allowHyphen).getD false

/-- The failure for a word that is no option and no operand of the scope. -/
def misplaced (r : Reader) (word : String) : Interruption :=
  let usage := some r.scope.helpUsage
  let unexpected := plain "unexpected argument " ++ quoted word ++ plain " found"
  let unrecognized := plain "unrecognized subcommand " ++ quoted word
  if r.escaped && (r.scope.find? word).isSome then
    r.failure unexpected
      [plain "subcommand " ++ quoted word ++ plain " exists; to use it, remove the " ++
        quoted "--" ++ plain " before it"] usage
  else
    let asValue := !r.escaped && r.scope.hasOperands && word.startsWith "-" &&
      word != "-" && word != "--"
    if r.scope.needsSubcommand then
      let trailing := if asValue then
        [plain "to pass " ++ quoted word ++ plain " as a value, use " ++
          quoted (r.scope.usageName ++ " -- " ++ word)]
        else []
      match similarNames word (r.scope.subcommands.map Scope.name) with
      | [] =>
        if !r.scope.hasOperands then r.failure unrecognized [] usage
        else r.failure unexpected trailing usage
      | [one] =>
        r.failure unrecognized ((plain "a similar subcommand exists: " ++ quoted one) :: trailing)
          usage
      | first :: more =>
        r.failure unrecognized
          ((plain "some similar subcommands exist: " ++ quoted first ++
            (more.map fun n => plain ", " ++ quoted n).flatten) :: trailing) usage
    else
      r.failure unexpected
        (if asValue then [plain "to pass " ++ quoted word ++ plain " as a value, use " ++
          quoted ("-- " ++ word)] else [])
        usage

/-- The failure for `--name` that names no option of the scope; `later` are
the words after it.  The most similar option of the scope is suggested, and
it then counts as in play; failing that, an option of a subcommand named
later in the line. -/
def unknownLong (r : Reader) (name : String) (later : List String) : Interruption :=
  let longs := r.scope.args.filterMap Spec.long
  let here := (similarNames name longs).getLast?
  let elsewhere := r.scope.subcommands.filterMap fun sub =>
    match (similarNames name (sub.args.filterMap Spec.long)).getLast?, later.idxOf? sub.name with
    | some l, some place => some (place, sub.name, l)
    | _, _ => none
  let nearest := elsewhere.foldl (fun best c => match best with
    | some b => if c.1 < b.1 then some c else some b
    | none => some c) none
  let message := plain "unexpected argument " ++ quoted ("--" ++ name) ++ plain " found"
  match here with
  | some l =>
    let r := match r.scope.findLong? l with
      | some s => r.start s
      | none => r
    r.failure message [plain "a similar argument exists: " ++ quoted ("--" ++ l)]
      (some (r.scope.usageFor r.givenIds false))
  | none =>
    let tips := match nearest with
      | some (_, sub, l) => [quoted (sub ++ " --" ++ l) ++ plain " exists"]
      | none =>
        if r.scope.hasOperands && !r.escaped then
          [plain "to pass " ++ quoted ("--" ++ name) ++ plain " as a value, use " ++
            quoted ("-- --" ++ name)] else []
    r.failure message tips (some (r.scope.usageFor r.givenIds false))

/-! ## Reading one word -/

/-- What reading a word that looks like an option came to. -/
inductive Move where
  /-- The word was read, leaving this reader. -/
  | next (r : Reader)
  /-- The word is a value after all. -/
  | value

/-- Reads `--name` or `--name=value`; `later` are the words after it. -/
def readLong (r : Reader) (body : String) (later : List String) : Except Interruption Move :=
  if r.continuesHyphen then pure .value
  else
    let name := String.ofList (body.toList.takeWhile (· ≠ '='))
    let attached := match body.toList.dropWhile (· ≠ '=') with
      | _ :: v => some (String.ofList v)
      | [] => none
    match r.scope.findLong? name with
    | some s =>
      if s.takesValue then
        match attached with
        | some v => do
          let r ← r.react s [v]
          pure (.next { r with state := .ready })
        | none => do
          let r ← r.settle
          pure (.next { r with pending := some ⟨s.id, []⟩, state := .option s.id })
      else
        match attached with
        | some v =>
          let required := r.scope.requiredIds
          let inPlay := (r.givenIds.filter fun id => !required.contains id) ++ [s.id]
          let grouped := r.grouped
          let r := r.quietly
          .error (r.failure (plain "unexpected value " ++ quoted v ++ plain " for " ++
            quoted s.display ++ plain " found; no more were expected") []
            (some (r.scope.usageFor inPlay grouped)))
        | none => do
          let r ← r.react s []
          pure (.next { r with state := .ready })
    | none =>
      if r.operandTakesHyphen then pure .value
      else .error (r.quietly.unknownLong name later)

/-- Reads the short flags of a cluster, one by one. -/
def readFlags (r : Reader) : List Char → Except Interruption Move
  | [] => pure (.next { r with state := .ready })
  | c :: rest =>
    match r.scope.findShort? c with
    | some s => do
      let r ← r.react s []
      readFlags r rest
    | none =>
      let r := r.quietly
      let flag := "-" ++ c.toString
      .error (r.failure (plain "unexpected argument " ++ quoted flag ++ plain " found")
        (if !r.escaped && r.scope.hasOperands then
          [plain "to pass " ++ quoted flag ++ plain " as a value, use " ++ quoted ("-- " ++ flag)]
          else [])
        (some r.scope.helpUsage))

/-- Reads a cluster of short flags `-abc`, given without its dash. -/
def readShort (r : Reader) (cluster : List Char) : Except Interruption Move :=
  if r.continuesHyphen then pure .value
  else if r.operandTakesHyphen && cluster.any (fun c => (r.scope.findShort? c).isNone) then
    pure .value
  else r.readFlags cluster

/-- Reads a word that is not a subcommand's name, up to its being a value. -/
def classify (r : Reader) (word : String) (later : List String) : Except Interruption Move :=
  if word == "--" then
    if r.continuesHyphen then pure .value else pure (.next { r with escaped := true })
  else if word.startsWith "--" then r.readLong (String.ofList (word.toList.drop 2)) later
  else if word.startsWith "-" && word != "-" then r.readShort (word.toList.drop 1)
  else pure .value

/-- Takes `word` as the next operand. -/
def takeOperand (r : Reader) (word : String) : Except Interruption Reader :=
  match r.scope.operand? r.position with
  | some s => do
    let r ← r.settle
    let r := { r with pending := some ⟨s.id, [word]⟩ }
    if s.multiple then pure { r with state := .operand s.id }
    else pure { r with state := .ready, position := r.position + 1 }
  | none => .error (r.quietly.misplaced word)

/-- Takes `word` as a value: of the option waiting for one, or as the next operand. -/
def takeValue (r : Reader) (word : String) : Except Interruption Reader :=
  match r.state with
  | .option id =>
    let values := match r.pending with
      | some p => if p.id == id then p.values else []
      | none => []
    pure { r with pending := some ⟨id, values ++ [word]⟩, state := .ready }
  | _ => r.takeOperand word

end Reader

/-! ## Reading a scope -/

/-- The scope whose help `help a b …` asks for, from `scope` on. -/
def helpTopic (scope : Scope) : List String → Except Interruption Scope
  | [] => pure scope
  | name :: rest =>
    match scope.find? name with
    | some sub => helpTopic sub rest
    | none =>
      .error (.failure
        { scope := scope, message := plain "unrecognized subcommand " ++ quoted name, tips := [],
          usage := some scope.helpUsage })

/-- Reads the words of one scope, up to their end or to a subcommand's name;
in the second case the subcommand and the words after its name come back too. -/
def readWords (r : Reader) : List String → Except Interruption (Reader × Option (Scope × List String))
  | [] => pure (r, none)
  | word :: later =>
    if r.escaped then do
      let r ← r.takeOperand word
      readWords r later
    else
      match (if r.state = .ready then r.scope.find? word else none) with
      | some .help => do
        let topic ← helpTopic r.scope later
        .error (.help topic.helpText)
      | some sub => pure (r, some (sub, later))
      | none => do
        let move ← r.classify word later
        match move with
        | .next r => readWords r later
        | .value =>
          let r ← r.takeValue word
          readWords r later

/-- Checks that the required arguments of the scope were given. -/
def Reader.checkRequired (r : Reader) : Except Interruption Reader :=
  let missing := r.scope.requiredIds.filter fun id => !r.has id
  if missing.isEmpty then pure r
  else
    .error (r.failure (plain "the following required arguments were not provided:" ++
        ((r.scope.listed missing).map fun x => plain "\n  " ++ emphasized x).flatten) []
      (some (r.scope.usageFor (r.givenIds ++ missing) false)))

/-- Completes a scope whose words ended without a subcommand: acts on the
pending argument, then checks what must have been given. -/
def Reader.finish (r : Reader) : Except Interruption Reader := do
  let r ← r.settle
  if r.scope.needsSubcommand then
    if r.given.isEmpty then .error (.helpOnMissing r.scope.helpText)
    else
      let names := (r.scope.subcommands.map fun sub => emphasized sub.name).intersperse
        (plain ", ")
      .error (r.failure (quoted r.scope.usageName ++
        plain " requires a subcommand but one was not provided\n  [subcommands: " ++
        names.flatten ++ plain "]") [] (some r.scope.helpUsage))
  else r.checkRequired

/-- The arguments given to one scope, and the subcommand read after them. -/
structure Reading where
  /-- The arguments given to the scope, with their values. -/
  given : List (ArgId × List String)
  /-- The subcommand and what was given to it. -/
  sub : Option (Scope × List (ArgId × List String))

/-- Reads a command line for `scope`.  The words of a subcommand are read and
checked in full before the scope's own pending argument is acted on.
Subcommands have no subcommands of their own, so a subcommand's words never
end early. -/
def readScope (scope : Scope) (words : List String) : Except Interruption Reading := do
  let (r, sub) ← readWords { scope := scope } words
  match sub with
  | none =>
    let r ← r.finish
    pure ⟨r.given, none⟩
  | some (sub, later) =>
    let (inner, _) ← readWords { scope := sub } later
    let inner ← inner.finish
    let r ← r.settle
    pure ⟨r.given, some (sub, inner.given)⟩

end Command

end ScopeSelectors
