import ScopeSelectors.Command.Interface
/-!
# Usage lines and help

A *usage line* names the scope and lists what must be given.  In help, and
after most errors, it is the full usage: `[OPTIONS]` when the scope has an
option that may be left out, then the required options, the operands, and
`<COMMAND>` when a subcommand must follow.  After an error about what was
given, it is instead the usage *of the arguments in play*: the required
arguments together with those given, options first in the order they are
first mentioned, then the scope's group when it is in play, written
`<A|B>` in place of its members, then operands by position.

A help text is the scope's description, its usage, and up to three sections,
`Commands`, `Arguments` and `Options`, each a column of names and a column of
descriptions two spaces to the right of the longest name.  Options are sorted
by display order and then by name.
-/

namespace ScopeSelectors

namespace Command

/-- `n` spaces. -/
def spaces (n : Nat) : String := String.ofList (List.replicate n ' ')

/-- The arguments `ids` of the scope, each once, as usage lists them: options
in order of first mention, then operands by position. -/
def Scope.listed (scope : Scope) (ids : List ArgId) : List String :=
  let specs := (ids.eraseDups.filterMap scope.spec?)
  let options := specs.filter fun s => !s.isOperand
  let operands := (specs.filter Spec.isOperand).mergeSort fun x y =>
    x.index.getD 0 ≤ y.index.getD 0
  (options ++ operands).map Spec.display

/-- The arguments of the scope that must be given. -/
def Scope.requiredIds (scope : Scope) : List ArgId :=
  (scope.args.filter Spec.required).map Spec.id

/-- Whether the usage shows `[OPTIONS]`. -/
def Scope.showsOptionsTag (scope : Scope) : Bool :=
  scope.args.any fun s => !s.isOperand && s.takesValue && !s.required

/-- The full usage line of the scope, as help shows it. -/
def Scope.helpUsage (scope : Scope) : String :=
  let parts :=
    (if scope.showsOptionsTag then ["[OPTIONS]"] else []) ++
    scope.listed scope.requiredIds ++
    (scope.args.filter fun s => s.isOperand && !s.required).map Spec.display ++
    (if scope.needsSubcommand then ["<COMMAND>"] else [])
  " ".intercalate (scope.usageName :: parts)

/-- The scope's group as a usage line shows it: the members between angle
brackets and separated by `|`, an operand by its bare value name. -/
def Scope.groupText (scope : Scope) : String :=
  let member (id : ArgId) : String :=
    match scope.spec? id with
    | some s => if s.isOperand then s.valueName else s.display
    | none => ""
  "<" ++ "|".intercalate (scope.groupMembers.map member) ++ ">"

/-- The usage line of the arguments in play: the required ones and `given`,
and the scope's group when `grouped`, which stands for its members. -/
def Scope.usageOf (scope : Scope) (given : List ArgId) (grouped : Bool) : String :=
  let members := if grouped then scope.groupMembers else []
  let shown := (scope.requiredIds ++ given).filter fun id => !members.contains id
  let specs := shown.eraseDups.filterMap scope.spec?
  let options := specs.filter fun s => !s.isOperand
  let operands := (specs.filter Spec.isOperand).mergeSort fun x y =>
    x.index.getD 0 ≤ y.index.getD 0
  let parts :=
    options.map Spec.display ++ (if grouped then [scope.groupText] else []) ++
    operands.map Spec.display ++ (if scope.needsSubcommand then ["<COMMAND>"] else [])
  " ".intercalate (scope.usageName :: parts)

/-- The usage line after an error: that of the arguments in play, or the full
usage when none is. -/
def Scope.usageFor (scope : Scope) (given : List ArgId) (grouped : Bool) : String :=
  if given.isEmpty && !grouped then scope.helpUsage else scope.usageOf given grouped

/-- Rows of a two-column section: each name, padded to two spaces past the
longest, then its description. -/
def columns (rows : List (String × String × String)) : List String :=
  let longest := rows.foldl (fun m r => max m r.2.1.length) 2
  rows.map fun (lead, name, text) => "  " ++ lead ++ name ++ spaces (longest + 2 - name.length) ++ text

/-- The key options are sorted by after their display order. -/
def Spec.sortKey (s : Spec) : String :=
  match s.short with
  | some c => c.toLower.toString ++ (if c.isLower then "0" else "1")
  | none => s.long.getD ""

/-- The help text of the scope. -/
def Scope.helpText (scope : Scope) : String :=
  let commands := scope.subcommands.map fun sub => ("", sub.name, sub.about)
  let operands := (scope.args.filter Spec.isOperand).map fun s => ("", s.display, s.help)
  let options := (scope.args.filter fun s => !s.isOperand).mergeSort fun x y =>
    x.order < y.order || (x.order = y.order && decide (x.sortKey ≤ y.sortKey))
  let optionRows := options.map fun s =>
    let lead := match s.short with
      | some c => "-" ++ c.toString ++ (if s.long.isSome then ", " else "")
      | none => "    "
    -- the column holds the name without its short form
    (lead, s.display, s.help)
  let block (title : String) (rows : List (String × String × String)) : List String :=
    if rows.isEmpty then [] else [title ++ ":\n" ++ "\n".intercalate (columns rows)]
  let sections := block "Commands" commands ++ block "Arguments" operands ++
    block "Options" optionRows
  scope.about ++ "\n\nUsage: " ++ scope.helpUsage ++ "\n\n" ++ "\n\n".intercalate sections ++ "\n"

/-- The version line. -/
def versionText : String := Scope.programName ++ " " ++ Scope.version ++ "\n"

end Command

end ScopeSelectors
