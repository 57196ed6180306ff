import ScopeSelectors.Command.Report
import ScopeSelectors.Command.Json
/-!
# Writing reports

Each report is written as text or as a JSON document (`OutputFormat`).

* A checked selector is `ok: <canonical>`, or an error block: the reason and
  byte offset, the selector indented by two spaces, and under it a caret at the
  place of the fault.  The caret's column counts the characters before the
  offset; an offset that is past the end or inside a character is taken as a
  column as it is.
* A match is `matched (<counts>)` or `no match`.
* A resolution is the winning value with the rule that gave it, or `no match`,
  followed by one line for each skipped rule.

The JSON documents hold the same facts; there a specificity also carries its
packed scalar.
-/

namespace ScopeSelectors

namespace Command

/-- The column of byte `offset` of `text`: the number of characters before it. -/
def caretColumn (text : String) (offset : Nat) : Nat :=
  go text.toList 0 0
where
  /-- `bytes` bytes and `chars` characters of the text lie before `cs`. -/
  go : List Char → Nat → Nat → Nat
    | cs, bytes, chars =>
      if bytes = offset then chars
      else if offset < bytes then offset
      else match cs with
        | [] => offset
        | c :: rest => go rest (bytes + c.utf8Size) (chars + 1)

example : caretColumn "é x" 3 = 2 ∧ caretColumn "é x" 1 = 1 ∧ caretColumn "abc" 9 = 9 := by
  decide +kernel

/-- The four counts of a specificity, as the text output shows them. -/
def countsText (s : Specificity) : String :=
  "segments " ++ toString s.segments ++ ", depth " ++ toString s.depth ++ ", skipped " ++
    toString s.skipped ++ ", negations " ++ toString s.negations

/-- A specificity with its packed scalar. -/
def specificityJson (s : Specificity) : JsonValue :=
  .obj [("segments", .num s.segments.toNat), ("depth", .num s.depth.toNat),
    ("skipped", .num s.skipped.toNat), ("negations", .num s.negations.toNat),
    ("scalar", .num s.scalar.toNat)]

/-- A fault as the reports show it: its offset and its reason. -/
def faultJson (e : ParseError) : JsonValue :=
  .obj [("offset", .num e.offset), ("message", .str e.kind.reason)]

/-- The text of one checked selector. -/
def CheckReport.text (r : CheckReport) : String :=
  match r.verdict with
  | .ok canonical => "ok: " ++ canonical ++ "\n"
  | .error e =>
    "error: " ++ e.kind.reason ++ " at byte " ++ toString e.offset ++ "\n  " ++ r.selector ++
      "\n  " ++ String.ofList (List.replicate (caretColumn r.selector e.offset) ' ') ++ "^\n"

/-- One checked selector as JSON. -/
def CheckReport.json (r : CheckReport) : JsonValue :=
  match r.verdict with
  | .ok canonical => .obj [("selector", .str r.selector), ("canonical", .str canonical)]
  | .error e => .obj [("selector", .str r.selector), ("error", faultJson e)]

/-- The output of `check`. -/
def renderCheck (format : OutputFormat) (reports : List CheckReport) : String :=
  match format with
  | .text => String.join (reports.map CheckReport.text)
  | .json => (JsonValue.arr (reports.map CheckReport.json)).render ++ "\n"

/-- The names of a path as JSON. -/
def pathJson (p : ScopePath) : JsonValue := .arr (p.names.map fun n => .str n.text)

/-- The output of `match`. -/
def renderMatch (format : OutputFormat) (r : MatchReport) : String :=
  match format with
  | .text =>
    if r.result.matched then "matched (" ++ countsText r.result.specificity ++ ")\n"
    else "no match\n"
  | .json =>
    (JsonValue.obj ([("selector", .str r.selector), ("path", pathJson r.path),
      ("matched", .bool r.result.matched)] ++
      (if r.result.matched then [("specificity", specificityJson r.result.specificity)]
       else []))).render ++ "\n"

/-- The output of `resolve`. -/
def renderResolve (format : OutputFormat) (r : ResolveReport) : String :=
  match format with
  | .text =>
    let head := match r.winner with
      | some w => w.value ++ "\n  rule " ++ toString w.rule ++ " `" ++ w.selector ++ "` (" ++
        countsText w.specificity ++ ")\n"
      | none => "no match\n"
    head ++ String.join (r.rejected.map fun x =>
      "skipped rule " ++ toString x.index ++ " `" ++ x.text ++ "`: " ++ x.error.kind.reason ++
        " at byte " ++ toString x.error.offset ++ "\n")
  | .json =>
    let winner := match r.winner with
      | some w => JsonValue.obj [("value", .str w.value), ("selector", .str w.selector),
        ("rule", .num w.rule), ("specificity", specificityJson w.specificity)]
      | none => .null
    (JsonValue.obj [("path", pathJson r.path), ("winner", winner),
      ("rejected", .arr (r.rejected.map fun x => .obj [("rule", .num x.index),
        ("selector", .str x.text), ("error", faultJson x.error)]))]).render ++ "\n"

end Command

end ScopeSelectors
