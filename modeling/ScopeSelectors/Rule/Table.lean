import ScopeSelectors.Cache
import ScopeSelectors.Match
/-!
# Rule tables

A *rule* pairs a selector with a value, say the colour of a theme rule.  A
*rule table* lists rules in declaration order, and *resolving* a scope path
picks the value of the rule that matches it best.

Rules are compiled from their selector texts in order (`ofSources`, or
`ofSourcesCached` through a `SelectorCache`).  A text that does not parse is
set aside as a `RejectedRule`, with its position among the sources and a
warning record; the accepted rules keep their order and are numbered among
themselves.

Every rule is evaluated against the path, each with a trace record.  The
*winner* is the matching rule of greatest rank, where the rank orders by
specificity first and by number second, so that of two equally specific rules
the later one wins.  `matching` lists all matching rules by decreasing rank.

`resolveSelectors` resolves a path against a plain list of selectors with values, with no
table and no records: it scans the matches from the first on, each one taking the place of
the one kept unless that one is greater by specificity and then by number.
-/

namespace ScopeSelectors

/-- A selector with the value it stands for. -/
structure Rule (α : Type) where
  /-- The selector. -/
  selector : Selector
  /-- The value. -/
  value : α

/-- A selector text that did not parse, with its position among the sources. -/
structure RejectedRule where
  /-- The position of the text among the sources. -/
  index : Nat
  /-- The text. -/
  text : String
  /-- Why it did not parse. -/
  error : ParseError
  deriving DecidableEq, Repr

/-- How a rejected rule is reported. -/
def RejectedRule.describe (r : RejectedRule) : String :=
  "rule " ++ toString r.index ++ " `" ++ r.text ++ "` rejected: " ++ r.error.message

/-- A rule that matched a path: its value, selector, specificity and number. -/
structure Resolution (α : Type) where
  /-- The rule's value. -/
  value : α
  /-- The rule's selector. -/
  selector : Selector
  /-- How specifically it matched. -/
  specificity : Specificity
  /-- Its number among the rules of the table. -/
  index : Nat

/-- The order of ranks: by specificity, then by number. -/
def Resolution.compareRank {α : Type} (a b : Resolution α) : Ordering :=
  (compare a.specificity b.specificity).then (compare a.index b.index)

/-- A table of rules in declaration order. -/
structure RuleTable (α : Type) where
  /-- The rules, in declaration order. -/
  rules : List (Rule α)

namespace RuleTable

variable {α : Type}

/-- The table with no rules. -/
def empty : RuleTable α := ⟨[]⟩

/-- The table of already compiled selectors with their values. -/
def ofSelectors (rules : List (Selector × α)) : RuleTable α :=
  ⟨rules.map fun r => ⟨r.1, r.2⟩⟩

/-- The number of rules. -/
def size (t : RuleTable α) : Nat := t.rules.length

/-- Whether the table has no rules. -/
def isEmpty (t : RuleTable α) : Bool := t.rules.isEmpty

/-- Compiles the sources from position `index` on with `compile`, which may
keep state of type `σ`: the rules accepted, the texts rejected, and the state
after the last text. -/
def compileFrom {σ : Type} (compile : σ → String → Logged (Except ParseError Selector × σ)) :
    σ → Nat → List (String × α) → Logged (List (Rule α) × List RejectedRule × σ)
  | s, _, [] => pure ([], [], s)
  | s, index, (text, value) :: rest => do
    let (result, s) ← compile s text
    match result with
    | .ok x =>
      let (rules, rejected, s) ← compileFrom compile s (index + 1) rest
      pure (⟨x, value⟩ :: rules, rejected, s)
    | .error e =>
      let r : RejectedRule := ⟨index, text, e⟩
      Logged.log .warn .resolver r.describe
      let (rules, rejected, s) ← compileFrom compile s (index + 1) rest
      pure (rules, r :: rejected, s)

/-- The table of the sources that parse, and the ones that do not. -/
def ofSources (sources : List (String × α)) : Logged (RuleTable α × List RejectedRule) := do
  let (rules, rejected, ()) ←
    compileFrom (fun () text => pure (Selector.parse text, ())) () 0 sources
  pure (⟨rules⟩, rejected)

/-- `ofSources` with every text compiled through the cache `c`. -/
def ofSourcesCached (c : SelectorCache) (sources : List (String × α)) :
    Logged ((RuleTable α × List RejectedRule) × SelectorCache) := do
  let (rules, rejected, c) ← compileFrom SelectorCache.getOrParse c 0 sources
  pure ((⟨rules⟩, rejected), c)

/-- The trace record of one rule evaluated against a path. -/
def evaluationMessage (index : Nat) (x : Selector) (path : ScopePath) (r : MatchResult) :
    String :=
  "rule " ++ toString index ++ " `" ++ x.text ++ "` against `" ++ path.render ++
    "`: matched=" ++ toString r.matched ++ " " ++ r.specificity.traceText

/-- The rules from number `index` on that match `path`, each evaluation traced. -/
def candidatesFrom (path : ScopePath) : Nat → List (Rule α) → Logged (List (Resolution α))
  | _, [] => pure []
  | index, rule :: rest => do
    let r := rule.selector.evaluate path
    Logged.log .trace .resolver (evaluationMessage index rule.selector path r)
    let later ← candidatesFrom path (index + 1) rest
    if r.matched then pure (⟨rule.value, rule.selector, r.specificity, index⟩ :: later)
    else pure later

/-- The rules that match `path`, in table order. -/
def candidates (t : RuleTable α) (path : ScopePath) : Logged (List (Resolution α)) :=
  candidatesFrom path 0 t.rules

/-- The resolution of greatest rank, the later one of two of equal rank. -/
def best : List (Resolution α) → Option (Resolution α)
  | [] => none
  | r :: rest =>
    match best rest with
    | none => some r
    | some b => if Resolution.compareRank r b == .gt then some r else some b

/-- The matching rule of greatest rank, with a debug record of the outcome. -/
def resolve (t : RuleTable α) (path : ScopePath) : Logged (Option (Resolution α)) := do
  let winner := best (← t.candidates path)
  match winner with
  | some w =>
    Logged.log .debug .resolver ("`" ++ path.render ++ "` resolved to rule " ++
      toString w.index ++ " `" ++ w.selector.text ++ "`")
  | none => Logged.log .debug .resolver ("`" ++ path.render ++ "` matched no rule")
  pure winner

/-- All matching rules, by decreasing rank. -/
def matching (t : RuleTable α) (path : ScopePath) : Logged (List (Resolution α)) := do
  let found ← t.candidates path
  pure (found.mergeSort fun a b => Resolution.compareRank a b != .lt)

end RuleTable

/-- The last of the greatest elements of a list under `cmp`: each element in turn replaces
the one kept so far, unless the one kept is greater. -/
def lastMaxBy? {β : Type} (cmp : β → β → Ordering) : List β → Option β
  | [] => none
  | x :: xs => some (xs.foldl (fun m y => if cmp m y == .gt then m else y) x)

/-- The selectors of `rules` that match `path`, each as its specificity, its number and its
value, in order. -/
def selectorMatches {α : Type} (rules : List (Selector × α)) (path : ScopePath) :
    List (Specificity × Nat × α) :=
  rules.zipIdx.filterMap fun ((x, value), index) =>
    let r := x.evaluate path
    if r.matched then some (r.specificity, index, value) else none

/-- The value and specificity of the best of `rules` for `path`, with no table and no
records: the last of the matches greatest by specificity and then by number. -/
def resolveSelectors {α : Type} (rules : List (Selector × α)) (path : ScopePath) :
    Option (α × Specificity) :=
  (lastMaxBy? (fun a b => (compare a.1 b.1).then (compare a.2.1 b.2.1))
    (selectorMatches rules path)).map fun (s, _, value) => (value, s)

end ScopeSelectors
