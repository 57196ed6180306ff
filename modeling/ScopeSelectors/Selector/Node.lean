import ScopeSelectors.Selector.Pattern
/-!
# Selector trees

A selector is a tree over scope patterns.

* `atom p` matches where the pattern `p` matches a name of the path.
* `and l r` (written `l r`) matches where `r` matches inside a match of `l`.
* `or l r` (written `l, r`) matches where either side does.
* `not x` (written `-x`) matches where `x` matches nowhere on the path.
* `group x` (written `(x)`) is `x` in parentheses.

`render` writes the canonical text of a tree: an atom as its pattern, the
connectives with a single space, `", "` and `-` as above, and a group between
parentheses.  `height` counts the nodes on the longest branch; the parser
refuses trees higher than `depthLimit`.
-/

namespace ScopeSelectors

/-- A selector tree. -/
inductive Node where
  /-- A scope pattern. -/
  | atom (p : Pattern)
  /-- `l r`: `r` inside `l`. -/
  | and (l r : Node)
  /-- `l, r`: either side. -/
  | or (l r : Node)
  /-- `-x`: `x` nowhere on the path. -/
  | not (x : Node)
  /-- `(x)`. -/
  | group (x : Node)
  deriving DecidableEq, Repr, Hashable

namespace Node

/-- The canonical text of a tree. -/
def render : Node → String
  | .atom p => p.text
  | .and l r => l.render ++ " " ++ r.render
  | .or l r => l.render ++ ", " ++ r.render
  | .not x => "-" ++ x.render
  | .group x => "(" ++ x.render ++ ")"

/-- The number of nodes on the longest branch from the root to an atom. -/
def height : Node → Nat
  | .atom _ => 1
  | .and l r => max l.height r.height + 1
  | .or l r => max l.height r.height + 1
  | .not x => x.height + 1
  | .group x => x.height + 1

/-- The atoms' patterns, left to right. -/
def patterns : Node → List Pattern
  | .atom p => [p]
  | .and l r => l.patterns ++ r.patterns
  | .or l r => l.patterns ++ r.patterns
  | .not x => x.patterns
  | .group x => x.patterns

end Node

/-- The greatest height of a tree, and the greatest number of groups and
negations around one operand, that the parser accepts. -/
def depthLimit : Nat := 256

end ScopeSelectors
