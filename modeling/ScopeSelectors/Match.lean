import ScopeSelectors.Selector.Basic
import ScopeSelectors.Scope.Path
import ScopeSelectors.Specificity
/-!
# Matching a selector against a scope path

A selector is evaluated against the names of a path from a *start* position on,
and a match is a `Hit`: where it entered the path, where it is anchored, and how
specific it is.

* An atom matches the **last** name at or after the start that its pattern
  matches; that position is both its entry and its anchor.
* `l r` matches `l` first and then `r` strictly after the anchor of `l` (from
  the start if `l` has no anchor).  Its entry is the first entry of the two and
  its anchor the last anchor; the names strictly between the anchor of `l` and
  the entry of `r` count as skipped.
* `l, r` evaluates both sides from the same start and keeps the right one only
  if it is strictly more specific.
* `-x` looks for `x` on the **whole** path; it matches, with neither entry nor
  anchor, exactly when `x` matches nowhere.
* `(x)` is `x`.

The evaluation never goes back: once `l` of `l r` has its last match, `r` is
only looked for after it.  `Node.evaluate` reports whether the tree matched the
whole path from its outermost name, with the specificity of the match or all
zero counts.
-/

namespace ScopeSelectors

/-- A match of a subtree: its entry, its anchor and its specificity. -/
structure Hit where
  /-- The outermost position matched by an atom of the match, if any. -/
  entry : Option Nat
  /-- The innermost position matched, where a descendant must start after. -/
  anchor : Option Nat
  /-- How specific the match is. -/
  specificity : Specificity
  deriving DecidableEq, Repr

namespace Pattern

/-- The position of the last name of `ns` that the pattern matches. -/
def lastMatch (p : Pattern) : List ScopeName → Option Nat
  | [] => none
  | n :: ns =>
    match p.lastMatch ns with
    | some i => some (i + 1)
    | none => if p.matchesName n then some 0 else none

end Pattern

namespace Node

/-- The match of a tree in `scopes` from position `start` on, if there is one. -/
def eval : Node → List ScopeName → Nat → Option Hit
  | .atom p, scopes, start =>
    (p.lastMatch (scopes.drop start)).map fun i =>
      ⟨some (start + i), some (start + i), .atom p.literalCount (start + i)⟩
  | .and l r, scopes, start =>
    match l.eval scopes start with
    | none => none
    | some a =>
      match r.eval scopes (a.anchor.elim start (· + 1)) with
      | none => none
      | some b =>
        let gap := match a.anchor, b.entry with
          | some outer, some inner => inner - outer - 1
          | _, _ => 0
        some ⟨a.entry.or b.entry, b.anchor.or a.anchor,
          a.specificity.descend b.specificity gap⟩
  | .or l r, scopes, start =>
    match l.eval scopes start, r.eval scopes start with
    | some a, some b => if a.specificity < b.specificity then some b else some a
    | some a, none => some a
    | none, b => b
  | .not x, scopes, _ =>
    match x.eval scopes 0 with
    | some _ => none
    | none => some ⟨none, none, .negation⟩
  | .group x, scopes, start => x.eval scopes start

end Node

/-- Whether a selector matched a path, and how specifically. -/
structure MatchResult where
  /-- Whether it matched. -/
  matched : Bool
  /-- The specificity of the match; all zero without one. -/
  specificity : Specificity
  deriving DecidableEq, Repr

/-- The result of evaluating a tree against a whole path. -/
def Node.evaluate (n : Node) (path : ScopePath) : MatchResult :=
  match n.eval path.names 0 with
  | some h => ⟨true, h.specificity⟩
  | none => ⟨false, .zero⟩

/-- The result of evaluating a selector against a whole path. -/
def Selector.evaluate (x : Selector) (path : ScopePath) : MatchResult :=
  x.root.evaluate path

end ScopeSelectors
