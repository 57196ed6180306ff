import ScopeSelectors.Scope.Name
/-!
# Scope patterns

The atoms of a selector are *scope patterns* such as `source.js` or
`meta.*.string`.  A pattern is a sequence of segments, each either a literal,
which matches exactly that segment, or the wildcard `*`, which matches any
segment that is not empty.

A pattern matches a scope name when its segments match the name's leading
segments one for one (`matchesName`): `source.js` matches
`source.js.embedded.html` and not `source.javascript`, and no pattern matches a
name with fewer segments than it has.
-/

namespace ScopeSelectors

/-- One segment of a scope pattern. -/
inductive Segment where
  /-- Matches exactly this text. -/
  | literal (text : String)
  /-- `*`: matches any segment that is not empty. -/
  | wildcard
  deriving DecidableEq, Repr, Hashable

namespace Segment

/-- The segment as written. -/
def text : Segment → String
  | .literal t => t
  | .wildcard => "*"

/-- Whether the segment matches one segment `s` of a scope name. -/
def accepts : Segment → String → Bool
  | .literal t, s => t == s
  | .wildcard, s => !s.isEmpty

/-- The segment written `t`: the wildcard for `*`, a literal otherwise. -/
def ofText (t : String) : Segment :=
  if t = "*" then .wildcard else .literal t

end Segment

/-- A scope pattern: the segments of one selector atom, in order. -/
structure Pattern where
  /-- The segments, in order. -/
  segments : List Segment
  deriving DecidableEq, Repr, Hashable

namespace Pattern

/-- The pattern as written: its segments joined by dots. -/
def text (p : Pattern) : String := ".".intercalate (p.segments.map Segment.text)

/-- The pattern whose segments are the pieces of `t` between dots. -/
def ofText (t : String) : Pattern :=
  ⟨(t.toList.splitOn '.').map fun cs => Segment.ofText (String.ofList cs)⟩

/-- The number of literal segments; wildcards do not count. -/
def literalCount (p : Pattern) : Nat :=
  (p.segments.filter fun s => s != .wildcard).length

/-- Whether the segments `ps` match the leading segments of `ns`, one for one. -/
def matchesSegments : List Segment → List String → Bool
  | [], _ => true
  | _ :: _, [] => false
  | p :: ps, n :: ns => p.accepts n && matchesSegments ps ns

/-- Whether the pattern matches the scope name `n`. -/
def matchesName (p : Pattern) (n : ScopeName) : Bool :=
  matchesSegments p.segments n.segments

example : (ofText "source.js").matchesName ⟨"source.js.embedded"⟩ = true := by decide +kernel
example : (ofText "source.js").matchesName ⟨"source.javascript"⟩ = false := by decide +kernel
example : (ofText "a.*").matchesName ⟨"a."⟩ = false := by decide +kernel
example : (ofText "meta.*.x").literalCount = 2 := by decide +kernel

end Pattern

end ScopeSelectors
