/-!
# Scope names

A *scope name* such as `source.js.embedded.html` classifies a point of a
document.  It is read as a sequence of *segments*, the pieces between its dots.
The empty name has no segments at all; every other name has one more segment
than it has dots, and a segment may be empty (`"a."` has the segments `a` and
the empty one).
-/

namespace ScopeSelectors

/-- A dot-separated scope name, kept as written. -/
structure ScopeName where
  /-- The name as written. -/
  text : String
  deriving DecidableEq, Repr, Hashable

namespace ScopeName

/-- The segments of a name: the pieces between its dots, none for the empty name. -/
def segments (n : ScopeName) : List String :=
  if n.text.isEmpty then [] else (n.text.toList.splitOn '.').map String.ofList

example : (ScopeName.mk "a.b").segments = ["a", "b"] := by decide +kernel
example : (ScopeName.mk "a.").segments = ["a", ""] := by decide +kernel
example : (ScopeName.mk "").segments = [] := by decide +kernel

end ScopeName

end ScopeSelectors
