import ScopeSelectors.Scope.Name
import ScopeSelectors.Text.WhiteSpace
/-!
# Scope paths

A *scope path* lists the scope names around a point of a document, outermost
first and innermost last.  As text it is the names separated by white space;
`ofText` cuts a text at every run of Unicode white space, and `render` joins
the names with single spaces.
-/

namespace ScopeSelectors

/-- The scope names around a point, outermost first. -/
structure ScopePath where
  /-- The names, outermost first. -/
  names : List ScopeName
  deriving DecidableEq, Repr

namespace ScopePath

/-- The path with no names. -/
def empty : ScopePath := ⟨[]⟩

/-- The path of the given names, each used as written. -/
def ofNames (names : List String) : ScopePath := ⟨names.map ScopeName.mk⟩

/-- The path whose names are the pieces of `s` between runs of white space. -/
def ofText (s : String) : ScopePath := ofNames (Text.words s)

/-- The names joined by single spaces. -/
def render (p : ScopePath) : String := " ".intercalate (p.names.map ScopeName.text)

/-- The innermost name, if the path has any. -/
def innermost? (p : ScopePath) : Option ScopeName := p.names.getLast?

/-- The number of names. -/
def length (p : ScopePath) : Nat := p.names.length

/-- Whether the path has no names. -/
def isEmpty (p : ScopePath) : Bool := p.names.isEmpty

example : (ofText " a.b\t c ").render = "a.b c" := by decide +kernel

end ScopePath

end ScopeSelectors
