import Std.Data.HashMap
import ScopeSelectors.Selector.Basic
import ScopeSelectors.Log
/-!
# The selector cache

Rule sets repeat selector texts, so selectors are compiled through a cache
keyed by their exact text.  `getOrParse` returns the cached selector when the
text is a key; otherwise it logs a miss, parses the text, and keeps the
selector if it parsed.  A text that does not parse is never kept, so it is
parsed again, and logged again, every time it is asked for.  Lookups use the
exact text: `"a b"` and `"a  b"` are two entries.  `clear` drops every entry.
-/

namespace ScopeSelectors

open Std

/-- Selectors already compiled, keyed by their text. -/
structure SelectorCache where
  /-- The compiled selectors, keyed by their text. -/
  entries : HashMap String Selector

namespace SelectorCache

/-- The cache with no entries. -/
def empty : SelectorCache := ⟨∅⟩

/-- The cached selector of exactly the text `text`, if there is one. -/
def get? (c : SelectorCache) (text : String) : Option Selector := c.entries.get? text

/-- The number of entries. -/
def size (c : SelectorCache) : Nat := c.entries.size

/-- Whether the cache has no entries. -/
def isEmpty (c : SelectorCache) : Bool := c.entries.isEmpty

/-- The cache with every entry dropped.  Selectors handed out before stay as they are. -/
def clear (_ : SelectorCache) : SelectorCache := empty

/-- The record of a miss. -/
def missMessage (text : String) : String := "selector cache miss for `" ++ text ++ "`"

/-- The selector of `text`, from the cache or parsed, with the cache after it. -/
def getOrParse (c : SelectorCache) (text : String) :
    Logged (Except ParseError Selector × SelectorCache) :=
  match c.get? text with
  | some x => pure (.ok x, c)
  | none => do
    Logged.log .trace .cache (missMessage text)
    match Selector.parse text with
    | .ok x => pure (.ok x, ⟨c.entries.insertIfNew text x⟩)
    | .error e => pure (.error e, c)

end SelectorCache

end ScopeSelectors
