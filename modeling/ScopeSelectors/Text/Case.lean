/-!
# Case-insensitive names

Configuration names (log levels, output formats) are compared after mapping
the given text to lower case with the Unicode lower-case mapping.  The names
themselves are ASCII, and the only characters outside ASCII whose lower-case
form is ASCII is the Kelvin sign `U+212A`, which becomes `k`; any other
character outside ASCII lowers to a text that still holds a character outside
ASCII (`İ` becomes `i` followed by a combining dot).  So for an ASCII name,
"the text lowers to the name" is: the text, with ASCII capitals and the Kelvin
sign lowered one for one, equals the name (`lowersTo`).
-/

namespace ScopeSelectors.Text

/-- `c` lowered, as far as a comparison with ASCII text needs. -/
def lowerForAscii (c : Char) : Char :=
  if c = 'K' then 'k' else c.toLower

/-- Whether `s` in lower case is the ASCII text `name`. -/
def lowersTo (s name : String) : Bool :=
  s.toList.map lowerForAscii == name.toList

example : lowersTo "WARN" "warn" = true := by decide
example : lowersTo "İnfo" "info" = false := by decide

end ScopeSelectors.Text
