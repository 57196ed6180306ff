import ScopeSelectors.Text.Printable
import ScopeSelectors.Text.GraphemeExtend
/-!
# Quoted text

The quoted form of a character or a string, as diagnostics show them: the text
between quote marks, with a backslash escape wherever the character itself
would be lost or misread.

* `\0`, `\t`, `\r`, `\n` and `\\` stand for the null character, tab, carriage
  return, line feed and backslash.
* The quote mark that delimits the text is escaped (`\'` in a quoted
  character, `\"` in a quoted string); the other one is not.
* Every grapheme extender, and every unprintable character, is written
  `\u{h}`, with `h` the code point in lower-case hexadecimal without leading
  zeros.
* Everything else stands for itself.
-/

namespace ScopeSelectors.Text

/-- Which quote mark delimits a quoted text. -/
inductive Quote where
  /-- A character between apostrophes. -/
  | single
  /-- A string between double quotes. -/
  | double
  deriving DecidableEq, Repr

/-- The code point of `c` as `\u{h}`, in lower-case hexadecimal. -/
def unicodeEscape (c : Char) : String :=
  "\\u\x7b" ++ String.ofList (Nat.toDigits 16 c.toNat) ++ "\x7d"

/-- How `c` is written inside a text quoted by `q`. -/
def escapeChar (q : Quote) (c : Char) : String :=
  if c = '\x00' then "\\0"
  else if c = '\t' then "\\t"
  else if c = '\r' then "\\r"
  else if c = '\n' then "\\n"
  else if c = '\\' then "\\\\"
  else if c = '"' ∧ q = .double then "\\\""
  else if c = '\'' ∧ q = .single then "\\'"
  else if isGraphemeExtend c then unicodeEscape c
  else if isPrintable c then c.toString
  else unicodeEscape c

/-- `c` between apostrophes, escaped. -/
def quoteChar (c : Char) : String :=
  "'" ++ escapeChar .single c ++ "'"

/-- `s` between double quotes, each character escaped. -/
def quoteString (s : String) : String :=
  "\"" ++ String.join (s.toList.map (escapeChar .double)) ++ "\""

end ScopeSelectors.Text
