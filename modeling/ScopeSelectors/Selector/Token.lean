import ScopeSelectors.Selector.Error
import ScopeSelectors.Selector.Pattern
/-!
# Selector tokens

A selector text is first cut into tokens, each with the byte offset where it
starts:

* a *name*, a run of ASCII letters and digits, `_`, `-`, `.` and `*` that does
  not start with `-`; it is read as a scope pattern;
* a *blank*, a run of spaces and tabs;
* the single characters `,`, `-`, `(` and `)`.

A `-` that starts a token is the negation operator; inside a name it is part of
the name.  A name must be followed by the end of the text, a blank, `,`, `(` or
`)`; any other character after it is illegal.  A name must not have an empty
segment, and `*` is allowed only as a whole segment.  The first fault, from the
left, refuses the text (`scan`).  Every token's text is the slice of the input
it was read from (`lexeme`).
-/

namespace ScopeSelectors

/-- A token of a selector text, with the byte offset where it starts. -/
inductive Token where
  /-- A scope pattern. -/
  | name (start : Nat) (pattern : Pattern)
  /-- A run of spaces and tabs. -/
  | blank (start : Nat) (run : String)
  /-- `,`. -/
  | comma (start : Nat)
  /-- `-`. -/
  | minus (start : Nat)
  /-- `(`. -/
  | openParen (start : Nat)
  /-- `)`. -/
  | closeParen (start : Nat)
  deriving DecidableEq, Repr

namespace Token

/-- The byte offset where the token starts. -/
def start : Token → Nat
  | .name s _ | .blank s _ | .comma s | .minus s | .openParen s | .closeParen s => s

/-- The text the token was read from. -/
def lexeme : Token → String
  | .name _ p => p.text
  | .blank _ run => run
  | .comma _ => ","
  | .minus _ => "-"
  | .openParen _ => "("
  | .closeParen _ => ")"

/-- Whether the token is a blank. -/
def isBlank : Token → Bool
  | .blank .. => true
  | _ => false

/-- Spaces and tabs separate operands. -/
def isBlankChar (c : Char) : Bool := c = ' ' || c = '\t'

/-- The characters a name is made of. -/
def isNameChar (c : Char) : Bool :=
  c.isAlphanum || c = '_' || c = '-' || c = '.' || c = '*'

/-- The characters that may follow a name. -/
def endsName (c : Char) : Bool :=
  isBlankChar c || c = ',' || c = '(' || c = ')'

/-- The number of bytes of the characters `cs` in UTF-8. -/
def byteLength (cs : List Char) : Nat := cs.foldr (fun c n => c.utf8Size + n) 0

/-- Checks the segments of a name whose segment `segs.head` starts at byte
`offset`: none may be empty, and a `*` must be a whole segment. -/
def checkSegments : List (List Char) → Nat → Except ParseError Unit
  | [], _ => .ok ()
  | seg :: segs, offset =>
    if seg.isEmpty then .error ⟨.emptySegment, offset⟩
    else if seg ≠ ['*'] ∧ '*' ∈ seg then
      .error ⟨.illegalCharacter '*', offset + byteLength (seg.takeWhile (· ≠ '*'))⟩
    else checkSegments segs (offset + byteLength seg + 1)

/-- Checks what follows a name that ends at byte `stop`. -/
def checkFollower (rest : List Char) (stop : Nat) : Except ParseError Unit :=
  match rest with
  | d :: _ => if endsName d then .ok () else .error ⟨.illegalCharacter d, stop⟩
  | [] => .ok ()

theorem length_dropWhile_le {α : Type} (p : α → Bool) (l : List α) :
    (l.dropWhile p).length ≤ l.length :=
  (List.dropWhile_suffix p).length_le

/-- The tokens of the characters `cs`, the first of which is at byte `pos`. -/
def scanFrom : List Char → Nat → Except ParseError (List Token)
  | [], _ => .ok []
  | c :: cs, pos =>
    if isBlankChar c then
      let run := c :: cs.takeWhile isBlankChar
      have : (cs.dropWhile isBlankChar).length < (c :: cs).length :=
        Nat.lt_succ_of_le (length_dropWhile_le _ _)
      (Token.blank pos (String.ofList run) :: ·) <$>
        scanFrom (cs.dropWhile isBlankChar) (pos + byteLength run)
    else if c = ',' then (Token.comma pos :: ·) <$> scanFrom cs (pos + 1)
    else if c = '-' then (Token.minus pos :: ·) <$> scanFrom cs (pos + 1)
    else if c = '(' then (Token.openParen pos :: ·) <$> scanFrom cs (pos + 1)
    else if c = ')' then (Token.closeParen pos :: ·) <$> scanFrom cs (pos + 1)
    else if isNameChar c then
      let word := c :: cs.takeWhile isNameChar
      let rest := cs.dropWhile isNameChar
      have : rest.length < (c :: cs).length := Nat.lt_succ_of_le (length_dropWhile_le _ _)
      let stop := pos + byteLength word
      match checkFollower rest stop, checkSegments (word.splitOn '.') pos with
      | .error e, _ => .error e
      | .ok (), .error e => .error e
      | .ok (), .ok () =>
        (Token.name pos (Pattern.ofText (String.ofList word)) :: ·) <$> scanFrom rest stop
    else .error ⟨.illegalCharacter c, pos⟩
termination_by cs => cs.length
decreasing_by all_goals first | assumption | exact Nat.lt_succ_self _

/-- The tokens of a selector text, or the first fault in it. -/
def scan (s : String) : Except ParseError (List Token) := scanFrom s.toList 0

end Token

end ScopeSelectors
