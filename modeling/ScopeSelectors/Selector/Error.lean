import ScopeSelectors.Text.Escape
/-!
# Selector syntax errors

A selector text that does not parse is refused with a `ParseError`: the kind of
fault and the byte offset in the text where it was found.  Its message is the
kind's reason followed by ` at byte N (zero-based)`.  An illegal character is
shown quoted and escaped (`Text.quoteChar`), so that a control character or a
combining mark stays visible.
-/

namespace ScopeSelectors

/-- What is wrong with a selector text. -/
inductive ParseError.Kind where
  /-- The text holds no operand at all. -/
  | emptySelector
  /-- A `(` is never closed. -/
  | unclosedGroup
  /-- A `)` closes nothing. -/
  | unmatchedCloseParen
  /-- `()` holds nothing. -/
  | emptyGroup
  /-- `,` or `-` has no operand after it. -/
  | danglingOperator (op : Char)
  /-- A character that no token may hold. -/
  | illegalCharacter (c : Char)
  /-- A scope pattern has an empty segment. -/
  | emptySegment
  /-- Two operands follow each other with nothing between them. -/
  | missingSeparator
  /-- The tree would be higher, or an operand more deeply nested, than `limit`. -/
  | nestingTooDeep (limit : Nat)
  deriving DecidableEq, Repr

/-- A refused selector text: the fault and its byte offset. -/
structure ParseError where
  /-- The fault. -/
  kind : ParseError.Kind
  /-- The zero-based byte offset of the fault. -/
  offset : Nat
  deriving DecidableEq, Repr

namespace ParseError

/-- The reason a fault gives, without its place. -/
def Kind.reason : Kind → String
  | .emptySelector => "empty selector"
  | .unclosedGroup => "unclosed '(' in selector"
  | .unmatchedCloseParen => "unmatched closing ')' in selector"
  | .emptyGroup => "empty group '()'"
  | .danglingOperator op => "dangling operator '" ++ op.toString ++ "'"
  | .illegalCharacter c => "illegal character " ++ Text.quoteChar c
  | .emptySegment => "empty segment in scope name"
  | .missingSeparator => "expected whitespace or ',' between selector operands"
  | .nestingTooDeep limit => "selector nesting exceeds " ++ toString limit ++ " levels"

/-- The full message: the reason and the byte offset. -/
def message (e : ParseError) : String :=
  e.kind.reason ++ " at byte " ++ toString e.offset ++ " (zero-based)"

end ParseError

end ScopeSelectors
