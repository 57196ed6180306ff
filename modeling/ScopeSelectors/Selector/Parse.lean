import ScopeSelectors.Selector.Node
import ScopeSelectors.Selector.Token
/-!
# Reading a selector

A selector text is read in two passes: `Token.scan` cuts it into tokens, and a
recursive descent over the tokens builds the tree.  From the loosest binding
to the tightest:

* `anyOf`: conjunctions separated by `,`, grouped to the left;
* `allOf`: negations separated by blanks, grouped to the left;
* `negation`: a `-` before a name or a `(`, or a primary;
* `primary`: a name, or an `anyOf` between parentheses.

Blanks around `,` and inside parentheses are skipped.  A blank only joins two
operands when an operand (a name, `-` or `(`) follows it.

Two depths are bounded by `depthLimit`: the number of groups and negations
around an operand (`nesting`), checked when one opens, and the height of every
subtree built, checked when it is built.  Both faults are reported at the
operator that went over the limit.

Every step returns the tokens it left with a proof that it consumed at least
one (`Rest`), so the recursion is well founded on the number of tokens, and
on the binding level where a step consumes nothing before the next.
-/

namespace ScopeSelectors

/-- The tokens left after a step that consumed at least one of `ts`. -/
abbrev Rest (ts : List Token) := { r : List Token // r.length < ts.length }

/-- The tokens left after a step that may have consumed none of `ts`. -/
abbrev Tail (ts : List Token) := { r : List Token // r.length ≤ ts.length }

/-- A subtree together with its height. -/
structure Parsed where
  /-- The subtree. -/
  node : Node
  /-- Its height. -/
  height : Nat

namespace Parsed

/-- `build` over one subtree; refused at `offset` if the result is too high. -/
def wrap (build : Node → Node) (x : Parsed) (offset : Nat) : Except ParseError Parsed :=
  if depthLimit < x.height + 1 then .error ⟨.nestingTooDeep depthLimit, offset⟩
  else .ok ⟨build x.node, x.height + 1⟩

/-- `build` over two subtrees; refused at `offset` if the result is too high. -/
def combine (build : Node → Node → Node) (l r : Parsed) (offset : Nat) :
    Except ParseError Parsed :=
  if depthLimit < max l.height r.height + 1 then .error ⟨.nestingTooDeep depthLimit, offset⟩
  else .ok ⟨build l.node r.node, max l.height r.height + 1⟩

end Parsed

namespace Token

/-- The tokens without the blank ones at their front. -/
def skipBlank (ts : List Token) : List Token := ts.dropWhile Token.isBlank

theorem length_skipBlank_le (ts : List Token) : (skipBlank ts).length ≤ ts.length :=
  length_dropWhile_le _ _

/-- Whether the tokens start with an operand: a name, `-` or `(`. -/
def startsOperand : List Token → Bool
  | .name .. :: _ | .minus _ :: _ | .openParen _ :: _ => true
  | _ => false

/-- Whether the tokens start with what a `-` may negate: a name or `(`. -/
def startsNegand : List Token → Bool
  | .name .. :: _ | .openParen _ :: _ => true
  | _ => false

end Token

open Token (skipBlank length_skipBlank_le)

section Descent

-- The byte length of the whole text, where a missing operand is reported.
variable (textEnd : Nat)

mutual

/-- `anyOf`: one or more `allOf`, separated by `,`. -/
def parseAnyOf (nesting : Nat) (ts : List Token) : Except ParseError (Parsed × Rest ts) :=
  match parseAllOf nesting ts with
  | .error e => .error e
  | .ok (left, r1) =>
    have := r1.property
    match anyOfTail nesting left r1.val with
    | .error e => .error e
    | .ok (x, r2) => .ok (x, ⟨r2.val, Nat.lt_of_le_of_lt r2.property r1.property⟩)
termination_by (ts.length, 3)

/-- The `, allOf` parts after the first, folded onto `acc` from the left. -/
def anyOfTail (nesting : Nat) (acc : Parsed) (ts : List Token) :
    Except ParseError (Parsed × Tail ts) :=
  match h : skipBlank ts with
  | .comma offset :: r =>
    have hr : (skipBlank r).length < ts.length := by
      have := length_skipBlank_le ts
      have := length_skipBlank_le r
      rw [h] at *
      simp at *
      omega
    if Token.startsOperand (skipBlank r) then
      match parseAllOf nesting (skipBlank r) with
      | .error e => .error e
      | .ok (right, r2) =>
        have := r2.property
        match Parsed.combine .or acc right offset with
        | .error e => .error e
        | .ok x =>
          match anyOfTail nesting x r2.val with
          | .error e => .error e
          | .ok (y, r3) => .ok (y, ⟨r3.val, by have := r3.property; omega⟩)
    else .error ⟨.danglingOperator ',', offset⟩
  | rest => .ok (acc, ⟨rest, h ▸ length_skipBlank_le ts⟩)
termination_by (ts.length, 0)

/-- `allOf`: one or more negations, separated by blanks. -/
def parseAllOf (nesting : Nat) (ts : List Token) : Except ParseError (Parsed × Rest ts) :=
  match parseNegation nesting ts with
  | .error e => .error e
  | .ok (left, r1) =>
    have := r1.property
    match allOfTail nesting left r1.val with
    | .error e => .error e
    | .ok (x, r2) => .ok (x, ⟨r2.val, Nat.lt_of_le_of_lt r2.property r1.property⟩)
termination_by (ts.length, 2)

/-- The `blank negation` parts after the first, folded onto `acc` from the left. -/
def allOfTail (nesting : Nat) (acc : Parsed) (ts : List Token) :
    Except ParseError (Parsed × Tail ts) :=
  match ts with
  | .blank offset run :: r =>
    if Token.startsOperand r then
      match parseNegation nesting r with
      | .error e => .error e
      | .ok (right, r2) =>
        have := r2.property
        match Parsed.combine .and acc right offset with
        | .error e => .error e
        | .ok x =>
          match allOfTail nesting x r2.val with
          | .error e => .error e
          | .ok (y, r3) =>
            .ok (y, ⟨r3.val, Nat.le_succ_of_le (Nat.le_of_lt (Nat.lt_of_le_of_lt r3.property r2.property))⟩)
    else .ok (acc, ⟨.blank offset run :: r, Nat.le_refl _⟩)
  | rest => .ok (acc, ⟨rest, Nat.le_refl _⟩)
termination_by (ts.length, 0)

/-- `negation`: `-` before a name or a group, or a primary. -/
def parseNegation (nesting : Nat) (ts : List Token) : Except ParseError (Parsed × Rest ts) :=
  match ts with
  | .minus offset :: r =>
    if !Token.startsNegand r then .error ⟨.danglingOperator '-', offset⟩
    else if depthLimit < nesting + 1 then .error ⟨.nestingTooDeep depthLimit, offset⟩
    else
      match parsePrimary (nesting + 1) r with
      | .error e => .error e
      | .ok (x, r1) =>
        match Parsed.wrap .not x offset with
        | .error e => .error e
        | .ok y => .ok (y, ⟨r1.val, Nat.lt_succ_of_lt r1.property⟩)
  | ts => parsePrimary nesting ts
termination_by (ts.length, 1)

/-- `primary`: a name, or an `anyOf` between parentheses. -/
def parsePrimary (nesting : Nat) (ts : List Token) : Except ParseError (Parsed × Rest ts) :=
  match ts with
  | .name _ p :: r => .ok (⟨.atom p, 1⟩, ⟨r, by simp⟩)
  | .openParen offset :: r =>
    if depthLimit < nesting + 1 then .error ⟨.nestingTooDeep depthLimit, offset⟩
    else
      match h : skipBlank r with
      | [] => .error ⟨.unclosedGroup, offset⟩
      | .closeParen _ :: _ => .error ⟨.emptyGroup, offset⟩
      | t :: inner =>
        have : (t :: inner).length < (Token.openParen offset :: r).length := by
          have := length_skipBlank_le r
          rw [h] at this
          simp at *
          omega
        match parseAnyOf (nesting + 1) (t :: inner) with
        | .error e => .error e
        | .ok (x, r1) =>
          match h2 : skipBlank r1.val with
          | .closeParen _ :: r2 =>
            match Parsed.wrap .group x offset with
            | .error e => .error e
            | .ok y =>
              .ok (y, ⟨r2, by
                have := length_skipBlank_le r1.val
                have := r1.property
                rw [h2] at *
                simp at *
                omega⟩)
          | [] => .error ⟨.unclosedGroup, offset⟩
          | t :: _ => .error ⟨.missingSeparator, t.start⟩
  | .closeParen offset :: _ => .error ⟨.unmatchedCloseParen, offset⟩
  | .comma offset :: _ => .error ⟨.danglingOperator ',', offset⟩
  | .minus offset :: _ => .error ⟨.danglingOperator '-', offset⟩
  | .blank offset _ :: _ => .error ⟨.missingSeparator, offset⟩
  | [] => .error ⟨.emptySelector, textEnd⟩
termination_by (ts.length, 0)

end

end Descent

/-- The tree of a token list, read as a whole selector of `textEnd` bytes. -/
def Node.ofTokens (textEnd : Nat) (tokens : List Token) : Except ParseError Node :=
  match skipBlank tokens with
  | [] => .error ⟨.emptySelector, 0⟩
  | ts@(_ :: _) =>
    match parseAnyOf textEnd 0 ts with
    | .error e => .error e
    | .ok (x, r) =>
      match skipBlank r.val with
      | [] => .ok x.node
      | .closeParen offset :: _ => .error ⟨.unmatchedCloseParen, offset⟩
      | t :: _ => .error ⟨.missingSeparator, t.start⟩

/-- The tree of a selector text, or the first fault in it. -/
def Node.parse (s : String) : Except ParseError Node := do
  let tokens ← Token.scan s
  Node.ofTokens s.utf8ByteSize tokens

end ScopeSelectors
