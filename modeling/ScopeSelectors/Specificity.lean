/-!
# Specificity

When several selectors match the same point, the most *specific* one wins.  A
specificity counts four things about a match:

* `segments`: literal pattern segments that matched (wildcards do not count);
* `depth`: one more than the position of the innermost scope name matched;
* `skipped`: scope names passed over between an outer match and the inner
  match of a descendant selector;
* `negations`: negations that held.

Specificities are ordered lexicographically: more segments first, then more
depth, then *fewer* skipped names, then more negations.  The counts are 32-bit
and stop at their greatest value instead of wrapping.

`scalar` packs a specificity into one 64-bit word, sixteen bits a count shifted
into place and joined by bitwise or, each count clamped to `0xFFFF` and the
skipped count stored as its distance from `0xFFFF`.  On counts up to `0xFFFF`
its order is the order of specificities.
-/

namespace ScopeSelectors

/-- The greatest value of a count. -/
def countMax : Nat := 4294967295

/-- `n` as a count, stopping at `countMax`. -/
def clampCount (n : Nat) : UInt32 := UInt32.ofNat (min n countMax)

/-- The sum of two counts, stopping at `countMax`. -/
def addCounts (a b : UInt32) : UInt32 := clampCount (a.toNat + b.toNat)

/-- How specific a match is. -/
structure Specificity where
  /-- Literal pattern segments matched. -/
  segments : UInt32
  /-- One more than the innermost position matched. -/
  depth : UInt32
  /-- Scope names passed over between nested matches. -/
  skipped : UInt32
  /-- Negations that held. -/
  negations : UInt32
  deriving DecidableEq, Repr

namespace Specificity

/-- All counts zero: the specificity of no match. -/
def zero : Specificity := ⟨0, 0, 0, 0⟩

/-- An atom with `segments` literal segments matching at `position`. -/
def atom (segments position : Nat) : Specificity :=
  ⟨clampCount segments, clampCount (position + 1), 0, 0⟩

/-- A negation that held. -/
def negation : Specificity := ⟨0, 0, 0, 1⟩

/-- An outer match `a` with an inner match `b` below it, `gap` names apart:
segments, skipped names and negations add up, the depth is the deeper one. -/
def descend (a b : Specificity) (gap : Nat) : Specificity :=
  ⟨addCounts a.segments b.segments, max a.depth b.depth,
    clampCount (a.skipped.toNat + b.skipped.toNat + gap),
    addCounts a.negations b.negations⟩

/-- The order of specificities: segments, depth, fewer skipped, negations. -/
protected def compare (a b : Specificity) : Ordering :=
  (compare a.segments b.segments).then <|
    (compare a.depth b.depth).then <|
      (compare b.skipped a.skipped).then (compare a.negations b.negations)

instance : Ord Specificity := ⟨Specificity.compare⟩

instance : LT Specificity := ⟨fun a b => Specificity.compare a b = .lt⟩

instance (a b : Specificity) : Decidable (a < b) :=
  inferInstanceAs (Decidable (Specificity.compare a b = .lt))

instance : LE Specificity := ⟨fun a b => Specificity.compare a b ≠ .gt⟩

instance (a b : Specificity) : Decidable (a ≤ b) :=
  inferInstanceAs (Decidable (Specificity.compare a b ≠ .gt))

/-- A count as a sixteen-bit lane: the count, or `0xFFFF` if it is greater. -/
def lane (v : UInt32) : UInt64 := UInt64.ofNat (min v.toNat 65535)

/-- The packed form: segments, depth, closeness and negations, sixteen bits each and most
significant first, where the closeness is the distance of the skipped lane from `0xFFFF`. -/
def scalar (s : Specificity) : UInt64 :=
  let closeness := 65535 - lane s.skipped
  lane s.segments <<< 48 ||| lane s.depth <<< 32 ||| closeness <<< 16 ||| lane s.negations

/-- The four counts as records show them:
`Specificity { segments: A, depth: B, skipped: C, negations: D }`. -/
def traceText (s : Specificity) : String :=
  "Specificity \x7b segments: " ++ toString s.segments ++ ", depth: " ++ toString s.depth ++
    ", skipped: " ++ toString s.skipped ++ ", negations: " ++ toString s.negations ++ " \x7d"

example : scalar zero = 4294901760 := by decide

end Specificity

end ScopeSelectors
