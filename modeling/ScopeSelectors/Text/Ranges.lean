/-!
# Tables of code point ranges

A character property from the Unicode database is kept as an array of closed
ranges of code points, ascending and disjoint.  `inRanges` is membership in
such a table, and `inRanges_iff` says it is exactly "some range holds the
code point".
-/

namespace ScopeSelectors.Text

/-- Whether the code point `n` lies in one of the closed ranges `rs`. -/
def inRanges (rs : Array (Nat × Nat)) (n : Nat) : Bool :=
  rs.any fun r => r.1 ≤ n && n ≤ r.2

theorem inRanges_iff {rs : Array (Nat × Nat)} {n : Nat} :
    inRanges rs n = true ↔ ∃ r ∈ rs, r.1 ≤ n ∧ n ≤ r.2 := by
  unfold inRanges
  rw [Array.any_eq_true']
  simp

end ScopeSelectors.Text
