import Mathlib
import ScopeSelectors.Specificity
/-!
# Counts of a specificity and their order

A count of a specificity is a 32-bit number that stops at `countMax`.  Adding and taking
the larger of counts that were clamped gives the clamp of the exact sum or maximum
(`addCounts_clampCount`, `max_clampCount`, `clampCount_add_clampCount`), so a count
built up through a tree is the clamp of its exact value.

The order of specificities compares four counts one after the other, the skipped count
the other way round.  Written one after the other in base `2 ^ 32`, the skipped count
replaced by its distance from `countMax`, the counts make one number (`Specificity.key`)
whose order is the order of specificities (`Specificity.compare_eq_compare_key`), and
which determines the specificity (`Specificity.key_inj`).  Facts about the order are then
facts about numbers.
-/

namespace ScopeSelectors

theorem clampCount_toNat (n : Nat) : (clampCount n).toNat = min n countMax := by
  simp only [clampCount]
  exact Nat.mod_eq_of_lt (Nat.lt_of_le_of_lt (Nat.min_le_right _ _) (by decide))

theorem clampCount_eq_iff {n : Nat} {a : UInt32} : clampCount n = a ↔ min n countMax = a.toNat := by
  rw [← UInt32.toNat_inj, clampCount_toNat]

@[simp] theorem clampCount_zero : clampCount 0 = 0 := rfl

theorem UInt32.toNat_max (a b : UInt32) : (max a b).toNat = max a.toNat b.toNat := by
  show (if a ≤ b then b else a).toNat = max a.toNat b.toNat
  split
  · next h => rw [UInt32.le_iff_toNat_le] at h; omega
  · next h => rw [UInt32.le_iff_toNat_le] at h; omega

theorem addCounts_clampCount (a b : Nat) :
    addCounts (clampCount a) (clampCount b) = clampCount (a + b) := by
  rw [addCounts, clampCount_eq_iff, clampCount_toNat, clampCount_toNat, clampCount_toNat]
  omega

theorem max_clampCount (a b : Nat) : max (clampCount a) (clampCount b) = clampCount (max a b) := by
  rw [eq_comm, clampCount_eq_iff, UInt32.toNat_max, clampCount_toNat, clampCount_toNat]
  omega

theorem clampCount_add_clampCount (a b g : Nat) :
    clampCount ((clampCount a).toNat + (clampCount b).toNat + g) = clampCount (a + b + g) := by
  rw [clampCount_eq_iff, clampCount_toNat, clampCount_toNat, clampCount_toNat]
  omega

/-! ## The order -/

/-- Two orderings are equal when they agree on being `lt` and on being `gt`. -/
theorem Ordering.ext_lt_gt {o₁ o₂ : Ordering} (hlt : o₁ = .lt ↔ o₂ = .lt)
    (hgt : o₁ = .gt ↔ o₂ = .gt) : o₁ = o₂ := by
  cases o₁ <;> cases o₂ <;> simp_all

theorem UInt32.compare_eq_compare_toNat (a b : UInt32) : compare a b = compare a.toNat b.toNat := by
  simp only [compare, compareOfLessAndEq, UInt32.lt_iff_toNat_lt, ← UInt32.toNat_inj]

namespace Specificity

/-- The four counts as one number, most significant first, the skipped count as its
distance from `countMax`. -/
def key (s : Specificity) : Nat :=
  ((s.segments.toNat * 4294967296 + s.depth.toNat) * 4294967296 +
    (countMax - s.skipped.toNat)) * 4294967296 + s.negations.toNat

/-- Each count is one digit in base `2 ^ 32`. -/
theorem counts_lt (s : Specificity) :
    s.segments.toNat < 4294967296 ∧ s.depth.toNat < 4294967296 ∧
      s.skipped.toNat < 4294967296 ∧ s.negations.toNat < 4294967296 :=
  ⟨s.segments.toNat_lt, s.depth.toNat_lt, s.skipped.toNat_lt, s.negations.toNat_lt⟩

theorem compare_eq_compare_key (a b : Specificity) :
    Specificity.compare a b = compare a.key b.key := by
  have := a.counts_lt
  have := b.counts_lt
  simp only [Specificity.compare, UInt32.compare_eq_compare_toNat, key, countMax]
  -- each level of the lexicographic comparison is one digit of the key
  apply Ordering.ext_lt_gt <;>
    simp only [Ordering.then_eq_lt, Ordering.then_eq_gt, Nat.compare_eq_lt, Nat.compare_eq_gt,
      Nat.compare_eq_eq] <;> omega

theorem lt_iff_key_lt {a b : Specificity} : a < b ↔ a.key < b.key := by
  show Specificity.compare a b = .lt ↔ _
  rw [compare_eq_compare_key, Nat.compare_eq_lt]

theorem key_inj {a b : Specificity} : a.key = b.key ↔ a = b := by
  constructor
  · intro h
    obtain ⟨s₁, d₁, k₁, n₁⟩ := a
    obtain ⟨s₂, d₂, k₂, n₂⟩ := b
    have h₁ := counts_lt ⟨s₁, d₁, k₁, n₁⟩
    have h₂ := counts_lt ⟨s₂, d₂, k₂, n₂⟩
    dsimp only at h₁ h₂
    simp only [key, countMax] at h
    simp only [mk.injEq, ← UInt32.toNat_inj]
    omega
  · rintro rfl
    rfl

end Specificity

end ScopeSelectors
