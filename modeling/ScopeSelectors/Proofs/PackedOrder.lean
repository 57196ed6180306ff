import ScopeSelectors.Proofs.Counts
/-!
# The packed specificity and its order

`Specificity.scalar` packs the four counts of a specificity into one 64-bit word, sixteen bits
each and most significant first: segments, depth, the closeness `0xFFFF - skipped`, and
negations, each count first capped at `0xFFFF` (`Specificity.lane`).  Capping every count is
`Specificity.capped`.

Every lane fits its sixteen bits, so the shifted lanes do not overlap and joining them by
bitwise or adds them; the closeness does not wrap below zero and the sum stays below `2 ^ 64`
(`scalar_toNat`).  The word is therefore the number whose digits in base `2 ^ 16` are the
capped counts, the skipped digit reversed (`Specificity.packed`).  On counts that fit sixteen
bits that number orders specificities as `Specificity.key` does, which is their own order
(`packed_lt_packed_iff`), and it tells them apart (`packed_inj`).  So the word orders
specificities exactly as their capped forms are ordered (`scalar_orders_capped`), which is
their own order when every count fits sixteen bits.  Past `0xFFFF` the capping loses counts,
and the word can order two specificities the other way round.
-/

namespace ScopeSelectors

/-- Joining a number shifted past `k` more bits with one below `2 ^ k`, both shifted by `j`,
adds the two. -/
theorem Nat.shiftLeft_or_shiftLeft {x y k j : Nat} (hy : y < 2 ^ k) :
    x <<< (k + j) ||| y <<< j = (x <<< k + y) <<< j := by
  rw [Nat.shiftLeft_add, ← Nat.shiftLeft_or_distrib, Nat.shiftLeft_add_eq_or_of_lt hy]

/-- Shifting a word left by `k` does not overflow when its value times `2 ^ k` stays below
`2 ^ 64`. -/
theorem UInt64.toNat_shiftLeft_of_lt {x k : UInt64} (hk : k.toNat < 64)
    (hx : x.toNat * 2 ^ k.toNat < 2 ^ 64) : (x <<< k).toNat = x.toNat <<< k.toNat := by
  rw [UInt64.toNat_shiftLeft, Nat.mod_eq_of_lt hk, Nat.shiftLeft_eq, Nat.mod_eq_of_lt hx]

namespace Specificity

/-- A count capped at `0xFFFF`. -/
def capCount (v : UInt32) : UInt32 := UInt32.ofNat (min v.toNat 65535)

/-- The specificity with every count capped at `0xFFFF`. -/
def capped (s : Specificity) : Specificity :=
  ⟨capCount s.segments, capCount s.depth, capCount s.skipped, capCount s.negations⟩

/-- Every count fits sixteen bits. -/
def FitsLanes (s : Specificity) : Prop :=
  s.segments.toNat ≤ 65535 ∧ s.depth.toNat ≤ 65535 ∧ s.skipped.toNat ≤ 65535 ∧
    s.negations.toNat ≤ 65535

instance (s : Specificity) : Decidable s.FitsLanes :=
  inferInstanceAs (Decidable (_ ∧ _ ∧ _ ∧ _))

/-- The counts as the digits of one number in base `2 ^ 16`, most significant first, the
skipped count as its distance from `0xFFFF`. -/
def packed (s : Specificity) : Nat :=
  s.segments.toNat * 2 ^ 48 + s.depth.toNat * 2 ^ 32 + (65535 - s.skipped.toNat) * 2 ^ 16 +
    s.negations.toNat

theorem capCount_toNat (v : UInt32) : (capCount v).toNat = min v.toNat 65535 := by
  rw [capCount, UInt32.toNat_ofNat_of_lt' (Nat.lt_of_le_of_lt (Nat.min_le_right _ _) (by decide))]

theorem lane_toNat (v : UInt32) : (lane v).toNat = (capCount v).toNat := by
  rw [lane, UInt64.toNat_ofNat_of_lt' (Nat.lt_of_le_of_lt (Nat.min_le_right _ _) (by decide)),
    capCount_toNat]

theorem capped_fitsLanes (s : Specificity) : s.capped.FitsLanes := by
  simp only [FitsLanes, capped, capCount_toNat]
  omega

theorem capped_eq_self {s : Specificity} (h : s.FitsLanes) : s.capped = s := by
  obtain ⟨a, b, c, d⟩ := s
  obtain ⟨h₁, h₂, h₃, h₄⟩ := h
  dsimp only at h₁ h₂ h₃ h₄
  simp only [capped, mk.injEq, ← UInt32.toNat_inj, capCount_toNat]
  omega

/-- The packed word is the number whose digits are the capped counts: the lanes do not
overlap, the closeness does not wrap, and nothing passes `2 ^ 64`. -/
theorem scalar_toNat (s : Specificity) : s.scalar.toNat = s.capped.packed := by
  have hlane : ∀ v, (lane v).toNat < 2 ^ 16 := fun v => by rw [lane_toNat, capCount_toNat]; omega
  -- each lane keeps its value when shifted into place
  have hshift : ∀ (x : UInt64) (k : Nat), x.toNat < 2 ^ 16 → k ≤ 48 →
      (x <<< UInt64.ofNat k).toNat = x.toNat <<< k := by
    intro x k hx hk
    have hk' : (UInt64.ofNat k).toNat = k :=
      UInt64.toNat_ofNat_of_lt' (Nat.lt_of_le_of_lt hk (by decide))
    have hfits : x.toNat * 2 ^ k < 2 ^ 64 :=
      calc x.toNat * 2 ^ k
          < 2 ^ 16 * 2 ^ 48 :=
            Nat.mul_lt_mul_of_lt_of_le hx (Nat.pow_le_pow_right (by omega) hk) (Nat.two_pow_pos 48)
        _ = 2 ^ 64 := by norm_num
    rw [UInt64.toNat_shiftLeft_of_lt (by omega) (by rw [hk']; exact hfits), hk']
  -- the closeness does not wrap: the skipped lane is at most `0xFFFF`
  have hclose : (65535 - lane s.skipped).toNat = 65535 - (lane s.skipped).toNat := by
    have hle : lane s.skipped ≤ 65535 := by
      have := hlane s.skipped
      rw [UInt64.le_iff_toNat_le]
      simp only [UInt64.reduceToNat]
      omega
    rw [UInt64.toNat_sub_of_le _ _ hle]
    rfl
  have hclose_lt : (65535 - lane s.skipped).toNat < 2 ^ 16 := by rw [hclose]; omega
  simp only [scalar, UInt64.toNat_or]
  rw [show (48 : UInt64) = UInt64.ofNat 48 from rfl, show (32 : UInt64) = UInt64.ofNat 32 from rfl,
    show (16 : UInt64) = UInt64.ofNat 16 from rfl,
    hshift _ _ (hlane _) (by omega), hshift _ _ (hlane _) (by omega),
    hshift _ _ hclose_lt (by omega)]
  -- the lanes join into one number, sixteen bits at a time
  rw [show 48 = 16 + 32 from rfl, Nat.shiftLeft_or_shiftLeft (hlane _),
    show 32 = 16 + 16 from rfl, Nat.shiftLeft_or_shiftLeft (by have := hlane s.depth; omega),
    ← Nat.shiftLeft_add_eq_or_of_lt (hlane _)]
  simp only [packed, capped, Nat.shiftLeft_eq, hclose, lane_toNat]
  ring

/-! ## The order of the packed number -/

/-- On counts that fit sixteen bits, the packed number orders specificities as they are
ordered: its digits are those of `key`, in a smaller base. -/
theorem packed_lt_packed_iff {s t : Specificity} (hs : s.FitsLanes) (ht : t.FitsLanes) :
    s.packed < t.packed ↔ s < t := by
  obtain ⟨hs₁, hs₂, hs₃, hs₄⟩ := hs
  obtain ⟨ht₁, ht₂, ht₃, ht₄⟩ := ht
  rw [lt_iff_key_lt]
  simp only [packed, key, countMax]
  omega

/-- On counts that fit sixteen bits, the packed number tells specificities apart. -/
theorem packed_inj {s t : Specificity} (hs : s.FitsLanes) (ht : t.FitsLanes) :
    s.packed = t.packed ↔ s = t := by
  obtain ⟨hs₁, hs₂, hs₃, hs₄⟩ := hs
  obtain ⟨ht₁, ht₂, ht₃, ht₄⟩ := ht
  rw [← key_inj]
  simp only [packed, key, countMax]
  omega

/-- The packed word is the capped counts written sixteen bits apart, exactly, and it orders
and tells apart specificities as their capped forms: strictly preserving the order of
specificities whose counts fit sixteen bits. -/
theorem scalar_orders_capped (s t : Specificity) :
    s.capped.FitsLanes ∧
    s.scalar.toNat = s.capped.segments.toNat * 2 ^ 48 + s.capped.depth.toNat * 2 ^ 32 +
      (65535 - s.capped.skipped.toNat) * 2 ^ 16 + s.capped.negations.toNat ∧
    (s.scalar < t.scalar ↔ s.capped < t.capped) ∧
    (s.scalar = t.scalar ↔ s.capped = t.capped) ∧
    (s.FitsLanes → t.FitsLanes → (s.scalar < t.scalar ↔ s < t)) := by
  have hlt : s.scalar < t.scalar ↔ s.capped < t.capped := by
    rw [UInt64.lt_iff_toNat_lt, scalar_toNat, scalar_toNat,
      packed_lt_packed_iff s.capped_fitsLanes t.capped_fitsLanes]
  refine ⟨s.capped_fitsLanes, scalar_toNat s, hlt, ?_, fun hs ht => ?_⟩
  · rw [← UInt64.toNat_inj, scalar_toNat, scalar_toNat,
      packed_inj s.capped_fitsLanes t.capped_fitsLanes]
  · -- capping changes nothing that fits
    rw [hlt, capped_eq_self hs, capped_eq_self ht]

/-- The order of two specificities the tests of the packed word compare, read off the word. -/
theorem scalar_orders_closer_anchors :
    (⟨1, 1, 2, 0⟩ : Specificity).FitsLanes ∧ (⟨1, 1, 0, 0⟩ : Specificity).FitsLanes ∧
      ((scalar ⟨1, 1, 2, 0⟩ < scalar ⟨1, 1, 0, 0⟩) ↔
        (⟨1, 1, 2, 0⟩ : Specificity) < ⟨1, 1, 0, 0⟩) :=
  ⟨by decide, by decide, (scalar_orders_capped _ _).2.2.2.2 (by decide) (by decide)⟩

/-- Past `0xFFFF` capping loses the segment counts, and the depth decides the other way. -/
example : (⟨70000, 5, 0, 0⟩ : Specificity) < ⟨70001, 1, 0, 0⟩ ∧
    scalar ⟨70001, 1, 0, 0⟩ < scalar ⟨70000, 5, 0, 0⟩ := by decide

end Specificity

end ScopeSelectors
