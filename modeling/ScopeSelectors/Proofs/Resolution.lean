import ScopeSelectors.Proofs.Counts
import ScopeSelectors.Rule.Table
/-!
# Resolution picks the rule of greatest rank

A matching rule ranks by its specificity first and by its number second (`RankLT`).  The
numbers of the rules of a table are distinct, so the rank is a strict total order on the
matching rules, and there is one of greatest rank.  Resolving a path returns exactly that
rule, or nothing when no rule matches, and listing the matches returns every matching
rule once, by decreasing rank, the resolution first (`resolve_picks_greatest_rank`).

The two come from one list, the matching rules in table order (`candidates`): `best`
scans it for the greatest rank, and `matching` sorts it.  Both are read off the ranks of
its members through the key of their specificities (`Specificity.key`), where the rank is
the lexicographic order of two numbers.
-/

namespace ScopeSelectors

variable {α : Type}

namespace Resolution

/-- `v` ranks below `w`: it is less specific, or as specific and declared earlier. -/
def RankLT (v w : Resolution α) : Prop :=
  v.specificity < w.specificity ∨ (v.specificity = w.specificity ∧ v.index < w.index)

variable {u v w : Resolution α}

theorem rankLT_iff_key : v.RankLT w ↔ v.specificity.key < w.specificity.key ∨
    (v.specificity.key = w.specificity.key ∧ v.index < w.index) := by
  rw [RankLT, Specificity.lt_iff_key_lt, Specificity.key_inj]

theorem compareRank_eq_lt_iff : compareRank v w = .lt ↔ v.RankLT w := by
  show ((Specificity.compare _ _).then _) = .lt ↔ _
  rw [Specificity.compare_eq_compare_key, Ordering.then_eq_lt, Nat.compare_eq_lt,
    Nat.compare_eq_eq, Nat.compare_eq_lt, rankLT_iff_key]

theorem compareRank_eq_gt_iff : compareRank v w = .gt ↔ w.RankLT v := by
  show ((Specificity.compare _ _).then _) = .gt ↔ _
  rw [Specificity.compare_eq_compare_key, Ordering.then_eq_gt, Nat.compare_eq_gt,
    Nat.compare_eq_eq, Nat.compare_eq_gt, rankLT_iff_key]
  omega

theorem RankLT.trans (h₁ : u.RankLT v) (h₂ : v.RankLT w) : u.RankLT w := by
  rw [rankLT_iff_key] at *
  omega

theorem RankLT.asymm (h : v.RankLT w) : ¬ w.RankLT v := by
  rw [rankLT_iff_key] at *
  omega

theorem not_rankLT_trans (h₁ : ¬ u.RankLT v) (h₂ : ¬ v.RankLT w) : ¬ u.RankLT w := by
  rw [rankLT_iff_key] at *
  omega

/-- Of two resolutions with different numbers, one ranks below the other. -/
theorem rankLT_or_rankLT (h : v.index ≠ w.index) : v.RankLT w ∨ w.RankLT v := by
  rw [rankLT_iff_key, rankLT_iff_key]
  omega

end Resolution

open Resolution

namespace RuleTable

/-- The resolution of `rule`, numbered `index`, if it matches `path`. -/
def hitOf (path : ScopePath) (rule : Rule α) (index : Nat) : Option (Resolution α) :=
  if (rule.selector.evaluate path).matched then
    some ⟨rule.value, rule.selector, (rule.selector.evaluate path).specificity, index⟩
  else none

/-- The resolution of rule `i` of the table, if it matches `path`. -/
def hit (t : RuleTable α) (path : ScopePath) (i : Nat) : Option (Resolution α) :=
  t.rules[i]?.bind fun rule => hitOf path rule i

theorem index_of_hitOf {path : ScopePath} {rule : Rule α} {i : Nat} {v : Resolution α}
    (h : hitOf path rule i = some v) : v.index = i := by
  unfold hitOf at h
  split at h
  · cases h
    rfl
  · cases h

theorem index_of_hit {t : RuleTable α} {path : ScopePath} {i : Nat} {v : Resolution α}
    (h : t.hit path i = some v) : v.index = i := by
  obtain ⟨rule, -, hv⟩ := Option.bind_eq_some_iff.mp h
  exact index_of_hitOf hv

/-! ## The matching rules in table order -/

theorem candidatesFrom_value (path : ScopePath) (k : Nat) (rules : List (Rule α)) :
    (candidatesFrom path k rules).value = (rules.zipIdx k).filterMap fun p => hitOf path p.1 p.2 := by
  induction rules generalizing k with
  | nil => rfl
  | cons rule rest ih =>
    simp only [candidatesFrom, Logged.value_bind, List.zipIdx_cons, List.filterMap_cons, ← ih]
    unfold hitOf
    split <;> rfl

/-- Numbers increase along a numbered list. -/
theorem pairwise_zipIdx {β : Type} (l : List β) (k : Nat) :
    (l.zipIdx k).Pairwise fun p q => p.2 < q.2 := by
  induction l generalizing k with
  | nil => exact .nil
  | cons rule rest ih =>
    refine .cons (fun q hq => ?_) (ih (k + 1))
    have := List.le_snd_of_mem_zipIdx hq
    omega

variable {t : RuleTable α} {path : ScopePath}

theorem mem_candidates {v : Resolution α} :
    v ∈ (t.candidates path).value ↔ ∃ i, t.hit path i = some v := by
  simp only [candidates, candidatesFrom_value, List.mem_filterMap, hit, Option.bind_eq_some_iff]
  constructor
  · rintro ⟨⟨rule, i⟩, hmem, hv⟩
    exact ⟨i, rule, List.mem_zipIdx_iff_getElem?.mp hmem, hv⟩
  · rintro ⟨i, rule, hrule, hv⟩
    exact ⟨(rule, i), List.mem_zipIdx_iff_getElem?.mpr hrule, hv⟩

/-- The matching rules come in table order. -/
theorem candidates_sorted : (t.candidates path).value.Pairwise fun a b => a.index < b.index := by
  rw [candidates, candidatesFrom_value]
  refine (pairwise_zipIdx t.rules 0).filterMap _ fun p q hpq v hv v' hv' => ?_
  rw [index_of_hitOf hv, index_of_hitOf hv']
  exact hpq

/-- In a list with increasing numbers, a number names one member. -/
theorem eq_of_index_eq {L : List (Resolution α)} (hL : L.Pairwise fun a b => a.index < b.index)
    {v w : Resolution α} (hv : v ∈ L) (hw : w ∈ L) (h : v.index = w.index) : v = w := by
  induction L with
  | nil => cases hv
  | cons r rest ih =>
    rw [List.pairwise_cons] at hL
    rcases List.mem_cons.mp hv with hv | hv <;> rcases List.mem_cons.mp hw with hw | hw
    · rw [hv, hw]
    · rw [hv] at h
      exact absurd h (Nat.ne_of_lt (hL.1 w hw))
    · rw [hw] at h
      exact absurd h.symm (Nat.ne_of_lt (hL.1 v hv))
    · exact ih hL.2 hv hw

/-! ## The greatest rank -/

theorem best_eq_none_iff {L : List (Resolution α)} : best L = none ↔ L = [] := by
  cases L with
  | nil => simp [best]
  | cons r rest =>
    simp only [best, reduceCtorEq, iff_false]
    cases best rest with
    | none => simp
    | some b =>
      dsimp only
      split <;> simp

/-- `best` returns a member that every other member ranks below. -/
theorem best_eq_some {L : List (Resolution α)} (hL : L.Pairwise fun a b => a.index < b.index)
    {w : Resolution α} (h : best L = some w) :
    w ∈ L ∧ ∀ v ∈ L, v.index ≠ w.index → v.RankLT w := by
  induction L generalizing w with
  | nil => cases h
  | cons r rest ih =>
    rw [List.pairwise_cons] at hL
    rw [best] at h
    cases hb : best rest with
    | none =>
      -- `r` is alone
      rw [hb] at h
      cases h
      rw [best_eq_none_iff.mp hb]
      refine ⟨List.mem_singleton_self _, fun v hv hne => ?_⟩
      exact absurd (by rw [List.mem_singleton.mp hv]) hne
    | some b =>
      rw [hb] at h
      obtain ⟨hbmem, hbmax⟩ := ih hL.2 hb
      dsimp only at h
      split at h
      · -- `r` outranks the best of the rest
        next hgt =>
        rw [← Option.some.inj h]
        have hrb : b.RankLT r := compareRank_eq_gt_iff.mp (by simpa using hgt)
        refine ⟨List.mem_cons_self, fun v hv hne => ?_⟩
        rcases List.mem_cons.mp hv with rfl | hv
        · exact absurd rfl hne
        · by_cases hvb : v.index = b.index
          · rw [eq_of_index_eq hL.2 hv hbmem hvb]
            exact hrb
          · exact (hbmax v hv hvb).trans hrb
      · -- the best of the rest stays
        next hgt =>
        rw [← Option.some.inj h]
        refine ⟨List.mem_cons_of_mem r hbmem, fun v hv hne => ?_⟩
        rcases List.mem_cons.mp hv with rfl | hv
        · rcases rankLT_or_rankLT hne with hlt | hlt
          · exact hlt
          · exact absurd (by simpa using compareRank_eq_gt_iff.mpr hlt) hgt
        · exact hbmax v hv hne

/-! ## The ranking -/

/-- What `matching` sorts by: `a` does not rank below `b`. -/
theorem notBelow_iff {a b : Resolution α} : (compareRank a b != .lt) = true ↔ ¬ a.RankLT b := by
  rw [← compareRank_eq_lt_iff]
  simp

/-- The ranking of distinct numbers goes down strictly. -/
theorem pairwise_mergeSort_rank {L : List (Resolution α)}
    (hL : L.Pairwise fun a b => a.index < b.index) :
    (L.mergeSort fun a b => compareRank a b != .lt).Pairwise fun a b => b.RankLT a := by
  -- not ranking below is transitive and total, so the sort puts no member below a later one
  have htrans : ∀ a b c : Resolution α, (compareRank a b != .lt) = true →
      (compareRank b c != .lt) = true → (compareRank a c != .lt) = true :=
    fun a b c hab hbc =>
      notBelow_iff.mpr (not_rankLT_trans (notBelow_iff.mp hab) (notBelow_iff.mp hbc))
  have htotal : ∀ a b : Resolution α,
      ((compareRank a b != .lt) || (compareRank b a != .lt)) = true := by
    intro a b
    by_cases hab : a.RankLT b
    · rw [notBelow_iff.mpr hab.asymm, Bool.or_true]
    · rw [notBelow_iff.mpr hab, Bool.true_or]
  have hsorted := List.pairwise_mergeSort htrans htotal L
  -- and the numbers stay distinct through the sort
  have hperm := List.mergeSort_perm L fun a b => compareRank a b != .lt
  have hnodup : (L.map (·.index)).Nodup := List.pairwise_map.mpr (hL.imp Nat.ne_of_lt)
  have hdistinct := List.pairwise_map.mp ((hperm.map (·.index)).nodup_iff.mpr hnodup)
  refine (hsorted.and hdistinct).imp fun ⟨hle, hne⟩ => ?_
  rcases rankLT_or_rankLT hne with hlt | hlt
  · exact absurd hlt (notBelow_iff.mp hle)
  · exact hlt

/-- The first of the ranking is the best. -/
theorem head?_mergeSort_eq_best {L : List (Resolution α)}
    (hL : L.Pairwise fun a b => a.index < b.index) :
    (L.mergeSort fun a b => compareRank a b != .lt).head? = best L := by
  have hsorted := pairwise_mergeSort_rank hL
  cases hb : best L with
  | none =>
    rw [best_eq_none_iff.mp hb]
    simp
  | some w =>
    obtain ⟨hwmem, hwmax⟩ := best_eq_some hL hb
    have hw : w ∈ L.mergeSort fun a b => compareRank a b != .lt := List.mem_mergeSort.mpr hwmem
    cases hS : L.mergeSort fun a b => compareRank a b != .lt with
    | nil =>
      rw [hS] at hw
      cases hw
    | cons h rest =>
      rw [hS] at hsorted hw
      have hmem : h ∈ L := List.mem_mergeSort.mp (hS ▸ List.mem_cons_self)
      rw [List.head?_cons, Option.some.injEq]
      -- a first member other than `w` would rank both below and above it
      by_cases hi : h.index = w.index
      · exact eq_of_index_eq hL hmem hwmem hi
      · rcases List.mem_cons.mp hw with hwh | hwr
        · exact hwh.symm
        · exact absurd (hwmax h hmem hi) (List.rel_of_pairwise_cons hsorted hwr).asymm

/-- No rule matches exactly when there are no candidates. -/
theorem candidates_eq_nil_iff :
    (t.candidates path).value = [] ↔ ∀ rule ∈ t.rules, (rule.selector.evaluate path).matched = false := by
  rw [List.eq_nil_iff_forall_not_mem]
  constructor
  · intro h rule hrule
    obtain ⟨i, hi⟩ := List.mem_iff_getElem?.mp hrule
    cases hm : (rule.selector.evaluate path).matched
    · rfl
    · -- a matching rule would be a candidate
      exact absurd (mem_candidates.mpr ⟨i, by simp [hit, hi, hitOf, hm]⟩)
        (h ⟨rule.value, rule.selector, (rule.selector.evaluate path).specificity, i⟩)
  · intro h v hv
    obtain ⟨i, hi⟩ := mem_candidates.mp hv
    obtain ⟨rule, hrule, hv⟩ := Option.bind_eq_some_iff.mp hi
    simp [hitOf, h rule (List.mem_of_getElem? hrule)] at hv

/-- The best candidate is the hit of its own rule, and every other hit ranks below it. -/
theorem best_candidates_eq_some {w : Resolution α} (hw : best (t.candidates path).value = some w) :
    t.hit path w.index = some w ∧ ∀ i v, t.hit path i = some v → i ≠ w.index → v.RankLT w := by
  obtain ⟨hmem, hmax⟩ := best_eq_some candidates_sorted hw
  obtain ⟨i, hi⟩ := mem_candidates.mp hmem
  refine ⟨index_of_hit hi ▸ hi, fun j v hv hne => hmax v (mem_candidates.mpr ⟨j, hv⟩) ?_⟩
  rw [index_of_hit hv]
  exact hne

theorem resolve_value (t : RuleTable α) (path : ScopePath) :
    (t.resolve path).value = best (t.candidates path).value := by
  unfold resolve
  simp only [Logged.value_bind]
  cases best (t.candidates path).value <;> rfl

theorem matching_value (t : RuleTable α) (path : ScopePath) :
    (t.matching path).value =
      (t.candidates path).value.mergeSort fun a b => compareRank a b != .lt := rfl

/-- Resolution returns nothing exactly when no rule matches, and otherwise the matching rule
of greatest rank; listing the matches gives every matching rule once, by strictly
decreasing rank, with the resolution first. -/
theorem resolve_picks_greatest_rank (t : RuleTable α) (path : ScopePath) :
    ((t.resolve path).value = none ↔
      ∀ rule ∈ t.rules, (rule.selector.evaluate path).matched = false) ∧
    (∀ w, (t.resolve path).value = some w →
      t.hit path w.index = some w ∧ ∀ i v, t.hit path i = some v → i ≠ w.index → v.RankLT w) ∧
    (∀ v, v ∈ (t.matching path).value ↔ ∃ i, t.hit path i = some v) ∧
    (t.matching path).value.Pairwise (fun a b => b.RankLT a) ∧
    (t.matching path).value.head? = (t.resolve path).value := by
  have hsorted : (t.candidates path).value.Pairwise fun a b => a.index < b.index :=
    candidates_sorted
  rw [resolve_value, matching_value]
  refine ⟨best_eq_none_iff.trans candidates_eq_nil_iff, fun w => best_candidates_eq_some,
    fun v => ?_, pairwise_mergeSort_rank hsorted, head?_mergeSort_eq_best hsorted⟩
  -- sorting keeps the members
  rw [List.mem_mergeSort]
  exact mem_candidates

end RuleTable

end ScopeSelectors
