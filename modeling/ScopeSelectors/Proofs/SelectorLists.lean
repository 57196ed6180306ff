import ScopeSelectors.Proofs.Resolution
/-!
# Resolving a list of selectors

`resolveSelectors` resolves a path against a plain list of selectors with their values.  It
reads the selectors that match as triples of specificity, number and value
(`selectorMatches`), and scans them from the first on, each one taking the place of the one
kept unless that one is greater by specificity and then by number (`lastMaxBy?`).  A table
scans its candidates from the last on (`RuleTable.best`).  The two agree: resolving the list
gives the value and specificity of the table's resolution (`resolveSelectors_eq_resolve`).

* The triples are the table's candidates, each read as a triple
  (`selectorMatches_eq_map_candidates`), and comparing triples is comparing the ranks of the
  candidates, so the scan of the triples is the scan of the candidates (`lastMaxBy?_map`).
* Along the scan the element kept outranks every other element seen so far
  (`foldl_keeps_greatest`).  `best` returns such an element too, and in a list of distinct
  numbers there is only one (`Greatest.unique`), so the two scans agree
  (`lastMaxBy?_eq_best`).
-/

namespace ScopeSelectors

/-- Scanning a list read through `f` is scanning the list, comparing through `f`. -/
theorem lastMaxBy?_map {β γ : Type} (cmp : γ → γ → Ordering) (f : β → γ) (l : List β) :
    lastMaxBy? cmp (l.map f) = (lastMaxBy? (fun a b => cmp (f a) (f b)) l).map f := by
  cases l with
  | nil => rfl
  | cons x xs =>
    simp only [List.map_cons, lastMaxBy?, Option.map_some, List.foldl_map, Option.some.injEq]
    refine List.foldl_hom f fun m y => ?_
    split <;> rfl

theorem lastMaxBy?_eq_none_iff {β : Type} {cmp : β → β → Ordering} {l : List β} :
    lastMaxBy? cmp l = none ↔ l = [] := by
  cases l <;> simp [lastMaxBy?]

namespace RuleTable

open Resolution

variable {α : Type}

/-- `w` is a member of `L` that every member with another number ranks below. -/
def Greatest (L : List (Resolution α)) (w : Resolution α) : Prop :=
  w ∈ L ∧ ∀ v ∈ L, v.index ≠ w.index → v.RankLT w

/-- In a list of increasing numbers there is one greatest member at most. -/
theorem Greatest.unique {L : List (Resolution α)} (hL : L.Pairwise fun a b => a.index < b.index)
    {w w' : Resolution α} (hw : Greatest L w) (hw' : Greatest L w') : w = w' := by
  by_cases hi : w.index = w'.index
  · exact eq_of_index_eq hL hw.1 hw'.1 hi
  · -- each would rank below the other
    exact absurd (hw'.2 w hw.1 hi) (hw.2 w' hw'.1 (Ne.symm hi)).asymm

/-- A member below a member of `L` is below the greatest one. -/
theorem Greatest.rankLT_of_rankLT {L : List (Resolution α)}
    (hL : L.Pairwise fun a b => a.index < b.index) {w : Resolution α} (hw : Greatest L w)
    {x u : Resolution α} (hx : x ∈ L) (hu : u.RankLT x) : u.RankLT w := by
  by_cases hi : x.index = w.index
  · rw [eq_of_index_eq hL hx hw.1 hi] at hu
    exact hu
  · exact hu.trans (hw.2 x hx hi)

/-- Along the scan from the first member on, the member kept is the greatest of those seen:
each step keeps the greater of the one kept and the next. -/
theorem foldl_keeps_greatest {x : Resolution α} {xs : List (Resolution α)}
    (hL : (x :: xs).Pairwise fun a b => a.index < b.index) :
    Greatest (x :: xs) (xs.foldl (fun m y => if compareRank m y == .gt then m else y) x) := by
  induction xs generalizing x with
  | nil =>
    rw [List.foldl_nil]
    refine ⟨List.mem_singleton_self x, fun v hv hne => ?_⟩
    exact absurd (by rw [List.mem_singleton.mp hv]) hne
  | cons y ys ih =>
    obtain ⟨hx, hyys⟩ := List.pairwise_cons.mp hL
    have hxy : x.index ≠ y.index := Nat.ne_of_lt (hx y List.mem_cons_self)
    rw [List.foldl_cons]
    by_cases hgt : compareRank x y = .gt
    · -- `x` stays, and `y` ranks below it
      rw [if_pos (by simpa using hgt)]
      have hsub : (x :: ys).Sublist (x :: y :: ys) := ((List.Sublist.refl ys).cons y).cons_cons x
      have hxys := hL.sublist hsub
      have hw := ih hxys
      refine ⟨hsub.subset hw.1, fun v hv hne => ?_⟩
      rcases List.mem_cons.mp hv with rfl | hv
      · exact hw.2 v List.mem_cons_self hne
      rcases List.mem_cons.mp hv with rfl | hv
      · exact hw.rankLT_of_rankLT hxys List.mem_cons_self (compareRank_eq_gt_iff.mp hgt)
      · exact hw.2 v (List.mem_cons_of_mem x hv) hne
    · -- `y` takes the place of `x`, which ranks below it
      rw [if_neg (by simpa using hgt)]
      have hw := ih hyys
      have hxy' : x.RankLT y := by
        rcases rankLT_or_rankLT hxy with hlt | hlt
        · exact hlt
        · exact absurd (compareRank_eq_gt_iff.mpr hlt) hgt
      refine ⟨List.mem_cons_of_mem x hw.1, fun v hv hne => ?_⟩
      rcases List.mem_cons.mp hv with rfl | hv
      · exact hw.rankLT_of_rankLT hyys List.mem_cons_self hxy'
      · exact hw.2 v hv hne

/-- Scanning a list of increasing numbers from the first on returns its greatest member. -/
theorem lastMaxBy?_eq_some {L : List (Resolution α)}
    (hL : L.Pairwise fun a b => a.index < b.index) {w : Resolution α}
    (h : lastMaxBy? compareRank L = some w) : Greatest L w := by
  cases L with
  | nil => cases h
  | cons x xs =>
    rw [lastMaxBy?, Option.some.injEq] at h
    rw [← h]
    exact foldl_keeps_greatest hL

/-- On a list of increasing numbers, the scans from the first and from the last on return the
same member. -/
theorem lastMaxBy?_eq_best {L : List (Resolution α)}
    (hL : L.Pairwise fun a b => a.index < b.index) : lastMaxBy? compareRank L = best L := by
  cases hb : best L with
  | none => rw [lastMaxBy?_eq_none_iff, ← best_eq_none_iff, hb]
  | some w =>
    cases hm : lastMaxBy? compareRank L with
    | none =>
      rw [lastMaxBy?_eq_none_iff] at hm
      rw [hm, best_eq_none_iff.mpr rfl] at hb
      cases hb
    | some w' => exact congrArg some ((lastMaxBy?_eq_some hL hm).unique hL (best_eq_some hL hb))

/-- The matches of a list of selectors are the candidates of its table, each read as its
specificity, number and value. -/
theorem selectorMatches_eq_map_candidates (rules : List (Selector × α)) (path : ScopePath) :
    selectorMatches rules path =
      ((ofSelectors rules).candidates path).value.map
        fun r => (r.specificity, r.index, r.value) := by
  rw [candidates, candidatesFrom_value, ofSelectors, List.zipIdx_map, List.filterMap_map,
    List.map_filterMap, selectorMatches]
  congr 1
  funext p
  simp only [Function.comp_apply, Prod.map, id, hitOf]
  split <;> rfl

end RuleTable

open RuleTable

/-- Resolving a list of selectors gives the value and specificity of the rule its table
resolves to: nothing when no selector matches, and otherwise the rule greatest by specificity,
the last one declared of several. -/
theorem resolveSelectors_eq_resolve {α : Type} (rules : List (Selector × α)) (path : ScopePath) :
    resolveSelectors rules path =
      ((ofSelectors rules).resolve path).value.map fun r => (r.value, r.specificity) := by
  rw [resolveSelectors, selectorMatches_eq_map_candidates, lastMaxBy?_map, resolve_value]
  -- comparing triples compares ranks
  have hcmp : (fun a b : Resolution α => (compare a.specificity b.specificity).then
      (compare a.index b.index)) = Resolution.compareRank := rfl
  rw [hcmp, lastMaxBy?_eq_best candidates_sorted, Option.map_map]
  rfl

end ScopeSelectors
