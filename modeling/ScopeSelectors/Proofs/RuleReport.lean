import ScopeSelectors.Proofs.Sources
import ScopeSelectors.Command.Report
/-!
# Rule positions in the report of `resolve`

The `resolve` command numbers its rules by their position among the arguments, compiles their
selectors through a fresh cache, sets aside the rules whose selector does not parse, and
resolves the path against a table of the others, which the table numbers among themselves.
The report still speaks of positions among the arguments (`resolve_reports_positions`):

* the rules set aside are exactly the positions whose selector does not parse, in increasing
  order, each with its text and the error parsing gives;
* there is no winner exactly when no rule that parses matches the path;
* otherwise the winner is the matching rule greatest by specificity and then by position,
  reported with its value, its text, its position and its specificity.

Compiling through a coherent cache gives what parsing each text gives
(`compileFrom_of_parse`), so the table holds the rules that parse in argument order
(`acceptedRules`), and the rules set aside are the others (`rejectedRules`).  The table breaks
ties by its own numbering; dropping rules keeps positions in order (`lt_iff_lt_of_pairwise`),
so the greatest by table number is the greatest by position.
-/

namespace ScopeSelectors

/-- In a list whose members increase by `f`, positions and values of `f` are in the same
order. -/
theorem lt_iff_lt_of_pairwise {β : Type} {l : List β} {f : β → Nat}
    (hl : l.Pairwise fun a b => f a < f b) {i j : Nat} {a b : β} (hi : l[i]? = some a)
    (hj : l[j]? = some b) : i < j ↔ f a < f b := by
  obtain ⟨hilt, rfl⟩ := List.getElem?_eq_some_iff.mp hi
  obtain ⟨hjlt, rfl⟩ := List.getElem?_eq_some_iff.mp hj
  rcases Nat.lt_trichotomy i j with h | rfl | h
  · exact iff_of_true h (List.pairwise_iff_getElem.mp hl i j hilt hjlt h)
  · exact iff_of_false (lt_irrefl _) (lt_irrefl _)
  · exact iff_of_false (by omega) (Nat.lt_asymm (List.pairwise_iff_getElem.mp hl j i hjlt hilt h))

namespace RuleTable

variable {α : Type}

/-! ## Hits of a table -/

theorem hit_eq_some_iff {t : RuleTable α} {path : ScopePath} {i : Nat} {v : Resolution α} :
    t.hit path i = some v ↔ ∃ rule, t.rules[i]? = some rule ∧
      (rule.selector.evaluate path).matched = true ∧
      v = ⟨rule.value, rule.selector, (rule.selector.evaluate path).specificity, i⟩ := by
  simp only [hit, Option.bind_eq_some_iff, hitOf]
  constructor
  · rintro ⟨rule, hrule, hv⟩
    split at hv
    · next hm => exact ⟨rule, hrule, hm, (Option.some.inj hv).symm⟩
    · cases hv
  · rintro ⟨rule, hrule, hm, rfl⟩
    exact ⟨rule, hrule, by rw [if_pos hm]⟩

end RuleTable

namespace Command

open RuleTable

/-- The sources `resolve` compiles: each selector text with its position and value. -/
def positioned (rules : List RuleArg) : List (String × (Nat × String)) :=
  rules.zipIdx.map fun (r, position) => (r.selector, (position, r.value))

theorem resolve_report (rules : List RuleArg) (pathText : String) :
    (resolve rules pathText).value =
      ⟨ScopePath.ofText pathText,
        ((⟨acceptedRules (positioned rules)⟩ : RuleTable (Nat × String)).resolve
          (ScopePath.ofText pathText)).value.map
            fun w => ⟨w.value.2, w.selector.text, w.value.1, w.specificity⟩,
        rejectedRules 0 (positioned rules)⟩ := by
  have h := ofSourcesCached_of_coherent SelectorCache.coherent_empty (positioned rules)
  show (⟨_, ((RuleTable.ofSourcesCached SelectorCache.empty (positioned rules)).value.1.1.resolve
    (ScopePath.ofText pathText)).value.map _,
    (RuleTable.ofSourcesCached SelectorCache.empty (positioned rules)).value.1.2⟩ : ResolveReport) = _
  rw [h]

variable {rules : List RuleArg}

theorem getElem?_positioned (q : Nat) :
    (positioned rules)[q]? = rules[q]?.map fun r => (r.selector, (q, r.value)) := by
  simp only [positioned, List.getElem?_map, List.getElem?_zipIdx, Option.map_map, Nat.zero_add]
  rfl

/-- The table holds the rules that parse, each with its position and value. -/
theorem mem_acceptedRules_positioned {rule : Rule (Nat × String)} :
    rule ∈ acceptedRules (positioned rules) ↔ ∃ q r x, rules[q]? = some r ∧
      Selector.parse r.selector = .ok x ∧ rule = ⟨x, (q, r.value)⟩ := by
  rw [acceptedRules, List.mem_filterMap]
  constructor
  · rintro ⟨source, hsource, hrule⟩
    obtain ⟨q, hq⟩ := List.mem_iff_getElem?.mp hsource
    rw [getElem?_positioned] at hq
    obtain ⟨r, hr, rfl⟩ := Option.map_eq_some_iff.mp hq
    obtain ⟨x, hx, rfl⟩ := Option.map_eq_some_iff.mp hrule
    exact ⟨q, r, x, hr, Except.toOption_eq_some_iff.mp hx, rfl⟩
  · rintro ⟨q, r, x, hr, hx, rfl⟩
    refine ⟨(r.selector, (q, r.value)), ?_, ?_⟩
    · rw [List.mem_iff_getElem?]
      exact ⟨q, by rw [getElem?_positioned, hr]; rfl⟩
    · rw [Except.toOption_eq_some_iff.mpr hx]
      rfl

theorem acceptedRules_positioned_pairwise :
    (acceptedRules (positioned rules)).Pairwise fun a b => a.value.1 < b.value.1 := by
  have hsources : (positioned rules).Pairwise fun a b => a.2.1 < b.2.1 := by
    rw [positioned, List.pairwise_map]
    exact RuleTable.pairwise_zipIdx rules 0
  refine hsources.filterMap _ fun a b hab rule hrule rule' hrule' => ?_
  obtain ⟨x, -, rfl⟩ := Option.map_eq_some_iff.mp hrule
  obtain ⟨y, -, rfl⟩ := Option.map_eq_some_iff.mp hrule'
  exact hab

theorem mem_rejectedRules_positioned {x : RejectedRule} :
    x ∈ rejectedRules 0 (positioned rules) ↔ ∃ r, rules[x.index]? = some r ∧
      x.text = r.selector ∧ Selector.parse r.selector = .error x.error := by
  rw [rejectedRules, List.mem_filterMap]
  constructor
  · rintro ⟨⟨source, q⟩, hmem, hx⟩
    rw [List.mem_zipIdx_iff_getElem?, getElem?_positioned] at hmem
    dsimp only at hmem hx
    obtain ⟨r, hr, rfl⟩ := Option.map_eq_some_iff.mp hmem
    cases hp : Selector.parse r.selector with
    | ok y =>
      rw [hp] at hx
      cases hx
    | error e =>
      rw [hp] at hx
      cases hx
      exact ⟨r, hr, rfl, hp⟩
  · rintro ⟨r, hr, htext, hp⟩
    refine ⟨((r.selector, (x.index, r.value)), x.index), ?_, ?_⟩
    · rw [List.mem_zipIdx_iff_getElem?, getElem?_positioned, hr]
      rfl
    · dsimp only
      rw [hp, ← htext]

/-! ## The winner -/

variable {path : ScopePath}

/-- The table numbers the rules that parse in the order of their positions. -/
theorem hit_lt_iff {i j : Nat} {v w : Resolution (Nat × String)}
    (hv : (⟨acceptedRules (positioned rules)⟩ : RuleTable (Nat × String)).hit path i = some v)
    (hw : (⟨acceptedRules (positioned rules)⟩ : RuleTable (Nat × String)).hit path j = some w) :
    i < j ↔ v.value.1 < w.value.1 := by
  obtain ⟨rule, hrule, -, rfl⟩ := hit_eq_some_iff.mp hv
  obtain ⟨rule', hrule', -, rfl⟩ := hit_eq_some_iff.mp hw
  exact lt_iff_lt_of_pairwise acceptedRules_positioned_pairwise hrule hrule'

theorem resolve_positioned_eq_none :
    ((⟨acceptedRules (positioned rules)⟩ : RuleTable (Nat × String)).resolve path).value = none ↔
      ∀ (q : Nat) (r : RuleArg) (x : Selector), rules[q]? = some r →
        Selector.parse r.selector = .ok x → (x.evaluate path).matched = false := by
  rw [RuleTable.resolve_value, best_eq_none_iff, candidates_eq_nil_iff]
  constructor
  · intro h q r x hr hx
    exact h _ (mem_acceptedRules_positioned.mpr ⟨q, r, x, hr, hx, rfl⟩)
  · intro h rule hrule
    obtain ⟨q, r, x, hr, hx, rfl⟩ := mem_acceptedRules_positioned.mp hrule
    exact h q r x hr hx

/-- The table of the rules that parse resolves to the matching rule greatest by specificity
and then by position. -/
theorem resolve_positioned_eq_some {w : Resolution (Nat × String)}
    (hw : ((⟨acceptedRules (positioned rules)⟩ : RuleTable (Nat × String)).resolve path).value =
      some w) :
    ∃ (r : RuleArg) (x : Selector), rules[w.value.1]? = some r ∧
      Selector.parse r.selector = .ok x ∧
      (x.evaluate path).matched = true ∧ w.value.2 = r.value ∧ w.selector = x ∧
      w.specificity = (x.evaluate path).specificity ∧
      ∀ (q : Nat) (r' : RuleArg) (y : Selector), rules[q]? = some r' →
        Selector.parse r'.selector = .ok y →
        (y.evaluate path).matched = true → q ≠ w.value.1 →
        (y.evaluate path).specificity < w.specificity ∨
          ((y.evaluate path).specificity = w.specificity ∧ q < w.value.1) := by
  rw [RuleTable.resolve_value] at hw
  obtain ⟨hwhit, hmax⟩ := best_candidates_eq_some hw
  obtain ⟨rule, hrule, hm, hweq⟩ := hit_eq_some_iff.mp hwhit
  obtain ⟨q, r, x, hr, hx, rfl⟩ := mem_acceptedRules_positioned.mp (List.mem_of_getElem? hrule)
  have hvalue : w.value = (q, r.value) := by rw [hweq]
  refine ⟨r, x, by rw [hvalue]; exact hr, hx, hm, by rw [hvalue], by rw [hweq], by rw [hweq],
    fun q' r' y hr' hy hmy hne => ?_⟩
  -- the other rule has a number of its own in the table
  obtain ⟨i, hi⟩ := List.mem_iff_getElem?.mp
    (mem_acceptedRules_positioned.mpr ⟨q', r', y, hr', hy, rfl⟩)
  have hv : (⟨acceptedRules (positioned rules)⟩ : RuleTable (Nat × String)).hit path i =
      some ⟨(q', r'.value), y, (y.evaluate path).specificity, i⟩ :=
    hit_eq_some_iff.mpr ⟨_, hi, hmy, rfl⟩
  have hne' : i ≠ w.index := by
    rintro rfl
    rw [hwhit, Option.some.injEq] at hv
    exact hne (by rw [hv])
  rcases hmax i _ hv hne' with hlt | ⟨heq, hlt⟩
  · exact .inl hlt
  · -- a tie goes to the later number, which is the later position
    exact .inr ⟨heq, (hit_lt_iff hv hwhit).mp hlt⟩

/-- The report of `resolve` speaks of positions among the arguments: the rules set aside are
the positions whose selector does not parse, in order, each with its text and error; there is
no winner exactly when no rule that parses matches; and the winner is the matching rule
greatest by specificity and then by position, with its value, text, position and
specificity. -/
theorem resolve_reports_positions (rules : List RuleArg) (pathText : String) :
    let report := (resolve rules pathText).value
    let path := ScopePath.ofText pathText
    (∀ x, x ∈ report.rejected ↔ ∃ r : RuleArg, rules[x.index]? = some r ∧
        x.text = r.selector ∧ Selector.parse r.selector = .error x.error) ∧
    report.rejected.Pairwise (fun a b => a.index < b.index) ∧
    (report.winner = none ↔ ∀ (q : Nat) (r : RuleArg) (x : Selector), rules[q]? = some r →
        Selector.parse r.selector = .ok x → (x.evaluate path).matched = false) ∧
    ∀ w, report.winner = some w → ∃ (r : RuleArg) (x : Selector), rules[w.rule]? = some r ∧
      Selector.parse r.selector = .ok x ∧ (x.evaluate path).matched = true ∧
      w.value = r.value ∧ w.selector = r.selector ∧
      w.specificity = (x.evaluate path).specificity ∧
      ∀ (q : Nat) (r' : RuleArg) (y : Selector), rules[q]? = some r' →
        Selector.parse r'.selector = .ok y →
        (y.evaluate path).matched = true → q ≠ w.rule →
        (y.evaluate path).specificity < w.specificity ∨
          ((y.evaluate path).specificity = w.specificity ∧ q < w.rule) := by
  dsimp only
  rw [resolve_report]
  dsimp only
  refine ⟨fun x => mem_rejectedRules_positioned, rejectedRules_pairwise 0 _, ?_,
    fun w hw => ?_⟩
  · rw [Option.map_eq_none_iff]
    exact resolve_positioned_eq_none
  · obtain ⟨res, hres, rfl⟩ := Option.map_eq_some_iff.mp hw
    obtain ⟨r, x, hr, hx, hm, hvalue, hsel, hspec, hmax⟩ := resolve_positioned_eq_some hres
    -- the reported text is the selector's own text
    refine ⟨r, x, hr, hx, hm, hvalue, ?_, hspec, hmax⟩
    rw [hsel]
    exact Selector.parse_eq_ok_iff.mp hx

end Command

end ScopeSelectors
