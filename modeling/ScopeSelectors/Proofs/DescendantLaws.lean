import ScopeSelectors.Proofs.Hits
/-!
# Laws of descendant links

Three laws of a descendant link `x y`, where `y` is looked for after the anchor of `x`.

* A negated operand may stand anywhere in a chain (`Node.eval_negation_anywhere`).  The
  hit of a negation has no position, so it links the same on either side of another hit
  (`Hit.link_comm`) and may trade places with the hit linked after it
  (`Hit.link_right_comm`).  A link is evaluated from the hits of its operands alone
  (`Node.eval_and_congr`), so one exchange at a time carries the negation along the chain
  (`Node.eval_chain_not`).
* An operand added after `x` strictly raises the specificity of the match
  (`Node.evaluate_and_raises`): the hit of `y` is either anchored deeper than the anchor of
  `x`, or made of negations only, which adds a negation and nothing else
  (`Hit.WellFormed.lt_link`).
* An operand added before `y` need not keep the match at least as specific as `y` alone
  (`Node.superset_can_rank_lower`).  An outer operand that matches no literal segment only
  adds the names it skips; and the evaluator does not go back, so an alternative inside `y`,
  looked for after `x`, may keep another branch than `y` from the start of the path.
  Without alternatives outside negations a tree has the same hit from every start before
  the one where it has a hit (`Node.eval_of_orFree_le`), and then `x y` is at least as
  specific as `y` when `x` adds a literal segment or no skipped name
  (`Node.evaluate_and_right_le`).
-/

namespace ScopeSelectors

/-! ## Counts -/

theorem addCounts_comm (a b : UInt32) : addCounts a b = addCounts b a := by
  rw [addCounts, addCounts, Nat.add_comm]

namespace Specificity

theorem le_iff_key_le {a b : Specificity} : a ≤ b ↔ a.key ≤ b.key := by
  show Specificity.compare a b ≠ .gt ↔ _
  rw [compare_eq_compare_key, Ne, Nat.compare_eq_gt, Nat.not_lt]

theorem le_of_lt {a b : Specificity} (h : a < b) : a ≤ b :=
  le_iff_key_le.mpr (Nat.le_of_lt (lt_iff_key_lt.mp h))

/-- More literal segments rank higher, whatever the other counts. -/
theorem lt_of_segments_lt {a b : Specificity} (hs : a.segments.toNat < b.segments.toNat) :
    a < b := by
  have := a.counts_lt
  have := b.counts_lt
  rw [lt_iff_key_lt]
  simp only [key, countMax]
  omega

/-- As many literal segments and a greater depth rank higher, whatever the other counts. -/
theorem lt_of_depth_lt {a b : Specificity} (hs : a.segments.toNat ≤ b.segments.toNat)
    (hd : a.depth.toNat < b.depth.toNat) : a < b := by
  have := a.counts_lt
  have := b.counts_lt
  rw [lt_iff_key_lt]
  simp only [key, countMax]
  omega

/-- With the other counts equal, more negations rank higher. -/
theorem lt_of_negations_lt {a b : Specificity} (hs : a.segments = b.segments)
    (hd : a.depth = b.depth) (hk : a.skipped = b.skipped)
    (hn : a.negations.toNat < b.negations.toNat) : a < b := by
  rw [lt_iff_key_lt]
  simp only [key, hs, hd, hk]
  omega

/-- No fewer segments, no less depth, no more skipped names and no fewer negations rank at
least as high. -/
theorem le_of_counts {a b : Specificity} (hs : a.segments.toNat ≤ b.segments.toNat)
    (hd : a.depth.toNat ≤ b.depth.toNat) (hk : b.skipped.toNat ≤ a.skipped.toNat)
    (hn : a.negations.toNat ≤ b.negations.toNat) : a ≤ b := by
  have := a.counts_lt
  have := b.counts_lt
  rw [le_iff_key_le]
  simp only [key, countMax]
  omega

/-- Linking two specificities does not depend on which one is the outer one. -/
theorem descend_comm (a b : Specificity) (gap : Nat) : a.descend b gap = b.descend a gap := by
  simp only [descend, mk.injEq, addCounts_comm a.segments, addCounts_comm a.negations,
    Nat.add_comm a.skipped.toNat, and_true, true_and, ← UInt32.toNat_inj, UInt32.toNat_max]
  omega

/-- Linking negations alone adds to the negations and leaves the other counts as they are. -/
theorem descend_negationsOnly (a : Specificity) (k : UInt32) :
    a.descend ⟨0, 0, 0, k⟩ 0 = ⟨a.segments, a.depth, a.skipped, addCounts a.negations k⟩ := by
  have := a.counts_lt
  simp only [descend, mk.injEq, ← UInt32.toNat_inj, addCounts_toNat, UInt32.toNat_max,
    clampCount_toNat, UInt32.toNat_zero, countMax, and_true]
  omega

/-- A specificity linked with no name between may be linked before or after another one. -/
theorem descend_right_comm (a b c : Specificity) (gap : Nat) :
    (a.descend b gap).descend c 0 = (a.descend c 0).descend b gap := by
  simp only [descend, mk.injEq, ← UInt32.toNat_inj, addCounts_toNat, UInt32.toNat_max,
    clampCount_toNat]
  omega

end Specificity

/-! ## Hits without a position -/

namespace Hit

variable {n : Hit}

theorem after_of_anchor_none (ha : n.anchor = none) (start : Nat) : n.after start = start := by
  simp [after, ha]

/-- A hit with no position, such as that of a negation, links the same on either side. -/
theorem link_comm (a : Hit) (he : n.entry = none) (ha : n.anchor = none) :
    a.link n = n.link a := by
  simp only [link, he, ha, Option.or_none, Option.none_or, junction_none_left,
    junction_none_right, Specificity.descend_comm a.specificity]

/-- A hit with no position linked after `a` may trade places with the hit linked after it. -/
theorem link_right_comm (a b : Hit) (he : n.entry = none) (ha : n.anchor = none) :
    (a.link b).link n = (a.link n).link b := by
  simp only [link, he, ha, Option.or_none, Option.none_or, junction_none_right, mk.injEq,
    true_and]
  exact Specificity.descend_right_comm _ _ _ _

theorem after_mono (a : Hit) {s s' : Nat} (h : s ≤ s') : a.after s ≤ a.after s' := by
  cases ha : a.anchor <;> simp [after, ha, h]

end Hit

/-! ## Negations in a chain -/

namespace Node

variable {names : List ScopeName}

theorem eval_and_eq_some {l r : Node} {start : Nat} {h : Hit} :
    (Node.and l r).eval names start = some h ↔
      ∃ a b, l.eval names start = some a ∧ r.eval names (a.after start) = some b ∧
        h = a.link b := by
  rw [eval_and]
  simp only [Option.bind_eq_some_iff, Option.map_eq_some_iff]
  constructor
  · rintro ⟨a, ha, b, hb, rfl⟩
    exact ⟨a, b, ha, hb, rfl⟩
  · rintro ⟨a, b, ha, hb, rfl⟩
    exact ⟨a, ha, b, hb, rfl⟩

theorem evaluate_of_eval {n : Node} {path : ScopePath} {h : Hit}
    (he : n.eval path.names 0 = some h) : n.evaluate path = ⟨true, h.specificity⟩ := by
  unfold evaluate
  rw [he]

theorem evaluate_eq_of_eval {m n : Node} {path : ScopePath}
    (h : m.eval path.names 0 = n.eval path.names 0) : m.evaluate path = n.evaluate path := by
  unfold evaluate
  rw [h]

/-- A descendant link is evaluated from the hits of its operands alone. -/
theorem eval_and_congr {l l' r r' : Node} (hl : ∀ s, l.eval names s = l'.eval names s)
    (hr : ∀ s, r.eval names s = r'.eval names s) (start : Nat) :
    (Node.and l r).eval names start = (Node.and l' r').eval names start := by
  simp only [eval_and, hl, hr]

/-- The hit of a negation that holds: no position, one negation. -/
theorem eval_not_of_none {w : Node} (hw : w.eval names 0 = none) (start : Nat) :
    (Node.not w).eval names start = some ⟨none, none, .negation⟩ := by
  simp [eval, hw]

theorem eval_not_of_some {w : Node} {h : Hit} (hw : w.eval names 0 = some h) (start : Nat) :
    (Node.not w).eval names start = none := by
  simp [eval, hw]

/-- A negated operand before `x` or after it gives the same hit. -/
theorem eval_not_and_comm (w x : Node) (names : List ScopeName) (start : Nat) :
    (Node.and (.not w) x).eval names start = (Node.and x (.not w)).eval names start := by
  simp only [eval_and]
  cases hw : w.eval names 0 with
  | some h =>
    -- the negation fails, so neither order matches
    simp only [eval_not_of_some hw, Option.bind_none, Option.map_none]
    cases x.eval names start <;> rfl
  | none =>
    simp only [eval_not_of_none hw, Option.bind_some,
      Hit.after_of_anchor_none (n := ⟨none, none, .negation⟩) rfl]
    cases x.eval names start with
    | none => rfl
    | some a => simp [Hit.link_comm a (n := ⟨none, none, .negation⟩) rfl rfl]

/-- A negated operand at the end of a link trades places with the operand before it. -/
theorem eval_and_not_right_comm (t p w : Node) (names : List ScopeName) (start : Nat) :
    (Node.and (.and t p) (.not w)).eval names start =
      (Node.and (.and t (.not w)) p).eval names start := by
  simp only [eval_and]
  cases hw : w.eval names 0 with
  | some h =>
    simp only [eval_not_of_some hw, Option.map_none, Option.bind_fun_none, Option.bind_none]
  | none =>
    simp only [eval_not_of_none hw]
    cases t.eval names start with
    | none => rfl
    | some a =>
      -- the negation leaves the start of `p` where `a` left it
      simp only [Option.bind_some, Option.map_some, Hit.after_link,
        Hit.after_of_anchor_none (n := ⟨none, none, .negation⟩) rfl]
      cases p.eval names (a.after start) with
      | none => rfl
      | some b => simp [Hit.link_right_comm a b (n := ⟨none, none, .negation⟩) rfl rfl]

/-- The descendant chain of `first` and then the operands `rest`, grouped to the left as the
reader groups it: `first r₁ r₂ …`. -/
def chain (first : Node) (rest : List Node) : Node := rest.foldl .and first

theorem chain_append (first : Node) (xs ys : List Node) :
    chain first (xs ++ ys) = chain (chain first xs) ys := List.foldl_append

theorem chain_cons (first r : Node) (rest : List Node) :
    chain first (r :: rest) = chain (.and first r) rest := rfl

theorem chain_append_singleton (first r : Node) (rest : List Node) :
    chain first (rest ++ [r]) = .and (chain first rest) r := by
  rw [chain_append]
  rfl

/-- A chain is evaluated from the hits of its first operand alone, the others fixed. -/
theorem eval_chain_congr {a b : Node} (h : ∀ s, a.eval names s = b.eval names s)
    (rest : List Node) (start : Nat) :
    (chain a rest).eval names start = (chain b rest).eval names start := by
  induction rest generalizing a b with
  | nil => exact h start
  | cons r rest ih => exact ih (eval_and_congr h fun _ => rfl)

/-- A negation at the end of a chain may stand in front of it instead. -/
theorem eval_chain_not_front (w first : Node) (pre : List Node) (names : List ScopeName) :
    ∀ start, (Node.and (chain first pre) (.not w)).eval names start =
      (chain (.and (.not w) first) pre).eval names start := by
  induction pre using List.reverseRecOn with
  | nil => exact fun start => (eval_not_and_comm w first names start).symm
  | append_singleton pre p ih =>
    intro start
    -- one exchange with the last operand, then the chain before it
    rw [chain_append_singleton, chain_append_singleton, eval_and_not_right_comm]
    exact eval_and_congr ih (fun _ => rfl) start

/-- A negation anywhere in a chain gives the hit of the chain with the negation in front. -/
theorem eval_chain_not (w first : Node) (pre post : List Node) (names : List ScopeName)
    (start : Nat) :
    (chain first (pre ++ .not w :: post)).eval names start =
      (chain (.not w) (first :: pre ++ post)).eval names start := by
  rw [chain_append, chain_cons, List.cons_append, chain_cons, chain_append]
  exact eval_chain_congr (eval_chain_not_front w first pre names) post start

/-- A negated operand may stand before or after another operand, and anywhere in a chain,
without changing any hit or the result on any path. -/
theorem eval_negation_anywhere (w x : Node) :
    (∀ names start, (Node.and (.not w) x).eval names start =
      (Node.and x (.not w)).eval names start) ∧
    ∀ (first : Node) (pre post : List Node),
      (∀ names start, (chain first (pre ++ .not w :: post)).eval names start =
        (chain (.not w) (first :: pre ++ post)).eval names start) ∧
      ∀ path, (chain first (pre ++ .not w :: post)).evaluate path =
        (chain (.not w) (first :: pre ++ post)).evaluate path :=
  ⟨eval_not_and_comm w x, fun first pre post =>
    ⟨eval_chain_not w first pre post, fun path =>
      evaluate_eq_of_eval (eval_chain_not w first pre post path.names 0)⟩⟩

end Node

/-! ## An inner operand raises specificity -/

namespace Hit.WellFormed

variable {len start : Nat} {a b : Hit}

/-- Linking an inner hit raises the specificity of the outer one: an anchored inner hit lies
deeper, and one of negations only adds a negation, as long as the path is shorter than the
greatest count and the negations of the link are below it. -/
theorem lt_link (ha : a.WellFormed len start) (hb : b.WellFormed len (a.after start))
    (hlen : len < countMax) (hneg : (a.link b).specificity.negations.toNat < countMax) :
    a.specificity < (a.link b).specificity := by
  cases ha with
  | @anchored _ anchor sp hstart hentry hanchor hdepth =>
    cases hb with
    | @anchored entry' anchor' sp' hstart' hentry' hanchor' hdepth' =>
      -- the inner anchor is deeper, and segments only add up
      simp only [Hit.after, Option.elim_some] at hstart'
      apply Specificity.lt_of_depth_lt
      · simp only [Hit.link, Specificity.descend, addCounts_toNat]
        have := sp.counts_lt.1
        simp only [countMax]
        omega
      · simp only [Hit.link, Specificity.descend, UInt32.toNat_max, hdepth, hdepth']
        -- no depth is cut off on a path this short
        rw [Nat.min_eq_left (by omega : anchor + 1 ≤ countMax),
          Nat.min_eq_left (by omega : anchor' + 1 ≤ countMax)]
        exact Nat.lt_of_lt_of_le (by omega) (Nat.le_max_right _ _)
    | @negationsOnly k hpos =>
      -- one more negation, all else as it was
      rw [UInt32.lt_iff_toNat_lt, UInt32.toNat_zero] at hpos
      simp only [Hit.link, junction_none_right, Specificity.descend_negationsOnly,
        addCounts_toNat] at hneg ⊢
      exact Specificity.lt_of_negations_lt rfl rfl rfl (by rw [addCounts_toNat]; omega)
  | @negationsOnly k hpos =>
    cases hb with
    | @anchored entry' anchor' sp' _ _ _ hdepth' =>
      -- any depth outranks negations alone
      apply Specificity.negations_lt_of_depth_pos
      simp only [Hit.link, Specificity.descend, UInt32.toNat_max, hdepth', UInt32.toNat_zero,
        countMax]
      omega
    | @negationsOnly k' hpos' =>
      rw [UInt32.lt_iff_toNat_lt, UInt32.toNat_zero] at hpos'
      simp only [Hit.link, Option.or_none, junction_none_left, Specificity.descend_negations,
        addCounts_toNat] at hneg ⊢
      exact Specificity.lt_of_negations_lt rfl rfl rfl
        (by dsimp only; rw [addCounts_toNat]; omega)

end Hit.WellFormed

namespace Node

/-- On a path of fewer than `countMax` names, a match of `x y` matches `x` and is strictly more
specific than the match of `x` alone, unless its negations reach the greatest count. -/
theorem evaluate_and_raises (x y : Node) (p : ScopePath) (hlen : p.length < countMax)
    (hm : ((Node.and x y).evaluate p).matched = true)
    (hneg : ((Node.and x y).evaluate p).specificity.negations.toNat < countMax) :
    (x.evaluate p).matched = true ∧
      (x.evaluate p).specificity < ((Node.and x y).evaluate p).specificity := by
  rw [evaluate_matched, Option.isSome_iff_exists] at hm
  obtain ⟨h, hh⟩ := hm
  obtain ⟨a, b, ha, hb, rfl⟩ := eval_and_eq_some.mp hh
  rw [evaluate_of_eval hh] at hneg ⊢
  rw [evaluate_of_eval ha]
  exact ⟨rfl, (eval_wellFormed x ha).lt_link (eval_wellFormed y hb) hlen hneg⟩

/-- `source.js string` matches `source.js string.quoted` more specifically than `source.js`. -/
theorem source_string_raises_source :
    (ScopePath.mk [⟨"source.js"⟩, ⟨"string.quoted"⟩]).length < countMax ∧
    ((Node.and (.atom (.ofText "source.js")) (.atom (.ofText "string"))).evaluate
      ⟨[⟨"source.js"⟩, ⟨"string.quoted"⟩]⟩).matched = true ∧
    ((Node.and (.atom (.ofText "source.js")) (.atom (.ofText "string"))).evaluate
      ⟨[⟨"source.js"⟩, ⟨"string.quoted"⟩]⟩).specificity.negations.toNat < countMax ∧
    ((Node.atom (.ofText "source.js")).evaluate ⟨[⟨"source.js"⟩, ⟨"string.quoted"⟩]⟩).matched =
      true ∧
    ((Node.atom (.ofText "source.js")).evaluate ⟨[⟨"source.js"⟩, ⟨"string.quoted"⟩]⟩).specificity <
      ((Node.and (.atom (.ofText "source.js")) (.atom (.ofText "string"))).evaluate
        ⟨[⟨"source.js"⟩, ⟨"string.quoted"⟩]⟩).specificity := by
  have hlen : (ScopePath.mk [⟨"source.js"⟩, ⟨"string.quoted"⟩]).length < countMax := by decide
  have hm : ((Node.and (.atom (.ofText "source.js")) (.atom (.ofText "string"))).evaluate
      ⟨[⟨"source.js"⟩, ⟨"string.quoted"⟩]⟩).matched = true := by decide +kernel
  have hneg : ((Node.and (.atom (.ofText "source.js")) (.atom (.ofText "string"))).evaluate
      ⟨[⟨"source.js"⟩, ⟨"string.quoted"⟩]⟩).specificity.negations.toNat < countMax := by
    decide +kernel
  exact ⟨hlen, hm, hneg, evaluate_and_raises _ _ _ hlen hm hneg⟩

end Node

/-! ## An outer operand and the specificity of the inner one -/

namespace Node

variable {names : List ScopeName}

/-- Without alternatives outside negations, a tree that has a hit from some start has the same
hit from every earlier start: an atom anchors at its last match wherever it is looked for
from, and a link looks for its inner operand after the same anchor. -/
theorem eval_of_orFree_le {n : Node} (hn : n.OrFree) {s s' : Nat} (hle : s ≤ s') {h : Hit}
    (he : n.eval names s' = some h) : n.eval names s = some h := by
  induction n generalizing s s' h with
  | atom p =>
    obtain ⟨i, hi, rfl⟩ := Option.map_eq_some_iff.mp he
    -- the last match after `s'` is the last match after `s`
    obtain ⟨-, hm, hlast⟩ := anchorsAt_iff.mpr hi
    have hs : AnchorsAt names p s (s + (s' + i - s)) := by
      rw [show s + (s' + i - s) = s' + i by omega]
      exact ⟨by omega, hm, hlast⟩
    simp only [eval, anchorsAt_iff.mp hs, Option.map_some]
    rw [show s + (s' + i - s) = s' + i by omega]
  | and l r ihl ihr =>
    obtain ⟨a, b, ha, hb, rfl⟩ := eval_and_eq_some.mp he
    exact eval_and_eq_some.mpr
      ⟨a, b, ihl hn.1 hle ha, ihr hn.2 (a.after_mono hle) hb, rfl⟩
  | or => exact hn.elim
  | not x => exact he
  | group x ih => exact ih hn hle he

end Node

namespace Specificity

/-- An outer specificity linked to `b` keeps it at least as specific as `b` when it adds a
literal segment that is not cut off, or no skipped name. -/
theorem le_descend (a b : Specificity) (gap : Nat)
    (h : (0 < a.segments.toNat ∧ (a.descend b gap).segments.toNat < countMax) ∨
      (a.descend b gap).skipped.toNat ≤ b.skipped.toNat) :
    b ≤ a.descend b gap := by
  have hb := b.counts_lt
  rcases h with ⟨hpos, hmax⟩ | hskip
  · -- the segments of `a` are added in full
    refine le_of_lt (lt_of_segments_lt ?_)
    simp only [descend, addCounts_toNat] at hmax ⊢
    omega
  · -- every other count is at least that of `b`
    refine le_of_counts ?_ ?_ hskip ?_
    · simp only [descend, addCounts_toNat, countMax]
      omega
    · simp only [descend, UInt32.toNat_max]
      omega
    · simp only [descend, addCounts_toNat, countMax]
      omega

end Specificity

namespace Node

/-- Adding an outer operand to a tree without alternatives outside negations: if `x y` matches,
`y` matches, and `x y` is at least as specific as `y` when `x` matches a literal segment and
the segments of `x y` are below the greatest count, or when `x y` skips no more names than
`y` alone. -/
theorem evaluate_and_right_le (x y : Node) (hy : y.OrFree) (p : ScopePath)
    (hm : ((Node.and x y).evaluate p).matched = true) :
    (y.evaluate p).matched = true ∧
      ((0 < (x.evaluate p).specificity.segments.toNat ∧
          ((Node.and x y).evaluate p).specificity.segments.toNat < countMax) ∨
        ((Node.and x y).evaluate p).specificity.skipped.toNat ≤
          (y.evaluate p).specificity.skipped.toNat →
        (y.evaluate p).specificity ≤ ((Node.and x y).evaluate p).specificity) := by
  rw [evaluate_matched, Option.isSome_iff_exists] at hm
  obtain ⟨h, hh⟩ := hm
  obtain ⟨a, b, ha, hb, rfl⟩ := eval_and_eq_some.mp hh
  -- `y` alone has the hit it has after `x`
  have hy0 : y.eval p.names 0 = some b := eval_of_orFree_le hy (Nat.zero_le _) hb
  rw [evaluate_of_eval hh, evaluate_of_eval ha, evaluate_of_eval hy0]
  exact ⟨rfl, Specificity.le_descend _ _ _⟩

/-- `text.html string` on `text.html source.js string.quoted` is at least as specific as
`string`, since `text.html` adds literal segments. -/
theorem text_string_at_least_string :
    (Node.atom (.ofText "string")).OrFree ∧
    ((Node.and (.atom (.ofText "text.html")) (.atom (.ofText "string"))).evaluate
      ⟨[⟨"text.html"⟩, ⟨"source.js"⟩, ⟨"string.quoted"⟩]⟩).matched = true ∧
    ((Node.atom (.ofText "string")).evaluate
      ⟨[⟨"text.html"⟩, ⟨"source.js"⟩, ⟨"string.quoted"⟩]⟩).matched = true ∧
    ((0 < ((Node.atom (.ofText "text.html")).evaluate
          ⟨[⟨"text.html"⟩, ⟨"source.js"⟩, ⟨"string.quoted"⟩]⟩).specificity.segments.toNat ∧
        ((Node.and (.atom (.ofText "text.html")) (.atom (.ofText "string"))).evaluate
          ⟨[⟨"text.html"⟩, ⟨"source.js"⟩, ⟨"string.quoted"⟩]⟩).specificity.segments.toNat <
          countMax) ∨
      ((Node.and (.atom (.ofText "text.html")) (.atom (.ofText "string"))).evaluate
          ⟨[⟨"text.html"⟩, ⟨"source.js"⟩, ⟨"string.quoted"⟩]⟩).specificity.skipped.toNat ≤
        ((Node.atom (.ofText "string")).evaluate
          ⟨[⟨"text.html"⟩, ⟨"source.js"⟩, ⟨"string.quoted"⟩]⟩).specificity.skipped.toNat →
      ((Node.atom (.ofText "string")).evaluate
          ⟨[⟨"text.html"⟩, ⟨"source.js"⟩, ⟨"string.quoted"⟩]⟩).specificity ≤
        ((Node.and (.atom (.ofText "text.html")) (.atom (.ofText "string"))).evaluate
          ⟨[⟨"text.html"⟩, ⟨"source.js"⟩, ⟨"string.quoted"⟩]⟩).specificity) := by
  have hy : (Node.atom (.ofText "string")).OrFree := trivial
  have hm : ((Node.and (.atom (.ofText "text.html")) (.atom (.ofText "string"))).evaluate
      ⟨[⟨"text.html"⟩, ⟨"source.js"⟩, ⟨"string.quoted"⟩]⟩).matched = true := by decide +kernel
  exact ⟨hy, hm, evaluate_and_right_le _ _ hy _ hm⟩

/-- Adding an outer operand may lower the specificity, and may even lose the match of the inner
operand.  `*.* b` matches `a.a c b` less specifically than `b`: the wildcards add no segment and
one skipped name.  `x ((p q, r) t)` matches `p x r t q`, where `(p q, r)` looked for after `x`
keeps `r`, but `(p q, r) t` does not: from the start `(p q, r)` keeps the more specific `p q`,
anchored at the last name, and `t` has nothing after it. -/
theorem superset_can_rank_lower :
    ((Node.and (.atom (.ofText "*.*")) (.atom (.ofText "b"))).evaluate
        ⟨[⟨"a.a"⟩, ⟨"c"⟩, ⟨"b"⟩]⟩).matched = true ∧
      ¬ ((Node.atom (.ofText "b")).evaluate ⟨[⟨"a.a"⟩, ⟨"c"⟩, ⟨"b"⟩]⟩).specificity ≤
        ((Node.and (.atom (.ofText "*.*")) (.atom (.ofText "b"))).evaluate
          ⟨[⟨"a.a"⟩, ⟨"c"⟩, ⟨"b"⟩]⟩).specificity ∧
    ((Node.and (.atom (.ofText "x")) (.group (.and
        (.group (.or (.and (.atom (.ofText "p")) (.atom (.ofText "q"))) (.atom (.ofText "r"))))
        (.atom (.ofText "t"))))).evaluate
        ⟨[⟨"p"⟩, ⟨"x"⟩, ⟨"r"⟩, ⟨"t"⟩, ⟨"q"⟩]⟩).matched = true ∧
      ((Node.group (.and
        (.group (.or (.and (.atom (.ofText "p")) (.atom (.ofText "q"))) (.atom (.ofText "r"))))
        (.atom (.ofText "t")))).evaluate
        ⟨[⟨"p"⟩, ⟨"x"⟩, ⟨"r"⟩, ⟨"t"⟩, ⟨"q"⟩]⟩).matched = false := by
  decide +kernel

end Node

end ScopeSelectors
