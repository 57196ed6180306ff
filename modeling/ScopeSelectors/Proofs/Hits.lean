import ScopeSelectors.Proofs.Chains
/-!
# Hits are well formed, and chains regroup freely

A hit of an evaluation from a start position is of one of two shapes (`Hit.WellFormed`).
Either it is *anchored*: it has an entry and an anchor, the entry at or after the start,
the anchor at or after the entry and inside the path, and its depth is one more than its
anchor, saturated.  Or it is made of *negations only*: it has neither position, counts no
segment, depth or skipped name, and at least one negation.  Every hit of every tree is one
of the two (`eval_wellFormed`, by induction on the tree).  So the inner operand of a
descendant link always enters strictly after the outer operand's anchor, and the names
skipped between them are counted without cutting off at zero; and a match of negations
alone is less specific than any anchored match (`eval_hits_wellFormed`).

A descendant link joins two hits (`Hit.link`), and an alternative keeps the left hit unless
the right one is strictly more specific (`Hit.choose`): the leftmost of the most specific.
The link is associative when its middle hit is well formed, and the choice is associative
outright, so regrouping a chain of descendants or of alternatives changes no hit
(`eval_regroup`).
-/

namespace ScopeSelectors

/-! ## Counts -/

theorem addCounts_toNat (a b : UInt32) :
    (addCounts a b).toNat = min (a.toNat + b.toNat) countMax :=
  clampCount_toNat _

theorem addCounts_assoc (a b c : UInt32) :
    addCounts a (addCounts b c) = addCounts (addCounts a b) c := by
  rw [← UInt32.toNat_inj, addCounts_toNat, addCounts_toNat, addCounts_toNat, addCounts_toNat]
  omega

theorem addCounts_pos_left {a : UInt32} (b : UInt32) (h : 0 < a) : 0 < addCounts a b := by
  rw [UInt32.lt_iff_toNat_lt] at h ⊢
  rw [addCounts_toNat, UInt32.toNat_zero]
  simp only [countMax]
  omega

namespace Specificity

/-- Two links of three specificities agree when the names skipped add up to the same. -/
theorem descend_assoc (a b c : Specificity) {g₁ g₂ g₃ g₄ : Nat} (h : g₁ + g₂ = g₃ + g₄) :
    a.descend (b.descend c g₁) g₂ = (a.descend b g₃).descend c g₄ := by
  simp only [descend, mk.injEq]
  refine ⟨addCounts_assoc _ _ _, ?_, ?_, addCounts_assoc _ _ _⟩
  · rw [← UInt32.toNat_inj, UInt32.toNat_max, UInt32.toNat_max, UInt32.toNat_max,
      UInt32.toNat_max]
    omega
  · rw [← UInt32.toNat_inj, clampCount_toNat, clampCount_toNat, clampCount_toNat,
      clampCount_toNat]
    omega

theorem descend_negations (k k' : UInt32) :
    (⟨0, 0, 0, k⟩ : Specificity).descend ⟨0, 0, 0, k'⟩ 0 = ⟨0, 0, 0, addCounts k k'⟩ := rfl

theorem negations_lt_of_depth_pos {k : UInt32} {s : Specificity} (h : 0 < s.depth.toNat) :
    (⟨0, 0, 0, k⟩ : Specificity) < s := by
  have := s.counts_lt
  have := k.toNat_lt
  rw [lt_iff_key_lt]
  simp only [key, UInt32.toNat_zero, countMax]
  -- the depth digit already decides
  omega

end Specificity

/-! ## Hits -/

@[simp] theorem junction_none_left (inner : Option Nat) : junction none inner = 0 := rfl

@[simp] theorem junction_none_right (outer : Option Nat) : junction outer none = 0 := by
  cases outer <;> rfl

namespace Hit

/-- A hit of an evaluation from `start` on, in a path of `len` names. -/
inductive WellFormed (len start : Nat) : Hit → Prop where
  /-- An atom matched: the entry at or after the start, the anchor at or after the entry and
  inside the path, and the depth one more than the anchor, saturated. -/
  | anchored {entry anchor : Nat} {sp : Specificity} :
      start ≤ entry → entry ≤ anchor → anchor < len →
      sp.depth.toNat = min (anchor + 1) countMax →
      WellFormed len start ⟨some entry, some anchor, sp⟩
  /-- Only negations held: no position, and no count but at least one negation. -/
  | negationsOnly {negations : UInt32} :
      0 < negations → WellFormed len start ⟨none, none, ⟨0, 0, 0, negations⟩⟩

/-- The link of an outer hit `a` with an inner hit `b` found after it: the first entry, the
last anchor, and the names skipped from `a`'s anchor to `b`'s entry. -/
def link (a b : Hit) : Hit :=
  ⟨a.entry.or b.entry, b.anchor.or a.anchor,
    a.specificity.descend b.specificity (junction a.anchor b.entry)⟩

/-- Where the inner operand of a link with `a` is looked for: after `a`'s anchor, or at
`start` when `a` has none. -/
def after (a : Hit) (start : Nat) : Nat := a.anchor.elim start (· + 1)

/-- The hit an alternative keeps: the right one only if it is strictly more specific. -/
def choose : Option Hit → Option Hit → Option Hit
  | some a, some b => if a.specificity < b.specificity then some b else some a
  | some a, none => some a
  | none, b => b

variable {len start : Nat} {h : Hit}

theorem WellFormed.entry_eq_none_iff (hw : h.WellFormed len start) :
    h.entry = none ↔ h.anchor = none := by
  cases hw <;> simp

theorem WellFormed.specificity_lt {h' : Hit} {len' start' : Nat} (hw : h.WellFormed len start)
    (hw' : h'.WellFormed len' start') (hnone : h.anchor = none) (hsome : h'.anchor ≠ none) :
    h.specificity < h'.specificity := by
  cases hw with
  | anchored => cases hnone
  | negationsOnly =>
    cases hw' with
    | anchored _ _ _ hdepth =>
      apply Specificity.negations_lt_of_depth_pos
      rw [hdepth]
      simp only [countMax]
      omega
    | negationsOnly => exact absurd rfl hsome

/-- A link of well-formed hits, the inner one found after the outer one, is well formed. -/
theorem WellFormed.link {a b : Hit} (ha : a.WellFormed len start)
    (hb : b.WellFormed len (a.after start)) : (a.link b).WellFormed len start := by
  cases ha with
  | anchored hstart hentry hlen hdepth =>
    cases hb with
    | anchored hstart' hentry' hlen' hdepth' =>
      -- the inner hit starts after the outer anchor and reaches deeper
      simp only [after, Option.elim_some] at hstart'
      refine .anchored hstart (by omega) hlen' ?_
      simp only [Specificity.descend, UInt32.toNat_max, hdepth, hdepth']
      omega
    | negationsOnly =>
      refine .anchored hstart hentry hlen ?_
      simp only [Specificity.descend, UInt32.toNat_max, hdepth, UInt32.toNat_zero]
      omega
  | negationsOnly hpos =>
    cases hb with
    | anchored hstart' hentry' hlen' hdepth' =>
      refine .anchored hstart' hentry' hlen' ?_
      simp only [Specificity.descend, UInt32.toNat_max, hdepth', UInt32.toNat_zero]
      omega
    | negationsOnly =>
      -- negations add up and nothing else is counted
      simp only [Hit.link, Option.or_none, junction_none_left, Specificity.descend_negations]
      exact .negationsOnly (addCounts_pos_left _ hpos)

theorem after_link (a b : Hit) (start : Nat) : (a.link b).after start = b.after (a.after start) := by
  simp only [after, link]
  cases b.anchor <;> rfl

/-- The names skipped around a well-formed middle hit add up the same in both groupings. -/
theorem junction_link (a b c : Hit) (hb : b.entry = none ↔ b.anchor = none) :
    junction b.anchor c.entry + junction a.anchor (b.entry.or c.entry) =
      junction a.anchor b.entry + junction (b.anchor.or a.anchor) c.entry := by
  cases hentry : b.entry with
  | none =>
    rw [hb.mp hentry]
    simp
  | some entry =>
    cases hanchor : b.anchor with
    | none => exact absurd (hb.mpr hanchor) (by simp [hentry])
    | some anchor =>
      simp only [Option.some_or]
      omega

theorem link_assoc (a b c : Hit) (hb : b.entry = none ↔ b.anchor = none) :
    a.link (b.link c) = (a.link b).link c := by
  simp only [link, Option.or_assoc, mk.injEq, true_and]
  exact Specificity.descend_assoc _ _ _ (junction_link a b c hb)

theorem choose_eq_some {x y : Option Hit} {h : Hit} (hc : choose x y = some h) :
    x = some h ∨ y = some h := by
  rcases x with _ | a <;> rcases y with _ | b <;> simp only [choose] at hc
  · exact .inr hc
  · exact .inr hc
  · exact .inl hc
  · split at hc
    · exact .inr hc
    · exact .inl hc

/-- The leftmost of the most specific of three hits, however they are grouped. -/
theorem choose_assoc (x y z : Option Hit) : choose x (choose y z) = choose (choose x y) z := by
  rcases x with _ | a
  · rfl
  rcases y with _ | b
  · rfl
  rcases z with _ | c
  · -- nothing on the right: the first two decide
    simp only [choose]
    split <;> rfl
  · -- all three: compare their keys
    by_cases hab : a.specificity < b.specificity <;>
      by_cases hbc : b.specificity < c.specificity <;>
      by_cases hac : a.specificity < c.specificity <;>
      simp only [choose, hab, hbc, hac, if_true, if_false] <;>
      simp only [Specificity.lt_iff_key_lt] at hab hbc hac <;>
      omega

end Hit

/-! ## The evaluator, one node at a time -/

namespace Node

variable {names : List ScopeName}

theorem eval_and (l r : Node) (names : List ScopeName) (start : Nat) :
    (Node.and l r).eval names start =
      (l.eval names start).bind fun a => (r.eval names (a.after start)).map a.link := by
  cases hl : l.eval names start with
  | none => simp only [eval, hl, Option.bind_none]
  | some a =>
    have hafter : a.after start = a.anchor.elim start (· + 1) := rfl
    cases hr : r.eval names (a.anchor.elim start (· + 1)) with
    | none => simp only [eval, hl, hr, hafter, Option.bind_some, Option.map_none]
    | some b =>
      simp only [eval, hl, hr, hafter, Option.bind_some, Option.map_some]
      rfl

theorem eval_or (l r : Node) (names : List ScopeName) (start : Nat) :
    (Node.or l r).eval names start = Hit.choose (l.eval names start) (r.eval names start) := by
  simp only [eval]
  cases l.eval names start <;> cases r.eval names start <;> rfl

theorem eval_group (x : Node) (names : List ScopeName) (start : Nat) :
    (Node.group x).eval names start = x.eval names start := rfl

/-- Every hit of every tree is anchored or made of negations only. -/
theorem eval_wellFormed (n : Node) {start : Nat} {h : Hit} (he : n.eval names start = some h) :
    h.WellFormed names.length start := by
  induction n generalizing start h with
  | atom p =>
    obtain ⟨i, hi, rfl⟩ := Option.map_eq_some_iff.mp he
    obtain ⟨s, hs, -⟩ := Pattern.matchesAt_of_lastMatch hi
    have hlt : i < (names.drop start).length := (List.getElem?_eq_some_iff.mp hs).1
    rw [List.length_drop] at hlt
    exact .anchored (Nat.le_add_right _ _) le_rfl (by omega) (clampCount_toNat _)
  | and l r ihl ihr =>
    rw [eval_and] at he
    obtain ⟨a, ha, b, hb, rfl⟩ := by
      simpa only [Option.bind_eq_some_iff, Option.map_eq_some_iff] using he
    exact (ihl ha).link (ihr hb)
  | or l r ihl ihr =>
    rw [eval_or] at he
    -- the hit kept is one of the two sides, both evaluated from `start`
    rcases Hit.choose_eq_some he with hl | hr
    · exact ihl hl
    · exact ihr hr
  | not x =>
    simp only [eval] at he
    split at he
    · cases he
    · cases he
      exact .negationsOnly (by decide)
  | group x ih => exact ih he

theorem eval_and_regroup (a b c : Node) (names : List ScopeName) (start : Nat) :
    (Node.and a (.group (.and b c))).eval names start =
      (Node.and (.and a b) c).eval names start := by
  simp only [eval_and, eval_group]
  cases a.eval names start with
  | none => rfl
  | some ha =>
    simp only [Option.bind_some]
    cases hb : b.eval names (ha.after start) with
    | none => rfl
    | some hb' =>
      simp only [Option.bind_some, Option.map_some, Option.map_map, Hit.after_link]
      congr 1
      funext hc
      -- the middle hit is well formed, so the skipped names add up the same
      exact Hit.link_assoc ha hb' hc (eval_wellFormed b hb).entry_eq_none_iff

theorem eval_or_regroup (a b c : Node) (names : List ScopeName) (start : Nat) :
    (Node.or a (.group (.or b c))).eval names start = (Node.or (.or a b) c).eval names start := by
  simp only [eval_or, eval_group, Hit.choose_assoc]

/-- Regrouping a chain of descendants or of alternatives changes no hit, so no result. -/
theorem eval_regroup (a b c : Node) :
    (∀ names start, (Node.and a (.group (.and b c))).eval names start =
      (Node.and (.and a b) c).eval names start) ∧
    (∀ names start, (Node.or a (.group (.or b c))).eval names start =
      (Node.or (.or a b) c).eval names start) ∧
    ∀ path, (Node.and a (.group (.and b c))).evaluate path =
        (Node.and (.and a b) c).evaluate path ∧
      (Node.or a (.group (.or b c))).evaluate path = (Node.or (.or a b) c).evaluate path := by
  refine ⟨eval_and_regroup a b c, eval_or_regroup a b c, fun path => ⟨?_, ?_⟩⟩
  · unfold evaluate
    rw [eval_and_regroup]
  · unfold evaluate
    rw [eval_or_regroup]

/-- Every hit is anchored or made of negations only; so the inner operand of a link enters
strictly after the outer anchor, and a match of negations alone ranks below any anchored
match. -/
theorem eval_hits_wellFormed :
    (∀ (n : Node) (names : List ScopeName) (start : Nat) (h : Hit),
      n.eval names start = some h → h.WellFormed names.length start) ∧
    (∀ (r : Node) (names : List ScopeName) (outer inner : Nat) (b : Hit),
      r.eval names (outer + 1) = some b → b.entry = some inner → outer < inner) ∧
    (∀ (n₁ n₂ : Node) (names₁ names₂ : List ScopeName) (start₁ start₂ : Nat) (h₁ h₂ : Hit),
      n₁.eval names₁ start₁ = some h₁ → n₂.eval names₂ start₂ = some h₂ →
      h₁.anchor = none → h₂.anchor ≠ none → h₁.specificity < h₂.specificity) := by
  refine ⟨fun n names start h he => eval_wellFormed n he, ?_, ?_⟩
  · intro r names outer inner b hb hentry
    cases eval_wellFormed r hb with
    | anchored hstart =>
      cases hentry
      omega
    | negationsOnly => cases hentry
  · intro n₁ n₂ names₁ names₂ start₁ start₂ h₁ h₂ he₁ he₂ hnone hsome
    exact (eval_wellFormed n₁ he₁).specificity_lt (eval_wellFormed n₂ he₂) hnone hsome

end Node

end ScopeSelectors
