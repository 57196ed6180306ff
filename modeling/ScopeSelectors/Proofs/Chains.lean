import ScopeSelectors.Proofs.Counts
import ScopeSelectors.Match
/-!
# Selectors without alternatives match as chains

Take a tree with no alternative outside a negation (`Node.OrFree`).  Its atoms outside
negations (`chainAtoms`) form one descendant chain, read left to right whatever the
groups, and its outermost negations (`negands`) are tests on the whole path.  The tree
matches a path exactly when no negated operand matches it and the chain has its
*rightmost anchors* (`RightmostChain`): the first atom at the last name it matches, each
next atom at the last name it matches after the previous anchor.  The specificity of the
match is a function of the anchors alone (`chainSpecificity`): the literal segments of
the atoms, one more than the last anchor, the names skipped between the anchors, and the
number of negations, each saturated (`or_free_matches_as_chain`).

The evaluator threads an entry, an anchor and a start position through the tree.  On a
path that no negated operand matches, a tree evaluates to the hit of its greedy anchors
(`eval_of_clear`, by induction on the tree): `anchors_append` carries the start position
from the left operand of a chain link to the right one, and `chainHit_append` adds up
their counts.
-/

namespace ScopeSelectors

/-! ## Last matches -/

namespace Pattern

variable {p : Pattern} {s : ScopeName} {ns : List ScopeName} {i : Nat}

/-- The pattern matches the name at position `i`. -/
def MatchesAt (p : Pattern) (ns : List ScopeName) (i : Nat) : Prop :=
  ∃ s, ns[i]? = some s ∧ p.matchesName s = true

theorem not_matchesAt_nil : ¬ p.MatchesAt [] i := by
  simp [MatchesAt]

theorem matchesAt_cons_zero : p.MatchesAt (s :: ns) 0 ↔ p.matchesName s = true := by
  simp [MatchesAt]

theorem matchesAt_cons_succ : p.MatchesAt (s :: ns) (i + 1) ↔ p.MatchesAt ns i := by
  simp [MatchesAt]

theorem matchesAt_drop {k : Nat} : p.MatchesAt (ns.drop k) i ↔ p.MatchesAt ns (k + i) := by
  simp [MatchesAt]

theorem matchesAt_of_lastMatch (h : p.lastMatch ns = some i) : p.MatchesAt ns i := by
  induction ns generalizing i with
  | nil => cases h
  | cons s ns ih =>
    rw [lastMatch] at h
    cases hl : p.lastMatch ns with
    | some k =>
      rw [hl] at h
      cases h
      exact matchesAt_cons_succ.mpr (ih hl)
    | none =>
      rw [hl] at h
      dsimp only at h
      split at h
      · next hs =>
        cases h
        exact matchesAt_cons_zero.mpr hs
      · cases h

theorem lastMatch_eq_none : p.lastMatch ns = none ↔ ∀ i, ¬ p.MatchesAt ns i := by
  induction ns with
  | nil => simp [lastMatch, not_matchesAt_nil]
  | cons s ns ih =>
    rw [lastMatch]
    cases hl : p.lastMatch ns with
    | some k =>
      dsimp only
      constructor
      · rintro ⟨⟩
      · intro h
        exact absurd (matchesAt_cons_succ.mpr (matchesAt_of_lastMatch hl)) (h (k + 1))
    | none =>
      have hnone := ih.mp hl
      dsimp only
      constructor
      · intro h j hj
        cases j with
        | zero =>
          rw [if_pos (matchesAt_cons_zero.mp hj)] at h
          cases h
        | succ j => exact hnone j (matchesAt_cons_succ.mp hj)
      · intro h
        rw [if_neg fun hs => h 0 (matchesAt_cons_zero.mpr hs)]

theorem lastMatch_eq_some :
    p.lastMatch ns = some i ↔ p.MatchesAt ns i ∧ ∀ j, i < j → ¬ p.MatchesAt ns j := by
  induction ns generalizing i with
  | nil => simp [lastMatch, not_matchesAt_nil]
  | cons s ns ih =>
    rw [lastMatch]
    cases hl : p.lastMatch ns with
    | some k =>
      -- the last match lies in the tail, one position further
      obtain ⟨hk, hlast⟩ := ih.mp hl
      dsimp only
      constructor
      · rintro ⟨⟩
        refine ⟨matchesAt_cons_succ.mpr hk, fun j hj hm => ?_⟩
        cases j with
        | zero => omega
        | succ j => exact hlast j (by omega) (matchesAt_cons_succ.mp hm)
      · rintro ⟨hm, hafter⟩
        cases i with
        | zero => exact absurd (matchesAt_cons_succ.mpr hk) (hafter (k + 1) (by omega))
        | succ i =>
          have hi := ih.mpr ⟨matchesAt_cons_succ.mp hm, fun j hj hmj =>
            hafter (j + 1) (by omega) (matchesAt_cons_succ.mpr hmj)⟩
          rw [hl] at hi
          rw [Option.some.inj hi]
    | none =>
      -- the tail has no match: the head is the last match if it is one
      have hnone := lastMatch_eq_none.mp hl
      have hsucc : ∀ j, ¬ p.MatchesAt (s :: ns) (j + 1) :=
        fun j hj => hnone j (matchesAt_cons_succ.mp hj)
      dsimp only
      by_cases hs : p.matchesName s = true
      · rw [if_pos hs]
        constructor
        · rintro ⟨⟩
          exact ⟨matchesAt_cons_zero.mpr hs, fun j hj hm => by
            cases j with
            | zero => omega
            | succ j => exact hsucc j hm⟩
        · rintro ⟨hm, -⟩
          cases i with
          | zero => rfl
          | succ i => exact absurd hm (hsucc i)
      · rw [if_neg hs]
        simp only [reduceCtorEq, false_iff, not_and]
        intro hm
        cases i with
        | zero => exact absurd (matchesAt_cons_zero.mp hm) hs
        | succ i => exact absurd hm (hsucc i)

end Pattern

/-! ## Rightmost anchors -/

/-- `p` anchors at `i` from `start` on: `i` is the last position at or after `start`
whose name `p` matches. -/
def AnchorsAt (names : List ScopeName) (p : Pattern) (start i : Nat) : Prop :=
  start ≤ i ∧ p.MatchesAt names i ∧ ∀ j, i < j → ¬ p.MatchesAt names j

/-- The patterns anchor at the positions `is`, each at its last match after the previous
anchor, the first at its last match from `start` on. -/
inductive RightmostChain (names : List ScopeName) : List Pattern → Nat → List Nat → Prop where
  | nil {start : Nat} : RightmostChain names [] start []
  | cons {p : Pattern} {ps : List Pattern} {start i : Nat} {is : List Nat} :
      AnchorsAt names p start i → RightmostChain names ps (i + 1) is →
      RightmostChain names (p :: ps) start (i :: is)

/-- The anchors found greedily, pattern after pattern. -/
def anchors (names : List ScopeName) : List Pattern → Nat → Option (List Nat)
  | [], _ => some []
  | p :: ps, start =>
    (p.lastMatch (names.drop start)).bind fun i =>
      (anchors names ps (start + i + 1)).map ((start + i) :: ·)

section Anchors

variable {names : List ScopeName}

theorem anchorsAt_iff {p : Pattern} {start i : Nat} :
    AnchorsAt names p start (start + i) ↔ p.lastMatch (names.drop start) = some i := by
  rw [Pattern.lastMatch_eq_some, Pattern.matchesAt_drop]
  constructor
  · rintro ⟨-, hm, hlast⟩
    exact ⟨hm, fun j hj hmj => hlast (start + j) (by omega) (Pattern.matchesAt_drop.mp hmj)⟩
  · rintro ⟨hm, hlast⟩
    refine ⟨by omega, hm, fun j hj hmj => ?_⟩
    rw [show j = start + (j - start) by omega] at hmj
    exact hlast (j - start) (by omega) (Pattern.matchesAt_drop.mpr hmj)

/-- The greedy anchors are the rightmost chain. -/
theorem anchors_eq_some_iff {ps : List Pattern} {start : Nat} {is : List Nat} :
    anchors names ps start = some is ↔ RightmostChain names ps start is := by
  induction ps generalizing start is with
  | nil =>
    constructor
    · rintro ⟨⟩
      exact .nil
    · rintro ⟨⟩
      rfl
  | cons p ps ih =>
    simp only [anchors, Option.bind_eq_some_iff, Option.map_eq_some_iff]
    constructor
    · rintro ⟨i, hi, js, hjs, rfl⟩
      exact .cons (anchorsAt_iff.mpr hi) (ih.mp hjs)
    · intro h
      cases h with
      | @cons _ _ _ i js hanchor hrest =>
      have hle := hanchor.1
      have hi : start + (i - start) = i := by omega
      rw [← hi] at hanchor hrest
      exact ⟨i - start, anchorsAt_iff.mp hanchor, js, ih.mpr hrest, by rw [hi]⟩

/-- The anchors of a chain of chains: the right part starts after the left part's last
anchor, or where the left part started if it has none. -/
theorem anchors_append (ps qs : List Pattern) (start : Nat) :
    anchors names (ps ++ qs) start = (anchors names ps start).bind fun is =>
      (anchors names qs (is.getLast?.elim start (· + 1))).map (is ++ ·) := by
  induction ps generalizing start with
  | nil => simp [anchors]
  | cons p ps ih =>
    simp only [List.cons_append, anchors, ih]
    cases p.lastMatch (names.drop start) with
    | none => rfl
    | some i =>
      simp only [Option.bind_some]
      cases hps : anchors names ps (start + i + 1) with
      | none => rfl
      | some is =>
        -- after `start + i`, the right part starts where it would after `is` alone
        cases h : is.getLast? <;> simp [List.getLast?_cons, h, Function.comp_def]

end Anchors

/-! ## The hit of a chain -/

/-- One more than the greatest anchor, or zero without anchors. -/
def reach : List Nat → Nat
  | [] => 0
  | i :: is => max (i + 1) (reach is)

/-- The names strictly between an outer and an inner position, when there are both. -/
def junction : Option Nat → Option Nat → Nat
  | some outer, some inner => inner - outer - 1
  | _, _ => 0

/-- The names skipped between consecutive anchors. -/
def gaps : List Nat → Nat
  | [] => 0
  | i :: is => junction (some i) is.head? + gaps is

theorem reach_append (is js : List Nat) : reach (is ++ js) = max (reach is) (reach js) := by
  induction is with
  | nil => simp [reach]
  | cons i is ih => simp [reach, ih, Nat.max_assoc]

theorem gaps_append (is js : List Nat) :
    gaps (is ++ js) = gaps is + gaps js + junction is.getLast? js.head? := by
  induction is with
  | nil => simp [gaps, junction]
  | cons i is ih =>
    cases is with
    | nil =>
      cases js with
      | nil => simp [gaps, junction]
      | cons j js => simp [gaps, junction]; omega
    | cons k ks =>
      simp only [List.cons_append, gaps, List.head?_cons, List.getLast?_cons_cons] at ih ⊢
      omega

/-- The hit of a chain of atoms `ps` anchored at `is`, with `r` negations beside it. -/
def chainHit (ps : List Pattern) (r : Nat) (is : List Nat) : Hit :=
  ⟨is.head?, is.getLast?, ⟨clampCount (ps.map Pattern.literalCount).sum, clampCount (reach is),
    clampCount (gaps is), clampCount r⟩⟩

/-- A chain link of two chains is the chain of both. -/
theorem chainHit_append (ps qs : List Pattern) (r s : Nat) (is js : List Nat) :
    (⟨is.head?.or js.head?, js.getLast?.or is.getLast?,
      (chainHit ps r is).specificity.descend (chainHit qs s js).specificity
        (junction is.getLast? js.head?)⟩ : Hit) = chainHit (ps ++ qs) (r + s) (is ++ js) := by
  simp only [chainHit, Specificity.descend, addCounts_clampCount, max_clampCount,
    clampCount_add_clampCount, List.head?_append, List.getLast?_append, List.map_append,
    List.sum_append, reach_append, gaps_append]

/-! ## Trees without alternatives -/

namespace Node

/-- No alternative outside the operand of a negation. -/
def OrFree : Node → Prop
  | .atom _ | .not _ => True
  | .and l r => l.OrFree ∧ r.OrFree
  | .or _ _ => False
  | .group x => x.OrFree

instance decidableOrFree : (n : Node) → Decidable n.OrFree
  | .atom _ | .not _ => isTrue trivial
  | .and l r => @instDecidableAnd _ _ (decidableOrFree l) (decidableOrFree r)
  | .or _ _ => isFalse id
  | .group x => decidableOrFree x

/-- The atoms outside negations, left to right. -/
def chainAtoms : Node → List Pattern
  | .atom p => [p]
  | .and l r | .or l r => l.chainAtoms ++ r.chainAtoms
  | .not _ => []
  | .group x => x.chainAtoms

/-- The operands of the outermost negations, left to right. -/
def negands : Node → List Node
  | .atom _ => []
  | .and l r | .or l r => l.negands ++ r.negands
  | .not x => [x]
  | .group x => x.negands

variable {names : List ScopeName}

/-- A negated operand that matches the path stops the whole tree. -/
theorem eval_of_negand {n w : Node} (hn : n.OrFree) (hw : w ∈ n.negands)
    (hm : w.eval names 0 ≠ none) (start : Nat) : n.eval names start = none := by
  induction n generalizing start with
  | atom => simp [negands] at hw
  | and l r ihl ihr =>
    rw [eval]
    rcases List.mem_append.mp hw with hw | hw
    · rw [ihl hn.1 hw]
    · cases l.eval names start with
      | none => rfl
      | some a =>
        dsimp only
        rw [ihr hn.2 hw]
  | or => exact hn.elim
  | not x =>
    rw [List.mem_singleton.mp hw] at hm
    obtain ⟨h, hh⟩ := Option.ne_none_iff_exists'.mp hm
    simp [eval, hh]
  | group x ih => exact ih hn hw start

/-- On a path that no negated operand matches, a tree evaluates to the hit of the greedy
anchors of its chain. -/
theorem eval_of_clear {n : Node} (hn : n.OrFree) (hc : ∀ w ∈ n.negands, w.eval names 0 = none)
    (start : Nat) :
    n.eval names start = (anchors names n.chainAtoms start).map
      (chainHit n.chainAtoms n.negands.length) := by
  induction n generalizing start with
  | atom p =>
    simp only [eval, chainAtoms, anchors, negands]
    cases p.lastMatch (names.drop start) <;>
      simp [chainHit, reach, gaps, junction, Specificity.atom]
  | and l r ihl ihr =>
    simp only [negands, List.mem_append] at hc
    rw [eval, ihl hn.1 (fun w hw => hc w (.inl hw)), chainAtoms, anchors_append]
    cases anchors names l.chainAtoms start with
    | none => rfl
    | some is =>
      dsimp only [Option.map_some, Option.bind_some]
      -- the right operand starts after the left operand's last anchor
      rw [show (chainHit l.chainAtoms l.negands.length is).anchor = is.getLast? from rfl,
        ihr hn.2 (fun w hw => hc w (.inr hw))]
      cases anchors names r.chainAtoms (is.getLast?.elim start (· + 1)) with
      | none => rfl
      | some js =>
        simp only [Option.map_some, negands, List.length_append, ← chainHit_append]
        rfl
  | or => exact hn.elim
  | not x =>
    rw [eval, hc x (by simp [negands])]
    rfl
  | group x ih => exact ih hn hc start

/-- A tree that matches leaves every negated operand unmatched. -/
theorem clear_of_eval {n : Node} (hn : n.OrFree) {start : Nat}
    (h : n.eval names start ≠ none) : ∀ w ∈ n.negands, w.eval names 0 = none := by
  intro w hw
  cases hw' : w.eval names 0 with
  | none => rfl
  | some _ => exact absurd (eval_of_negand hn hw (by simp [hw']) start) h

/-- On a path that no negated operand matches, a tree whose atoms have rightmost anchors `is`
evaluates to their hit. -/
theorem eval_of_rightmost {n : Node} (hn : n.OrFree)
    (hc : ∀ w ∈ n.negands, w.eval names 0 = none) {is : List Nat}
    (his : RightmostChain names n.chainAtoms 0 is) :
    n.eval names 0 = some (chainHit n.chainAtoms n.negands.length is) := by
  rw [eval_of_clear hn hc, anchors_eq_some_iff.mpr his]
  rfl

end Node

/-! ## The chain semantics -/

/-- The specificity of a chain of atoms `ps` anchored at `is`, with `r` negations: the
literal segments, one more than the last anchor, the names skipped between the first and
the last anchor, and the negations; all zero but the negations without anchors. -/
def chainSpecificity (ps : List Pattern) (is : List Nat) (r : Nat) : Specificity :=
  match is.head?, is.getLast? with
  | some first, some last =>
    ⟨clampCount (ps.map Pattern.literalCount).sum, clampCount (last + 1),
      clampCount (last - first - (ps.length - 1)), clampCount r⟩
  | _, _ => ⟨0, 0, 0, clampCount r⟩

namespace RightmostChain

variable {names : List ScopeName} {ps : List Pattern} {start : Nat}

theorem length_eq {is : List Nat} (h : RightmostChain names ps start is) :
    is.length = ps.length := by
  induction h with
  | nil => rfl
  | cons _ _ ih => simp [ih]

/-- Rightmost anchors increase strictly: the last is at least the first plus the number of
the others, the reach is one past the last, and the skipped names are the rest. -/
theorem shape {i : Nat} {is : List Nat} (h : RightmostChain names ps start (i :: is)) :
    start ≤ i ∧ i + is.length ≤ (i :: is).getLast (List.cons_ne_nil i is) ∧
      reach (i :: is) = (i :: is).getLast (List.cons_ne_nil i is) + 1 ∧
      gaps (i :: is) = (i :: is).getLast (List.cons_ne_nil i is) - i - is.length := by
  induction is generalizing ps start i with
  | nil =>
    cases h with
    | cons hanchor _ => simp [reach, gaps, junction, hanchor.1]
  | cons j js ih =>
    cases h with
    | cons hanchor hrest =>
      obtain ⟨hj, hlast, hreach, hgaps⟩ := ih hrest
      simp only [List.getLast_cons_cons] at hlast hreach hgaps ⊢
      simp only [reach, gaps, junction, List.head?_cons, List.length_cons] at hreach hgaps ⊢
      refine ⟨hanchor.1, by omega, by omega, by omega⟩

/-- The hit of rightmost anchors has the chain's specificity. -/
theorem chainHit_specificity {is : List Nat} (h : RightmostChain names ps start is) (r : Nat) :
    (chainHit ps r is).specificity = chainSpecificity ps is r := by
  cases is with
  | nil =>
    have hps : ps = [] := List.length_eq_zero_iff.mp (h.length_eq.symm.trans rfl)
    subst hps
    rfl
  | cons i is =>
    obtain ⟨-, hlast, hreach, hgaps⟩ := h.shape
    have hlen := h.length_eq
    simp only [List.length_cons] at hlen
    simp only [chainHit, chainSpecificity, List.head?_cons,
      List.getLast?_eq_some_getLast (List.cons_ne_nil i is), hreach, hgaps, ← hlen,
      Nat.add_sub_cancel]

end RightmostChain

theorem Node.evaluate_matched (n : Node) (path : ScopePath) :
    (n.evaluate path).matched = (n.eval path.names 0).isSome := by
  unfold Node.evaluate
  cases n.eval path.names 0 <;> rfl

/-- On a tree without alternatives outside negations, the evaluator is the chain semantics:
the tree matches a path exactly when none of its negated operands does and its atoms have
rightmost anchors, and then its specificity is that of the anchors. -/
theorem or_free_matches_as_chain (n : Node) (hn : n.OrFree) (path : ScopePath) :
    ((n.evaluate path).matched = true ↔
      (∀ w ∈ n.negands, (w.evaluate path).matched = false) ∧
        ∃ is, RightmostChain path.names n.chainAtoms 0 is) ∧
    ∀ is, RightmostChain path.names n.chainAtoms 0 is → (n.evaluate path).matched = true →
      (n.evaluate path).specificity = chainSpecificity n.chainAtoms is n.negands.length := by
  have hclear : (∀ w ∈ n.negands, (w.evaluate path).matched = false) ↔
      ∀ w ∈ n.negands, w.eval path.names 0 = none := by
    simp [Node.evaluate_matched]
  have hsome : (n.evaluate path).matched = true → ∀ w ∈ n.negands, w.eval path.names 0 = none :=
    fun hm => Node.clear_of_eval hn
      (Option.ne_none_iff_isSome.mpr ((Node.evaluate_matched n path).symm.trans hm))
  refine ⟨⟨fun hm => ⟨hclear.mpr (hsome hm), ?_⟩, ?_⟩, ?_⟩
  · -- a match is the hit of the greedy anchors, which are the rightmost ones
    have h := hm
    rw [Node.evaluate_matched, Node.eval_of_clear hn (hsome hm)] at h
    cases ha : anchors path.names n.chainAtoms 0 with
    | none => simp [ha] at h
    | some is => exact ⟨is, anchors_eq_some_iff.mp ha⟩
  · rintro ⟨hc, is, his⟩
    rw [Node.evaluate_matched, Node.eval_of_rightmost hn (hclear.mp hc) his]
    rfl
  · intro is his hm
    rw [← his.chainHit_specificity n.negands.length]
    unfold Node.evaluate
    rw [Node.eval_of_rightmost hn (hsome hm) his]

/-- `source -comment` has no alternative, so it matches as the chain of `source` beside the
test that `comment` matches nowhere. -/
theorem source_not_comment_as_chain :
    (Node.and (.atom (.ofText "source")) (.not (.atom (.ofText "comment")))).OrFree ∧
    (((Node.and (.atom (.ofText "source")) (.not (.atom (.ofText "comment")))).evaluate
        ⟨[⟨"source.js"⟩]⟩).matched = true ↔
      (∀ w ∈ (Node.and (.atom (.ofText "source")) (.not (.atom (.ofText "comment")))).negands,
        (w.evaluate ⟨[⟨"source.js"⟩]⟩).matched = false) ∧
      ∃ is, RightmostChain [⟨"source.js"⟩]
        (Node.and (.atom (.ofText "source")) (.not (.atom (.ofText "comment")))).chainAtoms 0 is) ∧
    ∀ is, RightmostChain [⟨"source.js"⟩]
        (Node.and (.atom (.ofText "source")) (.not (.atom (.ofText "comment")))).chainAtoms 0 is →
      ((Node.and (.atom (.ofText "source")) (.not (.atom (.ofText "comment")))).evaluate
        ⟨[⟨"source.js"⟩]⟩).matched = true →
      ((Node.and (.atom (.ofText "source")) (.not (.atom (.ofText "comment")))).evaluate
        ⟨[⟨"source.js"⟩]⟩).specificity =
        chainSpecificity
          (Node.and (.atom (.ofText "source")) (.not (.atom (.ofText "comment")))).chainAtoms is
          (Node.and (.atom (.ofText "source")) (.not (.atom (.ofText "comment")))).negands.length :=
  ⟨by decide, or_free_matches_as_chain _ (by decide) _⟩

end ScopeSelectors
