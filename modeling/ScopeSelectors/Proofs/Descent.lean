import ScopeSelectors.Proofs.TokenGrammar
/-!
# The descent reads exactly the token grammar

Two directions, each by the structure of one side:

* *Soundness* (`read_anyOf_sound` and its five companions): what a reading function
  consumes is a phrase of the token grammar, followed, for `anyOf`, by the blanks it
  skipped while looking for another comma; the subtree it returns is that phrase's
  tree, with its true height, within `depthLimit`.  The six theorems are mutually
  recursive in the same way, and with the same measure, as the functions they are
  about.
* *Completeness* (`TokenDerives.settles`): on the tokens of a phrase followed by
  anything that does not extend it, the reading function returns the phrase's tree
  and leaves the rest, provided the tree *fits*; otherwise it stops with
  `nestingTooDeep`.  A tree fits at nesting `k` when its height is within the limit
  and `k` plus the number of groups and negations on any branch is too
  (`Node.Fits`).  The proof is an induction on the derivation.
-/

namespace ScopeSelectors

open Token

/-- A subtree whose recorded height is its true height, within the limit. -/
def Parsed.Exact (x : Parsed) : Prop := x.height = x.node.height ∧ x.node.height ≤ depthLimit

namespace Parsed

variable {x l r y : Parsed} {offset : Nat}

theorem exact_leaf (n : Node) (h : n.height = 1) : Exact ⟨n, 1⟩ :=
  ⟨h.symm, by simp [h, depthLimit]⟩

theorem exact_of_wrap {b : Node → Node} (hb : ∀ n, (b n).height = n.height + 1) (hx : x.Exact)
    (h : wrap b x offset = .ok y) : y.Exact := by
  obtain ⟨rfl, hle⟩ := wrap_eq_ok h
  have := hx.1
  exact ⟨by simp [hb, hx.1], by simp only [hb]; omega⟩

theorem exact_of_combine {c : Node → Node → Node}
    (hc : ∀ m n, (c m n).height = max m.height n.height + 1) (hl : l.Exact) (hr : r.Exact)
    (h : combine c l r offset = .ok y) : y.Exact := by
  obtain ⟨rfl, hle⟩ := combine_eq_ok h
  exact ⟨by simp [hc, hl.1, hr.1], by simp only [hc, ← hl.1, ← hr.1]; omega⟩

end Parsed

theorem exists_blanks_append (ts : List Token) : ∃ bs, AllBlank bs ∧ ts = bs ++ skipBlank ts :=
  ⟨_, allBlank_takeWhile ts, (takeWhile_append_skipBlank ts).symm⟩

/-! ## Soundness -/

section Soundness

variable {textEnd : Nat}

mutual

/-- What `anyOf` consumes is a phrase and the blanks after it. -/
theorem read_anyOf_sound {k : Nat} {ts r : List Token} {x : Parsed}
    (h : Phrase.anyOf.read textEnd k ts = .ok (x, r)) :
    ∃ pre bs, ts = pre ++ bs ++ r ∧ AllBlank bs ∧ TokenDerives .anyOf pre x.node ∧ x.Exact := by
  rw [Phrase.read_anyOf, except_bind_eq_ok] at h
  obtain ⟨⟨y, r1⟩, hy, hz⟩ := h
  have := Phrase.read_length_lt hy
  obtain ⟨pre, rfl, hd, he⟩ := read_allOf_sound hy
  obtain ⟨mid, bs, rfl, hbs, hd', he'⟩ := resume_anyOf_sound hz (.allOf hd) he
  exact ⟨pre ++ mid, bs, by simp, hbs, hd', he'⟩
termination_by (ts.length, 3)
decreasing_by
  -- each call reads the same tokens at a lower level of the descent, or fewer tokens
  all_goals first
    | exact Prod.Lex.right _ (by decide)
    | exact Prod.Lex.left _ _ (by subst_vars; omega)

/-- What the alternatives after `acc` consume extends its phrase, up to trailing blanks. -/
theorem resume_anyOf_sound {k : Nat} {ts r pre : List Token} {acc x : Parsed}
    (h : Phrase.anyOf.resume textEnd k acc ts = .ok (x, r))
    (hacc : TokenDerives .anyOf pre acc.node) (he : acc.Exact) :
    ∃ mid bs, ts = mid ++ bs ++ r ∧ AllBlank bs ∧ TokenDerives .anyOf (pre ++ mid) x.node ∧
      x.Exact := by
  rcases Phrase.resume_anyOf_eq_ok h with
    ⟨offset, r0, y, r1, z, hc, hy, hz, hrest⟩ | ⟨rfl, rfl, -⟩
  · obtain ⟨b₁, hb₁, e₁⟩ := exists_blanks_append ts
    obtain ⟨b₂, hb₂, e₂⟩ := exists_blanks_append r0
    have hlt : (skipBlank r0).length < ts.length := by
      have h₁ := length_skipBlank_le ts
      have h₂ := length_skipBlank_le r0
      rw [hc, List.length_cons] at h₁
      omega
    obtain ⟨c, hc', hdc, hec⟩ := read_allOf_sound hy
    have := Phrase.read_length_lt hy
    have hez := Parsed.exact_of_combine (fun _ _ => rfl) he hec hz
    obtain ⟨rfl, -⟩ := Parsed.combine_eq_ok hz
    obtain ⟨mid, bs, rfl, hbs, hd, hex⟩ := resume_anyOf_sound hrest (.or hacc hb₁ hb₂ hdc) hez
    refine ⟨b₁ ++ .comma offset :: b₂ ++ c ++ mid, bs, ?_, hbs, by simpa using hd, hex⟩
    rw [e₁, hc, e₂, hc']
    simp
  · exact ⟨[], ts.takeWhile isBlank, by simp [takeWhile_append_skipBlank],
      allBlank_takeWhile ts, by simpa using hacc, he⟩
termination_by (ts.length, 0)
decreasing_by
  all_goals first
    | exact Prod.Lex.right _ (by decide)
    | exact Prod.Lex.left _ _ (by omega)

/-- What `allOf` consumes is a phrase. -/
theorem read_allOf_sound {k : Nat} {ts r : List Token} {x : Parsed}
    (h : Phrase.allOf.read textEnd k ts = .ok (x, r)) :
    ∃ pre, ts = pre ++ r ∧ TokenDerives .allOf pre x.node ∧ x.Exact := by
  rw [Phrase.read_allOf, except_bind_eq_ok] at h
  obtain ⟨⟨y, r1⟩, hy, hz⟩ := h
  have := Phrase.read_length_lt hy
  obtain ⟨pre, rfl, hd, he⟩ := read_negation_sound hy
  obtain ⟨mid, rfl, hd', he'⟩ := resume_allOf_sound hz (.negation hd) he
  exact ⟨pre ++ mid, by simp, hd', he'⟩
termination_by (ts.length, 2)
decreasing_by
  all_goals first
    | exact Prod.Lex.right _ (by decide)
    | exact Prod.Lex.left _ _ (by subst_vars; omega)

/-- What the chain after `acc` consumes extends its phrase. -/
theorem resume_allOf_sound {k : Nat} {ts r pre : List Token} {acc x : Parsed}
    (h : Phrase.allOf.resume textEnd k acc ts = .ok (x, r))
    (hacc : TokenDerives .allOf pre acc.node) (he : acc.Exact) :
    ∃ mid, ts = mid ++ r ∧ TokenDerives .allOf (pre ++ mid) x.node ∧ x.Exact := by
  rcases Phrase.resume_allOf_eq_ok h with
    ⟨offset, run, r0, y, r1, z, rfl, hy, hz, hrest⟩ | ⟨rfl, rfl, -⟩
  · have := Phrase.read_length_lt hy
    obtain ⟨c, rfl, hdc, hec⟩ := read_negation_sound hy
    have hez := Parsed.exact_of_combine (fun _ _ => rfl) he hec hz
    obtain ⟨rfl, -⟩ := Parsed.combine_eq_ok hz
    obtain ⟨mid, rfl, hd, hex⟩ := resume_allOf_sound hrest (.and hacc hdc) hez
    exact ⟨.blank offset run :: c ++ mid, by simp, by simpa using hd, hex⟩
  · exact ⟨[], by simp, by simpa using hacc, he⟩
termination_by (ts.length, 0)
decreasing_by
  all_goals first
    | exact Prod.Lex.right _ (by decide)
    | exact Prod.Lex.left _ _ (by subst_vars; simp only [List.length_cons]; omega)

/-- What `negation` consumes is a phrase. -/
theorem read_negation_sound {k : Nat} {ts r : List Token} {x : Parsed}
    (h : Phrase.negation.read textEnd k ts = .ok (x, r)) :
    ∃ pre, ts = pre ++ r ∧ TokenDerives .negation pre x.node ∧ x.Exact := by
  rcases Phrase.read_negation_eq_ok h with ⟨offset, r0, y, rfl, hy, hw⟩ | hp
  · obtain ⟨pre, rfl, hd, he⟩ := read_primary_sound hy
    have hex := Parsed.exact_of_wrap (fun _ => rfl) he hw
    obtain ⟨rfl, -⟩ := Parsed.wrap_eq_ok hw
    exact ⟨.minus offset :: pre, rfl, .not hd, hex⟩
  · obtain ⟨pre, rfl, hd, he⟩ := read_primary_sound hp
    exact ⟨pre, rfl, .primary hd, he⟩
termination_by (ts.length, 1)
decreasing_by
  all_goals first
    | exact Prod.Lex.right _ (by decide)
    | exact Prod.Lex.left _ _ (by subst_vars; simp only [List.length_cons]; omega)

/-- What `primary` consumes is a phrase. -/
theorem read_primary_sound {k : Nat} {ts r : List Token} {x : Parsed}
    (h : Phrase.primary.read textEnd k ts = .ok (x, r)) :
    ∃ pre, ts = pre ++ r ∧ TokenDerives .primary pre x.node ∧ x.Exact := by
  rcases Phrase.read_primary_eq_ok h with
    ⟨s, p, rfl, rfl⟩ | ⟨offset, r0, y, r1, rfl, hy, hc⟩
  · exact ⟨[.name s p], rfl, .atom, Parsed.exact_leaf _ rfl⟩
  · obtain ⟨b₁, hb₁, e₁⟩ := exists_blanks_append r0
    have : (skipBlank r0).length < (Token.openParen offset :: r0).length := by
      have := length_skipBlank_le r0
      rw [List.length_cons]
      omega
    obtain ⟨pre, bs, hpre, hbs, hd, he⟩ := read_anyOf_sound hy
    obtain ⟨s, hr1, hw⟩ := Phrase.closeGroup_eq_ok hc
    obtain ⟨b₂, hb₂, e₂⟩ := exists_blanks_append r1
    have hex := Parsed.exact_of_wrap (fun _ => rfl) he hw
    obtain ⟨rfl, -⟩ := Parsed.wrap_eq_ok hw
    refine ⟨.openParen offset :: b₁ ++ pre ++ (bs ++ b₂) ++ [.closeParen s], ?_,
      .group hb₁ hd (allBlank_append.mpr ⟨hbs, hb₂⟩), hex⟩
    rw [e₁, hpre, e₂, hr1]
    simp
termination_by (ts.length, 0)
decreasing_by
  all_goals first
    | exact Prod.Lex.right _ (by decide)
    | exact Prod.Lex.left _ _ (by subst_vars; omega)

end

end Soundness

/-! ## Completeness -/

/-- The number of groups and negations on the most nested branch of a tree. -/
def Node.nesting : Node → Nat
  | .atom _ => 0
  | .and l r | .or l r => max l.nesting r.nesting
  | .not x | .group x => x.nesting + 1

/-- A tree fits at nesting `k` when the reader accepts it inside `k` groups and negations:
its height and `k` plus its nesting are within the limit. -/
def Node.Fits (k : Nat) (n : Node) : Prop := n.height ≤ depthLimit ∧ k + n.nesting ≤ depthLimit

/-- A result that stops with `nestingTooDeep`. -/
def IsDeep {α : Type} (res : Except ParseError α) : Prop :=
  ∃ offset, res = .error ⟨.nestingTooDeep depthLimit, offset⟩

theorem IsDeep.bind {α β : Type} {res : Except ParseError α} (h : IsDeep res)
    (f : α → Except ParseError β) : IsDeep (res >>= f) := by
  obtain ⟨offset, rfl⟩ := h
  exact ⟨offset, rfl⟩

/-- Reading the tree `n` at nesting `k` gives `next` when `n` fits, and stops too deep
otherwise. -/
def Settles (k : Nat) (n : Node) (res next : Except ParseError (Parsed × List Token)) : Prop :=
  (n.Fits k → res = next) ∧ (¬ n.Fits k → IsDeep res)

/-- What may follow an `anyOf` phrase: no blank with an operand after it, which would
extend its last chain. -/
def Phrase.Ends : Phrase → List Token → Prop
  | .anyOf, rest => continuesChain rest = false
  | _, _ => True

namespace Node

variable {k : Nat} {x l r : Node}

theorem fits_atom {p : Pattern} (hk : k ≤ depthLimit) : (Node.atom p).Fits k :=
  ⟨by simp [height, depthLimit], by simpa [nesting] using hk⟩

/-- A negation or a group fits when its operand fits one level deeper and it is not too high. -/
theorem fits_wrap {b : Node → Node} (hb : ∀ n, (b n).height = n.height + 1)
    (hn : ∀ n, (b n).nesting = n.nesting + 1) :
    (b x).Fits k ↔ x.Fits (k + 1) ∧ x.height + 1 ≤ depthLimit := by
  simp only [Fits, hb, hn]
  omega

/-- A chain link fits when both operands fit and it is not too high. -/
theorem fits_combine {c : Node → Node → Node}
    (hc : ∀ m n, (c m n).height = max m.height n.height + 1)
    (hn : ∀ m n, (c m n).nesting = max m.nesting n.nesting) :
    (c l r).Fits k ↔ l.Fits k ∧ r.Fits k ∧ max l.height r.height + 1 ≤ depthLimit := by
  simp only [Fits, hc, hn]
  omega

theorem nesting_lt_height (n : Node) : n.nesting < n.height := by
  induction n with
  | atom => simp [nesting, height]
  | and l r ihl ihr | or l r ihl ihr => simp only [nesting, height]; omega
  | not x ih | group x ih => simp only [nesting, height]; omega

/-- At the top, fitting is only a matter of height: every branch has fewer groups and
negations than nodes. -/
theorem fits_zero (n : Node) : n.Fits 0 ↔ n.height ≤ depthLimit := by
  have := n.nesting_lt_height
  simp only [Fits]
  omega

end Node

namespace Settles

variable {k : Nat} {x l r : Node} {res next : Except ParseError (Parsed × List Token)}

theorem bind_ok {v : Parsed × List Token} (h : Settles k x res (.ok v))
    (f : Parsed × List Token → Except ParseError (Parsed × List Token)) :
    Settles k x (res >>= f) (f v) :=
  ⟨fun hf => by rw [h.1 hf]; rfl, fun hf => (h.2 hf).bind f⟩

/-- Reading an operand one level deeper and wrapping it settles the wrapped tree. -/
theorem wrap {b : Node → Node} (hb : ∀ n, (b n).height = n.height + 1)
    (hn : ∀ n, (b n).nesting = n.nesting + 1) {offset : Nat} {inner : Except ParseError _}
    {g : Parsed × List Token → Except ParseError (Parsed × List Token)} {mid rest : List Token}
    (hs : Settles (k + 1) x inner (.ok (⟨x, x.height⟩, mid)))
    (hg : g (⟨x, x.height⟩, mid) = (Parsed.wrap b ⟨x, x.height⟩ offset).map (·, rest)) :
    Settles k (b x) (inner >>= g) (.ok (⟨b x, (b x).height⟩, rest)) := by
  constructor
  · intro hf
    obtain ⟨hfx, hle⟩ := (Node.fits_wrap hb hn).mp hf
    rw [hs.1 hfx]
    change g _ = _
    rw [hg, Parsed.wrap_of_le hle, hb]
    rfl
  · intro hf
    by_cases hfx : x.Fits (k + 1)
    · have hlt : depthLimit < x.height + 1 :=
        Nat.lt_of_not_le fun hle => hf ((Node.fits_wrap hb hn).mpr ⟨hfx, hle⟩)
      rw [hs.1 hfx]
      change IsDeep (g _)
      rw [hg, Parsed.wrap_of_lt hlt]
      exact ⟨offset, rfl⟩
    · exact (hs.2 hfx).bind g

/-- Reading a chain link: the left operand settles to a continuation that reads the right
operand and combines the two. -/
theorem combine {c : Node → Node → Node}
    (hc : ∀ m n, (c m n).height = max m.height n.height + 1)
    (hn : ∀ m n, (c m n).nesting = max m.nesting n.nesting) {offset : Nat}
    {nextL inner : Except ParseError (Parsed × List Token)}
    {after : Parsed → List Token → Except ParseError (Parsed × List Token)} {mid : List Token}
    (hl : Settles k l res nextL)
    (hcont : nextL =
      inner >>= fun p => Parsed.combine c ⟨l, l.height⟩ p.1 offset >>= fun z => after z p.2)
    (hr : Settles k r inner (.ok (⟨r, r.height⟩, mid))) :
    Settles k (c l r) res (after ⟨c l r, (c l r).height⟩ mid) := by
  constructor
  · intro hf
    obtain ⟨hfl, hfr, hle⟩ := (Node.fits_combine hc hn).mp hf
    rw [hl.1 hfl, hcont, hr.1 hfr]
    change (Parsed.combine c _ _ offset >>= _) = _
    rw [Parsed.combine_of_le hle, hc]
    rfl
  · intro hf
    by_cases hfl : l.Fits k
    · rw [hl.1 hfl, hcont]
      by_cases hfr : r.Fits k
      · have hlt : depthLimit < max l.height r.height + 1 :=
          Nat.lt_of_not_le fun hle => hf ((Node.fits_combine hc hn).mpr ⟨hfl, hfr, hle⟩)
        rw [hr.1 hfr]
        change IsDeep (Parsed.combine c _ _ offset >>= _)
        rw [Parsed.combine_of_lt hlt]
        exact ⟨offset, rfl⟩
      · exact (hr.2 hfr).bind _
    · exact hl.2 hfl

/-- A too deep negation or group does not fit, whatever its operand. -/
theorem deep {b : Node → Node} (hb : ∀ n, (b n).height = n.height + 1)
    (hn : ∀ n, (b n).nesting = n.nesting + 1) (hdeep : depthLimit < k + 1) {offset : Nat} :
    Settles k (b x) (.error ⟨.nestingTooDeep depthLimit, offset⟩) next := by
  refine ⟨fun hf => ?_, fun _ => ⟨offset, rfl⟩⟩
  have := ((Node.fits_wrap hb hn).mp hf).1.2
  omega

end Settles

theorem Token.exists_cons_of_startsOperand {ts : List Token} (h : startsOperand ts = true) :
    ∃ t inner, ts = t :: inner ∧ ∀ s, t ≠ .closeParen s := by
  match ts, h with
  | t :: inner, h => exact ⟨t, inner, rfl, by rintro s rfl; simp [startsOperand] at h⟩

/-! ### One lemma for each way of deriving a phrase -/

section Steps

open Phrase

variable {textEnd k s : Nat} {ts us rest : List Token} {x l r : Node}

theorem settles_atom {p : Pattern} (hk : k ≤ depthLimit) :
    Settles k (.atom p) (primary.read textEnd k ([.name s p] ++ rest))
      (.ok (⟨.atom p, (Node.atom p).height⟩, rest)) :=
  ⟨fun _ => read_primary_name, fun hf => absurd (Node.fits_atom hk) hf⟩

theorem settles_group {s' : Nat} {b₁ b₂ : List Token} (hb₁ : AllBlank b₁)
    (hd : TokenDerives .anyOf ts x) (hb₂ : AllBlank b₂)
    (ih : k + 1 ≤ depthLimit → Settles (k + 1) x
      (anyOf.read textEnd (k + 1) (ts ++ (b₂ ++ .closeParen s' :: rest)))
      (anyOf.resume textEnd (k + 1) ⟨x, x.height⟩ (b₂ ++ .closeParen s' :: rest))) :
    Settles k (.group x)
      (primary.read textEnd k ((.openParen s :: b₁ ++ ts ++ b₂ ++ [.closeParen s']) ++ rest))
      (.ok (⟨.group x, (Node.group x).height⟩, rest)) := by
  have hsplit : (.openParen s :: b₁ ++ ts ++ b₂ ++ [.closeParen s']) ++ rest =
      .openParen s :: (b₁ ++ (ts ++ (b₂ ++ .closeParen s' :: rest))) := by simp
  rw [hsplit]
  by_cases hdeep : depthLimit < k + 1
  · rw [read_primary_deep hdeep]
    exact Settles.deep (fun _ => rfl) (fun _ => rfl) hdeep
  -- the group's contents start right after the opening blanks, and end before the closing ones
  have hskip : skipBlank (b₁ ++ (ts ++ (b₂ ++ .closeParen s' :: rest))) =
      ts ++ (b₂ ++ .closeParen s' :: rest) := by
    rw [skipBlank_append_of_allBlank hb₁, hd.skipBlank_append]
  have hclose : skipBlank (b₂ ++ .closeParen s' :: rest) = .closeParen s' :: rest := by
    rw [skipBlank_append_of_allBlank hb₂]
    rfl
  have hstop : anyOf.resume textEnd (k + 1) ⟨x, x.height⟩ (b₂ ++ .closeParen s' :: rest) =
      .ok (⟨x, x.height⟩, .closeParen s' :: rest) := by
    rw [resume_anyOf_stop (by simp [hclose]), hclose]
  obtain ⟨t, inner, hti, ht⟩ := Token.exists_cons_of_startsOperand (hd.startsOperand
    (b₂ ++ .closeParen s' :: rest))
  rw [read_primary_group (by omega) (hskip.trans hti) ht, ← hti]
  have ih' := ih (by omega)
  rw [hstop] at ih'
  exact Settles.wrap (fun _ => rfl) (fun _ => rfl) ih' rfl

theorem settles_primary (hd : TokenDerives .primary ts x)
    (ih : Settles k x (primary.read textEnd k (ts ++ rest)) (.ok (⟨x, x.height⟩, rest))) :
    Settles k x (negation.read textEnd k (ts ++ rest)) (.ok (⟨x, x.height⟩, rest)) := by
  have hn := hd.startsNegand rest
  rw [read_negation_of_primary (by rintro offset r h; simp [h, startsNegand] at hn)]
  exact ih

theorem settles_not (hd : TokenDerives .primary ts x)
    (ih : k + 1 ≤ depthLimit → Settles (k + 1) x (primary.read textEnd (k + 1) (ts ++ rest))
      (.ok (⟨x, x.height⟩, rest))) :
    Settles k (.not x) (negation.read textEnd k ((.minus s :: ts) ++ rest))
      (.ok (⟨.not x, (Node.not x).height⟩, rest)) := by
  have hn := hd.startsNegand rest
  rw [List.cons_append]
  by_cases hdeep : depthLimit < k + 1
  · rw [read_negation_deep hn hdeep]
    exact Settles.deep (fun _ => rfl) (fun _ => rfl) hdeep
  · rw [read_negation_minus hn (by omega)]
    exact Settles.wrap (fun _ => rfl) (fun _ => rfl) (ih (by omega)) rfl

theorem settles_negation
    (ih : Settles k x (negation.read textEnd k (ts ++ rest)) (.ok (⟨x, x.height⟩, rest))) :
    Settles k x (allOf.read textEnd k (ts ++ rest)) (allOf.resume textEnd k ⟨x, x.height⟩ rest) := by
  rw [read_allOf]
  exact ih.bind_ok _

theorem settles_and {run : String}
    (ihl : Settles k l (allOf.read textEnd k (ts ++ (.blank s run :: us ++ rest)))
      (allOf.resume textEnd k ⟨l, l.height⟩ (.blank s run :: us ++ rest)))
    (hr : TokenDerives .negation us r)
    (ihr : Settles k r (negation.read textEnd k (us ++ rest)) (.ok (⟨r, r.height⟩, rest))) :
    Settles k (.and l r) (allOf.read textEnd k ((ts ++ .blank s run :: us) ++ rest))
      (allOf.resume textEnd k ⟨.and l r, (Node.and l r).height⟩ rest) := by
  rw [List.append_assoc]
  exact Settles.combine (fun _ _ => rfl) (fun _ _ => rfl) ihl
    (resume_allOf_blank (hr.startsOperand rest)) ihr

theorem settles_allOf (he : continuesChain rest = false)
    (ih : Settles k x (allOf.read textEnd k (ts ++ rest))
      (allOf.resume textEnd k ⟨x, x.height⟩ rest)) :
    Settles k x (anyOf.read textEnd k (ts ++ rest)) (anyOf.resume textEnd k ⟨x, x.height⟩ rest) := by
  rw [resume_allOf_stop he] at ih
  rw [read_anyOf]
  exact ih.bind_ok _

theorem settles_or {b₁ b₂ : List Token}
    (ihl : Settles k l (anyOf.read textEnd k (ts ++ (b₁ ++ .comma s :: (b₂ ++ (us ++ rest)))))
      (anyOf.resume textEnd k ⟨l, l.height⟩ (b₁ ++ .comma s :: (b₂ ++ (us ++ rest)))))
    (hb₁ : AllBlank b₁) (hb₂ : AllBlank b₂) (hr : TokenDerives .allOf us r)
    (ihr : Settles k r (allOf.read textEnd k (us ++ rest))
      (allOf.resume textEnd k ⟨r, r.height⟩ rest))
    (he : continuesChain rest = false) :
    Settles k (.or l r) (anyOf.read textEnd k ((ts ++ b₁ ++ .comma s :: b₂ ++ us) ++ rest))
      (anyOf.resume textEnd k ⟨.or l r, (Node.or l r).height⟩ rest) := by
  have hcomma : skipBlank (b₁ ++ .comma s :: (b₂ ++ (us ++ rest))) =
      .comma s :: (b₂ ++ (us ++ rest)) := by
    rw [skipBlank_append_of_allBlank hb₁]
    rfl
  have hus : skipBlank (b₂ ++ (us ++ rest)) = us ++ rest := by
    rw [skipBlank_append_of_allBlank hb₂, hr.skipBlank_append]
  rw [resume_anyOf_comma hcomma (by rw [hus]; exact hr.startsOperand rest), hus] at ihl
  rw [resume_allOf_stop he] at ihr
  simp only [List.append_assoc, List.cons_append]
  exact Settles.combine (fun _ _ => rfl) (fun _ _ => rfl) ihl rfl ihr

end Steps

/-- Completeness of the descent: a derived phrase, followed by anything that does not extend
it, reads to its own tree when the tree fits the nesting reached, and stops too deep
otherwise. -/
theorem TokenDerives.settles {textEnd : Nat} {p : Phrase} {ts : List Token} {n : Node}
    (h : TokenDerives p ts n) {k : Nat} {rest : List Token} (hk : k ≤ depthLimit)
    (he : p.Ends rest) :
    Settles k n (p.read textEnd k (ts ++ rest)) (p.resume textEnd k ⟨n, n.height⟩ rest) := by
  induction h generalizing k rest with
  | atom => exact settles_atom hk
  | group hb₁ hd hb₂ ih =>
    exact settles_group hb₁ hd hb₂ fun hk' => ih hk' (continuesChain_append_cons hb₂ rfl rfl)
  | primary hd ih => exact settles_primary hd (ih hk trivial)
  | not hd ih => exact settles_not hd fun hk' => ih hk' trivial
  | negation _ ih => exact settles_negation (ih hk trivial)
  | and _ hr ihl ihr => exact settles_and (ihl hk trivial) hr (ihr hk trivial)
  | allOf _ ih => exact settles_allOf he (ih hk trivial)
  | or _ hb₁ hb₂ hr ihl ihr =>
    exact settles_or (ihl hk (continuesChain_append_cons hb₁ rfl rfl)) hb₁ hb₂ hr
      (ihr hk trivial) he

/-! ## A whole token list -/

/-- The tokens of a selector whose tree is `n`: one `anyOf` phrase between blanks. -/
def TokensOf (tokens : List Token) (n : Node) : Prop :=
  ∃ bs ts bs', tokens = bs ++ ts ++ bs' ∧ AllBlank bs ∧ TokenDerives .anyOf ts n ∧ AllBlank bs'

namespace Node

variable {textEnd : Nat} {tokens : List Token} {n : Node}

/-- A tree read from tokens is derived by them, and within the height limit. -/
theorem ofTokens_sound (h : ofTokens textEnd tokens = .ok n) :
    TokensOf tokens n ∧ n.height ≤ depthLimit := by
  obtain ⟨x, r, hx, hr, rfl⟩ := ofTokens_eq_ok h
  obtain ⟨pre, bs, hts, hbs, hd, hex⟩ := read_anyOf_sound hx
  obtain ⟨b₀, hb₀, htok⟩ := exists_blanks_append tokens
  have hr' : AllBlank (bs ++ r) := allBlank_append.mpr ⟨hbs, allBlank_of_skipBlank_eq_nil hr⟩
  exact ⟨⟨b₀, pre, bs ++ r, by rw [htok, hts]; simp, hb₀, hd, hr'⟩, hex.2⟩

/-- The tokens of a tree read to that tree when it is within the height limit, and stop
too deep otherwise. -/
theorem ofTokens_complete (h : TokensOf tokens n) :
    (n.height ≤ depthLimit → ofTokens textEnd tokens = .ok n) ∧
      (depthLimit < n.height → IsDeep (ofTokens textEnd tokens)) := by
  obtain ⟨bs, ts, bs', rfl, hb, hd, hb'⟩ := h
  have hskip : skipBlank (bs ++ ts ++ bs') = ts ++ bs' := by
    rw [List.append_assoc, skipBlank_append_of_allBlank hb, hd.skipBlank_append]
  have hne : skipBlank (bs ++ ts ++ bs') ≠ [] := by
    obtain ⟨t, inner, hti, -⟩ := exists_cons_of_startsOperand (hd.startsOperand bs')
    rw [hskip, hti]
    exact List.cons_ne_nil t inner
  have hend : skipBlank bs' = [] := by
    have h := skipBlank_append_of_allBlank hb' []
    rwa [List.append_nil] at h
  have hs : Settles 0 n (Phrase.anyOf.read textEnd 0 (ts ++ bs'))
      (Phrase.anyOf.resume textEnd 0 ⟨n, n.height⟩ bs') :=
    hd.settles (Nat.zero_le _) (continuesChain_of_allBlank hb')
  constructor
  · intro hle
    have hread : Phrase.anyOf.read textEnd 0 (skipBlank (bs ++ ts ++ bs')) =
        .ok (⟨n, n.height⟩, skipBlank bs') := by
      rw [hskip, hs.1 ((fits_zero n).mpr hle), Phrase.resume_anyOf_stop (by simp [hend])]
    exact ofTokens_of_read hne hread (by rw [hend]; rfl)
  · intro hlt
    obtain ⟨offset, hoff⟩ := hs.2 (fun hf => absurd ((fits_zero n).mp hf) (by omega))
    exact ⟨offset, ofTokens_of_read_error hne (by rw [hskip]; exact hoff)⟩

end Node

end ScopeSelectors
