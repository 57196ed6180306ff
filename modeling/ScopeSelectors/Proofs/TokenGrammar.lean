import ScopeSelectors.Proofs.Grammar
/-!
# The selector grammar over tokens

The reader works on tokens, so the grammar is restated over them (`TokenDerives`):
a pattern is one name token, the blank run between the operands of a chain is one
blank token, and the optional blanks around a comma and inside parentheses are any
number of blank tokens.  Byte offsets play no part in it.

Each phrase is read by one function of the descent (`Phrase.read`), with the tokens
it leaves as a plain list (`plainRest`).  After a phrase the reader goes on as
`Phrase.resume` says: a chain keeps folding operands onto what it has read, the
other phrases stop.  The equations of this module are the only places where the
definitions of the descent are unfolded:

* one equation for each branch that the grammar takes, used to run the reader on
  the tokens of a derivation;
* one inversion lemma for each reading function, which says everything a
  successful step can have done, used to read a derivation off a successful run.
-/

namespace ScopeSelectors

/-! ## Blank tokens -/

namespace Token

/-- Every token of the list is a blank. -/
def AllBlank (ts : List Token) : Prop := ∀ t ∈ ts, t.isBlank = true

/-- Whether the tokens go on with another operand of a chain: a blank, then an operand. -/
def continuesChain : List Token → Bool
  | .blank .. :: r => startsOperand r
  | _ => false

theorem allBlank_nil : AllBlank [] := by simp [AllBlank]

theorem allBlank_append {a b : List Token} : AllBlank (a ++ b) ↔ AllBlank a ∧ AllBlank b := by
  simp [AllBlank, or_imp, forall_and]

theorem takeWhile_append_skipBlank (ts : List Token) :
    ts.takeWhile isBlank ++ skipBlank ts = ts :=
  List.takeWhile_append_dropWhile

theorem allBlank_takeWhile (ts : List Token) : AllBlank (ts.takeWhile isBlank) :=
  List.all_eq_true.mp List.all_takeWhile

theorem skipBlank_append_of_allBlank {bs : List Token} (h : AllBlank bs) (ts : List Token) :
    skipBlank (bs ++ ts) = skipBlank ts := by
  induction bs with
  | nil => rfl
  | cons b bs ih =>
    have hb : b.isBlank = true := h b List.mem_cons_self
    simp only [List.cons_append, skipBlank, List.dropWhile_cons, hb]
    exact ih fun t ht => h t (List.mem_cons_of_mem b ht)

theorem skipBlank_cons_of_not_blank {t : Token} (h : t.isBlank = false) (ts : List Token) :
    skipBlank (t :: ts) = t :: ts := by
  simp [skipBlank, h]

theorem allBlank_of_skipBlank_eq_nil {ts : List Token} (h : skipBlank ts = []) : AllBlank ts := by
  have := takeWhile_append_skipBlank ts
  rw [h, List.append_nil] at this
  rw [← this]
  exact allBlank_takeWhile ts

/-- A list that starts with an operand starts with no blank. -/
theorem skipBlank_of_startsOperand {ts : List Token} (h : startsOperand ts = true) :
    skipBlank ts = ts := by
  match ts, h with
  | .name .. :: _, _ | .minus _ :: _, _ | .openParen _ :: _, _ =>
    exact skipBlank_cons_of_not_blank rfl _

/-- Blanks, then a token that is neither a blank nor an operand, do not go on with a chain. -/
theorem continuesChain_append_cons {bs r : List Token} {t : Token} (h : AllBlank bs)
    (ht : t.isBlank = false) (ho : startsOperand (t :: r) = false) :
    continuesChain (bs ++ t :: r) = false := by
  cases bs with
  | nil => cases t <;> simp_all [continuesChain, isBlank]
  | cons b bs =>
    obtain ⟨s, run, rfl⟩ : ∃ s run, b = .blank s run := by
      have := h b List.mem_cons_self
      cases b <;> simp_all [isBlank]
    cases bs with
    | nil => exact ho
    | cons b' bs =>
      have := h b' (by simp)
      cases b' <;> simp_all [continuesChain, startsOperand, isBlank]

/-- Blanks alone do not go on with a chain. -/
theorem continuesChain_of_allBlank {bs : List Token} (h : AllBlank bs) :
    continuesChain bs = false := by
  match bs, h with
  | [], _ => rfl
  | [_], _ => cases ‹Token› <;> rfl
  | b :: b' :: bs, h =>
    have := h b' (by simp)
    cases b <;> cases b' <;> simp_all [continuesChain, startsOperand, isBlank]

end Token

open Token

/-! ## Phrases of tokens -/

/-- `TokenDerives p ts n`: the tokens `ts` are a phrase `p` whose tree is `n`. -/
inductive TokenDerives : Phrase → List Token → Node → Prop where
  /-- A name token is an atom. -/
  | atom {s : Nat} {p : Pattern} : TokenDerives .primary [.name s p] (.atom p)
  /-- Parentheses around an `anyOf` make a group. -/
  | group {s s' : Nat} {b₁ ts b₂ : List Token} {x : Node} : AllBlank b₁ →
      TokenDerives .anyOf ts x → AllBlank b₂ →
      TokenDerives .primary (.openParen s :: b₁ ++ ts ++ b₂ ++ [.closeParen s']) (.group x)
  /-- A primary without `-` is a negation phrase with the same tree. -/
  | primary {ts : List Token} {x : Node} : TokenDerives .primary ts x → TokenDerives .negation ts x
  /-- `-` before a primary negates it. -/
  | not {s : Nat} {ts : List Token} {x : Node} : TokenDerives .primary ts x →
      TokenDerives .negation (.minus s :: ts) (.not x)
  /-- A single negation phrase is a chain of one. -/
  | negation {ts : List Token} {x : Node} : TokenDerives .negation ts x → TokenDerives .allOf ts x
  /-- A blank token and a negation phrase extend a chain to the right. -/
  | and {ts us : List Token} {s : Nat} {run : String} {l r : Node} : TokenDerives .allOf ts l →
      TokenDerives .negation us r → TokenDerives .allOf (ts ++ .blank s run :: us) (.and l r)
  /-- A single chain is an alternative of one. -/
  | allOf {ts : List Token} {x : Node} : TokenDerives .allOf ts x → TokenDerives .anyOf ts x
  /-- A comma, with blanks allowed around it, and a chain extend the alternatives. -/
  | or {ts b₁ b₂ us : List Token} {s : Nat} {l r : Node} : TokenDerives .anyOf ts l →
      AllBlank b₁ → AllBlank b₂ → TokenDerives .allOf us r →
      TokenDerives .anyOf (ts ++ b₁ ++ .comma s :: b₂ ++ us) (.or l r)

namespace TokenDerives

variable {p : Phrase} {ts : List Token} {n : Node}

/-- Every phrase starts with an operand: a name, `-` or `(`. -/
theorem startsOperand (h : TokenDerives p ts n) (rest : List Token) :
    Token.startsOperand (ts ++ rest) = true := by
  induction h generalizing rest with
  | atom | group | not => rfl
  | primary _ ih | negation _ ih | allOf _ ih => exact ih rest
  | and _ _ ih _ => simpa using ih _
  | or _ _ _ _ ih _ => simpa using ih _

/-- A primary starts with a name or `(`. -/
theorem startsNegand (h : TokenDerives .primary ts n) (rest : List Token) :
    Token.startsNegand (ts ++ rest) = true := by
  cases h <;> rfl

theorem skipBlank_append (h : TokenDerives p ts n) (rest : List Token) :
    skipBlank (ts ++ rest) = ts ++ rest :=
  skipBlank_of_startsOperand (h.startsOperand rest)

end TokenDerives

/-! ## Building subtrees -/

theorem except_bind_eq_ok {ε α β : Type} {x : Except ε α} {f : α → Except ε β} {b : β} :
    x >>= f = .ok b ↔ ∃ a, x = .ok a ∧ f a = .ok b := by
  cases x <;> simp [bind, Except.bind]

theorem except_bind_eq_error {ε α β : Type} {x : Except ε α} {f : α → Except ε β} {e : ε} :
    x >>= f = .error e ↔ x = .error e ∨ ∃ a, x = .ok a ∧ f a = .error e := by
  cases x <;> simp [bind, Except.bind]

theorem except_map_eq_error {ε α β : Type} {x : Except ε α} {f : α → β} {e : ε} :
    x.map f = .error e ↔ x = .error e := by
  cases x <;> simp [Except.map]

namespace Parsed

variable {b : Node → Node} {c : Node → Node → Node} {x l r y : Parsed} {offset : Nat}

theorem wrap_of_le (h : x.height + 1 ≤ depthLimit) :
    wrap b x offset = .ok ⟨b x.node, x.height + 1⟩ := by
  simp [wrap, Nat.not_lt.mpr h]

theorem wrap_of_lt (h : depthLimit < x.height + 1) :
    wrap b x offset = .error ⟨.nestingTooDeep depthLimit, offset⟩ := by
  simp [wrap, h]

theorem wrap_eq_ok (h : wrap b x offset = .ok y) :
    y = ⟨b x.node, x.height + 1⟩ ∧ x.height + 1 ≤ depthLimit := by
  unfold wrap at h
  split at h
  · cases h
  · cases h
    exact ⟨rfl, by omega⟩

/-- The only fault of a wrap is the height limit, reported at the operator. -/
theorem wrap_eq_error {e : ParseError} (h : wrap b x offset = .error e) :
    e = ⟨.nestingTooDeep depthLimit, offset⟩ := by
  unfold wrap at h
  split at h
  · cases h
    rfl
  · cases h

theorem combine_of_le (h : max l.height r.height + 1 ≤ depthLimit) :
    combine c l r offset = .ok ⟨c l.node r.node, max l.height r.height + 1⟩ := by
  simp [combine, Nat.not_lt.mpr h]

theorem combine_of_lt (h : depthLimit < max l.height r.height + 1) :
    combine c l r offset = .error ⟨.nestingTooDeep depthLimit, offset⟩ := by
  simp [combine, h]

theorem combine_eq_ok (h : combine c l r offset = .ok y) :
    y = ⟨c l.node r.node, max l.height r.height + 1⟩ ∧ max l.height r.height + 1 ≤ depthLimit := by
  unfold combine at h
  split at h
  · cases h
  · cases h
    exact ⟨rfl, by omega⟩

/-- The only fault of a combination is the height limit, reported at the operator. -/
theorem combine_eq_error {e : ParseError} (h : combine c l r offset = .error e) :
    e = ⟨.nestingTooDeep depthLimit, offset⟩ := by
  unfold combine at h
  split at h
  · cases h
    rfl
  · cases h

end Parsed

/-! ## Reading phrases -/

/-- A reading step's result, with the tokens it left as a plain list. -/
def plainRest {P : List Token → Prop} (res : Except ParseError (Parsed × {r : List Token // P r})) :
    Except ParseError (Parsed × List Token) :=
  res.map fun x => (x.1, x.2.val)

theorem plainRest_eq_ok {P : List Token → Prop} {res : Except ParseError (Parsed × {r // P r})}
    {x : Parsed} {r : List Token} (h : plainRest res = .ok (x, r)) : P r := by
  rcases res with e | ⟨y, r', hr'⟩
  · cases h
  · simp only [plainRest, Except.map, Except.ok.injEq, Prod.mk.injEq] at h
    exact h.2 ▸ hr'

namespace Phrase

variable (textEnd : Nat)

/-- The reading function of each phrase. -/
def read : Phrase → Nat → List Token → Except ParseError (Parsed × List Token)
  | .anyOf, k, ts => plainRest (parseAnyOf textEnd k ts)
  | .allOf, k, ts => plainRest (parseAllOf textEnd k ts)
  | .negation, k, ts => plainRest (parseNegation textEnd k ts)
  | .primary, k, ts => plainRest (parsePrimary textEnd k ts)

/-- What the reader does after a phrase `x`: a chain folds further operands onto it,
the other phrases stop. -/
def resume : Phrase → Nat → Parsed → List Token → Except ParseError (Parsed × List Token)
  | .anyOf, k, x, ts => plainRest (anyOfTail textEnd k x ts)
  | .allOf, k, x, ts => plainRest (allOfTail textEnd k x ts)
  | .negation, _, x, ts | .primary, _, x, ts => .ok (x, ts)

/-- The end of a group whose contents read as `x`, opened at `offset`: a `)` must follow. -/
def closeGroup (offset : Nat) (x : Parsed) : List Token → Except ParseError (Parsed × List Token)
  | .closeParen _ :: r => (Parsed.wrap .group x offset).map (·, r)
  | [] => .error ⟨.unclosedGroup, offset⟩
  | t :: _ => .error ⟨.missingSeparator, t.start⟩

variable {textEnd}
variable {k : Nat} {ts r : List Token} {x acc : Parsed} {offset : Nat}

/-- A reading step consumes at least one token. -/
theorem read_length_lt {p : Phrase} (h : p.read textEnd k ts = .ok (x, r)) :
    r.length < ts.length := by
  cases p <;> exact plainRest_eq_ok h

/-! ### The branches the grammar takes -/

theorem read_anyOf (k : Nat) (ts : List Token) :
    anyOf.read textEnd k ts =
      allOf.read textEnd k ts >>= fun p => anyOf.resume textEnd k p.1 p.2 := by
  simp only [read, resume]
  rw [parseAnyOf]
  rcases parseAllOf textEnd k ts with e | ⟨y, r1⟩
  · rfl
  · rcases h : anyOfTail textEnd k y r1.val with e | ⟨z, r2⟩ <;>
      simp [plainRest, Except.map, h, bind, Except.bind]

theorem read_allOf (k : Nat) (ts : List Token) :
    allOf.read textEnd k ts =
      negation.read textEnd k ts >>= fun p => allOf.resume textEnd k p.1 p.2 := by
  simp only [read, resume]
  rw [parseAllOf]
  rcases parseNegation textEnd k ts with e | ⟨y, r1⟩
  · rfl
  · rcases h : allOfTail textEnd k y r1.val with e | ⟨z, r2⟩ <;>
      simp [plainRest, Except.map, h, bind, Except.bind]

/-- After a comma and an operand, the alternatives go on. -/
theorem resume_anyOf_comma {r0 : List Token} (h : skipBlank ts = .comma offset :: r0)
    (hs : startsOperand (skipBlank r0) = true) :
    anyOf.resume textEnd k acc ts =
      allOf.read textEnd k (skipBlank r0) >>= fun p =>
        Parsed.combine .or acc p.1 offset >>= fun z => anyOf.resume textEnd k z p.2 := by
  simp only [read, resume]
  rw [anyOfTail]
  split
  · next offset' r' h' =>
    rw [h] at h'
    cases h'
    rw [if_pos hs]
    rcases parseAllOf textEnd k (skipBlank r0) with e | ⟨y, r1⟩
    · rfl
    · rcases h1 : Parsed.combine .or acc y offset with e | z
      · simp [plainRest, Except.map, h1, bind, Except.bind]
      · rcases h2 : anyOfTail textEnd k z r1.val with e | ⟨w, r2⟩ <;>
          simp [plainRest, Except.map, h1, h2, bind, Except.bind]
  · next hne => exact absurd h (hne offset r0)

/-- Without a comma, the alternatives stop after the blanks. -/
theorem resume_anyOf_stop (h : ∀ offset r0, skipBlank ts ≠ .comma offset :: r0) :
    anyOf.resume textEnd k acc ts = .ok (acc, skipBlank ts) := by
  simp only [resume]
  rw [anyOfTail]
  split
  · next offset' r' h' => exact absurd h' (h offset' r')
  · rfl

/-- After a blank and an operand, the chain goes on. -/
theorem resume_allOf_blank {run : String} (hs : startsOperand r = true) :
    allOf.resume textEnd k acc (.blank offset run :: r) =
      negation.read textEnd k r >>= fun p =>
        Parsed.combine .and acc p.1 offset >>= fun z => allOf.resume textEnd k z p.2 := by
  simp only [read, resume]
  rw [allOfTail, if_pos hs]
  rcases parseNegation textEnd k r with e | ⟨y, r1⟩
  · rfl
  · rcases h1 : Parsed.combine .and acc y offset with e | z
    · simp [plainRest, Except.map, h1, bind, Except.bind]
    · rcases h2 : allOfTail textEnd k z r1.val with e | ⟨w, r2⟩ <;>
        simp [plainRest, Except.map, h1, h2, bind, Except.bind]

/-- Without a blank and an operand, the chain stops. -/
theorem resume_allOf_stop (h : continuesChain ts = false) :
    allOf.resume textEnd k acc ts = .ok (acc, ts) := by
  simp only [resume]
  rw [allOfTail.eq_def]
  split
  · next offset' run r' =>
    rw [if_neg (by simpa [continuesChain] using h)]
    rfl
  · rfl

theorem read_negation_minus (hn : startsNegand r = true) (hk : k + 1 ≤ depthLimit) :
    negation.read textEnd k (.minus offset :: r) =
      primary.read textEnd (k + 1) r >>= fun p => (Parsed.wrap .not p.1 offset).map (·, p.2) := by
  simp only [read]
  rw [parseNegation]
  simp only [hn, Bool.not_true, Bool.false_eq_true, if_false, Nat.not_lt.mpr hk]
  rcases parsePrimary textEnd (k + 1) r with e | ⟨y, r1⟩
  · rfl
  · rcases h : Parsed.wrap .not y offset with e | z <;>
      simp [plainRest, Except.map, h, bind, Except.bind]

theorem read_negation_deep (hn : startsNegand r = true) (hk : depthLimit < k + 1) :
    negation.read textEnd k (.minus offset :: r) =
      .error ⟨.nestingTooDeep depthLimit, offset⟩ := by
  simp only [read]
  rw [parseNegation]
  simp [hn, hk, plainRest, Except.map]

theorem read_negation_of_primary (h : ∀ offset r, ts ≠ .minus offset :: r) :
    negation.read textEnd k ts = primary.read textEnd k ts := by
  simp only [read]
  rw [parseNegation.eq_def]
  split
  · next offset r => exact absurd rfl (h offset r)
  · rfl

theorem read_primary_name {s : Nat} {p : Pattern} :
    primary.read textEnd k (.name s p :: r) = .ok (⟨.atom p, 1⟩, r) := by
  simp only [read]
  rw [parsePrimary]
  rfl

theorem read_primary_deep (hk : depthLimit < k + 1) :
    primary.read textEnd k (.openParen offset :: r) =
      .error ⟨.nestingTooDeep depthLimit, offset⟩ := by
  simp only [read]
  rw [parsePrimary]
  simp [hk, plainRest, Except.map]

/-- A group reads its contents after the blanks, and then expects `)`. -/
theorem read_primary_group {t : Token} {inner : List Token} (hk : k + 1 ≤ depthLimit)
    (h : skipBlank r = t :: inner) (ht : ∀ s, t ≠ .closeParen s) :
    primary.read textEnd k (.openParen offset :: r) =
      anyOf.read textEnd (k + 1) (t :: inner) >>= fun p => closeGroup offset p.1 (skipBlank p.2) := by
  simp only [read]
  rw [parsePrimary]
  simp only [Nat.not_lt.mpr hk, if_false]
  split
  · next h' => rw [h] at h'; cases h'
  · next s tail h' => rw [h] at h'; cases h'; exact absurd rfl (ht s)
  · next t' inner' _ h' =>
    rw [h] at h'
    cases h'
    rcases parseAnyOf textEnd (k + 1) (t :: inner) with e | ⟨y, r1⟩
    · rfl
    · change _ = closeGroup offset y (skipBlank r1.val)
      dsimp only
      split
      · next s r2 h2 =>
        conv => rhs; rw [h2]
        rcases h3 : Parsed.wrap .group y offset with e | z <;>
          simp [closeGroup, h3, plainRest, Except.map]
      · next h2 =>
        conv => rhs; rw [h2]
        rfl
      · next t2 tail2 hne h2 =>
        conv => rhs; rw [h2]
        cases t2 <;> simp_all [closeGroup, plainRest, Except.map]

/-! ### The branches that refuse -/

/-- A comma with no operand after it. -/
theorem resume_anyOf_dangling {r0 : List Token} (h : skipBlank ts = .comma offset :: r0)
    (hs : startsOperand (skipBlank r0) = false) :
    anyOf.resume textEnd k acc ts = .error ⟨.danglingOperator ',', offset⟩ := by
  simp only [resume]
  rw [anyOfTail]
  split
  · next offset' r' h' =>
    rw [h] at h'
    cases h'
    simp [hs, plainRest, Except.map]
  · next hne => exact absurd h (hne offset r0)

/-- A `-` before neither a name nor `(`. -/
theorem read_negation_dangling (hn : startsNegand r = false) :
    negation.read textEnd k (.minus offset :: r) = .error ⟨.danglingOperator '-', offset⟩ := by
  simp only [read]
  rw [parseNegation]
  simp [hn, plainRest, Except.map]

/-- A `(` with nothing but blanks after it. -/
theorem read_primary_unclosed (hk : k + 1 ≤ depthLimit) (h : skipBlank r = []) :
    primary.read textEnd k (.openParen offset :: r) = .error ⟨.unclosedGroup, offset⟩ := by
  simp only [read]
  rw [parsePrimary]
  simp only [Nat.not_lt.mpr hk, if_false]
  split
  · rfl
  · next h' => rw [h] at h'; cases h'
  · next h' => rw [h] at h'; cases h'

/-- A `(` with only blanks before the `)`. -/
theorem read_primary_empty {s : Nat} {inner : List Token} (hk : k + 1 ≤ depthLimit)
    (h : skipBlank r = .closeParen s :: inner) :
    primary.read textEnd k (.openParen offset :: r) = .error ⟨.emptyGroup, offset⟩ := by
  simp only [read]
  rw [parsePrimary]
  simp only [Nat.not_lt.mpr hk, if_false]
  split
  · next h' => rw [h] at h'; cases h'
  · rfl
  · next t inner' ht h' =>
    rw [h] at h'
    cases h'
    exact absurd rfl (ht s)

theorem read_primary_closeParen {s : Nat} :
    primary.read textEnd k (.closeParen s :: r) = .error ⟨.unmatchedCloseParen, s⟩ := by
  simp only [read]
  rw [parsePrimary]
  rfl

theorem read_primary_comma {s : Nat} :
    primary.read textEnd k (.comma s :: r) = .error ⟨.danglingOperator ',', s⟩ := by
  simp only [read]
  rw [parsePrimary]
  rfl

theorem read_primary_minus {s : Nat} :
    primary.read textEnd k (.minus s :: r) = .error ⟨.danglingOperator '-', s⟩ := by
  simp only [read]
  rw [parsePrimary]
  rfl

/-- The end of a group refuses a missing `)`, a group too high, or an operand right after its
contents. -/
theorem closeGroup_eq_error {y : Parsed} {e : ParseError} (h : closeGroup offset y ts = .error e) :
    (ts = [] ∧ e = ⟨.unclosedGroup, offset⟩) ∨
    (∃ s r, ts = .closeParen s :: r ∧ Parsed.wrap .group y offset = .error e) ∨
    ∃ t r, ts = t :: r ∧ (∀ s, t ≠ .closeParen s) ∧ e = ⟨.missingSeparator, t.start⟩ := by
  match ts, h with
  | [], h =>
    cases h
    exact .inl ⟨rfl, rfl⟩
  | .closeParen s :: r, h => exact .inr (.inl ⟨s, r, rfl, except_map_eq_error.mp h⟩)
  | .name s p :: r, h | .blank s run :: r, h | .comma s :: r, h | .minus s :: r, h
  | .openParen s :: r, h =>
    cases h
    exact .inr (.inr ⟨_, r, rfl, fun _ => by simp, rfl⟩)

/-! ### What a successful step has done -/

theorem closeGroup_eq_ok {y : Parsed} (h : closeGroup offset y ts = .ok (x, r)) :
    ∃ s, ts = .closeParen s :: r ∧ Parsed.wrap .group y offset = .ok x := by
  match ts, h with
  | .closeParen s :: r0, h =>
    rcases hw : Parsed.wrap .group y offset with e | z <;>
      simp only [closeGroup, hw, Except.map, reduceCtorEq, Except.ok.injEq, Prod.mk.injEq] at h
    obtain ⟨rfl, rfl⟩ := h
    exact ⟨s, rfl, rfl⟩
  | [], h | .name .. :: _, h | .blank .. :: _, h | .comma _ :: _, h | .minus _ :: _, h
  | .openParen _ :: _, h => simp [closeGroup] at h

theorem read_primary_eq_ok (h : primary.read textEnd k ts = .ok (x, r)) :
    (∃ s p, ts = .name s p :: r ∧ x = ⟨.atom p, 1⟩) ∨
    (∃ offset r0 y r1, ts = .openParen offset :: r0 ∧
      anyOf.read textEnd (k + 1) (skipBlank r0) = .ok (y, r1) ∧
      closeGroup offset y (skipBlank r1) = .ok (x, r)) := by
  match ts, h with
  | .name s p :: r0, h =>
    rw [read_primary_name] at h
    simp only [Except.ok.injEq, Prod.mk.injEq] at h
    exact .inl ⟨s, p, by rw [h.2], h.1.symm⟩
  | .openParen offset :: r0, h =>
    right
    by_cases hk : depthLimit < k + 1
    · rw [read_primary_deep hk] at h
      cases h
    · by_cases hg : ∃ t inner, skipBlank r0 = t :: inner ∧ ∀ s, t ≠ .closeParen s
      · obtain ⟨t, inner, hs, ht⟩ := hg
        rw [read_primary_group (Nat.not_lt.mp hk) hs ht, except_bind_eq_ok] at h
        obtain ⟨⟨y, r1⟩, hy, hc⟩ := h
        exact ⟨offset, r0, y, r1, rfl, by rw [hs]; exact hy, hc⟩
      · -- an unclosed or an empty group
        simp only [read] at h
        rw [parsePrimary] at h
        simp only [hk, if_false] at h
        split at h
        · simp [plainRest, Except.map] at h
        · simp [plainRest, Except.map] at h
        · next t inner ht hs => exact absurd ⟨t, inner, hs, fun s h => ht s h⟩ hg
  | [], h | .blank .. :: _, h | .comma _ :: _, h | .minus _ :: _, h | .closeParen _ :: _, h =>
    simp only [read] at h
    rw [parsePrimary] at h
    simp [plainRest, Except.map] at h


theorem read_negation_eq_ok (h : negation.read textEnd k ts = .ok (x, r)) :
    (∃ offset r0 y, ts = .minus offset :: r0 ∧ primary.read textEnd (k + 1) r0 = .ok (y, r) ∧
      Parsed.wrap .not y offset = .ok x) ∨
    primary.read textEnd k ts = .ok (x, r) := by
  by_cases hm : ∃ offset r0, ts = .minus offset :: r0
  · obtain ⟨offset, r0, rfl⟩ := hm
    left
    by_cases hn : startsNegand r0 = true
    · by_cases hk : depthLimit < k + 1
      · rw [read_negation_deep hn hk] at h
        cases h
      · rw [read_negation_minus hn (Nat.not_lt.mp hk), except_bind_eq_ok] at h
        obtain ⟨⟨y, r1⟩, hy, hw⟩ := h
        rcases hw' : Parsed.wrap .not y offset with e | z <;>
          simp only [hw', Except.map, reduceCtorEq, Except.ok.injEq, Prod.mk.injEq] at hw
        obtain ⟨rfl, rfl⟩ := hw
        exact ⟨offset, r0, y, rfl, hy, hw'⟩
    · -- a dangling `-`
      simp only [read] at h
      rw [parseNegation] at h
      simp [hn, plainRest, Except.map] at h
  · right
    rwa [read_negation_of_primary fun offset r0 he => hm ⟨offset, r0, he⟩] at h

theorem resume_allOf_eq_ok (h : allOf.resume textEnd k acc ts = .ok (x, r)) :
    (∃ offset run r0 y r1 z, ts = .blank offset run :: r0 ∧
      negation.read textEnd k r0 = .ok (y, r1) ∧ Parsed.combine .and acc y offset = .ok z ∧
      allOf.resume textEnd k z r1 = .ok (x, r)) ∨
    (x = acc ∧ r = ts ∧ continuesChain ts = false) := by
  by_cases hc : continuesChain ts = true
  · obtain ⟨offset, run, r0, rfl, hs⟩ :
        ∃ offset run r0, ts = .blank offset run :: r0 ∧ startsOperand r0 = true := by
      match ts, hc with
      | .blank offset run :: r0, hc => exact ⟨offset, run, r0, rfl, hc⟩
    rw [resume_allOf_blank hs, except_bind_eq_ok] at h
    obtain ⟨⟨y, r1⟩, hy, h⟩ := h
    rw [except_bind_eq_ok] at h
    obtain ⟨z, hz, h⟩ := h
    exact .inl ⟨offset, run, r0, y, r1, z, rfl, hy, hz, h⟩
  · rw [resume_allOf_stop (by simpa using hc)] at h
    simp only [Except.ok.injEq, Prod.mk.injEq] at h
    exact .inr ⟨h.1.symm, h.2.symm, by simpa using hc⟩

theorem resume_anyOf_eq_ok (h : anyOf.resume textEnd k acc ts = .ok (x, r)) :
    (∃ offset r0 y r1 z, skipBlank ts = .comma offset :: r0 ∧
      allOf.read textEnd k (skipBlank r0) = .ok (y, r1) ∧
      Parsed.combine .or acc y offset = .ok z ∧ anyOf.resume textEnd k z r1 = .ok (x, r)) ∨
    (x = acc ∧ r = skipBlank ts ∧ ∀ offset r0, skipBlank ts ≠ .comma offset :: r0) := by
  by_cases hc : ∃ offset r0, skipBlank ts = .comma offset :: r0
  · obtain ⟨offset, r0, hc⟩ := hc
    left
    by_cases hs : startsOperand (skipBlank r0) = true
    · rw [resume_anyOf_comma hc hs, except_bind_eq_ok] at h
      obtain ⟨⟨y, r1⟩, hy, h⟩ := h
      rw [except_bind_eq_ok] at h
      obtain ⟨z, hz, h⟩ := h
      exact ⟨offset, r0, y, r1, z, hc, hy, hz, h⟩
    · -- a dangling comma
      simp only [resume] at h
      rw [anyOfTail] at h
      split at h
      · next offset' r' h' =>
        rw [hc] at h'
        cases h'
        simp [hs, plainRest, Except.map] at h
      · next hne => exact absurd hc (hne offset r0)
  · rw [resume_anyOf_stop fun offset r0 he => hc ⟨offset, r0, he⟩] at h
    simp only [Except.ok.injEq, Prod.mk.injEq] at h
    exact .inr ⟨h.1.symm, h.2.symm, fun offset r0 he => hc ⟨offset, r0, he⟩⟩

end Phrase

/-! ## A whole selector -/

namespace Node

variable {textEnd : Nat} {tokens r : List Token} {x : Parsed} {n : Node}

theorem ofTokens_eq_ok (h : ofTokens textEnd tokens = .ok n) :
    ∃ x r, Phrase.anyOf.read textEnd 0 (skipBlank tokens) = .ok (x, r) ∧ skipBlank r = [] ∧
      x.node = n := by
  unfold ofTokens at h
  split at h
  · cases h
  · next _ t ts hts =>
    rcases hp : parseAnyOf textEnd 0 (t :: ts) with e | ⟨x, r⟩ <;> rw [hp] at h
    · cases h
    · refine ⟨x, r.val, by simp only [Phrase.read]; rw [hts, hp]; rfl, ?_⟩
      dsimp only at h
      split at h
      · next hr => exact ⟨hr, Except.ok.inj h⟩
      · cases h
      · cases h

/-- A selector whose phrase reads to the end, up to blanks, is its tree. -/
theorem ofTokens_of_read (hne : skipBlank tokens ≠ [])
    (h : Phrase.anyOf.read textEnd 0 (skipBlank tokens) = .ok (x, r)) (hr : skipBlank r = []) :
    ofTokens textEnd tokens = .ok x.node := by
  obtain ⟨t, ts, hts⟩ := List.exists_cons_of_ne_nil hne
  unfold ofTokens
  rw [hts]
  rw [hts] at h
  rcases hp : parseAnyOf textEnd 0 (t :: ts) with e | ⟨y, r'⟩ <;>
    simp only [Phrase.read, hp, plainRest, Except.map, reduceCtorEq, Except.ok.injEq,
      Prod.mk.injEq] at h
  obtain ⟨rfl, rfl⟩ := h
  dsimp only
  rw [hp]
  simp [hr]

/-- A selector whose phrase fails fails with the same error. -/
theorem ofTokens_of_read_error {e : ParseError} (hne : skipBlank tokens ≠ [])
    (h : Phrase.anyOf.read textEnd 0 (skipBlank tokens) = .error e) :
    ofTokens textEnd tokens = .error e := by
  obtain ⟨t, ts, hts⟩ := List.exists_cons_of_ne_nil hne
  unfold ofTokens
  rw [hts]
  rw [hts] at h
  rcases hp : parseAnyOf textEnd 0 (t :: ts) with e' | ⟨y, r'⟩ <;>
    simp only [Phrase.read, hp, plainRest, Except.map, reduceCtorEq, Except.error.injEq] at h
  dsimp only
  rw [hp, h]

end Node

end ScopeSelectors
