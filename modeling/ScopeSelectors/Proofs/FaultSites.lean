import ScopeSelectors.Proofs.Descent
/-!
# Where the reader reports a fault

Every fault the reader finds in a list of tokens is reported at the start of one of its
tokens, and that token fits the fault (`Token.FaultIn`, `ParseError.Kind.AtToken`):

* a group that is empty or never closed at its `(`, and a `)` that closes nothing at itself;
* a dangling operator at that operator, and a tree or a nesting too high at the operator that
  went over the limit: `(`, `-`, `,` or the blank of a descendant link;
* two operands with nothing between them at the start of the second one, right after the
  name or the `)` that ends the first.

The reading functions are only ever given tokens that start with a token other than a blank
(`Token.NonBlankHead`), so the reader's arms for a missing token and for a blank where an
operand should start never run.  Where the alternatives stop before an operand, the reader has
read the end of an operand and the blanks after it (`Phrase.StopsBefore`); one blank there would
have gone on with the chain, and the lexer never puts two blanks side by side
(`Token.NoDoubleBlank`), so the operand follows the end of the last one directly.

The faults are followed through the descent by six theorems, mutually recursive like the
functions they are about (`Phrase.read_anyOf_fault` and its companions), and through a whole
selector by `Node.ofTokens_fault`.
-/

namespace ScopeSelectors

open Token

/-! ## Kinds of tokens -/

namespace Token

/-- Whether the token starts an operand: a name, `-` or `(`. -/
def opensOperand : Token → Bool
  | .name .. | .minus _ | .openParen _ => true
  | _ => false

/-- Whether the token ends an operand: a name or `)`. -/
def endsOperand : Token → Bool
  | .name .. | .closeParen _ => true
  | _ => false

/-- Whether the token nests or joins operands: `(`, `-`, `,` or a blank. -/
def isOperator : Token → Bool
  | .openParen _ | .minus _ | .comma _ | .blank .. => true
  | _ => false

/-- The tokens start with a token that is not a blank. -/
def NonBlankHead (ts : List Token) : Prop := ∃ t ∈ ts.head?, t.isBlank = false

/-- No two blanks stand side by side. -/
def NoDoubleBlank (ts : List Token) : Prop :=
  ts.IsChain fun a b => ¬ (a.isBlank = true ∧ b.isBlank = true)

/-- The tokens end with the end of an operand. -/
def EndsOperand (ts : List Token) : Prop := ∃ t ∈ ts.getLast?, t.endsOperand = true

theorem startsOperand_cons (t : Token) (r : List Token) :
    startsOperand (t :: r) = t.opensOperand := by
  cases t <;> rfl

theorem skipBlank_skipBlank (ts : List Token) : skipBlank (skipBlank ts) = skipBlank ts :=
  List.dropWhile_idempotent _ _

theorem skipBlank_suffix (ts : List Token) : skipBlank ts <:+ ts := List.dropWhile_suffix _

theorem isBlank_of_skipBlank {ts r : List Token} {t : Token} (h : skipBlank ts = t :: r) :
    t.isBlank = false := by
  have := List.head?_dropWhile_not isBlank ts
  rw [← skipBlank, h] at this
  exact this

theorem nonBlankHead_of_skipBlank {ts r : List Token} {t : Token} (h : skipBlank ts = t :: r) :
    NonBlankHead (t :: r) :=
  ⟨t, rfl, isBlank_of_skipBlank h⟩

theorem nonBlankHead_of_startsOperand {ts : List Token} (h : startsOperand ts = true) :
    NonBlankHead ts := by
  match ts, h with
  | .name .. :: _, _ | .minus _ :: _, _ | .openParen _ :: _, _ => exact ⟨_, rfl, rfl⟩

theorem nonBlankHead_of_startsNegand {ts : List Token} (h : startsNegand ts = true) :
    NonBlankHead ts := by
  match ts, h with
  | .name .. :: _, _ | .openParen _ :: _, _ => exact ⟨_, rfl, rfl⟩

theorem NoDoubleBlank.suffix {ts us : List Token} (h : NoDoubleBlank us) (hs : ts <:+ us) :
    NoDoubleBlank ts :=
  List.IsChain.suffix h hs

theorem EndsOperand.append_left {ts : List Token} (h : EndsOperand ts) (pre : List Token) :
    EndsOperand (pre ++ ts) := by
  obtain ⟨t, ht, he⟩ := h
  exact ⟨t, by simp [List.getLast?_append, Option.mem_def.mp ht], he⟩

theorem EndsOperand.append {a b : List Token} (ha : EndsOperand a)
    (hb : b = [] ∨ EndsOperand b) : EndsOperand (a ++ b) := by
  rcases hb with rfl | hb
  · simpa using ha
  · exact hb.append_left a

end Token

/-- The tokens of a phrase end with the end of an operand: a name or `)`. -/
theorem TokenDerives.endsOperand {p : Phrase} {ts : List Token} {n : Node}
    (h : TokenDerives p ts n) : EndsOperand ts := by
  induction h with
  | atom => exact ⟨_, rfl, rfl⟩
  | group => exact EndsOperand.append_left ⟨_, rfl, rfl⟩ _
  | primary _ ih | negation _ ih | allOf _ ih => exact ih
  | not _ ih => exact ih.append_left [_]
  | and _ _ _ ihr => exact (ihr.append_left [_]).append_left _
  | or _ _ _ _ _ ihr => exact ihr.append_left _

/-! ## Faults at tokens -/

/-- The token a fault of kind `k` is reported at, `prev` being the token before it. -/
def ParseError.Kind.AtToken : ParseError.Kind → Option Token → Token → Prop
  | .unclosedGroup, _, t | .emptyGroup, _, t => ∃ s, t = .openParen s
  | .unmatchedCloseParen, _, t => ∃ s, t = .closeParen s
  | .danglingOperator c, _, t => c = ',' ∧ (∃ s, t = .comma s) ∨ c = '-' ∧ ∃ s, t = .minus s
  | .nestingTooDeep limit, _, t => limit = depthLimit ∧ t.isOperator = true
  | .missingSeparator, prev, t => t.opensOperand = true ∧ ∃ p ∈ prev, p.endsOperand = true
  | .emptySelector, _, _ | .illegalCharacter _, _, _ | .emptySegment, _, _ => False

/-- The fault `e` is reported at the start of a token of `ts` that fits it. -/
def Token.FaultIn (ts : List Token) (e : ParseError) : Prop :=
  ∃ pre t post, ts = pre ++ t :: post ∧ e.offset = t.start ∧ e.kind.AtToken pre.getLast? t

namespace Token

variable {ts : List Token} {e : ParseError}

/-- A fault that needs no token before it, at the first token. -/
theorem faultIn_head (t : Token) (r : List Token) (ho : e.offset = t.start)
    (hk : e.kind.AtToken none t) : FaultIn (t :: r) e :=
  ⟨[], t, r, rfl, ho, hk⟩

/-- A fault in some last tokens of a list is a fault in the list. -/
theorem FaultIn.of_suffix {us : List Token} (h : FaultIn ts e) (hs : ts <:+ us) :
    FaultIn us e := by
  obtain ⟨p, rfl⟩ := hs
  obtain ⟨pre, t, post, rfl, ho, hk⟩ := h
  refine ⟨p ++ pre, t, post, by simp, ho, ?_⟩
  -- the token before stays the same, unless there was none, and then no fault needs one
  cases pre using List.reverseRecOn with
  | nil => cases hk' : e.kind <;> simp_all [ParseError.Kind.AtToken]
  | append_singleton pre q _ => simpa using hk

end Token

/-! ## Where the reader stops -/

namespace Phrase

variable {textEnd : Nat}

/-- A chain stops after the end of an operand, or where it started, before tokens that do not
go on with it. -/
theorem resume_allOf_stops {k : Nat} {acc x : Parsed} {ts r : List Token}
    (h : allOf.resume textEnd k acc ts = .ok (x, r)) :
    ∃ c, ts = c ++ r ∧ (c = [] ∨ EndsOperand c) ∧ continuesChain r = false := by
  rcases resume_allOf_eq_ok h with
    ⟨offset, run, r0, y, r1, z, rfl, hy, -, hrest⟩ | ⟨-, rfl, hstop⟩
  · have := read_length_lt hy
    obtain ⟨pre, rfl, hd, -⟩ := read_negation_sound hy
    obtain ⟨c, rfl, hc, hstop⟩ := resume_allOf_stops hrest
    refine ⟨.blank offset run :: pre ++ c, by simp, .inr ?_, hstop⟩
    simpa using (hd.endsOperand.append hc).append_left [_]
  · exact ⟨[], rfl, .inl rfl, hstop⟩
termination_by ts.length

theorem read_allOf_stops {k : Nat} {x : Parsed} {ts r : List Token}
    (h : allOf.read textEnd k ts = .ok (x, r)) :
    ∃ c, ts = c ++ r ∧ EndsOperand c ∧ continuesChain r = false := by
  rw [read_allOf, except_bind_eq_ok] at h
  obtain ⟨⟨y, r1⟩, hy, hz⟩ := h
  obtain ⟨pre, rfl, hd, -⟩ := read_negation_sound hy
  obtain ⟨c, rfl, hc, hstop⟩ := resume_allOf_stops hz
  exact ⟨pre ++ c, by simp, hd.endsOperand.append hc, hstop⟩

/-- Where the alternatives stop reading `ts` before `r`: after the end of an operand and the
blanks `bs` after it, before neither a blank nor a comma, and where `bs ++ r` does not go on
with the last chain. -/
def StopsBefore (ts r : List Token) : Prop :=
  ∃ c bs, ts = c ++ bs ++ r ∧ EndsOperand c ∧ AllBlank bs ∧ continuesChain (bs ++ r) = false ∧
    skipBlank r = r ∧ ∀ s r', r ≠ .comma s :: r'

theorem StopsBefore.skipBlank_eq {ts r : List Token} (h : StopsBefore ts r) : skipBlank r = r := by
  obtain ⟨-, -, -, -, -, -, hskip, -⟩ := h
  exact hskip

theorem StopsBefore.suffix {ts r : List Token} (h : StopsBefore ts r) : r <:+ ts := by
  obtain ⟨c, bs, rfl, -⟩ := h
  exact List.suffix_append _ r

theorem resume_anyOf_stops {k : Nat} {acc x : Parsed} {ts r : List Token}
    (h : anyOf.resume textEnd k acc ts = .ok (x, r))
    (hts : continuesChain ts = false) :
    ∃ c bs, ts = c ++ bs ++ r ∧ (c = [] ∨ EndsOperand c) ∧ AllBlank bs ∧
      continuesChain (bs ++ r) = false ∧ skipBlank r = r ∧ ∀ s r', r ≠ .comma s :: r' := by
  rcases resume_anyOf_eq_ok h with
    ⟨offset, r0, y, r1, z, hc, hy, -, hrest⟩ | ⟨-, rfl, hnc⟩
  · -- a comma and one more chain, then the rest of the alternatives
    have hlt : (skipBlank r0).length < ts.length := by
      have h₁ := length_skipBlank_le ts
      have h₂ := length_skipBlank_le r0
      rw [hc, List.length_cons] at h₁
      omega
    have := read_length_lt hy
    obtain ⟨c₁, hc₁, hd, hstop⟩ := read_allOf_stops hy
    obtain ⟨c, bs, rfl, hce, hbs, hcont, hskip, hcomma⟩ := resume_anyOf_stops hrest hstop
    obtain ⟨b₁, -, e₁⟩ := exists_blanks_append ts
    obtain ⟨b₂, -, e₂⟩ := exists_blanks_append r0
    refine ⟨b₁ ++ .comma offset :: b₂ ++ c₁ ++ c, bs, ?_, .inr ?_, hbs, hcont, hskip, hcomma⟩
    · rw [e₁, hc, e₂, hc₁]
      simp
    · simpa using (hd.append hce).append_left (b₁ ++ .comma offset :: b₂)
  · -- no comma after the blanks: the alternatives stop there
    refine ⟨[], ts.takeWhile isBlank, ?_, .inl rfl, allBlank_takeWhile ts, ?_,
      skipBlank_skipBlank ts, hnc⟩
    · simp [takeWhile_append_skipBlank]
    · rw [takeWhile_append_skipBlank]
      exact hts
termination_by ts.length

theorem read_anyOf_stops {k : Nat} {x : Parsed} {ts r : List Token}
    (h : anyOf.read textEnd k ts = .ok (x, r)) : StopsBefore ts r := by
  rw [read_anyOf, except_bind_eq_ok] at h
  obtain ⟨⟨y, r1⟩, hy, hz⟩ := h
  obtain ⟨c₁, rfl, hd, hstop⟩ := read_allOf_stops hy
  obtain ⟨c, bs, rfl, hc, hbs, hcont, hskip, hcomma⟩ := resume_anyOf_stops hz hstop
  exact ⟨c₁ ++ c, bs, by simp, hd.append hc, hbs, hcont, hskip, hcomma⟩

/-- Where the alternatives stopped before a token other than `)`, that token starts an operand
right after the end of the last one: a missing separator. -/
theorem StopsBefore.faultIn_missingSeparator {ts r : List Token} {t : Token}
    (hstop : StopsBefore ts (t :: r)) (ht : ∀ s, t ≠ .closeParen s) (hd : NoDoubleBlank ts) :
    FaultIn ts ⟨.missingSeparator, t.start⟩ := by
  obtain ⟨c, bs, rfl, hc, hbs, hcont, hskip, hcomma⟩ := hstop
  -- the token is neither a blank, nor a comma, nor `)`: it starts an operand
  have hopens : t.opensOperand = true := by
    have hblank := isBlank_of_skipBlank hskip
    cases t with
    | comma s => exact absurd rfl (hcomma s r)
    | closeParen s => exact absurd rfl (ht s)
    | blank => cases hblank
    | name | minus | openParen => rfl
  match bs, hbs, hcont, hd with
  | [], _, _, _ =>
    obtain ⟨p, hp, he⟩ := hc
    exact ⟨c, t, r, by simp, rfl, hopens, p, hp, he⟩
  | [b], hbs, hcont, _ =>
    -- one blank before an operand would have gone on with the chain
    obtain ⟨s, run, rfl⟩ : ∃ s run, b = .blank s run := by
      have := hbs b (by simp)
      cases b <;> simp_all [isBlank]
    simp [continuesChain, startsOperand_cons, hopens] at hcont
  | b :: b' :: bs, hbs, _, hd =>
    -- two blanks side by side never come from the lexer
    have hsuf : (b :: b' :: (bs ++ t :: r)) <:+ c ++ (b :: b' :: bs) ++ t :: r := ⟨c, by simp⟩
    have hchain := List.isChain_cons_cons.mp (hd.suffix hsuf)
    exact (hchain.1 ⟨hbs b (by simp), hbs b' (by simp)⟩).elim

end Phrase

/-! ## Faults of the descent -/

namespace Phrase

variable {textEnd : Nat}

mutual

/-- A fault of the alternatives is at a token of them. -/
theorem read_anyOf_fault {k : Nat} {ts : List Token} {e : ParseError}
    (h : anyOf.read textEnd k ts = .error e) (hs : NonBlankHead ts) (hd : NoDoubleBlank ts) :
    FaultIn ts e := by
  rw [read_anyOf, except_bind_eq_error] at h
  rcases h with h | ⟨⟨y, r1⟩, hy, hz⟩
  · exact read_allOf_fault h hs hd
  · have := read_length_lt hy
    obtain ⟨pre, rfl, -, -⟩ := read_allOf_sound hy
    have hsuf : r1 <:+ pre ++ r1 := List.suffix_append pre r1
    exact (resume_anyOf_fault hz (hd.suffix hsuf)).of_suffix hsuf
termination_by (ts.length, 3)
decreasing_by
  -- each call reads the same tokens at a lower level of the descent, or fewer tokens
  all_goals first
    | exact Prod.Lex.right _ (by decide)
    | exact Prod.Lex.left _ _ (by subst_vars; omega)

/-- A fault of the alternatives after the first is at a token of them. -/
theorem resume_anyOf_fault {k : Nat} {acc : Parsed} {ts : List Token} {e : ParseError}
    (h : anyOf.resume textEnd k acc ts = .error e) (hd : NoDoubleBlank ts) : FaultIn ts e := by
  by_cases hc : ∃ offset r0, skipBlank ts = .comma offset :: r0
  · obtain ⟨offset, r0, hc⟩ := hc
    -- the comma, and what follows it, lie in `ts`
    have hcomma : (Token.comma offset :: r0) <:+ ts := hc ▸ skipBlank_suffix ts
    have hr0 : skipBlank r0 <:+ ts :=
      (skipBlank_suffix r0).trans ((List.suffix_cons _ r0).trans hcomma)
    have hlt : (skipBlank r0).length < ts.length := by
      have h₁ := length_skipBlank_le ts
      have h₂ := length_skipBlank_le r0
      rw [hc, List.length_cons] at h₁
      omega
    have hat : ∀ {e : ParseError}, e.offset = offset →
        e.kind.AtToken none (.comma offset) → FaultIn ts e :=
      fun ho hk => (faultIn_head _ r0 ho hk).of_suffix hcomma
    by_cases hs : startsOperand (skipBlank r0) = true
    · rw [resume_anyOf_comma hc hs, except_bind_eq_error] at h
      rcases h with h | ⟨⟨y, r1⟩, hy, h⟩
      · exact (read_allOf_fault h (nonBlankHead_of_startsOperand hs)
          (hd.suffix hr0)).of_suffix hr0
      · have := read_length_lt hy
        obtain ⟨pre, hpre, -, -⟩ := read_allOf_sound hy
        have hr1 : r1 <:+ ts := (hpre ▸ List.suffix_append pre r1).trans hr0
        rw [except_bind_eq_error] at h
        rcases h with h | ⟨z, -, h⟩
        · -- the alternatives grew too high at the comma
          rw [Parsed.combine_eq_error h]
          exact hat rfl ⟨rfl, rfl⟩
        · exact (resume_anyOf_fault h (hd.suffix hr1)).of_suffix hr1
    · rw [resume_anyOf_dangling hc (by simpa using hs)] at h
      cases h
      exact hat rfl (.inl ⟨rfl, offset, rfl⟩)
  · rw [resume_anyOf_stop fun offset r0 he => hc ⟨offset, r0, he⟩] at h
    cases h
termination_by (ts.length, 0)
decreasing_by
  all_goals first
    | exact Prod.Lex.right _ (by decide)
    | exact Prod.Lex.left _ _ (by omega)

/-- A fault of a chain is at a token of it. -/
theorem read_allOf_fault {k : Nat} {ts : List Token} {e : ParseError}
    (h : allOf.read textEnd k ts = .error e) (hs : NonBlankHead ts) (hd : NoDoubleBlank ts) :
    FaultIn ts e := by
  rw [read_allOf, except_bind_eq_error] at h
  rcases h with h | ⟨⟨y, r1⟩, hy, hz⟩
  · exact read_negation_fault h hs hd
  · have := read_length_lt hy
    obtain ⟨pre, rfl, -, -⟩ := read_negation_sound hy
    have hsuf : r1 <:+ pre ++ r1 := List.suffix_append pre r1
    exact (resume_allOf_fault hz (hd.suffix hsuf)).of_suffix hsuf
termination_by (ts.length, 2)
decreasing_by
  all_goals first
    | exact Prod.Lex.right _ (by decide)
    | exact Prod.Lex.left _ _ (by subst_vars; omega)

/-- A fault of the links of a chain after the first operand is at a token of them. -/
theorem resume_allOf_fault {k : Nat} {acc : Parsed} {ts : List Token} {e : ParseError}
    (h : allOf.resume textEnd k acc ts = .error e) (hd : NoDoubleBlank ts) : FaultIn ts e := by
  by_cases hc : continuesChain ts = true
  · obtain ⟨offset, run, r0, rfl, hs⟩ :
        ∃ offset run r0, ts = .blank offset run :: r0 ∧ startsOperand r0 = true := by
      match ts, hc with
      | .blank offset run :: r0, hc => exact ⟨offset, run, r0, rfl, hc⟩
    have hr0 : r0 <:+ .blank offset run :: r0 := List.suffix_cons _ r0
    rw [resume_allOf_blank hs, except_bind_eq_error] at h
    rcases h with h | ⟨⟨y, r1⟩, hy, h⟩
    · exact (read_negation_fault h (nonBlankHead_of_startsOperand hs)
        (hd.suffix hr0)).of_suffix hr0
    · have := read_length_lt hy
      obtain ⟨pre, hpre, -, -⟩ := read_negation_sound hy
      have hr1 : r1 <:+ .blank offset run :: r0 := (hpre ▸ List.suffix_append pre r1).trans hr0
      rw [except_bind_eq_error] at h
      rcases h with h | ⟨z, -, h⟩
      · -- the chain grew too high at the blank
        rw [Parsed.combine_eq_error h]
        exact faultIn_head _ r0 rfl ⟨rfl, rfl⟩
      · exact (resume_allOf_fault h (hd.suffix hr1)).of_suffix hr1
  · rw [resume_allOf_stop (by simpa using hc)] at h
    cases h
termination_by (ts.length, 0)
decreasing_by
  all_goals first
    | exact Prod.Lex.right _ (by decide)
    | exact Prod.Lex.left _ _ (by subst_vars; simp only [List.length_cons]; omega)

/-- A fault of a negation is at a token of it. -/
theorem read_negation_fault {k : Nat} {ts : List Token} {e : ParseError}
    (h : negation.read textEnd k ts = .error e) (hs : NonBlankHead ts) (hd : NoDoubleBlank ts) :
    FaultIn ts e := by
  by_cases hm : ∃ offset r0, ts = .minus offset :: r0
  · obtain ⟨offset, r0, rfl⟩ := hm
    have hr0 : r0 <:+ .minus offset :: r0 := List.suffix_cons _ r0
    by_cases hn : startsNegand r0 = true
    · by_cases hk : depthLimit < k + 1
      · -- nested too deep at the `-`
        rw [read_negation_deep hn hk] at h
        cases h
        exact faultIn_head _ r0 rfl ⟨rfl, rfl⟩
      · rw [read_negation_minus hn (Nat.not_lt.mp hk), except_bind_eq_error] at h
        rcases h with h | ⟨⟨y, r1⟩, -, h⟩
        · exact (read_primary_fault h (nonBlankHead_of_startsNegand hn)
            (hd.suffix hr0)).of_suffix hr0
        · -- the negation grew too high at the `-`
          rw [Parsed.wrap_eq_error (except_map_eq_error.mp h)]
          exact faultIn_head _ r0 rfl ⟨rfl, rfl⟩
    · rw [read_negation_dangling (by simpa using hn)] at h
      cases h
      exact faultIn_head _ r0 rfl (.inr ⟨rfl, offset, rfl⟩)
  · rw [read_negation_of_primary fun offset r0 he => hm ⟨offset, r0, he⟩] at h
    exact read_primary_fault h hs hd
termination_by (ts.length, 1)
decreasing_by
  all_goals first
    | exact Prod.Lex.right _ (by decide)
    | exact Prod.Lex.left _ _ (by subst_vars; simp only [List.length_cons]; omega)

/-- A fault of a primary is at a token of it. -/
theorem read_primary_fault {k : Nat} {ts : List Token} {e : ParseError}
    (h : primary.read textEnd k ts = .error e) (hs : NonBlankHead ts) (hd : NoDoubleBlank ts) :
    FaultIn ts e := by
  obtain ⟨t, ht, hblank⟩ := hs
  obtain ⟨r, rfl⟩ : ∃ r, ts = t :: r := by
    cases ts with
    | nil => cases ht
    | cons t' r => exact ⟨r, by cases ht; rfl⟩
  cases t with
  | name s p =>
    rw [read_primary_name] at h
    cases h
  | blank => cases hblank
  | comma s =>
    rw [read_primary_comma] at h
    cases h
    exact faultIn_head _ r rfl (.inl ⟨rfl, s, rfl⟩)
  | minus s =>
    rw [read_primary_minus] at h
    cases h
    exact faultIn_head _ r rfl (.inr ⟨rfl, s, rfl⟩)
  | closeParen s =>
    rw [read_primary_closeParen] at h
    cases h
    exact faultIn_head _ r rfl ⟨s, rfl⟩
  | openParen offset =>
    have hat : ∀ {e : ParseError}, e.offset = offset →
        e.kind.AtToken none (.openParen offset) → FaultIn (.openParen offset :: r) e :=
      fun ho hk => faultIn_head _ r ho hk
    by_cases hk : depthLimit < k + 1
    · -- nested too deep at the `(`
      rw [read_primary_deep hk] at h
      cases h
      exact hat rfl ⟨rfl, rfl⟩
    · cases hsr : skipBlank r with
      | nil =>
        rw [read_primary_unclosed (Nat.not_lt.mp hk) hsr] at h
        cases h
        exact hat rfl ⟨offset, rfl⟩
      | cons t' inner =>
        by_cases hclose : ∃ s, t' = .closeParen s
        · obtain ⟨s, rfl⟩ := hclose
          rw [read_primary_empty (Nat.not_lt.mp hk) hsr] at h
          cases h
          exact hat rfl ⟨offset, rfl⟩
        · -- the contents of the group lie after the `(` and its blanks
          have hinner : (t' :: inner) <:+ .openParen offset :: r :=
            hsr ▸ (skipBlank_suffix r).trans (List.suffix_cons _ r)
          have hlt : (t' :: inner).length < (Token.openParen offset :: r).length := by
            have := length_skipBlank_le r
            rw [hsr] at this
            simp only [List.length_cons] at *
            omega
          rw [read_primary_group (Nat.not_lt.mp hk) hsr fun s he => hclose ⟨s, he⟩,
            except_bind_eq_error] at h
          rcases h with h | ⟨⟨y, r1⟩, hy, h⟩
          · exact (read_anyOf_fault h (nonBlankHead_of_skipBlank hsr)
              (hd.suffix hinner)).of_suffix hinner
          · -- the group ends: `)`, nothing, or an operand right after its contents
            have hstop := read_anyOf_stops hy
            rw [hstop.skipBlank_eq] at h
            rcases closeGroup_eq_error h with ⟨-, rfl⟩ | ⟨s, r2, -, hw⟩ | ⟨t₂, r2, rfl, ht₂, rfl⟩
            · exact hat rfl ⟨offset, rfl⟩
            · rw [Parsed.wrap_eq_error hw]
              exact hat rfl ⟨rfl, rfl⟩
            · exact (hstop.faultIn_missingSeparator ht₂ (hd.suffix hinner)).of_suffix hinner
termination_by (ts.length, 0)
decreasing_by
  all_goals first
    | exact Prod.Lex.right _ (by decide)
    | exact Prod.Lex.left _ _ (by subst_vars; omega)

end

end Phrase

/-! ## A whole selector -/

/-- A selector of tokens that the reader refuses holds only blanks, refused as empty at the
start, or has the fault at a token that fits it. -/
theorem Node.ofTokens_fault {textEnd : Nat} {tokens : List Token} {e : ParseError}
    (h : Node.ofTokens textEnd tokens = .error e) (hd : NoDoubleBlank tokens) :
    (AllBlank tokens ∧ e = ⟨.emptySelector, 0⟩) ∨ FaultIn tokens e := by
  unfold Node.ofTokens at h
  split at h
  · next hnil =>
    cases h
    exact .inl ⟨allBlank_of_skipBlank_eq_nil hnil, rfl⟩
  · next t ts hts =>
    right
    have hsuf : (t :: ts) <:+ tokens := hts ▸ skipBlank_suffix tokens
    rcases hp : parseAnyOf textEnd 0 (t :: ts) with e' | ⟨x, r⟩ <;> rw [hp] at h
    · -- the alternatives fail
      cases h
      have hread : Phrase.anyOf.read textEnd 0 (t :: ts) = .error e := by
        simp only [Phrase.read, hp]
        rfl
      exact (Phrase.read_anyOf_fault hread (nonBlankHead_of_skipBlank hts)
        (hd.suffix hsuf)).of_suffix hsuf
    · -- the alternatives stop before the end
      have hread : Phrase.anyOf.read textEnd 0 (t :: ts) = .ok (x, r.val) := by
        simp only [Phrase.read, hp]
        rfl
      have hstop := Phrase.read_anyOf_stops hread
      have hr : r.val <:+ tokens := hstop.suffix.trans hsuf
      dsimp only at h
      rw [hstop.skipBlank_eq] at h
      split at h
      · cases h
      · next offset tail hclose =>
        -- a `)` that closes nothing
        cases h
        rw [hclose] at hr
        refine FaultIn.of_suffix ?_ hr
        exact faultIn_head _ tail rfl ⟨offset, rfl⟩
      · next _ t₂ tail hclose hcons =>
        -- an operand right after the alternatives
        cases h
        rw [hcons] at hstop
        exact (hstop.faultIn_missingSeparator hclose (hd.suffix hsuf)).of_suffix hsuf

end ScopeSelectors
