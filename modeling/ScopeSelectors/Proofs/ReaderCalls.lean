import ScopeSelectors.Proofs.Language
import ScopeSelectors.Proofs.FaultSites
/-!
# The calls the reader makes

The descent is a handful of mutually recursive reading functions (`Phrase.read` and
`Phrase.resume`), and every call one of them makes is an edge of `Calls`: a phrase reads its
first operand one level down and then goes on after it, a list goes on with the next operand
after a `,` or a blank, and a `-` or a `(` reads what it opens one negation or group deeper.
Along every edge

* the reader only moves forward (`Calls.tokens_suffix`), and the pair of the tokens left and
  the level of the phrase decreases, the measure the descent is defined by
  (`Calls.measure_lt`), so no chain of calls is infinite (`Calls.wellFounded`);
* the nesting counter grows by one where a negation or a group is entered, within the limit,
  and stays as it is otherwise (`Calls.nesting_eq`).  The counter is an argument of each
  call, so after a negation or a group has been read its caller goes on with the counter it
  had;
* a fault of the call made is the fault of the caller (`Calls.run_error`): the reader never
  recovers from one.

A call that refuses to enter a negation or a group (`RefusesAt`) fails with
`nestingTooDeep` there.  Reached from the first call of a whole selector (`Visits`), such a
refusal happens with the counter exactly at the limit, the whole text fails with it, and so,
by completeness (`Node.parse_complete`), every tree the text derives is taller than the limit:
the counter never refuses what the height checks of `wrap` and `combine` would accept
(`depth_bookkeeping_exact`).  After `depthLimit` `(` in a row, the next one is refused
(`visits_refusal_of_groups`): a name inside one group more than the limit (`nestedGroups`) is
read by the lexer, derives a tree, and fails at that `(`
(`nested_groups_past_limit_refused`).
-/

namespace ScopeSelectors

open Grammar Token

/-- A call of the reader: reading a phrase, or going on after one. -/
inductive Call where
  /-- Reading the phrase `p` at nesting `k` from the tokens `ts`. -/
  | read (p : Phrase) (k : Nat) (ts : List Token)
  /-- Going on after the phrase `acc`, read as a `p`, at nesting `k` from the tokens `ts`. -/
  | resume (p : Phrase) (k : Nat) (acc : Parsed) (ts : List Token)

namespace Call

/-- The nesting counter of the call: the groups and negations around it. -/
def nesting : Call → Nat
  | read _ k _ | resume _ k _ _ => k

/-- The tokens the call reads from. -/
def tokens : Call → List Token
  | read _ _ ts | resume _ _ _ ts => ts

/-- The level of the call in the descent, from the loosest phrase down. -/
def level : Call → Nat
  | read .anyOf _ _ => 3
  | read .allOf _ _ => 2
  | read .negation _ _ => 1
  | read .primary _ _ | resume _ _ _ _ => 0

/-- The measure the descent is defined by: the tokens left, then the level. -/
def measure (c : Call) : Nat × Nat := (c.tokens.length, c.level)

/-- What the call returns. -/
def run (textEnd : Nat) : Call → Except ParseError (Parsed × List Token)
  | read p k ts => p.read textEnd k ts
  | resume p k acc ts => p.resume textEnd k acc ts

end Call

/-- `Calls textEnd c c'`: the call `c` makes the call `c'`. -/
inductive Calls (textEnd : Nat) : Call → Call → Prop where
  /-- Alternatives read their first chain, -/
  | anyOf_first {k ts} : Calls textEnd (.read .anyOf k ts) (.read .allOf k ts)
  /-- and go on after it. -/
  | anyOf_then {k ts y r} : Phrase.allOf.read textEnd k ts = .ok (y, r) →
      Calls textEnd (.read .anyOf k ts) (.resume .anyOf k y r)
  /-- After a comma and an operand, the next chain is read, -/
  | anyOf_next {k acc ts o r0} : skipBlank ts = .comma o :: r0 →
      startsOperand (skipBlank r0) = true →
      Calls textEnd (.resume .anyOf k acc ts) (.read .allOf k (skipBlank r0))
  /-- and joined to the alternatives before going on. -/
  | anyOf_more {k acc ts o r0 y r z} : skipBlank ts = .comma o :: r0 →
      startsOperand (skipBlank r0) = true → Phrase.allOf.read textEnd k (skipBlank r0) = .ok (y, r) →
      Parsed.combine .or acc y o = .ok z →
      Calls textEnd (.resume .anyOf k acc ts) (.resume .anyOf k z r)
  /-- A chain reads its first negation, -/
  | allOf_first {k ts} : Calls textEnd (.read .allOf k ts) (.read .negation k ts)
  /-- and goes on after it. -/
  | allOf_then {k ts y r} : Phrase.negation.read textEnd k ts = .ok (y, r) →
      Calls textEnd (.read .allOf k ts) (.resume .allOf k y r)
  /-- After a blank and an operand, the next negation is read, -/
  | allOf_next {k acc o run r} : startsOperand r = true →
      Calls textEnd (.resume .allOf k acc (.blank o run :: r)) (.read .negation k r)
  /-- and joined to the chain before going on. -/
  | allOf_more {k acc o run r y r1 z} : startsOperand r = true →
      Phrase.negation.read textEnd k r = .ok (y, r1) → Parsed.combine .and acc y o = .ok z →
      Calls textEnd (.resume .allOf k acc (.blank o run :: r)) (.resume .allOf k z r1)
  /-- Without a `-`, a negation phrase is a primary. -/
  | negation_primary {k ts} : (∀ o r, ts ≠ .minus o :: r) →
      Calls textEnd (.read .negation k ts) (.read .primary k ts)
  /-- A `-` enters a negation: what it negates is read one level deeper. -/
  | negation_enter {k o r} : startsNegand r = true → k + 1 ≤ depthLimit →
      Calls textEnd (.read .negation k (.minus o :: r)) (.read .primary (k + 1) r)
  /-- A `(` enters a group: its contents are read one level deeper. -/
  | group_enter {k o r t inner} : k + 1 ≤ depthLimit → skipBlank r = t :: inner →
      (∀ s, t ≠ .closeParen s) →
      Calls textEnd (.read .primary k (.openParen o :: r)) (.read .anyOf (k + 1) (t :: inner))

/-- The calls made, directly or not, on the way from one call. -/
def Visits (textEnd : Nat) : Call → Call → Prop := Relation.ReflTransGen (Calls textEnd)

/-- `RefusesAt c o`: the call `c` would enter the negation or the group that the `-` or `(`
at byte `o` opens, but its counter is already at the limit. -/
inductive RefusesAt : Call → Nat → Prop where
  | negation {k o r} : startsNegand r = true → depthLimit < k + 1 →
      RefusesAt (.read .negation k (.minus o :: r)) o
  | group {k o r} : depthLimit < k + 1 → RefusesAt (.read .primary k (.openParen o :: r)) o

variable {textEnd : Nat} {c c' : Call}

/-! ## One call -/

/-- A refusal to enter is a `nestingTooDeep` fault at the `-` or `(`. -/
theorem RefusesAt.run {o : Nat} (h : RefusesAt c o) :
    c.run textEnd = .error ⟨.nestingTooDeep depthLimit, o⟩ := by
  cases h with
  | negation hn hk => exact Phrase.read_negation_deep hn hk
  | group hk => exact Phrase.read_primary_deep hk

/-- The reader never recovers from a fault: a fault of a call made is the caller's. -/
theorem Calls.run_error {e : ParseError} (h : Calls textEnd c c') (he : c'.run textEnd = .error e) :
    c.run textEnd = .error e := by
  cases h <;> simp only [Call.run] at he ⊢
  case anyOf_first => rw [Phrase.read_anyOf, he]; rfl
  case anyOf_then hy => rw [Phrase.read_anyOf, hy]; exact he
  case anyOf_next hc hs => rw [Phrase.resume_anyOf_comma hc hs, he]; rfl
  case anyOf_more hc hs hy hz =>
    rw [Phrase.resume_anyOf_comma hc hs, hy]
    show Parsed.combine .or _ _ _ >>= _ = _
    rw [hz]
    exact he
  case allOf_first => rw [Phrase.read_allOf, he]; rfl
  case allOf_then hy => rw [Phrase.read_allOf, hy]; exact he
  case allOf_next hs => rw [Phrase.resume_allOf_blank hs, he]; rfl
  case allOf_more hs hy hz =>
    rw [Phrase.resume_allOf_blank hs, hy]
    show Parsed.combine .and _ _ _ >>= _ = _
    rw [hz]
    exact he
  case negation_primary hne => rw [Phrase.read_negation_of_primary hne]; exact he
  case negation_enter hn hk => rw [Phrase.read_negation_minus hn hk, he]; rfl
  case group_enter hk hs ht => rw [Phrase.read_primary_group hk hs ht, he]; rfl

/-- A phrase read records its tree's true height, within the limit, and what it leaves
follows the tokens it consumed, at least one. -/
theorem Phrase.read_exact {p : Phrase} {k : Nat} {ts r : List Token} {x : Parsed}
    (h : p.read textEnd k ts = .ok (x, r)) : x.Exact ∧ ∃ pre, pre ≠ [] ∧ ts = pre ++ r := by
  have hsplit : x.Exact ∧ ∃ pre, ts = pre ++ r := by
    cases p with
    | anyOf =>
      obtain ⟨pre, bs, hts, -, -, hx⟩ := read_anyOf_sound h
      exact ⟨hx, pre ++ bs, hts⟩
    | allOf =>
      obtain ⟨pre, hts, -, hx⟩ := read_allOf_sound h
      exact ⟨hx, pre, hts⟩
    | negation =>
      obtain ⟨pre, hts, -, hx⟩ := read_negation_sound h
      exact ⟨hx, pre, hts⟩
    | primary =>
      obtain ⟨pre, hts, -, hx⟩ := read_primary_sound h
      exact ⟨hx, pre, hts⟩
  obtain ⟨hx, pre, hts⟩ := hsplit
  refine ⟨hx, pre, fun hnil => ?_, hts⟩
  -- a phrase consumes at least one token
  have hlt := Phrase.read_length_lt h
  rw [hts, hnil, List.nil_append] at hlt
  exact Nat.lt_irrefl _ hlt

theorem Phrase.read_suffix {p : Phrase} {k : Nat} {ts r : List Token} {x : Parsed}
    (h : p.read textEnd k ts = .ok (x, r)) : r <:+ ts := by
  obtain ⟨-, pre, -, rfl⟩ := Phrase.read_exact h
  exact List.suffix_append _ _

/-- After a comma, the reader goes on from past it. -/
theorem skipBlank_after_comma {ts r0 : List Token} {o : Nat} (hc : skipBlank ts = .comma o :: r0) :
    skipBlank r0 <:+ ts ∧ (skipBlank r0).length < ts.length := by
  have hsuffix : skipBlank r0 <:+ ts :=
    (skipBlank_suffix r0).trans ((List.suffix_cons _ _).trans (hc ▸ skipBlank_suffix ts))
  have hlen := (hc ▸ skipBlank_suffix ts).length_le
  have hr0 := (skipBlank_suffix r0).length_le
  simp only [List.length_cons] at hlen
  exact ⟨hsuffix, by omega⟩

/-- The reader never goes back. -/
theorem Calls.tokens_suffix (h : Calls textEnd c c') : c'.tokens <:+ c.tokens := by
  cases h with
  | anyOf_first | allOf_first | negation_primary => exact List.suffix_refl _
  | anyOf_then hy | allOf_then hy => exact Phrase.read_suffix hy
  | anyOf_next hc => exact (skipBlank_after_comma hc).1
  | anyOf_more hc _ hy => exact (Phrase.read_suffix hy).trans (skipBlank_after_comma hc).1
  | allOf_next | negation_enter => exact List.suffix_cons _ _
  | allOf_more _ hy => exact (Phrase.read_suffix hy).trans (List.suffix_cons _ _)
  | group_enter _ hs => exact hs ▸ (skipBlank_suffix _).trans (List.suffix_cons _ _)

/-- Every call the reader makes is on fewer tokens, or on the same tokens at a lower level. -/
theorem Calls.measure_lt (h : Calls textEnd c c') : Prod.Lex (· < ·) (· < ·) c'.measure c.measure := by
  cases h with
  | anyOf_first | allOf_first | negation_primary => exact Prod.Lex.right _ (by simp [Call.level])
  | anyOf_then hy | allOf_then hy => exact Prod.Lex.left _ _ (Phrase.read_length_lt hy)
  | anyOf_next hc => exact Prod.Lex.left _ _ (skipBlank_after_comma hc).2
  | anyOf_more hc _ hy =>
    exact Prod.Lex.left _ _ (Nat.lt_trans (Phrase.read_length_lt hy) (skipBlank_after_comma hc).2)
  | allOf_next | negation_enter => exact Prod.Lex.left _ _ (Nat.lt_succ_self _)
  | allOf_more _ hy =>
    exact Prod.Lex.left _ _ (Nat.lt_succ_of_lt (Phrase.read_length_lt hy))
  | group_enter _ hs =>
    have hlen := (hs ▸ skipBlank_suffix _ : _ <:+ _).length_le
    exact Prod.Lex.left _ _ (Nat.lt_succ_of_le hlen)

/-- No chain of calls is infinite. -/
theorem Calls.wellFounded : WellFounded (flip (Calls textEnd)) :=
  Subrelation.wf (fun h => h.measure_lt)
    (InvImage.wf Call.measure (WellFounded.prod_lex Nat.lt_wfRel.wf Nat.lt_wfRel.wf))

/-- The counter grows by one where a negation or a group is entered, within the limit, and
stays as it is on every other call, those made after a phrase has been read included. -/
theorem Calls.nesting_eq (h : Calls textEnd c c') :
    c'.nesting = c.nesting ∨ c'.nesting = c.nesting + 1 ∧ c'.nesting ≤ depthLimit := by
  cases h with
  | negation_enter _ hk | group_enter hk => exact .inr ⟨rfl, hk⟩
  | _ => exact .inl rfl

/-! ## Runs of calls -/

theorem Visits.run_error {e : ParseError} (h : Visits textEnd c c')
    (he : c'.run textEnd = .error e) : c.run textEnd = .error e := by
  induction h with
  | refl => exact he
  | tail _ hcall ih => exact ih (hcall.run_error he)

theorem Visits.tokens_suffix (h : Visits textEnd c c') : c'.tokens <:+ c.tokens := by
  induction h with
  | refl => exact List.suffix_refl _
  | tail _ hcall ih => exact hcall.tokens_suffix.trans ih

/-- The counter stays within the limit on every call reached. -/
theorem Visits.nesting_le (h : Visits textEnd c c') (hc : c.nesting ≤ depthLimit) :
    c'.nesting ≤ depthLimit := by
  induction h with
  | refl => exact hc
  | tail _ hcall ih =>
    rcases hcall.nesting_eq with heq | ⟨-, hle⟩
    · exact heq ▸ ih
    · exact hle

/-- A refusal reached from the first call on a token list: the counter is exactly at the
limit, and the whole list fails with that refusal. -/
theorem Visits.refusal {tokens : List Token} {o : Nat}
    (h : Visits textEnd (.read .anyOf 0 (skipBlank tokens)) c) (hr : RefusesAt c o) :
    c.nesting = depthLimit ∧
      Node.ofTokens textEnd tokens = .error ⟨.nestingTooDeep depthLimit, o⟩ := by
  have hle : c.nesting ≤ depthLimit := h.nesting_le (Nat.zero_le _)
  have hlt : depthLimit < c.nesting + 1 := by
    cases hr with
    | negation _ hk | group hk => exact hk
  -- a refusal reads a `-` or `(`, so the selector is not all blanks
  have hne : skipBlank tokens ≠ [] := by
    intro hnil
    have hsuffix := h.tokens_suffix
    rw [hnil] at hsuffix
    cases hr <;> simp [Call.tokens] at hsuffix
  exact ⟨by omega, Node.ofTokens_of_read_error hne (h.run_error hr.run)⟩

/-! ## Groups in a row -/

/-- Alternatives that start at a `(` reach the primary that opens the group. -/
theorem visits_primary_of_openParen {k o : Nat} {r : List Token} :
    Visits textEnd (.read .anyOf k (.openParen o :: r)) (.read .primary k (.openParen o :: r)) :=
  .tail (.tail (.single .anyOf_first) .allOf_first)
    (.negation_primary fun _ _ h => by cases h)

/-- Groups opened one after the other: reading alternatives at the first `(`, the reader
reaches the contents of the innermost one, one level deeper for each. -/
theorem visits_groups {ps rest : List Token} (hps : ∀ p ∈ ps, ∃ o, p = .openParen o)
    (hrest : startsOperand rest = true) {k : Nat} (hk : k + ps.length ≤ depthLimit) :
    Visits textEnd (.read .anyOf k (ps ++ rest)) (.read .anyOf (k + ps.length) rest) := by
  induction ps generalizing k with
  | nil => exact Relation.ReflTransGen.refl
  | cons p ps ih =>
    obtain ⟨o, rfl⟩ := hps p List.mem_cons_self
    have hinner : startsOperand (ps ++ rest) = true := by
      cases ps with
      | nil => exact hrest
      | cons q qs =>
        obtain ⟨o', rfl⟩ := hps q (List.mem_cons_of_mem _ List.mem_cons_self)
        rfl
    obtain ⟨t, inner, hti, hnot⟩ := exists_cons_of_startsOperand hinner
    have henter : Calls textEnd (.read .primary k (.openParen o :: (ps ++ rest)))
        (.read .anyOf (k + 1) (ps ++ rest)) := by
      rw [hti]
      exact .group_enter (by simp at hk; omega) (hti ▸ skipBlank_of_startsOperand hinner) hnot
    have hrun := ih (fun q hq => hps q (List.mem_cons_of_mem _ hq)) (k := k + 1)
      (by simp at hk; omega)
    rw [show k + 1 + ps.length = k + (ps.length + 1) by omega] at hrun
    exact (visits_primary_of_openParen.tail henter).trans hrun

/-- After `depthLimit` `(` in a row, the next `(` is refused, whatever follows it. -/
theorem visits_refusal_of_groups {ps rest : List Token} {o : Nat}
    (hps : ∀ p ∈ ps, ∃ o, p = .openParen o) (hlen : ps.length = depthLimit) :
    Visits textEnd (.read .anyOf 0 (ps ++ .openParen o :: rest))
        (.read .primary depthLimit (.openParen o :: rest)) ∧
      RefusesAt (.read .primary depthLimit (.openParen o :: rest)) o := by
  have hreach : Visits textEnd (.read .anyOf 0 (ps ++ .openParen o :: rest))
      (.read .anyOf (0 + ps.length) (.openParen o :: rest)) :=
    visits_groups hps rfl (by omega)
  rw [Nat.zero_add, hlen] at hreach
  exact ⟨hreach.trans visits_primary_of_openParen, .group (Nat.lt_succ_self _)⟩

/-! ## A name nested in groups -/

/-- The name `a` inside `m` pairs of parentheses. -/
def nestedGroups (m : Nat) : List Char := List.replicate m '(' ++ 'a' :: List.replicate m ')'

/-- The tokens of `nestedGroups m`: `m` opening parentheses from byte `0`, the name at byte `m`,
and `m` closing parentheses after it. -/
def nestedGroupTokens (m : Nat) : List Token :=
  (List.range' 0 m).map Token.openParen ++
    .name m (Pattern.ofText "a") :: (List.range' (m + 1) m).map Token.closeParen

theorem isPatternText_a : IsPatternText ['a'] := by
  refine ⟨?_, by decide⟩
  rw [show List.splitOn '.' ['a'] = [['a']] from rfl]
  simp [IsSegment, isSegmentChar]

/-- Groups around a phrase are a phrase, one group node for each pair of parentheses. -/
theorem derives_groups (m : Nat) {cs : List Char} {x : Node} (h : Derives .anyOf cs x) :
    Derives .anyOf (List.replicate m '(' ++ cs ++ List.replicate m ')') (Node.group^[m] x) := by
  induction m with
  | zero => simpa using h
  | succ m ih =>
    have htext : List.replicate (m + 1) '(' ++ cs ++ List.replicate (m + 1) ')' =
        '(' :: [] ++ (List.replicate m '(' ++ cs ++ List.replicate m ')') ++ [] ++ [')'] := by
      rw [List.replicate_succ, List.replicate_succ']
      simp
    rw [htext, Function.iterate_succ_apply']
    exact .allOf (.negation (.primary (.group isBlanks_nil ih isBlanks_nil)))

theorem derivesSelector_nestedGroups (m : Nat) :
    DerivesSelector (nestedGroups m) (Node.group^[m] (.atom (Pattern.ofText "a"))) := by
  have hatom : Derives .anyOf ['a'] (.atom (Pattern.ofText "a")) :=
    .allOf (.negation (.primary (.atom isPatternText_a)))
  exact ⟨[], nestedGroups m, [], by simp, isBlanks_nil,
    by simpa [nestedGroups] using derives_groups m hatom, isBlanks_nil⟩

theorem byteLength_replicate (m : Nat) (c : Char) :
    byteLength (List.replicate m c) = m * c.utf8Size := by
  induction m with
  | zero => rw [List.replicate_zero, byteLength_nil, Nat.zero_mul]
  | succ m ih =>
    rw [List.replicate_succ, byteLength_cons, ih, Nat.succ_mul]
    omega

/-- A run of one operator character is one token for each, at consecutive bytes. -/
theorem scans_replicate_operator {c : Char} {tok : Nat → Token}
    (h : ∀ pos, operatorToken c pos = some (tok pos)) (m : Nat) (pos : Nat) (rest : List Char) :
    Scans (List.replicate m c) ((List.range' pos m).map tok) pos rest := by
  induction m generalizing pos with
  | zero => simp [Scans]
  | succ m ih =>
    have hbyte : byteLength [c] = 1 := by
      rw [byteLength_cons, byteLength_nil, utf8Size_of_operatorToken (h pos)]
    have hstep := (scans_operator (h pos)).append (ih (pos + byteLength [c])) rfl
    rw [hbyte] at hstep
    simpa [List.replicate_succ, List.range'_succ] using hstep

/-- The lexer reads `nestedGroups m` as its parentheses and its name. -/
theorem scan_nestedGroups (m : Nat) :
    scan (String.ofList (nestedGroups m)) = .ok (nestedGroupTokens m) := by
  have hfollows : Follows (List.replicate m ')') := by
    intro d hd
    rw [List.eq_of_mem_replicate (List.mem_of_mem_head? hd)]
    rfl
  have hopens :=
    scans_replicate_operator (c := '(') (fun _ => rfl) m 0 ('a' :: List.replicate m ')')
  have hname := scans_name m isPatternText_a hfollows
  have hcloses := scans_replicate_operator (c := ')') (fun _ => rfl) m (m + 1) []
  -- the name is one byte, after `m` one-byte parentheses
  have hbytes : 0 + byteLength (List.replicate m '(') = m := by
    rw [byteLength_replicate, show '('.utf8Size = 1 from rfl]
    omega
  have htail : Scans ('a' :: List.replicate m ')')
      (.name m (Pattern.ofText "a") :: (List.range' (m + 1) m).map Token.closeParen)
      (0 + byteLength (List.replicate m '(')) [] := by
    rw [hbytes]
    exact hname.append hcloses (List.append_nil _).symm
  have hall := hopens.append htail (List.append_nil _).symm
  have hnil : ∀ pos, scanFrom [] pos = .ok [] := fun pos => by rw [scanFrom]
  rw [Scans, List.append_nil, hnil] at hall
  rw [scan, String.toList_ofList, nestedGroups, hall]
  simp [nestedGroupTokens]

/-- In `m` groups, more than the limit, the reader reaches the refusal of the `(` at byte
`depthLimit`. -/
theorem nestedGroups_refusal (textEnd : Nat) {m : Nat} (hm : depthLimit < m) :
    ∃ c, Visits textEnd (.read .anyOf 0 (skipBlank (nestedGroupTokens m))) c ∧
      RefusesAt c depthLimit := by
  -- the first `depthLimit` parentheses, the refused one, and the rest
  have hrange : List.range' 0 m = List.range' 0 depthLimit ++
      depthLimit :: List.range' (depthLimit + 1) (m - depthLimit - 1) := by
    have happend := @List.range'_append 0 depthLimit (m - depthLimit) 1
    rw [show depthLimit + (m - depthLimit) = m by omega, show m - depthLimit =
      m - depthLimit - 1 + 1 by omega, List.range'_succ] at happend
    simpa using happend.symm
  have hskip : skipBlank (nestedGroupTokens m) = nestedGroupTokens m := by
    obtain ⟨k, rfl⟩ : ∃ k, m = k + 1 := ⟨m - 1, by omega⟩
    exact skipBlank_cons_of_not_blank rfl _
  have hsplit : nestedGroupTokens m = (List.range' 0 depthLimit).map Token.openParen ++
      .openParen depthLimit :: ((List.range' (depthLimit + 1) (m - depthLimit - 1)).map
        Token.openParen ++ .name m (Pattern.ofText "a") ::
          (List.range' (m + 1) m).map Token.closeParen) := by
    rw [nestedGroupTokens, hrange]
    simp
  have hps : ∀ p ∈ (List.range' 0 depthLimit).map Token.openParen, ∃ o, p = .openParen o := by
    simp
  have hlen : ((List.range' 0 depthLimit).map Token.openParen).length = depthLimit := by simp
  rw [hskip, hsplit]
  exact ⟨_, visits_refusal_of_groups hps hlen⟩

/-- The reader's depth bookkeeping.  A phrase read records its tree's true height, within the
limit, and consumes at least one token.  Every call the reader makes moves forward and down
the measure of the descent, and keeps the nesting counter or, entering a negation or a group,
raises it by one within the limit.  And where the counter refuses to enter, reached from the
first call on the tokens of a text, it is at the limit, the text fails with that refusal, and
every tree the text derives is taller than the limit. -/
theorem depth_bookkeeping_exact (textEnd : Nat) :
    (∀ (p : Phrase) k ts x r, p.read textEnd k ts = .ok (x, r) →
      x.height = x.node.height ∧ x.height ≤ depthLimit ∧ ∃ pre, pre ≠ [] ∧ ts = pre ++ r) ∧
    (∀ c c', Calls textEnd c c' →
      c'.tokens <:+ c.tokens ∧ Prod.Lex (· < ·) (· < ·) c'.measure c.measure ∧
        (c'.nesting = c.nesting ∨ c'.nesting = c.nesting + 1 ∧ c'.nesting ≤ depthLimit)) ∧
    ∀ (t : String) tokens c o, scan t = .ok tokens →
      Visits t.utf8ByteSize (.read .anyOf 0 (skipBlank tokens)) c → RefusesAt c o →
      c.nesting = depthLimit ∧ Node.parse t = .error ⟨.nestingTooDeep depthLimit, o⟩ ∧
        ∀ n, DerivesSelector t.toList n → depthLimit < n.height := by
  refine ⟨fun p k ts x r h => ?_, fun c c' h => ⟨h.tokens_suffix, h.measure_lt, h.nesting_eq⟩,
    fun t tokens c o hscan hv hr => ?_⟩
  · obtain ⟨⟨hheight, hle⟩, hpre⟩ := Phrase.read_exact h
    exact ⟨hheight, hheight ▸ hle, hpre⟩
  · obtain ⟨hk, hfail⟩ := hv.refusal hr
    have hparse := (Node.parse_eq_ofTokens hscan).trans hfail
    refine ⟨hk, hparse, fun n hn => Nat.lt_of_not_le fun hle => ?_⟩
    rw [(Node.parse_complete hn).1 hle] at hparse
    cases hparse

/-- One group more than the limit, around a name: the text derives a tree, but the reader
refuses the `(` at byte `depthLimit`, so the text fails there, and every tree it derives is
taller than the limit. -/
theorem nested_groups_past_limit_refused :
    (∃ n, DerivesSelector (nestedGroups (depthLimit + 1)) n) ∧
      Node.parse (String.ofList (nestedGroups (depthLimit + 1))) =
        .error ⟨.nestingTooDeep depthLimit, depthLimit⟩ ∧
      ∀ n, DerivesSelector (nestedGroups (depthLimit + 1)) n → depthLimit < n.height := by
  obtain ⟨c, hvisit, hrefuse⟩ := nestedGroups_refusal
    (String.ofList (nestedGroups (depthLimit + 1))).utf8ByteSize (Nat.lt_succ_self depthLimit)
  -- the refusal part speaks of texts, and does not read the byte length given to the reader
  obtain ⟨-, hparse, htall⟩ := (depth_bookkeeping_exact 0).2.2 _ _ c depthLimit
    (scan_nestedGroups _) hvisit hrefuse
  refine ⟨⟨_, derivesSelector_nestedGroups _⟩, hparse, fun n hn => htall n ?_⟩
  rwa [String.toList_ofList]

end ScopeSelectors
