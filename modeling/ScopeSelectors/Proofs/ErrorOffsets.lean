import ScopeSelectors.Proofs.FaultSites
import ScopeSelectors.Proofs.Language
import ScopeSelectors.Command.Render
/-!
# Every fault points at its cause

A refused selector text names the byte offset of its fault.  That offset falls between two
characters of the text, and the characters around it show what went wrong
(`ParseError.Kind.Marks`):

* an illegal character or a dangling operator stands at the offset;
* so does the `(` of a group that is empty or never closed, and a `)` that closes nothing;
* an empty segment of a name starts at a `.`, or the name ends there;
* of two operands with nothing between them, the second starts at the offset with `(`, `-` or a
  name character, right after the `)` or the name character that ends the first;
* a nesting too deep is found at the `(`, `-`, `,` or blank that goes over the limit;
* a text with no operand is made of blanks, and its fault is at offset 0.

The lexer's faults are followed through its run (`Token.scanFrom_error`), the segment check of
a name included (`Token.checkSegments_error`).  The reader's faults are at the start of a token
(`Token.FaultIn`, see `FaultSites`), and the lexer places each token at the byte where its
characters start (`Token.Placed`), so the characters of that token are the ones at the offset
(`Token.FaultIn.within`).

Since the offset counts the bytes of whole characters, it is a boundary of the text in the
sense of `String.Pos.Raw.IsValid`, and the caret of a report stands under the character at the
offset (`Command.caretColumn_byteLength`): `Node.parse_error_at_cause`.
-/

namespace ScopeSelectors

open Grammar Token

/-! ## What a fault says of its place -/

/-- What a fault of kind `k` says of the characters `pre` before its offset and `post` from
the offset on. -/
def ParseError.Kind.Marks : ParseError.Kind → List Char → List Char → Prop
  | .emptySelector, pre, post => pre = [] ∧ ∀ c ∈ post, isBlankChar c = true
  | .illegalCharacter c, _, post | .danglingOperator c, _, post => post.head? = some c
  | .unclosedGroup, _, post | .emptyGroup, _, post => post.head? = some '('
  | .unmatchedCloseParen, _, post => post.head? = some ')'
  | .emptySegment, pre, post => post.head? = some '.' ∨
      (∃ c ∈ pre.getLast?, isNameChar c = true) ∧ ∀ d ∈ post.head?, isNameChar d = false
  | .missingSeparator, pre, post =>
      (∃ d ∈ post.head?, d = '(' ∨ d = '-' ∨ isNameChar d = true) ∧
        ∃ c ∈ pre.getLast?, c = ')' ∨ isNameChar c = true
  | .nestingTooDeep limit, _, post => limit = depthLimit ∧
      ∃ d ∈ post.head?, d = '(' ∨ d = '-' ∨ d = ',' ∨ isBlankChar d = true

/-- The fault `e` lies in the characters `cs`, the first of which is at byte `pos`: its offset
is the end of a prefix `pre` of them, and its kind fits the characters around it. -/
def ParseError.Within (e : ParseError) (cs : List Char) (pos : Nat) : Prop :=
  ∃ pre post, cs = pre ++ post ∧ e.offset = pos + byteLength pre ∧ e.kind.Marks pre post

namespace ParseError

/-- What a fault other than an empty selector says of the characters before it still holds
with more characters in front of them. -/
theorem Kind.Marks.append_left {k : Kind} {pre post : List Char} (h : k.Marks pre post)
    (hk : k ≠ .emptySelector) (w : List Char) : k.Marks (w ++ pre) post := by
  have hlast : ∀ {c}, c ∈ pre.getLast? → c ∈ (w ++ pre).getLast? := by
    intro c hc
    simp [List.getLast?_append, Option.mem_def.mp hc]
  cases k with
  | emptySelector => exact absurd rfl hk
  | emptySegment =>
    rcases h with h | ⟨⟨c, hc, hn⟩, hd⟩
    · exact .inl h
    · exact .inr ⟨⟨c, hlast hc, hn⟩, hd⟩
  | missingSeparator =>
    obtain ⟨hd, c, hc, hn⟩ := h
    exact ⟨hd, c, hlast hc, hn⟩
  | _ => exact h

/-- A fault in what follows the characters `w` is a fault in them and what follows. -/
theorem Within.append_left {e : ParseError} {cs : List Char} {q : Nat} (h : e.Within cs q)
    (hk : e.kind ≠ .emptySelector) (w : List Char) {pos : Nat} (hq : q = pos + byteLength w) :
    e.Within (w ++ cs) pos := by
  obtain ⟨pre, post, rfl, ho, hm⟩ := h
  refine ⟨w ++ pre, post, by simp, ?_, hm.append_left hk w⟩
  rw [ho, hq, byteLength_append, Nat.add_assoc]

end ParseError

/-! ## The lexer's faults -/

namespace Token

/-- The segments of a name fail their check at an empty segment, which starts at a `.` or at
the end of the name, or at a `*` inside a longer segment. -/
theorem checkSegments_error {segs : List (List Char)} {offset : Nat} {e : ParseError}
    (h : checkSegments segs offset = .error e) :
    ∃ pre post, ['.'].intercalate segs = pre ++ post ∧ e.offset = offset + byteLength pre ∧
      (e.kind = .emptySegment ∧ (post.head? = some '.' ∨ post = []) ∨
        e.kind = .illegalCharacter '*' ∧ post.head? = some '*') := by
  induction segs generalizing offset with
  | nil => cases h
  | cons seg segs ih =>
    unfold checkSegments at h
    split at h
    · -- an empty segment: the `.` before the next one follows, or nothing
      next hempty =>
      cases h
      rw [List.isEmpty_iff] at hempty
      subst hempty
      refine ⟨[], ['.'].intercalate ([] :: segs), rfl, rfl, .inl ⟨rfl, ?_⟩⟩
      cases segs with
      | nil => exact .inr rfl
      | cons s segs => exact .inl (by simp)
    split at h
    · -- a `*` inside a longer segment: the characters before the first `*` come first
      next _ hstar =>
      cases h
      obtain ⟨rest, hrest⟩ : ∃ rest, ['.'].intercalate (seg :: segs) = seg ++ rest := by
        cases segs with
        | nil => exact ⟨[], by simp⟩
        | cons s segs => exact ⟨_, List.intercalate_cons_cons.trans (List.append_assoc _ _ _)⟩
      have hdrop : seg.dropWhile (· ≠ '*') ≠ [] := by
        rw [Ne, List.dropWhile_eq_nil_iff]
        exact fun hall => by simpa using hall '*' hstar.2
      obtain ⟨d, ds, hd⟩ := List.exists_cons_of_ne_nil hdrop
      have hfirst := List.head?_dropWhile_not (· ≠ '*') seg
      rw [hd] at hfirst
      simp only [List.head?_cons, decide_eq_false_iff_not, Decidable.not_not] at hfirst
      refine ⟨seg.takeWhile (· ≠ '*'), seg.dropWhile (· ≠ '*') ++ rest, ?_, rfl,
        .inr ⟨rfl, by rw [hd, hfirst]; rfl⟩⟩
      rw [hrest, ← List.append_assoc, List.takeWhile_append_dropWhile]
    · -- the fault is in a later segment, after this one and its `.`
      obtain ⟨pre, post, hsplit, ho, hk⟩ := ih h
      have hne : segs ≠ [] := by
        rintro rfl
        cases h
      refine ⟨seg ++ ['.'] ++ pre, post, ?_, ?_, hk⟩
      · rw [List.intercalate_cons_of_ne_nil hne, hsplit]
        simp
      · rw [ho, byteLength_append, byteLength_append]
        simp only [byteLength_cons, byteLength_nil]
        have : '.'.utf8Size = 1 := rfl
        omega

/-- A run of characters with `p` from the first character on, and what follows it. -/
theorem run_split (p : Char → Bool) {c : Char} (hc : p c = true) (cs : List Char) :
    c :: cs = (c :: cs.takeWhile p) ++ cs.dropWhile p ∧
      (∀ d ∈ c :: cs.takeWhile p, p d = true) ∧ ∀ d ∈ (cs.dropWhile p).head?, p d = false := by
  refine ⟨by simp, List.forall_mem_cons.mpr ⟨hc, List.all_eq_true.mp List.all_takeWhile⟩, ?_⟩
  intro d hd
  have := List.head?_dropWhile_not p cs
  rw [Option.mem_def.mp hd] at this
  exact this

/-- What follows a name is refused at its first character. -/
theorem checkFollower_eq_error {rest : List Char} {stop : Nat} {e : ParseError}
    (h : checkFollower rest stop = .error e) :
    ∃ d, rest.head? = some d ∧ e = ⟨.illegalCharacter d, stop⟩ := by
  cases rest with
  | nil => cases h
  | cons d r =>
    simp only [checkFollower] at h
    split at h
    · cases h
    · cases h
      exact ⟨d, rfl, rfl⟩

/-- What the segment check of a name refuses lies in the name, at a `.`, at a `*`, or at the
end of the name, where no name character follows. -/
theorem checkSegments_within {word rest : List Char} {pos : Nat} {e : ParseError}
    (h : checkSegments (word.splitOn '.') pos = .error e) (hword : ∀ c ∈ word, isNameChar c = true)
    (hne : word ≠ []) (hrest : ∀ d ∈ rest.head?, isNameChar d = false) :
    e.Within (word ++ rest) pos ∧ e.kind ≠ .emptySelector := by
  obtain ⟨pre, post, hsplit, ho, hk⟩ := checkSegments_error h
  rw [List.intercalate_splitOn] at hsplit
  subst hsplit
  refine ⟨⟨pre, post ++ rest, by simp, ho, ?_⟩, by rcases hk with ⟨hk, -⟩ | ⟨hk, -⟩ <;> simp [hk]⟩
  rcases hk with ⟨hk, hpost⟩ | ⟨hk, hpost⟩ <;> rw [hk]
  · rcases hpost with hpost | rfl
    · exact .inl (by simp [List.head?_append, hpost])
    · -- the last segment is empty: the name ends at the offset
      rw [List.append_nil] at hne hword
      refine .inr ⟨⟨pre.getLast hne, by simp [List.getLast?_eq_some_getLast hne], ?_⟩,
        by simpa using hrest⟩
      exact hword _ (List.getLast_mem hne)
  · simp [ParseError.Kind.Marks, List.head?_append, hpost]

/-- The lexer's faults lie in its input, at a character that shows them. -/
theorem scanFrom_error {cs : List Char} {pos : Nat} {e : ParseError}
    (h : scanFrom cs pos = .error e) : e.Within cs pos ∧ e.kind ≠ .emptySelector := by
  fun_induction scanFrom cs pos with
  | case1 => cases h
  | case2 c cs pos hc run _ ih =>
    -- a run of blanks, then the fault in what follows it
    obtain ⟨hw, hk⟩ := ih (except_map_eq_error.mp h)
    rw [(run_split isBlankChar hc cs).1]
    exact ⟨hw.append_left hk run rfl, hk⟩
  | case3 cs pos _ ih | case4 cs pos _ _ ih | case5 cs pos _ _ _ ih
  | case6 cs pos _ _ _ _ ih =>
    -- one character of one byte, then the fault in what follows it
    obtain ⟨hw, hk⟩ := ih (except_map_eq_error.mp h)
    exact ⟨hw.append_left hk [_] rfl, hk⟩
  | case7 c cs pos _ _ _ _ _ hname word rest _ stop e' hfollow =>
    -- a character that may not follow a name, right after it
    cases h
    obtain ⟨d, hd, rfl⟩ := checkFollower_eq_error hfollow
    rw [(run_split isNameChar hname cs).1]
    exact ⟨⟨word, rest, rfl, rfl, hd⟩, by simp⟩
  | case8 c cs pos _ _ _ _ _ hname word rest _ stop e' hseg _ =>
    cases h
    obtain ⟨hsplit, hword, hrest⟩ := run_split isNameChar hname cs
    rw [hsplit]
    exact checkSegments_within hseg hword (List.cons_ne_nil _ _) hrest
  | case9 c cs pos _ _ _ _ _ hname word rest _ stop _ _ ih =>
    -- a name, then the fault in what follows it
    obtain ⟨hw, hk⟩ := ih (except_map_eq_error.mp h)
    rw [(run_split isNameChar hname cs).1]
    exact ⟨hw.append_left hk word rfl, hk⟩
  | case10 c cs pos =>
    cases h
    exact ⟨⟨[], c :: cs, rfl, rfl, rfl⟩, by simp⟩

/-! ## Where the lexer puts its tokens -/

/-- The tokens `ts` stand one after the other from byte `pos`, each at the byte where its
characters start. -/
def Placed : List Token → Nat → Prop
  | [], _ => True
  | t :: ts, pos => t.start = pos ∧ Placed ts (pos + byteLength t.lexeme.toList)

/-- A placed token starts after the characters of the tokens before it. -/
theorem Placed.start {ts pre post : List Token} {t : Token} {pos : Nat} (h : Placed ts pos)
    (hts : ts = pre ++ t :: post) : t.start = pos + byteLength (spell pre) := by
  subst hts
  induction pre generalizing pos with
  | nil => exact h.1
  | cons p pre ih =>
    rw [List.cons_append] at h
    rw [spell_cons, byteLength_append, ← Nat.add_assoc]
    exact ih h.2

/-- The lexer places its tokens. -/
theorem scanFrom_placed {cs : List Char} {pos : Nat} {ts : List Token}
    (h : scanFrom cs pos = .ok ts) : Placed ts pos := by
  fun_induction scanFrom cs pos generalizing ts with
  | case1 =>
    cases h
    trivial
  | case2 | case9 =>
    rename_i ih
    obtain ⟨us, hus, rfl⟩ := except_map_eq_ok.mp h
    exact ⟨rfl, by simpa [lexeme] using ih hus⟩
  | case3 | case4 | case5 | case6 =>
    -- the operators are one byte long
    rename_i ih
    obtain ⟨us, hus, rfl⟩ := except_map_eq_ok.mp h
    exact ⟨rfl, by simpa [lexeme, Char.utf8Size] using ih hus⟩
  | case7 | case8 | case10 => cases h

/-! ## The characters of a token -/

theorem Valid.lexeme_name {s : Nat} {p : Pattern} (hv : (name s p).Valid) :
    IsPatternText (name s p).lexeme.toList := by
  obtain ⟨cs, hcs, rfl⟩ := hv
  simpa [lexeme] using hcs

theorem Valid.lexeme_ne_nil {t : Token} (hv : t.Valid) : t.lexeme.toList ≠ [] := by
  cases t with
  | name s p => exact hv.lexeme_name.ne_nil
  | blank s run => exact hv.1
  | _ => simp [lexeme]

/-- A blank starts with a space or a tab. -/
theorem Valid.head_of_isBlank {t : Token} (hv : t.Valid) (hb : t.isBlank = true) :
    ∃ d ∈ t.lexeme.toList.head?, isBlankChar d = true := by
  cases t with
  | blank s run =>
    obtain ⟨d, ds, hd⟩ := List.exists_cons_of_ne_nil hv.1
    exact ⟨d, by simp [lexeme, hd], hv.2 d (by simp [hd])⟩
  | _ => cases hb

/-- A token that nests or joins operands starts with `(`, `-`, `,` or a blank. -/
theorem Valid.head_of_isOperator {t : Token} (hv : t.Valid) (ho : t.isOperator = true) :
    ∃ d ∈ t.lexeme.toList.head?, d = '(' ∨ d = '-' ∨ d = ',' ∨ isBlankChar d = true := by
  cases t with
  | blank s run =>
    obtain ⟨d, hd, hdb⟩ := hv.head_of_isBlank rfl
    exact ⟨d, hd, .inr (.inr (.inr hdb))⟩
  | name | closeParen => cases ho
  | _ => simp [lexeme]

/-- A token that starts an operand starts with `(`, `-` or a name character. -/
theorem Valid.head_of_opensOperand {t : Token} (hv : t.Valid) (ho : t.opensOperand = true) :
    ∃ d ∈ t.lexeme.toList.head?, d = '(' ∨ d = '-' ∨ isNameChar d = true := by
  cases t with
  | name s p =>
    have hp := hv.lexeme_name
    obtain ⟨d, ds, hd⟩ := List.exists_cons_of_ne_nil hp.ne_nil
    exact ⟨d, by rw [hd]; rfl, .inr (.inr (hp.isNameChar d (by simp [hd])))⟩
  | blank | comma | closeParen => cases ho
  | _ => simp [lexeme]

/-- A token that ends an operand ends with `)` or a name character. -/
theorem Valid.last_of_endsOperand {t : Token} (hv : t.Valid) (he : t.endsOperand = true) :
    ∃ c ∈ t.lexeme.toList.getLast?, c = ')' ∨ isNameChar c = true := by
  cases t with
  | name s p =>
    have hp := hv.lexeme_name
    exact ⟨_, List.getLast?_eq_some_getLast hp.ne_nil,
      .inr (hp.isNameChar _ (List.getLast_mem hp.ne_nil))⟩
  | closeParen => simp [lexeme]
  | _ => cases he

theorem head?_spell_cons {t : Token} (hne : t.lexeme.toList ≠ []) (ts : List Token) :
    (spell (t :: ts)).head? = t.lexeme.toList.head? := by
  obtain ⟨d, ds, hd⟩ := List.exists_cons_of_ne_nil hne
  rw [spell_cons, hd]
  rfl

theorem getLast?_spell_concat {t : Token} (hne : t.lexeme.toList ≠ []) (ts : List Token) :
    (spell (ts ++ [t])).getLast? = t.lexeme.toList.getLast? := by
  rw [spell_append, spell_cons, spell_nil, List.append_nil, List.getLast?_append]
  simp [List.getLast?_eq_some_getLast hne]

/-- The lexer never puts two blanks side by side: it reads a run of blanks whole. -/
theorem scanFrom_noDoubleBlank {cs : List Char} {pos : Nat} {ts : List Token}
    (h : scanFrom cs pos = .ok ts) : NoDoubleBlank ts := by
  fun_induction scanFrom cs pos generalizing ts with
  | case1 =>
    cases h
    exact List.IsChain.nil
  | case2 c cs pos hc run _ =>
    rename_i ih
    obtain ⟨us, hus, rfl⟩ := except_map_eq_ok.mp h
    refine List.isChain_cons.mpr ⟨?_, ih hus⟩
    -- the tokens after the run spell what follows it, which does not start with a blank
    rintro u hu ⟨-, hblank⟩
    obtain ⟨r, rfl⟩ : ∃ r, us = u :: r := by
      cases us with
      | nil => cases hu
      | cons u' r => exact ⟨r, by cases hu; rfl⟩
    obtain ⟨hspell, hvalid⟩ := scanFrom_sound hus
    have huv : u.Valid := hvalid u (by simp)
    obtain ⟨d, hd, hdb⟩ := huv.head_of_isBlank hblank
    rw [← head?_spell_cons huv.lexeme_ne_nil r, hspell] at hd
    rw [(run_split isBlankChar hc cs).2.2 d hd] at hdb
    cases hdb
  | case3 | case4 | case5 | case6 | case9 =>
    rename_i ih
    obtain ⟨us, hus, rfl⟩ := except_map_eq_ok.mp h
    exact List.isChain_cons.mpr ⟨by simp [isBlank], ih hus⟩
  | case7 | case8 | case10 => cases h

/-! ## The reader's faults, in characters -/

/-- A fault at the start of a token lies in the characters of the tokens, where that token's
characters start. -/
theorem FaultIn.within {ts : List Token} {e : ParseError} {pos : Nat} (hf : FaultIn ts e)
    (hp : Placed ts pos) (hv : ∀ t ∈ ts, t.Valid) : e.Within (spell ts) pos := by
  obtain ⟨pre, t, post, rfl, ho, hk⟩ := hf
  have htv : t.Valid := hv t (by simp)
  have hhead := head?_spell_cons htv.lexeme_ne_nil post
  refine ⟨spell pre, spell (t :: post), spell_append _ _, ho.trans (hp.start rfl), ?_⟩
  obtain ⟨kind, offset⟩ := e
  cases kind with
  | emptySelector | illegalCharacter | emptySegment => exact hk.elim
  | unclosedGroup | emptyGroup =>
    obtain ⟨s, rfl⟩ := hk
    simp [ParseError.Kind.Marks, lexeme]
  | unmatchedCloseParen =>
    obtain ⟨s, rfl⟩ := hk
    simp [ParseError.Kind.Marks, lexeme]
  | danglingOperator c =>
    rcases hk with ⟨rfl, s, rfl⟩ | ⟨rfl, s, rfl⟩ <;> simp [ParseError.Kind.Marks, lexeme]
  | nestingTooDeep limit => exact ⟨hk.1, hhead ▸ htv.head_of_isOperator hk.2⟩
  | missingSeparator =>
    -- the operand before ends with the token before this one
    obtain ⟨hop, p, hp, hend⟩ := hk
    obtain ⟨pre, rfl⟩ := List.getLast?_eq_some_iff.mp hp
    have hpv : p.Valid := hv p (by simp)
    refine ⟨hhead ▸ htv.head_of_opensOperand hop, ?_⟩
    rw [getLast?_spell_concat hpv.lexeme_ne_nil]
    exact hpv.last_of_endsOperand hend

end Token


/-! ## Offsets in a text -/

namespace Token

theorem byteLength_eq_utf8ByteSize (cs : List Char) :
    byteLength cs = (String.ofList cs).utf8ByteSize := by
  induction cs with
  | nil => rfl
  | cons c cs ih =>
    rw [byteLength_cons, ih, String.ofList_cons, String.utf8ByteSize_append,
      String.utf8ByteSize_singleton]

theorem byteLength_toList (t : String) : byteLength t.toList = t.utf8ByteSize := by
  rw [byteLength_eq_utf8ByteSize, String.ofList_toList]

/-- The end of the first characters of a text is a boundary of the text. -/
theorem isValid_byteLength {t : String} {pre post : List Char} (h : t.toList = pre ++ post) :
    String.Pos.Raw.IsValid t ⟨byteLength pre⟩ :=
  String.Pos.Raw.isValid_iff_exists_take_toList.mpr
    ⟨pre.length, by simp [h, byteLength_eq_utf8ByteSize]⟩

end Token

namespace Command

/-- Counting whole characters from byte `bytes`, the column of the end of `pre` is
`pre.length` further on. -/
theorem caretColumn_go (offset : Nat) (pre post : List Char) (bytes chars : Nat)
    (h : offset = bytes + byteLength pre) :
    caretColumn.go offset (pre ++ post) bytes chars = chars + pre.length := by
  induction pre generalizing bytes chars with
  | nil =>
    rw [List.nil_append, caretColumn.go.eq_def]
    dsimp only
    rw [if_pos (by simpa using h.symm)]
    rfl
  | cons c pre ih =>
    -- a character takes at least one byte, so the offset is still ahead
    have hc := c.utf8Size_pos
    rw [byteLength_cons] at h
    rw [List.cons_append, caretColumn.go.eq_def]
    dsimp only
    rw [if_neg (by omega), if_neg (by omega)]
    rw [ih (bytes + c.utf8Size) (chars + 1) (by omega), List.length_cons]
    omega

/-- The caret under the end of the first characters of a text stands in the column that
counts them. -/
theorem caretColumn_byteLength {t : String} {pre post : List Char} (h : t.toList = pre ++ post) :
    caretColumn t (byteLength pre) = pre.length := by
  rw [caretColumn, h, caretColumn_go _ pre post 0 0 (Nat.zero_add _).symm, Nat.zero_add]

end Command

/-! ## Every fault of a text -/

/-- Every fault of a refused text lies in the text, where the characters show it. -/
theorem Node.parse_error_within {t : String} {e : ParseError} (h : Node.parse t = .error e) :
    e.Within t.toList 0 := by
  rcases hs : scan t with e' | tokens
  · -- the lexer refuses the text
    have he : e' = e := by simpa [Node.parse, hs, bind, Except.bind] using h
    exact he ▸ (scanFrom_error hs).1
  · -- the reader refuses the lexer's tokens, which spell the text
    rw [Node.parse_eq_ofTokens hs] at h
    obtain ⟨hspell, hvalid⟩ := scanFrom_sound hs
    rw [← hspell]
    rcases Node.ofTokens_fault h (scanFrom_noDoubleBlank hs) with ⟨hb, rfl⟩ | hf
    · exact ⟨[], spell tokens, rfl, rfl, rfl, isBlanks_spell hb hvalid⟩
    · exact hf.within (scanFrom_placed hs) hvalid

/-- Every fault of a refused selector text is at a character boundary of the text, no further
than its end, and the characters around it show its cause; the caret of a report stands in
the column that counts the characters before it. -/
theorem Node.parse_error_at_cause {t : String} {e : ParseError} (h : Node.parse t = .error e) :
    ∃ pre post, t.toList = pre ++ post ∧ e.offset = byteLength pre ∧ e.kind.Marks pre post ∧
      e.offset ≤ t.utf8ByteSize ∧ String.Pos.Raw.IsValid t ⟨e.offset⟩ ∧
      Command.caretColumn t e.offset = pre.length := by
  obtain ⟨pre, post, hsplit, ho, hm⟩ := Node.parse_error_within h
  rw [Nat.zero_add] at ho
  refine ⟨pre, post, hsplit, ho, hm, ?_, ho ▸ isValid_byteLength hsplit,
    ho ▸ Command.caretColumn_byteLength hsplit⟩
  rw [ho, ← byteLength_toList, hsplit, byteLength_append]
  omega

theorem parse_illegal_character_caret : Node.parse "a é" = .error ⟨.illegalCharacter 'é', 2⟩ ∧
    ∃ pre post, "a é".toList = pre ++ post ∧ 2 = byteLength pre ∧
      (ParseError.Kind.illegalCharacter 'é').Marks pre post ∧ 2 ≤ "a é".utf8ByteSize ∧
      String.Pos.Raw.IsValid "a é" ⟨2⟩ ∧ Command.caretColumn "a é" 2 = pre.length :=
  have h : Node.parse "a é" = .error ⟨.illegalCharacter 'é', 2⟩ := by
    have hsegs : List.splitOn '.' ['a'] = [['a']] := rfl
    simp [Node.parse, scan, scanFrom, isBlankChar, isNameChar, checkFollower, endsName, hsegs,
      checkSegments, Char.utf8Size, bind, Except.bind]
  ⟨h, Node.parse_error_at_cause h⟩

end ScopeSelectors
