import ScopeSelectors.Proofs.Descent
/-!
# The lexer cuts phrases into the grammar's tokens

The character grammar (`Derives`) and the token grammar (`TokenDerives`) describe the
same phrases, through the lexer:

* *Soundness* (`scanFrom_sound`): the tokens the lexer returns spell its input, and each
  is *valid*: a name token holds a scope pattern written as the grammar writes one, a
  blank token a nonempty run of spaces and tabs.  A token derivation over valid tokens
  spells a character derivation with the same tree (`TokenDerives.spell`).
* *Completeness* (`Derives.scans`): the characters of a phrase, followed by anything
  that may follow a name, scan to the tokens of a token derivation with the same tree,
  and the lexer then goes on with what follows (`Scans`).  Scanning composes like
  concatenation (`Scans.append`), so each rule of the grammar is scanned by putting the
  scans of its pieces side by side.

The lexer only cuts a run of blanks or of name characters where the run ends, so a piece
is scanned on its own only when what follows it cannot extend it: no blank after a blank
run (`StartsSolid`), and after a name only what ends a name (`Follows`).
-/

namespace ScopeSelectors

open Grammar

namespace Token

/-- The characters the tokens were read from. -/
def spell (ts : List Token) : List Char := ts.flatMap fun t => t.lexeme.toList

/-- A token as the lexer makes it: a name holds a scope pattern written as the grammar
writes one, a blank a nonempty run of spaces and tabs. -/
def Valid : Token → Prop
  | .name _ p => ∃ cs, IsPatternText cs ∧ p = Pattern.ofText (String.ofList cs)
  | .blank _ run => run.toList ≠ [] ∧ IsBlanks run.toList
  | _ => True

/-- What may follow a name: nothing, or a character that ends it. -/
def Follows (rest : List Char) : Prop := ∀ d ∈ rest.head?, endsName d = true

/-- Text that does not start with a blank, so that a run of blanks before it ends there. -/
def StartsSolid (rest : List Char) : Prop := ∀ d ∈ rest.head?, isBlankChar d = false

/-- Scanning `cs` from byte `pos`, with `rest` after it, gives the tokens `ts` and then goes
on with `rest`. -/
def Scans (cs : List Char) (ts : List Token) (pos : Nat) (rest : List Char) : Prop :=
  scanFrom (cs ++ rest) pos = (ts ++ ·) <$> scanFrom rest (pos + byteLength cs)

@[simp] theorem spell_nil : spell [] = [] := rfl

@[simp] theorem spell_cons (t : Token) (ts : List Token) :
    spell (t :: ts) = t.lexeme.toList ++ spell ts := List.flatMap_cons

@[simp] theorem spell_append (ts us : List Token) : spell (ts ++ us) = spell ts ++ spell us :=
  List.flatMap_append

@[simp] theorem byteLength_nil : byteLength [] = 0 := rfl

@[simp] theorem byteLength_cons (c : Char) (cs : List Char) :
    byteLength (c :: cs) = c.utf8Size + byteLength cs := rfl

theorem byteLength_append (cs ds : List Char) :
    byteLength (cs ++ ds) = byteLength cs + byteLength ds := by
  induction cs with
  | nil => simp
  | cons c cs ih => simp [ih, Nat.add_assoc]

theorem except_map_eq_ok {ε α β : Type} {f : α → β} {x : Except ε α} {b : β} :
    f <$> x = .ok b ↔ ∃ a, x = .ok a ∧ f a = b := by
  cases x <;> simp [Functor.map, Except.map]

theorem map_append_map {ε α : Type} (as bs : List α) (x : Except ε (List α)) :
    (as ++ ·) <$> ((bs ++ ·) <$> x) = (as ++ bs ++ ·) <$> x := by
  cases x <;> simp [Functor.map, Except.map]

/-! ## Runs -/

section Runs

variable {p : Char → Bool} {w rest : List Char}

/-- A run of characters with `p` stops before the first character without it. -/
theorem takeWhile_stop (hw : ∀ c ∈ w, p c = true) (hr : ∀ d ∈ rest.head?, p d = false) :
    (w ++ rest).takeWhile p = w := by
  rw [List.takeWhile_append_of_pos hw]
  cases rest with
  | nil => simp
  | cons d r => simp [List.takeWhile_cons_of_neg, hr d rfl]

theorem dropWhile_stop (hw : ∀ c ∈ w, p c = true) (hr : ∀ d ∈ rest.head?, p d = false) :
    (w ++ rest).dropWhile p = rest := by
  rw [List.dropWhile_append_of_pos hw]
  cases rest with
  | nil => simp
  | cons d r => simp [List.dropWhile_cons_of_neg, hr d rfl]

end Runs

/-! ## Names -/

/-- The segment check passes exactly when no segment is empty and a `*` stands alone. -/
theorem checkSegments_eq_ok {segs : List (List Char)} {offset : Nat} :
    checkSegments segs offset = .ok () ↔ ∀ s ∈ segs, s ≠ [] ∧ (s ≠ ['*'] → '*' ∉ s) := by
  induction segs generalizing offset with
  | nil => simp [checkSegments]
  | cons seg segs ih =>
    rw [checkSegments]
    by_cases he : seg.isEmpty
    · simp [List.isEmpty_iff.mp he]
    · by_cases hs : seg ≠ ['*'] ∧ '*' ∈ seg
      · simp [he, hs]
      · rw [if_neg he, if_neg hs, ih, List.forall_mem_cons]
        simp only [List.isEmpty_iff] at he
        exact ⟨fun h => ⟨⟨he, fun h1 h2 => hs ⟨h1, h2⟩⟩, h⟩, fun h => h.2⟩

/-- Among name characters other than `.`, a segment is what the segment check accepts. -/
theorem isSegment_iff {s : List Char} (hs : ∀ c ∈ s, isNameChar c = true ∧ c ≠ '.') :
    IsSegment s ↔ s ≠ [] ∧ (s ≠ ['*'] → '*' ∉ s) := by
  constructor
  · rintro (rfl | ⟨hne, hseg⟩)
    · simp
    · exact ⟨hne, fun _ hstar => by simpa [isSegmentChar] using hseg '*' hstar⟩
  · rintro ⟨hne, hstar⟩
    by_cases h1 : s = ['*']
    · exact Or.inl h1
    · refine Or.inr ⟨hne, fun c hc => ?_⟩
      have hc' : c ≠ '*' := fun h => hstar h1 (h ▸ hc)
      have := hs c hc
      simp only [isNameChar, isSegmentChar, Bool.or_eq_true, decide_eq_true_eq] at this ⊢
      grind

/-- A word of name characters that does not start with `-` is a scope pattern exactly when
the segment check passes. -/
theorem isPatternText_iff {word : List Char} (hname : ∀ c ∈ word, isNameChar c = true)
    (hhead : word.head? ≠ some '-') (offset : Nat) :
    IsPatternText word ↔ checkSegments (word.splitOn '.') offset = .ok () := by
  have hseg : ∀ s ∈ word.splitOn '.', IsSegment s ↔ s ≠ [] ∧ (s ≠ ['*'] → '*' ∉ s) :=
    fun s hs => isSegment_iff fun c hc =>
      have hc' := mem_of_mem_splitOn hs hc
      ⟨hname c hc'.1, hc'.2⟩
  rw [checkSegments_eq_ok]
  constructor
  · rintro ⟨h, -⟩ s hs
    exact (hseg s hs).mp (h s hs)
  · intro h
    exact ⟨fun s hs => (hseg s hs).mpr (h s hs), hhead⟩

theorem valid_name {word : List Char} (h : IsPatternText word) (pos : Nat) :
    (Token.name pos (Pattern.ofText (String.ofList word))).Valid :=
  ⟨word, h, rfl⟩

/-! ## Soundness -/

/-- The lexer's tokens spell its input, and each is valid. -/
theorem scanFrom_sound {cs : List Char} {pos : Nat} {ts : List Token}
    (h : scanFrom cs pos = .ok ts) : spell ts = cs ∧ ∀ t ∈ ts, t.Valid := by
  fun_induction scanFrom cs pos generalizing ts with
  | case1 =>
    cases h
    simp
  | case2 c cs pos hc run _ =>
    rename_i ih
    obtain ⟨us, hus, rfl⟩ := except_map_eq_ok.mp h
    obtain ⟨hspell, hvalid⟩ := ih hus
    have hrun : ∀ d ∈ run, isBlankChar d = true := by
      simpa [run, hc] using List.all_eq_true.mp List.all_takeWhile
    refine ⟨by simp [lexeme, hspell, run], ?_⟩
    simp only [List.forall_mem_cons]
    exact ⟨⟨by simp [run], by simpa [IsBlanks] using hrun⟩, hvalid⟩
  | case3 | case4 | case5 | case6 =>
    rename_i ih
    obtain ⟨us, hus, rfl⟩ := except_map_eq_ok.mp h
    obtain ⟨hspell, hvalid⟩ := ih hus
    exact ⟨by simp [lexeme, hspell], by simpa [Valid] using hvalid⟩
  | case7 | case8 => cases h
  | case9 c cs pos _ _ hminus _ _ hname word rest _ stop hseg _ =>
    rename_i ih
    obtain ⟨us, hus, rfl⟩ := except_map_eq_ok.mp h
    obtain ⟨hspell, hvalid⟩ := ih hus
    have hword : ∀ d ∈ word, isNameChar d = true := by
      simpa [word, hname] using List.all_eq_true.mp List.all_takeWhile
    have hpat : IsPatternText word :=
      (isPatternText_iff hword (by simpa [word] using hminus) pos).mpr hseg
    refine ⟨by simp [lexeme, hspell, word, rest], ?_⟩
    simp only [List.forall_mem_cons]
    exact ⟨valid_name hpat pos, hvalid⟩
  | case10 => cases h

/-! ## Scanning piece by piece -/

section Scanning

variable {pos : Nat} {rest : List Char}

/-- Scanning two pieces one after the other scans their concatenation. -/
theorem Scans.append {a b mid : List Char} {ts us : List Token}
    (h₁ : Scans a ts pos mid) (h₂ : Scans b us (pos + byteLength a) rest)
    (hmid : mid = b ++ rest) : Scans (a ++ b) (ts ++ us) pos rest := by
  subst hmid
  unfold Scans at *
  rw [List.append_assoc, h₁, h₂, map_append_map, byteLength_append, Nat.add_assoc]

/-- The token that the one-byte operator character `c` reads as at byte `pos`: `,`, `-`, `(`
and `)`, and no other character. -/
def operatorToken (c : Char) (pos : Nat) : Option Token :=
  if c = ',' then some (.comma pos)
  else if c = '-' then some (.minus pos)
  else if c = '(' then some (.openParen pos)
  else if c = ')' then some (.closeParen pos)
  else none

section Operators

variable {c : Char} {t : Token}

theorem operatorToken_eq_some (h : operatorToken c pos = some t) :
    c = ',' ∧ t = .comma pos ∨ c = '-' ∧ t = .minus pos ∨ c = '(' ∧ t = .openParen pos ∨
      c = ')' ∧ t = .closeParen pos := by
  unfold operatorToken at h
  split_ifs at h with h₁ h₂ h₃ h₄ <;> cases h
  · exact .inl ⟨h₁, rfl⟩
  · exact .inr (.inl ⟨h₂, rfl⟩)
  · exact .inr (.inr (.inl ⟨h₃, rfl⟩))
  · exact .inr (.inr (.inr ⟨h₄, rfl⟩))

/-- An operator character is one byte. -/
theorem utf8Size_of_operatorToken (h : operatorToken c pos = some t) : c.utf8Size = 1 := by
  rcases operatorToken_eq_some h with ⟨rfl, -⟩ | ⟨rfl, -⟩ | ⟨rfl, -⟩ | ⟨rfl, -⟩ <;> rfl

/-- The lexer reads an operator character as its token, and goes on at the next byte. -/
theorem scanFrom_operator (h : operatorToken c pos = some t) (cs : List Char) :
    scanFrom (c :: cs) pos = (t :: ·) <$> scanFrom cs (pos + 1) := by
  -- each operator is tested before name characters, so the lexer reaches its branch
  rcases operatorToken_eq_some h with ⟨rfl, rfl⟩ | ⟨rfl, rfl⟩ | ⟨rfl, rfl⟩ | ⟨rfl, rfl⟩ <;>
  · rw [scanFrom]
    rfl

/-- A one-byte operator is one token. -/
theorem scans_operator (h : operatorToken c pos = some t) : Scans [c] [t] pos rest := by
  rw [Scans, List.singleton_append, scanFrom_operator h, byteLength_cons, byteLength_nil,
    utf8Size_of_operatorToken h]
  rfl

end Operators

/-- A nonempty run of blanks before solid text is one blank token. -/
theorem scans_blankRun (pos : Nat) {w : List Char} (hne : w ≠ []) (hw : IsBlanks w)
    (hr : StartsSolid rest) :
    Scans w [.blank pos (String.ofList w)] pos rest := by
  obtain ⟨c, w', rfl⟩ := List.exists_cons_of_ne_nil hne
  have hc : isBlankChar c = true := hw c List.mem_cons_self
  have hw' : ∀ d ∈ w', isBlankChar d = true := fun d hd => hw d (List.mem_cons_of_mem c hd)
  rw [Scans, List.cons_append, scanFrom, if_pos hc]
  simp only [takeWhile_stop hw' hr, dropWhile_stop hw' hr]
  rfl

/-- Blanks before solid text, possibly none, are blank tokens. -/
theorem scans_blanks (pos : Nat) {w : List Char} (hw : IsBlanks w) (hr : StartsSolid rest) :
    ∃ bs, AllBlank bs ∧ Scans w bs pos rest := by
  by_cases hne : w = []
  · subst hne
    refine ⟨[], allBlank_nil, ?_⟩
    cases h : scanFrom rest pos <;> simp [Scans, h, byteLength, Functor.map, Except.map]
  · exact ⟨_, by simp [AllBlank, isBlank], scans_blankRun pos hne hw hr⟩

theorem checkFollower_of_follows (hr : Follows rest) (stop : Nat) :
    checkFollower rest stop = .ok () := by
  cases rest with
  | nil => rfl
  | cons d r => simp [checkFollower, hr d rfl]

/-- What may follow a name is no name character. -/
theorem Follows.not_isNameChar (hr : Follows rest) : ∀ d ∈ rest.head?, isNameChar d = false := by
  intro d hd
  have := hr d hd
  simp only [endsName, isBlankChar, Bool.or_eq_true, decide_eq_true_eq] at this
  rcases this with (((rfl | rfl) | rfl) | rfl) | rfl <;> rfl

/-- A scope pattern before what may follow a name is one name token. -/
theorem scans_name (pos : Nat) {cs : List Char} (h : IsPatternText cs) (hr : Follows rest) :
    Scans cs [.name pos (Pattern.ofText (String.ofList cs))] pos rest := by
  obtain ⟨c, cs', rfl⟩ := List.exists_cons_of_ne_nil h.ne_nil
  have hname := h.isNameChar
  have hc : isNameChar c = true := hname c List.mem_cons_self
  have hcs : ∀ d ∈ cs', isNameChar d = true := fun d hd => hname d (List.mem_cons_of_mem c hd)
  -- the first character is a name character, so none of the lexer's earlier tests holds
  have hblank : isBlankChar c = false := by
    cases hb : isBlankChar c
    · rfl
    · simp only [isBlankChar, Bool.or_eq_true, decide_eq_true_eq] at hb
      rcases hb with rfl | rfl <;> exact absurd hc (by decide)
  have hother : c ≠ ',' ∧ c ≠ '-' ∧ c ≠ '(' ∧ c ≠ ')' := by
    refine ⟨?_, fun e => h.2 (by simp [e]), ?_, ?_⟩ <;> rintro rfl <;> exact absurd hc (by decide)
  rw [Scans, List.cons_append, scanFrom, if_neg (by simp [hblank]), if_neg hother.1,
    if_neg hother.2.1, if_neg hother.2.2.1, if_neg hother.2.2.2, if_pos hc]
  simp only [takeWhile_stop hcs hr.not_isNameChar, dropWhile_stop hcs hr.not_isNameChar,
    checkFollower_of_follows hr, (isPatternText_iff hname h.2 pos).mp h]
  rfl

end Scanning

/-! ## Completeness -/

theorem startsSolid_cons (d : Char) (hd : isBlankChar d = false) (r : List Char) :
    StartsSolid (d :: r) := by
  intro e he
  cases he
  exact hd

/-- Blanks, possibly none, and then a character that ends a name may follow a name. -/
theorem follows_blanks_cons {w : List Char} (hw : IsBlanks w) (d : Char) (hd : endsName d = true)
    (r : List Char) : Follows (w ++ d :: r) := by
  cases w with
  | nil => simpa [Follows] using hd
  | cons c w =>
    intro e he
    cases he
    simp [endsName, hw c List.mem_cons_self]

theorem follows_blanks {w : List Char} (hw : IsBlanks w) : Follows w := by
  intro d hd
  cases w with
  | nil => cases hd
  | cons c w =>
    cases hd
    simp [endsName, hw _ List.mem_cons_self]

theorem follows_blankRun {w : List Char} (hne : w ≠ []) (hw : IsBlanks w) (r : List Char) :
    Follows (w ++ r) := by
  obtain ⟨c, w', rfl⟩ := List.exists_cons_of_ne_nil hne
  intro e he
  cases he
  simp [endsName, hw c List.mem_cons_self]

end Token

open Token

theorem Grammar.Derives.startsSolid {p : Phrase} {cs : List Char} {n : Node} (h : Derives p cs n)
    (rest : List Char) : StartsSolid (cs ++ rest) := by
  obtain ⟨c, cs', rfl, hc⟩ := h.exists_cons
  exact startsSolid_cons c (isBlankChar_of_startsPhrase hc) _

/-- Completeness of the lexer: the characters of a phrase, before what may follow a name,
scan to the tokens of a phrase with the same tree. -/
theorem Grammar.Derives.scans {p : Phrase} {cs : List Char} {n : Node} (h : Derives p cs n)
    (pos : Nat) {rest : List Char} (hr : Follows rest) :
    ∃ ts, TokenDerives p ts n ∧ Scans cs ts pos rest := by
  induction h generalizing pos rest with
  | atom hp => exact ⟨_, .atom, scans_name pos hp hr⟩
  | @group w₁ cs w₂ x hw₁ hd hw₂ ih =>
    -- `(`, blanks, the alternatives, blanks and `)`, each scanned before the next
    obtain ⟨bs₁, hb₁, h₁⟩ := scans_blanks (pos + byteLength ['(']) hw₁
      (hd.startsSolid (w₂ ++ ')' :: rest))
    obtain ⟨ts, hts, h₂⟩ := ih (pos + byteLength ['('] + byteLength w₁)
      (follows_blanks_cons hw₂ ')' rfl rest)
    obtain ⟨bs₂, hb₂, h₃⟩ := scans_blanks (pos + byteLength ['('] + byteLength w₁ + byteLength cs)
      hw₂ (startsSolid_cons ')' rfl rest)
    have h₄ : Scans [')'] [.closeParen (pos + byteLength ['('] + byteLength w₁ + byteLength cs +
        byteLength w₂)] _ rest := scans_operator rfl
    refine ⟨.openParen pos :: bs₁ ++ ts ++ bs₂ ++ [.closeParen (pos + byteLength ['('] +
      byteLength w₁ + byteLength cs + byteLength w₂)], .group hb₁ hts hb₂, ?_⟩
    simpa using (scans_operator (c := '(') (t := .openParen pos) rfl).append
      (h₁.append (h₂.append (h₃.append h₄ rfl) (by simp)) (by simp)) rfl
  | primary _ ih =>
    obtain ⟨ts, hts, h₁⟩ := ih pos hr
    exact ⟨ts, .primary hts, h₁⟩
  | not _ ih =>
    obtain ⟨ts, hts, h₁⟩ := ih (pos + byteLength ['-']) hr
    exact ⟨.minus pos :: ts, .not hts,
      (scans_operator (c := '-') (t := .minus pos) rfl).append h₁ rfl⟩
  | negation _ ih =>
    obtain ⟨ts, hts, h₁⟩ := ih pos hr
    exact ⟨ts, .negation hts, h₁⟩
  | @and cs w ds l r _ hne hw hd ihl ihr =>
    -- the chain, one blank token, and the negation after it
    obtain ⟨ts, hts, h₁⟩ := ihl pos (follows_blankRun hne hw (ds ++ rest))
    have h₂ := scans_blankRun (pos + byteLength cs) hne hw (hd.startsSolid rest)
    obtain ⟨us, hus, h₃⟩ := ihr (pos + byteLength cs + byteLength w) hr
    refine ⟨ts ++ .blank (pos + byteLength cs) (String.ofList w) :: us, .and hts hus, ?_⟩
    simpa using h₁.append (h₂.append h₃ rfl) (by simp)
  | allOf _ ih =>
    obtain ⟨ts, hts, h₁⟩ := ih pos hr
    exact ⟨ts, .allOf hts, h₁⟩
  | @or cs w₁ w₂ ds l r _ hw₁ hw₂ hd ihl ihr =>
    -- the alternatives, blanks, `,`, blanks and the chain after them
    obtain ⟨ts, hts, h₁⟩ := ihl pos (follows_blanks_cons hw₁ ',' rfl (w₂ ++ ds ++ rest))
    obtain ⟨bs₁, hb₁, h₂⟩ := scans_blanks (pos + byteLength cs) hw₁
      (startsSolid_cons ',' rfl (w₂ ++ ds ++ rest))
    have h₃ : Scans [','] [.comma (pos + byteLength cs + byteLength w₁)] _ (w₂ ++ ds ++ rest) :=
      scans_operator rfl
    obtain ⟨bs₂, hb₂, h₄⟩ := scans_blanks
      (pos + byteLength cs + byteLength w₁ + byteLength [',']) hw₂ (hd.startsSolid rest)
    obtain ⟨us, hus, h₅⟩ := ihr
      (pos + byteLength cs + byteLength w₁ + byteLength [','] + byteLength w₂) hr
    refine ⟨ts ++ bs₁ ++ .comma (pos + byteLength cs + byteLength w₁) :: bs₂ ++ us,
      .or hts hb₁ hb₂ hus, ?_⟩
    simpa using h₁.append (h₂.append (h₃.append (h₄.append h₅ rfl) (by simp)) (by simp))
      (by simp)

/-- Blank tokens as the lexer makes them spell blanks. -/
theorem isBlanks_spell {bs : List Token} (hb : AllBlank bs) (hv : ∀ t ∈ bs, t.Valid) :
    IsBlanks (spell bs) := by
  intro c hc
  obtain ⟨t, ht, hct⟩ := List.mem_flatMap.mp hc
  cases t with
  | blank s run => exact (hv _ ht).2 c hct
  | _ => exact absurd (hb _ ht) (by simp [isBlank])

/-- A phrase of valid tokens spells a phrase of characters with the same tree. -/
theorem TokenDerives.spell {p : Phrase} {ts : List Token} {n : Node} (h : TokenDerives p ts n)
    (hv : ∀ t ∈ ts, t.Valid) : Derives p (Token.spell ts) n := by
  induction h with
  | atom =>
    obtain ⟨cs, hcs, rfl⟩ := hv _ List.mem_cons_self
    simpa [lexeme] using Derives.atom hcs
  | group hb₁ _ hb₂ ih =>
    simp only [List.cons_append, List.mem_cons, List.mem_append, or_imp, forall_and] at hv
    simpa [lexeme] using Derives.group (isBlanks_spell hb₁ hv.2.1.1.1) (ih hv.2.1.1.2)
      (isBlanks_spell hb₂ hv.2.1.2)
  | primary _ ih => exact .primary (ih hv)
  | not _ ih =>
    simp only [List.mem_cons, forall_eq_or_imp] at hv
    simpa [lexeme] using Derives.not (ih hv.2)
  | negation _ ih => exact .negation (ih hv)
  | and _ _ ihl ihr =>
    simp only [List.mem_append, List.mem_cons, or_imp, forall_and, forall_eq] at hv
    obtain ⟨hl, ⟨hne, hw⟩, hr⟩ := hv
    simpa [lexeme] using Derives.and (ihl hl) hne hw (ihr hr)
  | allOf _ ih => exact .allOf (ih hv)
  | or _ hb₁ hb₂ _ ihl ihr =>
    simp only [List.mem_append, List.mem_cons, or_imp, forall_and] at hv
    simpa [lexeme] using Derives.or (ihl hv.1.1.1) (isBlanks_spell hb₁ hv.1.1.2)
      (isBlanks_spell hb₂ hv.1.2.2) (ihr hv.2)

end ScopeSelectors
