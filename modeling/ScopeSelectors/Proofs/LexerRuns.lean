import ScopeSelectors.Proofs.ErrorOffsets
/-!
# The lexer reads a text run by run

Cut a selector text into its maximal *runs*: runs of spaces and tabs, runs of name
characters, and every other character alone (`Token.runs`, a `List.splitBy`).  The lexer reads
the text run by run (`Token.scanFrom_eq_readRuns`):

* a run of blanks is one blank token;
* a run of name characters is a `-` token for each of its leading `-` (`signs`), and then,
  unless the run was all `-`, one name token for the rest of it, its *name part*
  (`namePart`);
* `,`, `(` and `)` are one token each, and any other character is illegal.

A run can be at fault (`runFault`): an illegal character; and for a nonempty name part, first
the character that follows it, which must end a name, and only then its segments.  The lexer
stops at the first fault from the left (`firstFault`), and otherwise returns the tokens of the
runs one after the other (`tokensOfRuns`).  So it accepts exactly the texts whose characters
all belong to tokens and whose name parts have sound segments (`firstFault_runs_eq_none_iff`), and
what it returns covers the text in order, each token at the byte where its characters start,
with never a name right before a name or a `-` (`Token.scan_reads_runs`).

The lexer tests a character at the start of a token for `-` before it tests for a name
character, and reads a name greedily; a name part is what is left of a run once the `-` at its
start are read (`scanFrom_nameRun`, by induction on the run).
-/

namespace ScopeSelectors

namespace Token

/-! ## Runs -/

/-- Two neighbouring characters of one run: both blanks, or both name characters. -/
def sameRun (a b : Char) : Bool :=
  (isBlankChar a && isBlankChar b) || (isNameChar a && isNameChar b)

/-- The maximal runs of a text: runs of blanks, runs of name characters, and every other
character alone. -/
def runs (cs : List Char) : List (List Char) := cs.splitBy sameRun

/-- The characters a token may hold: name characters, blanks, `,`, `(` and `)`. -/
def inAlphabet (c : Char) : Bool := isNameChar c || endsName c

/-- The leading `-` of a run of name characters, each a negation sign. -/
def signs (g : List Char) : List Char := g.takeWhile (· == '-')

/-- A run of name characters without its leading `-`: its name part. -/
def namePart (g : List Char) : List Char := g.dropWhile (· == '-')

/-- Sound segments of a name part: none is empty, and a `*` stands alone. -/
def SoundSegments (w : List Char) : Prop := ∀ s ∈ w.splitOn '.', s ≠ [] ∧ (s ≠ ['*'] → '*' ∉ s)

/-- The fault of the segments of a name part that starts at byte `pos`, if any. -/
def segmentFault (w : List Char) (pos : Nat) : Option ParseError :=
  match checkSegments (w.splitOn '.') pos with
  | .error e => some e
  | .ok () => none

/-- The fault of a run of name characters `g` at byte `pos`, followed by the character `next`:
with a nonempty name part, a follower that does not end a name, and then its segments. -/
def nameRunFault (g : List Char) (pos : Nat) (next : Option Char) : Option ParseError :=
  if namePart g = [] then none
  else
    match next with
    | some d =>
      if endsName d then segmentFault (namePart g) (pos + (signs g).length)
      else some ⟨.illegalCharacter d, pos + byteLength g⟩
    | none => segmentFault (namePart g) (pos + (signs g).length)

/-- The tokens of a run of name characters at byte `pos`: a `-` for each sign, then the name
part, if any. -/
def nameRunTokens (g : List Char) (pos : Nat) : List Token :=
  (List.range' pos (signs g).length).map Token.minus ++
    if namePart g = [] then []
    else [.name (pos + (signs g).length) (Pattern.ofText (String.ofList (namePart g)))]

/-- The fault of the run `g` at byte `pos`, followed by the character `next`, if any. -/
def runFault (g : List Char) (pos : Nat) (next : Option Char) : Option ParseError :=
  match g with
  | [] => none
  | c :: _ =>
    if isBlankChar c then none
    else if isNameChar c then nameRunFault g pos next
    else if c = ',' ∨ c = '(' ∨ c = ')' then none
    else some ⟨.illegalCharacter c, pos⟩

/-- The tokens of the run `g`, which starts at byte `pos`. -/
def runTokens (g : List Char) (pos : Nat) : List Token :=
  match g with
  | [] => []
  | c :: _ =>
    if isBlankChar c then [.blank pos (String.ofList g)]
    else if isNameChar c then nameRunTokens g pos
    else if c = ',' then [.comma pos]
    else if c = '(' then [.openParen pos]
    else if c = ')' then [.closeParen pos]
    else []

/-- The first fault of the runs `gs`, from the left; the first run starts at byte `pos`. -/
def firstFault : List (List Char) → Nat → Option ParseError
  | [], _ => none
  | g :: gs, pos =>
    (runFault g pos (gs.head?.bind List.head?)).or (firstFault gs (pos + byteLength g))

/-- The tokens of the runs `gs`, one run after the other. -/
def tokensOfRuns : List (List Char) → Nat → List Token
  | [], _ => []
  | g :: gs, pos => runTokens g pos ++ tokensOfRuns gs (pos + byteLength g)

/-- Reading runs: the first fault, or else their tokens. -/
def readRuns (gs : List (List Char)) (pos : Nat) : Except ParseError (List Token) :=
  match firstFault gs pos with
  | some e => .error e
  | none => .ok (tokensOfRuns gs pos)

theorem readRuns_cons (g : List Char) (gs : List (List Char)) (pos : Nat) :
    readRuns (g :: gs) pos =
      match runFault g pos (gs.head?.bind List.head?) with
      | some e => .error e
      | none => (runTokens g pos ++ ·) <$> readRuns gs (pos + byteLength g) := by
  simp only [readRuns, firstFault, tokensOfRuns]
  cases runFault g pos (gs.head?.bind List.head?) with
  | some e => rfl
  | none => cases firstFault gs (pos + byteLength g) <;> rfl

/-! ## Classes of characters -/

theorem isNameChar_of_isBlankChar {c : Char} (h : isBlankChar c = true) : isNameChar c = false := by
  simp only [isBlankChar, Bool.or_eq_true, decide_eq_true_eq] at h
  rcases h with rfl | rfl <;> rfl

theorem isBlankChar_of_isNameChar {c : Char} (h : isNameChar c = true) : isBlankChar c = false := by
  cases hb : isBlankChar c
  · rfl
  · rw [isNameChar_of_isBlankChar hb] at h
    cases h

/-- A run of characters of one class, before a character outside it, is the first run. -/
theorem runs_class_append {p : Char → Bool}
    (hsame : ∀ a b, p a = true → p b = true → sameRun a b = true)
    (hdiff : ∀ a b, p a = true → p b = false → sameRun a b = false) {g m : List Char}
    (hg : g ≠ []) (hgp : ∀ c ∈ g, p c = true) (hm : ∀ d ∈ m.head?, p d = false) :
    runs (g ++ m) = g :: runs m := by
  have hchain : g.IsChain fun a b => sameRun a b = true :=
    List.Pairwise.isChain (List.pairwise_of_forall_mem_list fun a ha b hb =>
      hsame a b (hgp a ha) (hgp b hb))
  rw [runs, List.splitBy_append, List.splitBy_of_isChain hg hchain, List.singleton_append]
  · rfl
  · intro x hx y hy
    exact hdiff x y (hgp x (List.mem_of_mem_getLast? hx)) (hm y hy)

theorem runs_cons_blank {c : Char} (hc : isBlankChar c = true) (cs : List Char) :
    runs (c :: cs) = (c :: cs.takeWhile isBlankChar) :: runs (cs.dropWhile isBlankChar) := by
  obtain ⟨hsplit, hw, hr⟩ := run_split isBlankChar hc cs
  conv_lhs => rw [hsplit]
  refine runs_class_append (fun a b ha hb => by simp [sameRun, ha, hb])
    (fun a b ha hb => by simp [sameRun, ha, hb, isNameChar_of_isBlankChar ha])
    (List.cons_ne_nil _ _) hw hr

theorem runs_cons_name {c : Char} (hc : isNameChar c = true) (cs : List Char) :
    runs (c :: cs) = (c :: cs.takeWhile isNameChar) :: runs (cs.dropWhile isNameChar) := by
  obtain ⟨hsplit, hw, hr⟩ := run_split isNameChar hc cs
  conv_lhs => rw [hsplit]
  refine runs_class_append (fun a b ha hb => by simp [sameRun, ha, hb])
    (fun a b ha hb => by simp [sameRun, ha, hb, isBlankChar_of_isNameChar ha])
    (List.cons_ne_nil _ _) hw hr

theorem runs_cons_other {c : Char} (hb : isBlankChar c = false) (hn : isNameChar c = false)
    (cs : List Char) : runs (c :: cs) = [c] :: runs cs := by
  rw [runs, ← List.singleton_append, List.splitBy_append, List.splitBy_of_isChain (by simp)
    (List.isChain_singleton c)]
  · rfl
  · intro x hx y _
    rw [List.getLast?_singleton, Option.mem_some_iff] at hx
    subst hx
    simp [sameRun, hb, hn]

/-- The first character of the runs of a text is its first character. -/
theorem head?_bind_runs (m : List Char) : (runs m).head?.bind List.head? = m.head? := by
  cases m with
  | nil => rfl
  | cons d m =>
    by_cases hb : isBlankChar d = true
    · rw [runs_cons_blank hb]
      rfl
    · by_cases hn : isNameChar d = true
      · rw [runs_cons_name hn]
        rfl
      · rw [runs_cons_other (by simpa using hb) (by simpa using hn)]
        rfl

/-! ## One run at a time -/

@[simp] theorem signs_minus_cons (g : List Char) : signs ('-' :: g) = '-' :: signs g := by
  simp [signs]

@[simp] theorem namePart_minus_cons (g : List Char) : namePart ('-' :: g) = namePart g := by
  simp [namePart]

theorem signs_cons_of_ne {c : Char} (h : c ≠ '-') (g : List Char) : signs (c :: g) = [] := by
  simp [signs, h]

theorem namePart_cons_of_ne {c : Char} (h : c ≠ '-') (g : List Char) :
    namePart (c :: g) = c :: g := by
  simp [namePart, h]

/-- A `-` is one byte. -/
theorem add_byteLength_minus_cons (pos : Nat) (g : List Char) :
    pos + byteLength ('-' :: g) = pos + 1 + byteLength g := by
  rw [byteLength_cons, show '-'.utf8Size = 1 from rfl]
  omega

theorem nameRunFault_minus_cons (g : List Char) (pos : Nat) (next : Option Char) :
    nameRunFault ('-' :: g) pos next = nameRunFault g (pos + 1) next := by
  have hsigns : pos + ((signs g).length + 1) = pos + 1 + (signs g).length := by omega
  simp only [nameRunFault, namePart_minus_cons, signs_minus_cons, List.length_cons,
    add_byteLength_minus_cons, hsigns]

theorem nameRunTokens_minus_cons (g : List Char) (pos : Nat) :
    nameRunTokens ('-' :: g) pos = .minus pos :: nameRunTokens g (pos + 1) := by
  have hsigns : pos + ((signs g).length + 1) = pos + 1 + (signs g).length := by omega
  simp only [nameRunTokens, namePart_minus_cons, signs_minus_cons, List.length_cons,
    List.range'_succ, List.map_cons, List.cons_append, hsigns]

/-- A `-` at the start of a token is a `-` token. -/
theorem scanFrom_minus_cons (cs : List Char) (pos : Nat) :
    scanFrom ('-' :: cs) pos = (Token.minus pos :: ·) <$> scanFrom cs (pos + 1) :=
  scanFrom_operator rfl cs

/-- A run of name characters, before a character that is not one, reads as the run's tokens
unless the run is at fault. -/
theorem scanFrom_nameRun {g m : List Char} (hg : ∀ c ∈ g, isNameChar c = true) (hne : g ≠ [])
    (hm : ∀ d ∈ m.head?, isNameChar d = false) (pos : Nat) :
    scanFrom (g ++ m) pos =
      match nameRunFault g pos m.head? with
      | some e => .error e
      | none => (nameRunTokens g pos ++ ·) <$> scanFrom m (pos + byteLength g) := by
  induction g generalizing pos with
  | nil => exact absurd rfl hne
  | cons c g ih =>
    by_cases hc : c = '-'
    · -- a sign, then the rest of the run one byte further on
      subst hc
      rw [List.cons_append, scanFrom_minus_cons, nameRunFault_minus_cons,
        nameRunTokens_minus_cons, add_byteLength_minus_cons]
      cases g with
      | nil =>
        simp only [nameRunFault, nameRunTokens, namePart, signs, List.dropWhile_nil,
          List.takeWhile_nil, List.length_nil, List.range'_zero, List.map_nil, if_true,
          List.append_nil, List.nil_append, byteLength_nil, Nat.add_zero]
        rfl
      | cons c' g =>
        rw [ih (fun d hd => hg d (List.mem_cons_of_mem _ hd)) (List.cons_ne_nil _ _) (pos + 1)]
        cases nameRunFault (c' :: g) (pos + 1) m.head? with
        | some e => rfl
        | none => exact map_append_map [Token.minus pos] _ _
    · -- no sign: the whole run is the name part, read greedily
      have hcn : isNameChar c = true := hg c List.mem_cons_self
      have hgs : ∀ d ∈ g, isNameChar d = true := fun d hd => hg d (List.mem_cons_of_mem c hd)
      have hother : c ≠ ',' ∧ c ≠ '(' ∧ c ≠ ')' := by
        refine ⟨?_, ?_, ?_⟩ <;> rintro rfl <;> exact absurd hcn (by decide)
      rw [List.cons_append, scanFrom, if_neg (by simp [isBlankChar_of_isNameChar hcn]),
        if_neg hother.1, if_neg hc, if_neg hother.2.1, if_neg hother.2.2, if_pos hcn]
      simp only [takeWhile_stop hgs hm, dropWhile_stop hgs hm, nameRunFault, nameRunTokens,
        namePart_cons_of_ne hc, signs_cons_of_ne hc, List.cons_ne_nil, if_false, List.length_nil,
        Nat.add_zero, List.range'_zero, List.map_nil, List.nil_append]
      cases m with
      | nil =>
        cases hseg : checkSegments ((c :: g).splitOn '.') pos with
        | error e => simp [segmentFault, hseg, checkFollower]
        | ok u => cases u; simp [segmentFault, hseg, checkFollower]
      | cons d m =>
        by_cases hd : endsName d = true
        · cases hseg : checkSegments ((c :: g).splitOn '.') pos with
          | error e => simp [segmentFault, hseg, checkFollower, hd]
          | ok u => cases u; simp [segmentFault, hseg, checkFollower, hd]
        · simp [checkFollower, hd]

theorem runFault_blank {c : Char} (hc : isBlankChar c = true) (g : List Char) (pos : Nat)
    (next : Option Char) : runFault (c :: g) pos next = none := by
  simp [runFault, hc]

theorem runFault_name {c : Char} (hc : isNameChar c = true) (g : List Char) (pos : Nat)
    (next : Option Char) : runFault (c :: g) pos next = nameRunFault (c :: g) pos next := by
  simp [runFault, hc, isBlankChar_of_isNameChar hc]

theorem runTokens_name {c : Char} (hc : isNameChar c = true) (g : List Char) (pos : Nat) :
    runTokens (c :: g) pos = nameRunTokens (c :: g) pos := by
  simp [runTokens, hc, isBlankChar_of_isNameChar hc]

/-- A run of blanks is one blank token. -/
theorem scanFrom_blank_cons {c : Char} (hc : isBlankChar c = true) (cs : List Char) (pos : Nat) :
    scanFrom (c :: cs) pos = (runTokens (c :: cs.takeWhile isBlankChar) pos ++ ·) <$>
      scanFrom (cs.dropWhile isBlankChar) (pos + byteLength (c :: cs.takeWhile isBlankChar)) := by
  rw [scanFrom, if_pos hc]
  simp only [runTokens, hc, if_true]
  rfl

/-- A character that is neither a blank nor a name character is a token of its own, or
illegal. -/
theorem scanFrom_other_cons {c : Char} (hb : isBlankChar c = false) (hn : isNameChar c = false)
    (cs : List Char) (pos : Nat) :
    scanFrom (c :: cs) pos =
      match runFault [c] pos cs.head? with
      | some e => .error e
      | none => (runTokens [c] pos ++ ·) <$> scanFrom cs (pos + byteLength [c]) := by
  have hm : c ≠ '-' := by
    rintro rfl
    exact absurd hn (by decide)
  by_cases h1 : c = ','
  · subst h1
    rw [scanFrom]
    rfl
  by_cases h2 : c = '('
  · subst h2
    rw [scanFrom]
    rfl
  by_cases h3 : c = ')'
  · subst h3
    rw [scanFrom]
    rfl
  rw [scanFrom, if_neg (by simp [hb]), if_neg h1, if_neg hm, if_neg h2, if_neg h3,
    if_neg (by simp [hn])]
  simp [runFault, hb, hn, h1, h2, h3]

/-- The lexer reads a text run by run: it stops at the first fault of a run, from the left,
and otherwise returns the tokens of the runs one after the other. -/
theorem scanFrom_eq_readRuns (cs : List Char) (pos : Nat) :
    scanFrom cs pos = readRuns (runs cs) pos := by
  match cs with
  | [] =>
    rw [scanFrom]
    rfl
  | c :: cs =>
    by_cases hb : isBlankChar c = true
    · rw [runs_cons_blank hb, readRuns_cons, head?_bind_runs, runFault_blank hb,
        scanFrom_blank_cons hb, scanFrom_eq_readRuns (cs.dropWhile isBlankChar)]
    · by_cases hn : isNameChar c = true
      · obtain ⟨hsplit, hw, hr⟩ := run_split isNameChar hn cs
        rw [runs_cons_name hn, readRuns_cons, head?_bind_runs, runFault_name hn, runTokens_name hn]
        conv_lhs => rw [hsplit]
        rw [scanFrom_nameRun hw (List.cons_ne_nil _ _) hr,
          scanFrom_eq_readRuns (cs.dropWhile isNameChar)]
      · have hb' : isBlankChar c = false := by simpa using hb
        have hn' : isNameChar c = false := by simpa using hn
        rw [runs_cons_other hb' hn', readRuns_cons, head?_bind_runs, scanFrom_other_cons hb' hn',
          scanFrom_eq_readRuns cs]
termination_by cs.length
decreasing_by
  all_goals first
    | exact Nat.lt_succ_of_le (length_dropWhile_le _ _)
    | exact Nat.lt_succ_self _

/-! ## Which texts the lexer accepts -/

theorem segmentFault_eq_none_iff (w : List Char) (pos : Nat) :
    segmentFault w pos = none ↔ SoundSegments w := by
  rw [SoundSegments, ← @checkSegments_eq_ok (w.splitOn '.') pos, segmentFault]
  cases checkSegments (w.splitOn '.') pos with
  | error e => simp
  | ok u => simp

/-- When what follows may end a name, a run of name characters is at fault exactly when its
name part is nonempty with unsound segments. -/
theorem nameRunFault_eq_none_iff {g : List Char} {pos : Nat} {next : Option Char}
    (hnext : ∀ d ∈ next, endsName d = true) :
    nameRunFault g pos next = none ↔ (namePart g ≠ [] → SoundSegments (namePart g)) := by
  unfold nameRunFault
  by_cases hp : namePart g = []
  · simp [hp]
  · rw [if_neg hp]
    cases next with
    | none => simp [hp, segmentFault_eq_none_iff]
    | some d => simp [hp, hnext d rfl, segmentFault_eq_none_iff]

theorem inAlphabet_of_isBlankChar {c : Char} (h : isBlankChar c = true) : inAlphabet c = true := by
  simp [inAlphabet, endsName, h]

/-- The lexer accepts exactly the texts whose characters all belong to tokens and whose
nonempty name parts have sound segments. -/
theorem firstFault_runs_eq_none_iff (cs : List Char) (pos : Nat) :
    firstFault (runs cs) pos = none ↔ (∀ c ∈ cs, inAlphabet c = true) ∧
      ∀ g ∈ runs cs, (∀ c ∈ g, isNameChar c = true) → namePart g ≠ [] →
        SoundSegments (namePart g) := by
  match cs with
  | [] => simp [runs, firstFault]
  | c :: cs =>
    by_cases hb : isBlankChar c = true
    · -- a run of blanks is never at fault, and holds no name
      obtain ⟨hsplit, hw, -⟩ := run_split isBlankChar hb cs
      have ih := firstFault_runs_eq_none_iff (cs.dropWhile isBlankChar)
        (pos + byteLength (c :: cs.takeWhile isBlankChar))
      have hnot : ¬ ∀ d ∈ c :: cs.takeWhile isBlankChar, isNameChar d = true := fun h =>
        absurd (h c List.mem_cons_self) (by simp [isNameChar_of_isBlankChar hb])
      rw [runs_cons_blank hb, firstFault, runFault_blank hb, Option.none_or, ih, hsplit,
        List.forall_mem_append]
      constructor
      · rintro ⟨halpha, hnames⟩
        exact ⟨⟨fun d hd => inAlphabet_of_isBlankChar (hw d hd), halpha⟩,
          List.forall_mem_cons.mpr ⟨fun h => absurd h hnot, hnames⟩⟩
      · rintro ⟨⟨-, halpha⟩, hnames⟩
        exact ⟨halpha, (List.forall_mem_cons.mp hnames).2⟩
    · by_cases hn : isNameChar c = true
      · -- a run of name characters: what follows it is checked first
        obtain ⟨hsplit, hw, hr⟩ := run_split isNameChar hn cs
        have ih := firstFault_runs_eq_none_iff (cs.dropWhile isNameChar)
          (pos + byteLength (c :: cs.takeWhile isNameChar))
        -- a character after the run that belongs to a token ends a name
        have hends : (∀ d ∈ cs.dropWhile isNameChar, inAlphabet d = true) →
            ∀ d ∈ (cs.dropWhile isNameChar).head?, endsName d = true := by
          intro halpha d hd
          have := halpha d (List.mem_of_mem_head? hd)
          simpa [inAlphabet, hr d hd] using this
        have hwalpha : ∀ d ∈ c :: cs.takeWhile isNameChar, inAlphabet d = true := fun d hd => by
          simp [inAlphabet, hw d hd]
        rw [runs_cons_name hn, firstFault, head?_bind_runs, runFault_name hn,
          Option.or_eq_none_iff, ih, hsplit, List.forall_mem_append]
        constructor
        · rintro ⟨hfault, halpha, hnames⟩
          exact ⟨⟨hwalpha, halpha⟩, List.forall_mem_cons.mpr
            ⟨fun _ => (nameRunFault_eq_none_iff (hends halpha)).mp hfault, hnames⟩⟩
        · rintro ⟨⟨-, halpha⟩, hnames⟩
          obtain ⟨hsound, hnames⟩ := List.forall_mem_cons.mp hnames
          exact ⟨(nameRunFault_eq_none_iff (hends halpha)).mpr (hsound hw), halpha, hnames⟩
      · -- any other character is a run of its own, at fault unless it is `,`, `(` or `)`
        have hb' : isBlankChar c = false := by simpa using hb
        have hn' : isNameChar c = false := by simpa using hn
        have ih := firstFault_runs_eq_none_iff cs (pos + byteLength [c])
        have halphabet : inAlphabet c = true ↔ c = ',' ∨ c = '(' ∨ c = ')' := by
          simp [inAlphabet, endsName, hb', hn', or_assoc]
        have hfault : ∀ next, runFault [c] pos next = none ↔ inAlphabet c = true := by
          intro next
          rw [halphabet]
          by_cases h : c = ',' ∨ c = '(' ∨ c = ')'
          · simp [runFault, hb', hn', h]
          · simp [runFault, hb', hn', h]
        have hnot : ¬ ∀ d ∈ [c], isNameChar d = true := fun h =>
          absurd (h c List.mem_cons_self) (by simp [hn'])
        rw [runs_cons_other hb' hn', firstFault, Option.or_eq_none_iff, hfault, ih,
          List.forall_mem_cons, List.forall_mem_cons]
        constructor
        · rintro ⟨hc, halpha, hnames⟩
          exact ⟨⟨hc, halpha⟩, fun h => absurd h hnot, hnames⟩
        · rintro ⟨⟨hc, halpha⟩, -, hnames⟩
          exact ⟨hc, halpha, hnames⟩
termination_by cs.length
decreasing_by
  all_goals first
    | exact Nat.lt_succ_of_le (length_dropWhile_le _ _)
    | exact Nat.lt_succ_self _

/-! ## What the lexer returns -/

/-- A name right before a name or a `-`. -/
def Glued : Token → Token → Prop
  | .name _ _, .name _ _ => True
  | .name _ _, .minus _ => True
  | _, _ => False

theorem Glued.exists_name {a u : Token} (h : Glued a u) : ∃ s p, a = .name s p := by
  cases a <;> cases u <;> first | exact ⟨_, _, rfl⟩ | exact h.elim

/-- A name or a `-` starts with a name character, so it cannot stand where a name may only be
followed by a character that ends it. -/
theorem not_glued_of_follows {a u : Token} (hv : u.Valid) (us : List Token)
    (hf : Follows (spell (u :: us))) : ¬ Glued a u := by
  have hnot := hf.not_isNameChar
  rw [head?_spell_cons hv.lexeme_ne_nil us] at hnot
  intro hg
  obtain ⟨s, p, rfl⟩ := hg.exists_name
  cases u with
  | name s' p' =>
    have hp := hv.lexeme_name
    obtain ⟨d, ds, hds⟩ := List.exists_cons_of_ne_nil hp.ne_nil
    have hd : isNameChar d = true := hp.isNameChar d (by simp [hds])
    rw [hnot d (by simp [hds])] at hd
    cases hd
  | minus s' => exact absurd (hnot '-' (by simp [lexeme])) (by decide)
  | _ => exact hg.elim

theorem follows_of_checkFollower {rest : List Char} {stop : Nat}
    (h : checkFollower rest stop = .ok ()) : Follows rest := by
  cases rest with
  | nil => intro d hd; cases hd
  | cons d r =>
    rintro d' ⟨⟩
    simp only [checkFollower] at h
    split at h
    · assumption
    · cases h

/-- The lexer never puts a name right before a name or a `-`: it reads a name greedily, and
checks that what follows it ends a name. -/
theorem scanFrom_not_glued {cs : List Char} {pos : Nat} {ts : List Token}
    (h : scanFrom cs pos = .ok ts) : ts.IsChain fun a b => ¬ Glued a b := by
  fun_induction scanFrom cs pos generalizing ts with
  | case1 =>
    cases h
    exact List.IsChain.nil
  | case2 | case3 | case4 | case5 | case6 =>
    rename_i ih
    obtain ⟨us, hus, rfl⟩ := except_map_eq_ok.mp h
    refine List.isChain_cons.mpr ⟨fun u _ hg => ?_, ih hus⟩
    obtain ⟨s, p, hs⟩ := hg.exists_name
    cases hs
  | case9 c cs pos _ _ _ _ _ _ word rest _ stop _ hfollow =>
    rename_i ih
    obtain ⟨us, hus, rfl⟩ := except_map_eq_ok.mp h
    refine List.isChain_cons.mpr ⟨fun u hu => ?_, ih hus⟩
    -- the tokens after the name spell what follows it
    obtain ⟨hspell, hvalid⟩ := scanFrom_sound hus
    have hus' := List.eq_cons_of_mem_head? hu
    rw [hus'] at hspell hvalid
    exact not_glued_of_follows (hvalid u List.mem_cons_self) us.tail
      (hspell ▸ follows_of_checkFollower hfollow)
  | case7 | case8 | case10 => cases h

theorem byteLength_pos {cs : List Char} (h : cs ≠ []) : 0 < byteLength cs := by
  obtain ⟨c, cs, rfl⟩ := List.exists_cons_of_ne_nil h
  rw [byteLength_cons]
  exact Nat.add_pos_left c.utf8Size_pos _

/-- Placed tokens start at or after where they are placed. -/
theorem Placed.le_start {ts : List Token} {pos : Nat} (h : Placed ts pos) :
    ∀ t ∈ ts, pos ≤ t.start := by
  induction ts generalizing pos with
  | nil => intro t ht; cases ht
  | cons u ts ih =>
    rintro t (_ | ⟨_, ht⟩)
    · exact h.1.ge
    · exact Nat.le_trans (Nat.le_add_right _ _) (ih h.2 t ht)

/-- Placed tokens with characters start at strictly increasing bytes. -/
theorem Placed.pairwise_lt {ts : List Token} {pos : Nat} (h : Placed ts pos)
    (hv : ∀ t ∈ ts, t.Valid) : ts.Pairwise fun a b => a.start < b.start := by
  induction ts generalizing pos with
  | nil => exact List.Pairwise.nil
  | cons u ts ih =>
    have hpos := byteLength_pos (hv u List.mem_cons_self).lexeme_ne_nil
    refine List.pairwise_cons.mpr ⟨fun t ht => ?_, ih h.2 fun t ht => hv t (List.mem_cons_of_mem u ht)⟩
    calc u.start = pos := h.1
      _ < pos + byteLength u.lexeme.toList := Nat.lt_add_of_pos_right hpos
      _ ≤ t.start := h.2.le_start t ht

/-- The lexer reads a text run by run.  It fails exactly with the first fault of the runs,
so it succeeds exactly when every character belongs to a token and every nonempty name part
has sound segments; and then its tokens are those of the runs, one after the other: they
spell the text, each at the byte where its characters start, so at strictly increasing
bytes, and no name stands right before a name or a `-`. -/
theorem scan_reads_runs (t : String) :
    (∀ e, scan t = .error e ↔ firstFault (runs t.toList) 0 = some e) ∧
    ((∃ ts, scan t = .ok ts) ↔ (∀ c ∈ t.toList, inAlphabet c = true) ∧
      ∀ g ∈ runs t.toList, (∀ c ∈ g, isNameChar c = true) → namePart g ≠ [] →
        SoundSegments (namePart g)) ∧
    ∀ ts, scan t = .ok ts → ts = tokensOfRuns (runs t.toList) 0 ∧ spell ts = t.toList ∧
      Placed ts 0 ∧ ts.Pairwise (fun a b => a.start < b.start) ∧
      ts.IsChain fun a b => ¬ Glued a b := by
  have hread : scan t = readRuns (runs t.toList) 0 := scanFrom_eq_readRuns _ _
  refine ⟨fun e => ?_, ?_, fun ts hts => ?_⟩
  · rw [hread]
    cases hf : firstFault (runs t.toList) 0 <;> simp [readRuns, hf]
  · rw [← firstFault_runs_eq_none_iff, hread]
    cases hf : firstFault (runs t.toList) 0 <;> simp [readRuns, hf]
  · obtain ⟨hspell, hvalid⟩ := scanFrom_sound hts
    have hplaced := scanFrom_placed hts
    refine ⟨?_, hspell, hplaced, hplaced.pairwise_lt hvalid, scanFrom_not_glued hts⟩
    rw [hread] at hts
    cases hf : firstFault (runs t.toList) 0 <;> simp_all [readRuns]

end Token

end ScopeSelectors
