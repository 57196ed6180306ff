import Mathlib
import ScopeSelectors.Selector.Parse
/-!
# The grammar of selector texts

The selector texts that read as a tree are the sentences of the grammar

* `selector = [ws] anyOf [ws]`
* `anyOf = allOf *([ws] "," [ws] allOf)`
* `allOf = negation *(ws negation)`
* `negation = ["-"] primary`
* `primary = pattern / "(" [ws] anyOf [ws] ")"`
* `pattern = segment *("." segment)`, whose first character is not `-`
* `segment = 1*(ASCII letter or digit / "-" / "_") / "*"`
* `ws = 1*(" " / TAB)`

`Derives p cs n` says that the characters `cs` are a phrase `p` of the grammar whose
tree is `n`.  Both chains are left recursive, so a chain grows by one node at its
right end and its tree leans to the left; every pair of parentheses is a group node.

Two facts about phrases are used throughout:

* every phrase starts with `(`, `-` or a pattern character (`Derives.exists_cons`), so
  it never starts with a blank, a comma or `)`;
* respelling the tree of a phrase with `Node.render` gives a phrase with the same
  tree (`Derives.render`): one space between the operands of a chain, `", "` for a
  comma and nothing inside the parentheses.
-/

namespace ScopeSelectors

/-- The phrases of the selector grammar, from the loosest binding to the tightest. -/
inductive Phrase where
  /-- `allOf` phrases separated by commas. -/
  | anyOf
  /-- `negation` phrases separated by blanks. -/
  | allOf
  /-- A `primary` with an optional `-` in front. -/
  | negation
  /-- A scope pattern, or an `anyOf` between parentheses. -/
  | primary
  deriving DecidableEq, Repr

namespace Grammar

/-! ## Characters -/

/-- Zero or more spaces and tabs. -/
def IsBlanks (w : List Char) : Prop := ∀ c ∈ w, Token.isBlankChar c = true

theorem isBlanks_nil : IsBlanks [] := fun _ hc => by cases hc

/-- The characters of a literal segment: ASCII letters and digits, `-` and `_`. -/
def isSegmentChar (c : Char) : Bool := c.isAlphanum || c = '-' || c = '_'

/-- A segment of a scope pattern: `*`, or one or more segment characters. -/
def IsSegment (s : List Char) : Prop :=
  s = ['*'] ∨ (s ≠ [] ∧ ∀ c ∈ s, isSegmentChar c = true)

/-- A scope pattern as written: segments separated by dots, the first character not `-`. -/
def IsPatternText (cs : List Char) : Prop :=
  (∀ s ∈ cs.splitOn '.', IsSegment s) ∧ cs.head? ≠ some '-'

/-- The characters that may start a phrase. -/
def startsPhrase (c : Char) : Bool := c = '(' || c = '-' || Token.isNameChar c

/-! ## Phrases -/

/-- `Derives p cs n`: the characters `cs` are a phrase `p` whose tree is `n`. -/
inductive Derives : Phrase → List Char → Node → Prop where
  /-- A scope pattern is an atom. -/
  | atom {cs : List Char} : IsPatternText cs →
      Derives .primary cs (.atom (Pattern.ofText (String.ofList cs)))
  /-- Parentheses around an `anyOf` make a group. -/
  | group {w₁ cs w₂ : List Char} {x : Node} : IsBlanks w₁ → Derives .anyOf cs x → IsBlanks w₂ →
      Derives .primary ('(' :: w₁ ++ cs ++ w₂ ++ [')']) (.group x)
  /-- A primary without `-` is a negation phrase with the same tree. -/
  | primary {cs : List Char} {x : Node} : Derives .primary cs x → Derives .negation cs x
  /-- `-` before a primary negates it. -/
  | not {cs : List Char} {x : Node} : Derives .primary cs x → Derives .negation ('-' :: cs) (.not x)
  /-- A single negation phrase is a chain of one. -/
  | negation {cs : List Char} {x : Node} : Derives .negation cs x → Derives .allOf cs x
  /-- A blank run and a negation phrase extend a chain to the right. -/
  | and {cs w ds : List Char} {l r : Node} : Derives .allOf cs l → w ≠ [] → IsBlanks w →
      Derives .negation ds r → Derives .allOf (cs ++ w ++ ds) (.and l r)
  /-- A single chain is an alternative of one. -/
  | allOf {cs : List Char} {x : Node} : Derives .allOf cs x → Derives .anyOf cs x
  /-- A comma, with blanks allowed around it, and a chain extend the alternatives. -/
  | or {cs w₁ w₂ ds : List Char} {l r : Node} : Derives .anyOf cs l → IsBlanks w₁ →
      IsBlanks w₂ → Derives .allOf ds r → Derives .anyOf (cs ++ w₁ ++ ',' :: w₂ ++ ds) (.or l r)

/-- A whole selector text: an `anyOf` phrase with blanks allowed around it. -/
def DerivesSelector (cs : List Char) (n : Node) : Prop :=
  ∃ w₁ body w₂, cs = w₁ ++ body ++ w₂ ∧ IsBlanks w₁ ∧ Derives .anyOf body n ∧ IsBlanks w₂

/-! ## Pieces between dots -/

/-- A piece of `xs.splitOn a` holds only elements of `xs` other than `a`. -/
theorem mem_of_mem_splitOn {a c : Char} :
    ∀ {xs s : List Char}, s ∈ xs.splitOn a → c ∈ s → c ∈ xs ∧ c ≠ a
  | [], s, hs, hc => by
    simp only [List.splitOn_nil, List.mem_singleton] at hs
    subst hs
    simp at hc
  | x :: xs, s, hs, hc => by
    rw [List.splitOn_eq_splitOnP, List.splitOnP_cons_eq_if_modifyHead,
      ← List.splitOn_eq_splitOnP] at hs
    split at hs
    · -- `x` is a separator: the first piece is empty
      rcases List.mem_cons.mp hs with rfl | hs
      · simp at hc
      · exact (mem_of_mem_splitOn hs hc).imp_left (List.mem_cons_of_mem x)
    · next hx =>
      obtain ⟨t, ts, ht⟩ := List.exists_cons_of_ne_nil (List.splitOn_ne_nil a xs)
      rw [ht, List.modifyHead_cons] at hs
      rcases List.mem_cons.mp hs with rfl | hs
      · rcases List.mem_cons.mp hc with rfl | hc
        · exact ⟨List.mem_cons_self, by simpa using hx⟩
        · have := mem_of_mem_splitOn (ht ▸ List.mem_cons_self) hc
          exact this.imp_left (List.mem_cons_of_mem x)
      · have := mem_of_mem_splitOn (ht ▸ List.mem_cons_of_mem t hs) hc
        exact this.imp_left (List.mem_cons_of_mem x)

/-- Every element of `xs` other than `a` lies in a piece of `xs.splitOn a`. -/
theorem exists_mem_splitOn {a c : Char} :
    ∀ {xs : List Char}, c ∈ xs → c ≠ a → ∃ s ∈ xs.splitOn a, c ∈ s
  | x :: xs, hc, hca => by
    rw [List.splitOn_eq_splitOnP, List.splitOnP_cons_eq_if_modifyHead,
      ← List.splitOn_eq_splitOnP]
    obtain ⟨t, ts, ht⟩ := List.exists_cons_of_ne_nil (List.splitOn_ne_nil a xs)
    split
    · next hx =>
      have hxc : c ≠ x := fun h => hca (h.trans (by simpa using hx))
      obtain ⟨s, hs, hcs⟩ := exists_mem_splitOn ((List.mem_cons.mp hc).resolve_left hxc) hca
      exact ⟨s, List.mem_cons_of_mem _ hs, hcs⟩
    · rw [ht, List.modifyHead_cons]
      rcases List.mem_cons.mp hc with rfl | hc
      · exact ⟨c :: t, List.mem_cons_self, List.mem_cons_self⟩
      · obtain ⟨s, hs, hcs⟩ := exists_mem_splitOn hc hca
        rw [ht] at hs
        rcases List.mem_cons.mp hs with rfl | hs
        · exact ⟨x :: s, List.mem_cons_self, List.mem_cons_of_mem x hcs⟩
        · exact ⟨s, List.mem_cons_of_mem _ hs, hcs⟩

/-! ## Scope patterns -/

theorem IsSegment.isNameChar {s : List Char} (h : IsSegment s) :
    ∀ c ∈ s, Token.isNameChar c = true := by
  intro c hc
  rcases h with rfl | ⟨-, h⟩
  · simp at hc
    simp [hc, Token.isNameChar]
  · have := h c hc
    simp only [isSegmentChar, Bool.or_eq_true, decide_eq_true_eq] at this
    rcases this with (h | h) | h <;> simp [Token.isNameChar, h]

/-- A scope pattern is made of name characters. -/
theorem IsPatternText.isNameChar {cs : List Char} (h : IsPatternText cs) :
    ∀ c ∈ cs, Token.isNameChar c = true := by
  intro c hc
  by_cases hdot : c = '.'
  · simp [hdot, Token.isNameChar]
  · obtain ⟨s, hs, hcs⟩ := exists_mem_splitOn hc hdot
    exact (h.1 s hs).isNameChar c hcs

theorem IsPatternText.ne_nil {cs : List Char} (h : IsPatternText cs) : cs ≠ [] := by
  rintro rfl
  have := h.1 [] (by simp)
  simp [IsSegment] at this

/-- The text of the pattern read from `s` is `s` itself. -/
@[simp] theorem Pattern.text_ofText (s : String) : (Pattern.ofText s).text = s := by
  have hseg : ∀ t, (Segment.ofText t).text = t := by
    intro t
    unfold Segment.ofText
    split <;> simp_all [Segment.text]
  rw [← String.toList_inj]
  simp [Pattern.text, Pattern.ofText, hseg, Function.comp_def, List.intercalate_splitOn]

/-! ## The first character of a phrase -/

/-- Every phrase starts with `(`, `-` or a name character. -/
theorem Derives.exists_cons {p : Phrase} {cs : List Char} {n : Node} (h : Derives p cs n) :
    ∃ c cs', cs = c :: cs' ∧ startsPhrase c = true := by
  induction h with
  | @atom cs hp =>
    obtain ⟨c, cs', rfl⟩ := List.exists_cons_of_ne_nil hp.ne_nil
    exact ⟨c, cs', rfl, by simp [startsPhrase, hp.isNameChar c List.mem_cons_self]⟩
  | group => exact ⟨_, _, rfl, by simp [startsPhrase]⟩
  | primary _ ih => exact ih
  | not => exact ⟨_, _, rfl, by simp [startsPhrase]⟩
  | negation _ ih => exact ih
  | and _ _ _ _ ih _ =>
    obtain ⟨c, cs', rfl, hc⟩ := ih
    exact ⟨c, _, rfl, hc⟩
  | allOf _ ih => exact ih
  | or _ _ _ _ ih _ =>
    obtain ⟨c, cs', rfl, hc⟩ := ih
    exact ⟨c, _, rfl, hc⟩

/-- A character that starts a phrase is no blank. -/
theorem isBlankChar_of_startsPhrase {c : Char} (h : startsPhrase c = true) :
    Token.isBlankChar c = false := by
  simp only [Token.isBlankChar, Bool.or_eq_false_iff, decide_eq_false_iff_not]
  constructor <;> rintro rfl <;> exact absurd h (by decide)

/-! ## Canonical spelling -/

/-- The canonical text of a phrase's tree is a phrase with the same tree. -/
theorem Derives.render {p : Phrase} {cs : List Char} {n : Node} (h : Derives p cs n) :
    Derives p n.render.toList n := by
  induction h with
  | @atom cs hp => simpa [Node.render] using Derives.atom hp
  | group _ _ _ ih =>
    simpa [Node.render] using @Derives.group [] _ [] _ isBlanks_nil ih isBlanks_nil
  | primary _ ih => exact .primary ih
  | not _ ih => simpa [Node.render] using Derives.not ih
  | and _ _ _ _ ihl ihr =>
    have hspace : IsBlanks [' '] := by simp [IsBlanks, Token.isBlankChar]
    simpa [Node.render] using @Derives.and _ [' '] _ _ _ ihl (by simp) hspace ihr
  | allOf _ ih => exact .allOf ih
  | or _ _ _ _ ihl ihr =>
    have hspace : IsBlanks [' '] := by simp [IsBlanks, Token.isBlankChar]
    simpa [Node.render] using @Derives.or _ [] [' '] _ _ _ ihl isBlanks_nil hspace ihr
  | negation _ ih => exact .negation ih

end Grammar

end ScopeSelectors
