import ScopeSelectors.Selector.Parse
/-!
# Selectors

A `Selector` is a selector text together with the tree it reads as.  The tree
is a function of the text, and the structure carries the proof
(`parse_text`), so two selectors with the same text are the same selector
(`ext`): selectors are compared and hashed by their text alone, and `"a b"`
and `"a  b"` are different selectors with equal trees.

A selector shows as its text; its *canonical* form is the text of its tree.
-/

namespace ScopeSelectors

/-- A selector text that reads as the tree `root`. -/
structure Selector where
  /-- The text as given. -/
  text : String
  /-- The tree it reads as. -/
  root : Node
  /-- The text reads as `root`. -/
  parse_text : Node.parse text = .ok root

namespace Selector

/-- The selector of a text, or the first fault in the text. -/
def parse (s : String) : Except ParseError Selector :=
  match h : Node.parse s with
  | .ok root => .ok ⟨s, root, h⟩
  | .error e => .error e

/-- The canonical text: the text of the tree. -/
def canonical (x : Selector) : String := x.root.render

theorem ext {a b : Selector} (h : a.text = b.text) : a = b := by
  cases a with
  | mk ta ra pa =>
    cases b with
    | mk tb rb pb =>
      simp only at h
      subst h
      have : ra = rb := by
        rw [pa] at pb
        exact Except.ok.inj pb
      subst this
      rfl

instance : DecidableEq Selector := fun a b =>
  if h : a.text = b.text then isTrue (ext h)
  else isFalse fun e => h (congrArg Selector.text e)

instance : Hashable Selector := ⟨fun x => hash x.text⟩

end Selector

end ScopeSelectors
