import Mathlib
import ScopeSelectors.Scope.Path
/-!
# Paths written as text

A path is written as its names joined by single spaces (`ScopePath.render`), and read by
cutting a text at every run of white space (`ScopePath.ofText`).

Reading rests on one equation: a white-space character cuts a text into what comes before
it and what comes after it, and the words of the text are the words of the one followed by
the words of the other (`Text.wordsFrom_append_cons`).  Hence

* every word read from a text is nonempty and free of white space
  (`Text.isWord_of_mem_wordsFrom`);
* such words, joined by single spaces, cut back into themselves (`Text.words_join`).

So a path whose names are such words is read back from its text (`ScopePath.ofText_render`),
every path read from a text is such a path (`ScopePath.isWord_of_mem_ofText`), and writing
it and reading it again gives it back (`ScopePath.ofText_render_round_trip`).  A name that is
empty or holds white space, which a path built from names directly may have, is not read
back.
-/

namespace ScopeSelectors

namespace Text

/-- A word: nonempty and without white space. -/
def IsWord (w : List Char) : Prop := w ≠ [] ∧ ∀ c ∈ w, isWhiteSpace c = false

/-- Characters other than white space join the word being read. -/
theorem wordsFrom_append_solid {w : List Char} (hw : ∀ c ∈ w, isWhiteSpace c = false)
    (rest run : List Char) : wordsFrom (w ++ rest) run = wordsFrom rest (w.reverse ++ run) := by
  induction w generalizing run with
  | nil => rfl
  | cons c w ih =>
    have hc : isWhiteSpace c = false := hw c List.mem_cons_self
    rw [List.cons_append, wordsFrom, if_neg (by simp [hc]),
      ih (fun d hd => hw d (List.mem_cons_of_mem c hd))]
    simp

/-- A white-space character ends the word being read: the words of the text are the words
before it followed by the words after it. -/
theorem wordsFrom_append_cons {c : Char} (hc : isWhiteSpace c = true) (x y run : List Char) :
    wordsFrom (x ++ c :: y) run = wordsFrom x run ++ wordsFrom y [] := by
  induction x generalizing run with
  | nil =>
    simp only [List.nil_append, wordsFrom, hc, if_true]
    split <;> rfl
  | cons d x ih =>
    rw [List.cons_append, wordsFrom, wordsFrom]
    by_cases hd : isWhiteSpace d = true
    · rw [if_pos hd, if_pos hd]
      split
      · exact ih []
      · rw [ih [], List.cons_append]
    · rw [if_neg hd, if_neg hd]
      exact ih (d :: run)

/-- A word read alone is one word. -/
theorem wordsFrom_word {w : List Char} (hw : IsWord w) : wordsFrom w [] = [w] := by
  have h := wordsFrom_append_solid hw.2 [] []
  rw [List.append_nil, List.append_nil] at h
  rw [h, wordsFrom]
  simp [hw.1]

/-- Words joined by single spaces cut back into themselves. -/
theorem words_join {ws : List (List Char)} (hws : ∀ w ∈ ws, IsWord w) :
    wordsFrom ([' '].intercalate ws) [] = ws := by
  induction ws with
  | nil => rfl
  | cons w ws ih =>
    have hw : IsWord w := hws w List.mem_cons_self
    have hrest := ih fun v hv => hws v (List.mem_cons_of_mem w hv)
    cases ws with
    | nil => simpa using wordsFrom_word hw
    | cons v vs =>
      rw [List.intercalate_cons_cons, List.append_assoc, List.singleton_append,
        wordsFrom_append_cons (by decide), wordsFrom_word hw, hrest]
      rfl

/-- What is read from a text, with a word free of white space begun, are words. -/
theorem isWord_of_mem_wordsFrom {cs run : List Char} (hrun : ∀ c ∈ run, isWhiteSpace c = false)
    {w : List Char} (hw : w ∈ wordsFrom cs run) : IsWord w := by
  induction cs generalizing run with
  | nil =>
    rw [wordsFrom] at hw
    split at hw
    · cases hw
    · next hne =>
      rw [List.mem_singleton] at hw
      subst hw
      exact ⟨by simpa using hne, by simpa using hrun⟩
  | cons c cs ih =>
    rw [wordsFrom] at hw
    split at hw
    · split at hw
      · exact ih (by simp) hw
      · next hne =>
        rcases List.mem_cons.mp hw with rfl | hw
        · exact ⟨by simpa using hne, by simpa using hrun⟩
        · exact ih (by simp) hw
    · next hc => exact ih (List.forall_mem_cons.mpr ⟨by simpa using hc, hrun⟩) hw

end Text

/-- A name that a text reads back alone: nonempty and without white space. -/
def ScopeName.IsWord (n : ScopeName) : Prop :=
  n.text ≠ "" ∧ ∀ c ∈ n.text.toList, Text.isWhiteSpace c = false

theorem ScopeName.isWord_iff (n : ScopeName) : n.IsWord ↔ Text.IsWord n.text.toList := by
  simp [ScopeName.IsWord, Text.IsWord]

namespace ScopePath

/-- Every name read from a text is nonempty and free of white space. -/
theorem isWord_of_mem_ofText (t : String) : ∀ n ∈ (ofText t).names, n.IsWord := by
  intro n hn
  simp only [ofText, ofNames, Text.words, List.map_map, List.mem_map] at hn
  obtain ⟨w, hw, rfl⟩ := hn
  rw [ScopeName.isWord_iff]
  simpa using Text.isWord_of_mem_wordsFrom (by simp) hw

/-- A path of nonempty names without white space is read back from its text. -/
theorem ofText_render {p : ScopePath} (hp : ∀ n ∈ p.names, n.IsWord) : ofText p.render = p := by
  obtain ⟨names⟩ := p
  have hws : ∀ w ∈ names.map fun n => n.text.toList, Text.IsWord w := by
    simp only [List.mem_map]
    rintro w ⟨n, hn, rfl⟩
    exact (ScopeName.isWord_iff n).mp (hp n hn)
  simp only [ofText, render, ofNames, Text.words, String.toList_intercalate, List.map_map]
  rw [show String.toList ∘ ScopeName.text = fun n => n.text.toList from rfl,
    show " ".toList = [' '] from rfl, Text.words_join hws]
  simp [Function.comp_def]

example : ofText (ofNames ["a.b", "c"]).render = ofNames ["a.b", "c"] := by decide

/-- Reading a path from a text keeps only nonempty names without white space, and a path of
such names is read back from its text; so writing a path read from a text and reading it
again gives the same path. -/
theorem ofText_render_round_trip :
    (∀ t : String, (∀ n ∈ (ofText t).names, n.IsWord) ∧ ofText (ofText t).render = ofText t) ∧
      ∀ p : ScopePath, (∀ n ∈ p.names, n.IsWord) → ofText p.render = p :=
  ⟨fun t => ⟨isWord_of_mem_ofText t, ofText_render (isWord_of_mem_ofText t)⟩,
    fun _ hp => ofText_render hp⟩

end ScopePath

end ScopeSelectors
