import ScopeSelectors.Proofs.Lexing
import ScopeSelectors.Selector.Basic
/-!
# The language of selector texts

`Node.parse` accepts exactly the texts of the grammar of `Grammar.Derives`, with blanks
allowed around the whole selector, and reads each as the tree of its derivation, as long
as that tree is at most `depthLimit` high; a text of the grammar whose tree is higher
stops with `nestingTooDeep` (`parse_reads_grammar`).  The two halves compose the lexer's
and the reader's:

* a text the reader accepts is spelled by valid tokens of a token phrase
  (`scanFrom_sound`, `Node.ofTokens_sound`), hence derived (`TokenDerives.spell`);
* a derived text scans to the tokens of a token phrase (`Derives.scans`), which the
  reader takes back to the tree, or stops too deep (`Node.ofTokens_complete`).

Since the canonical spelling of a derived tree is derived again (`Derives.render`), the
canonical text of every selector reads back as the same tree (`render_reads_back`).
-/

namespace ScopeSelectors

open Grammar Token

namespace Node

variable {t : String} {n : Node}

theorem parse_eq_ofTokens {tokens : List Token} (h : scan t = .ok tokens) :
    Node.parse t = ofTokens t.utf8ByteSize tokens := by
  simp [Node.parse, h, bind, Except.bind]

/-- A text the reader accepts is derived, with its tree within the height limit. -/
theorem parse_sound (h : Node.parse t = .ok n) :
    DerivesSelector t.toList n ∧ n.height ≤ depthLimit := by
  rw [Node.parse, except_bind_eq_ok] at h
  obtain ⟨tokens, hscan, hread⟩ := h
  obtain ⟨⟨bs, ts, bs', rfl, hb, hd, hb'⟩, hle⟩ := ofTokens_sound hread
  obtain ⟨hspell, hvalid⟩ := scanFrom_sound hscan
  simp only [List.mem_append, or_imp, forall_and] at hvalid
  refine ⟨⟨spell bs, spell ts, spell bs', by rw [← hspell]; simp, isBlanks_spell hb hvalid.1.1,
    hd.spell hvalid.1.2, isBlanks_spell hb' hvalid.2⟩, hle⟩

/-- A derived text scans to the tokens of its tree's phrase. -/
theorem scan_of_derives (h : DerivesSelector t.toList n) : ∃ tokens, TokensOf tokens n ∧
    scan t = .ok tokens := by
  obtain ⟨w₁, body, w₂, ht, hw₁, hd, hw₂⟩ := h
  -- leading blanks, the phrase and trailing blanks, each before the next
  obtain ⟨bs, hb, h₁⟩ := scans_blanks 0 hw₁ (hd.startsSolid w₂)
  obtain ⟨ts, hts, h₂⟩ := hd.scans (0 + byteLength w₁) (follows_blanks hw₂)
  have hend : StartsSolid [] := fun _ hd => by cases hd
  obtain ⟨bs', hb', h₃⟩ := scans_blanks (0 + byteLength w₁ + byteLength body) hw₂ hend
  refine ⟨bs ++ ts ++ bs', ⟨bs, ts, bs', rfl, hb, hts, hb'⟩, ?_⟩
  have h := h₁.append (h₂.append h₃ (by simp)) (by simp)
  unfold Scans at h
  rw [scan, ht]
  simpa [scanFrom, Functor.map, Except.map] using h

/-- A derived text reads as its tree when that is within the height limit, and stops too
deep otherwise. -/
theorem parse_complete (h : DerivesSelector t.toList n) :
    (n.height ≤ depthLimit → Node.parse t = .ok n) ∧
      (depthLimit < n.height → IsDeep (Node.parse t)) := by
  obtain ⟨tokens, htok, hscan⟩ := scan_of_derives h
  rw [parse_eq_ofTokens hscan]
  exact ofTokens_complete htok

/-- The reader accepts exactly the texts of the selector grammar whose trees are within the
height limit, and a text of the grammar whose tree is higher stops with `nestingTooDeep`. -/
theorem parse_reads_grammar (t : String) (n : Node) :
    (Node.parse t = .ok n ↔ DerivesSelector t.toList n ∧ n.height ≤ depthLimit) ∧
      (DerivesSelector t.toList n → depthLimit < n.height →
        ∃ offset, Node.parse t = .error ⟨.nestingTooDeep depthLimit, offset⟩) :=
  ⟨⟨parse_sound, fun ⟨hd, hle⟩ => (parse_complete hd).1 hle⟩,
    fun hd hlt => (parse_complete hd).2 hlt⟩

/-! ## Canonical text -/

/-- The canonical text of a tree read from a text reads back as the same tree. -/
theorem parse_render (h : Node.parse t = .ok n) : Node.parse n.render = .ok n := by
  obtain ⟨⟨-, body, -, -, -, hd, -⟩, hle⟩ := parse_sound h
  have hnil : IsBlanks [] := fun _ hc => by cases hc
  have hcanon : DerivesSelector n.render.toList n :=
    ⟨[], n.render.toList, [], by simp, hnil, hd.render, hnil⟩
  exact (parse_complete hcanon).1 hle

end Node

theorem Selector.parse_of_node {t : String} {n : Node} (h : Node.parse t = .ok n) :
    ∃ s, Selector.parse t = .ok s ∧ s.root = n ∧ s.text = t := by
  unfold Selector.parse
  split
  · next root h' =>
    rw [h] at h'
    cases h'
    exact ⟨_, rfl, rfl, rfl⟩
  · next e h' =>
    rw [h] at h'
    cases h'

/-- Canonical text round-trips: the canonical text of a tree read from any text reads as
that same tree, so a selector's canonical text parses to a selector with the same tree,
whose canonical text is the same again. -/
theorem canonical_round_trip :
    (∀ t n, Node.parse t = .ok n → Node.parse n.render = .ok n) ∧
      ∀ s : Selector, ∃ s', Selector.parse s.canonical = .ok s' ∧ s'.root = s.root ∧
        s'.canonical = s.canonical := by
  refine ⟨fun _ _ h => Node.parse_render h, fun s => ?_⟩
  obtain ⟨s', hs', hroot, -⟩ := Selector.parse_of_node (Node.parse_render s.parse_text)
  exact ⟨s', hs', hroot, by rw [Selector.canonical, Selector.canonical, hroot]⟩

end ScopeSelectors
