import ScopeSelectors.Proofs.Language
/-!
# Patterns match leading dotted pieces of a name

A pattern matches a scope name when its segments accept the name's leading segments one
for one (`Pattern.matchesName`).  Read on the name's text this is a prefix test: a pattern of
segments `s₁ … s_k` matches exactly the names `q₁.q₂.….q_k`, alone or followed by `.` and
anything, where no `qᵢ` holds a dot and each is what `sᵢ` reads (`Segment.Reads`): the
literal's own text, or any nonempty piece for the wildcard.

* Accepting leading segments one for one is accepting a prefix of the segments
  (`matchesSegments_iff`).
* Dot-free pieces joined by dots, and then a dot and anything, split into those pieces and
  the pieces of what follows (`splitOn_intercalate_append`); every text is its pieces joined
  by dots.  So a prefix of the pieces is a prefix of the text that ends at a dot or at the
  end (`matchesSegments_pieces_iff`).
* The empty name has no segments at all, so it matches no pattern that has one.  The
  patterns the reader builds have at least one segment and none that reads the empty piece
  (`Pattern.Readable`, `Node.parse_patterns_readable`), so for them the prefix test holds of
  every name (`Pattern.Readable.matchesName_iff`), and without wildcards it compares the
  name with the pattern's own text (`Pattern.matchesName_iff_dotted_prefix`).
-/

namespace ScopeSelectors

open Grammar

/-- What a segment reads as one dot-free piece of a name: a literal its own text, the
wildcard any nonempty piece. -/
def Segment.Reads : Segment → String → Prop
  | .literal t, q => q = t
  | .wildcard, q => q ≠ ""

theorem Segment.accepts_iff (s : Segment) (q : String) : s.accepts q = true ↔ s.Reads q := by
  cases s with
  | literal t =>
    simp only [accepts, Reads, beq_iff_eq]
    exact eq_comm
  | wildcard => simp [accepts, Reads]

/-- A pattern as the reader builds one: at least one segment, each the wildcard or a
nonempty literal without dots. -/
def Pattern.Readable (p : Pattern) : Prop :=
  p.segments ≠ [] ∧ ∀ s ∈ p.segments, s = .wildcard ∨ ∃ t, s = .literal t ∧ t ≠ "" ∧ '.' ∉ t.toList

/-! ## Leading segments -/

/-- Segments accept the leading segments of a name one for one exactly when they read a
prefix of them. -/
theorem Pattern.matchesSegments_iff {ss : List Segment} {ns : List String} :
    matchesSegments ss ns = true ↔
      ∃ qs rest, ns = qs ++ rest ∧ List.Forall₂ (fun s q => s.Reads q) ss qs := by
  induction ss generalizing ns with
  | nil => exact ⟨fun _ => ⟨[], ns, rfl, .nil⟩, fun _ => rfl⟩
  | cons s ss ih =>
    cases ns with
    | nil => simp [matchesSegments]
    | cons n ns =>
      rw [matchesSegments, Bool.and_eq_true, Segment.accepts_iff, ih]
      constructor
      · rintro ⟨hs, qs, rest, rfl, hq⟩
        exact ⟨n :: qs, rest, rfl, .cons hs hq⟩
      · rintro ⟨qs, rest, h, hq⟩
        cases hq with
        | cons hs hq =>
          rw [List.cons_append, List.cons.injEq] at h
          obtain ⟨rfl, rfl⟩ := h
          exact ⟨hs, _, rest, rfl, hq⟩

/-! ## Pieces of a text -/

/-- Dot-free pieces joined by dots, then a dot and `r`, split into the pieces and the pieces
of `r`. -/
theorem splitOn_intercalate_append {qs : List (List Char)} (hqs : qs ≠ [])
    (h : ∀ q ∈ qs, '.' ∉ q) (r : List Char) :
    (['.'].intercalate qs ++ '.' :: r).splitOn '.' = qs ++ r.splitOn '.' := by
  induction qs with
  | nil => exact absurd rfl hqs
  | cons q qs ih =>
    have hq : '.' ∉ q := h q List.mem_cons_self
    cases qs with
    | nil => simpa using List.splitOn_append_cons_self_of_not_mem hq r
    | cons q' qs =>
      rw [List.intercalate_cons_cons, List.append_assoc, List.append_assoc, List.singleton_append,
        List.splitOn_append_cons_self_of_not_mem hq, ih (List.cons_ne_nil _ _) fun v hv => h v (List.mem_cons_of_mem q hv)]
      rfl

/-- Joining two nonempty runs of pieces puts one separator between them. -/
theorem intercalate_append_cons {α : Type} (sep : List α) {ls : List (List α)} (hls : ls ≠ [])
    (m : List α) (ms : List (List α)) :
    sep.intercalate (ls ++ m :: ms) = sep.intercalate ls ++ sep ++ sep.intercalate (m :: ms) := by
  induction ls with
  | nil => exact absurd rfl hls
  | cons l ls ih =>
    cases ls with
    | nil => simp
    | cons l' ls =>
      rw [List.cons_append, List.intercalate_cons_of_ne_nil (by simp), ih (List.cons_ne_nil _ _),
        List.intercalate_cons_cons]
      simp

theorem map_toList_ofList (pieces : List (List Char)) :
    (pieces.map String.ofList).map String.toList = pieces := by
  simp [Function.comp_def]

/-- A nonempty list of segments reads a nonempty list of pieces. -/
theorem forall₂_reads_ne_nil {ss : List Segment} {qs : List String}
    (hq : List.Forall₂ Segment.Reads ss qs) (hss : ss ≠ []) : qs ≠ [] := by
  rintro rfl
  exact hss (List.forall₂_nil_right_iff.mp hq)

/-- The prefix test on the pieces between the dots of a text: a nonempty list of segments
reads a prefix of them exactly when the text is dot-free pieces the segments read, joined by
dots, alone or followed by a dot and anything. -/
theorem matchesSegments_pieces_iff {ss : List Segment} (hss : ss ≠ []) (cs : List Char) :
    Pattern.matchesSegments ss ((cs.splitOn '.').map String.ofList) = true ↔
      ∃ qs : List String, (∀ q ∈ qs, '.' ∉ q.toList) ∧ List.Forall₂ Segment.Reads ss qs ∧
        (cs = ['.'].intercalate (qs.map String.toList) ∨
          ∃ r, cs = ['.'].intercalate (qs.map String.toList) ++ '.' :: r) := by
  rw [Pattern.matchesSegments_iff]
  constructor
  · rintro ⟨qs, rest, hsplit, hq⟩
    have hqs := forall₂_reads_ne_nil hq hss
    have hpieces : cs.splitOn '.' = qs.map String.toList ++ rest.map String.toList := by
      rw [← map_toList_ofList (cs.splitOn '.'), hsplit, List.map_append]
    -- the pieces read are pieces of the text, so they hold no dot
    have hdots : ∀ q ∈ qs, '.' ∉ q.toList := fun q hq hdot =>
      (mem_of_mem_splitOn (hpieces ▸ List.mem_append_left _ (List.mem_map_of_mem hq)) hdot).2 rfl
    refine ⟨qs, hdots, hq, ?_⟩
    have htext : ['.'].intercalate (cs.splitOn '.') = cs := List.intercalate_splitOn '.'
    rw [hpieces] at htext
    cases rest with
    | nil => exact .inl (by simpa using htext.symm)
    | cons p ps =>
      refine .inr ⟨['.'].intercalate ((p :: ps).map String.toList), ?_⟩
      rw [← htext, List.map_cons, intercalate_append_cons _ (by simpa using hqs)]
      simp
  · rintro ⟨qs, hdots, hq, htext⟩
    have hqs : qs.map String.toList ≠ [] := by
      simpa using forall₂_reads_ne_nil hq hss
    have hdots' : ∀ q ∈ qs.map String.toList, '.' ∉ q := by
      simp only [List.mem_map]
      rintro _ ⟨q, hmem, rfl⟩
      exact hdots q hmem
    have hback : (qs.map String.toList).map String.ofList = qs := by simp [Function.comp_def]
    rcases htext with rfl | ⟨r, rfl⟩
    · exact ⟨qs, [], by rw [List.splitOn_intercalate '.' hdots' hqs, hback, List.append_nil], hq⟩
    · exact ⟨qs, (r.splitOn '.').map String.ofList,
        by rw [splitOn_intercalate_append hqs hdots', List.map_append, hback], hq⟩

/-- The dotted prefix test said on a name's text is the same test said on its characters. -/
theorem dotted_iff_toList {n : String} {qs : List String} :
    (n = ".".intercalate qs ∨ ∃ r, n = ".".intercalate qs ++ "." ++ r) ↔
      (n.toList = ['.'].intercalate (qs.map String.toList) ∨
        ∃ r, n.toList = ['.'].intercalate (qs.map String.toList) ++ '.' :: r) := by
  simp only [← String.toList_inj, String.toList_intercalate, String.toList_append]
  refine or_congr (by rfl) ⟨fun ⟨r, hr⟩ => ⟨r.toList, by simpa using hr⟩, fun ⟨r, hr⟩ => ?_⟩
  exact ⟨String.ofList r, by simpa using hr⟩

/-! ## Names -/

namespace Pattern

/-- No segment of a readable pattern reads the empty piece. -/
theorem Readable.not_reads_empty {p : Pattern} (hp : p.Readable) :
    ∀ s ∈ p.segments, ¬ s.Reads "" := by
  intro s hs hr
  rcases hp.2 s hs with rfl | ⟨t, rfl, ht, -⟩
  · exact hr rfl
  · exact ht hr.symm

/-- The empty name has no segments, so it matches no pattern that has one. -/
theorem matchesName_empty {p : Pattern} (hp : p.segments ≠ []) : p.matchesName ⟨""⟩ = false := by
  obtain ⟨s, ss, hs⟩ := List.exists_cons_of_ne_nil hp
  simp [matchesName, ScopeName.segments, hs, matchesSegments]

/-- A readable pattern matches a name exactly when the name is dot-free pieces its segments
read, joined by dots, alone or followed by a dot and anything. -/
theorem Readable.matchesName_iff {p : Pattern} (hp : p.Readable) (n : String) :
    p.matchesName ⟨n⟩ = true ↔
      ∃ qs : List String, (∀ q ∈ qs, '.' ∉ q.toList) ∧ List.Forall₂ Segment.Reads p.segments qs ∧
        (n = ".".intercalate qs ∨ ∃ r, n = ".".intercalate qs ++ "." ++ r) := by
  simp only [dotted_iff_toList]
  by_cases hn : n = ""
  · subst hn
    rw [matchesName_empty hp.1]
    simp only [Bool.false_eq_true, String.toList_empty, false_iff, not_exists, not_and]
    intro qs _ hq htext
    -- the first piece would be empty, and no segment reads it
    obtain ⟨s, ss, hs⟩ := List.exists_cons_of_ne_nil hp.1
    rw [hs] at hq
    obtain ⟨q, qs', hsq, -, rfl⟩ := List.forall₂_cons_left_iff.mp hq
    have hq : q = "" := by
      rcases htext with htext | ⟨r, htext⟩
      · cases qs' with
        | nil =>
          have hnil : q.toList = [] := by simpa using htext.symm
          simpa using hnil
        | cons q' qs' => simp at htext
      · cases qs' <;> simp at htext
    exact hp.not_reads_empty s (hs ▸ List.mem_cons_self) (hq ▸ hsq)
  · have hsegs : (ScopeName.mk n).segments = (n.toList.splitOn '.').map String.ofList := by
      simp [ScopeName.segments, hn]
    rw [matchesName, hsegs, matchesSegments_pieces_iff hp.1]

/-- Without wildcards, the pieces the segments read are their literals' texts. -/
theorem forall₂_reads_iff {ss : List Segment} (h : Segment.wildcard ∉ ss) {qs : List String} :
    List.Forall₂ Segment.Reads ss qs ↔ qs = ss.map Segment.text := by
  induction ss generalizing qs with
  | nil => exact List.forall₂_nil_left_iff
  | cons s ss ih =>
    simp only [List.mem_cons, not_or] at h
    obtain ⟨t, rfl⟩ : ∃ t, s = .literal t := by
      cases s with
      | literal t => exact ⟨t, rfl⟩
      | wildcard => exact absurd rfl h.1
    rw [List.forall₂_cons_left_iff]
    constructor
    · rintro ⟨q, qs', hq, hqs', rfl⟩
      have hqt : q = t := hq
      rw [ih h.2] at hqs'
      simp [Segment.text, hqt, hqs']
    · rintro rfl
      exact ⟨t, _, rfl, (ih h.2).mpr rfl, rfl⟩

/-- A readable pattern without wildcards matches a name exactly when the name is its text,
alone or followed by a dot and anything. -/
theorem Readable.matchesName_iff_text {p : Pattern} (hp : p.Readable)
    (hw : Segment.wildcard ∉ p.segments) (n : String) :
    p.matchesName ⟨n⟩ = true ↔ n = p.text ∨ ∃ r, n = p.text ++ "." ++ r := by
  rw [hp.matchesName_iff]
  have hdots : ∀ q ∈ p.segments.map Segment.text, '.' ∉ q.toList := by
    simp only [List.mem_map]
    rintro _ ⟨s, hs, rfl⟩
    rcases hp.2 s hs with rfl | ⟨t, rfl, -, ht⟩
    · exact absurd hs hw
    · exact ht
  constructor
  · rintro ⟨qs, -, hq, htext⟩
    rwa [(forall₂_reads_iff hw).mp hq] at htext
  · intro htext
    exact ⟨_, hdots, (forall₂_reads_iff hw).mpr rfl, htext⟩

end Pattern

/-! ## The patterns the reader builds -/

/-- A pattern written as the grammar writes one is readable. -/
theorem Pattern.readable_ofText {cs : List Char} (h : IsPatternText cs) :
    (Pattern.ofText (String.ofList cs)).Readable := by
  simp only [Pattern.Readable, Pattern.ofText, String.toList_ofList, ne_eq, List.map_eq_nil_iff,
    List.splitOn_ne_nil, not_false_eq_true, List.mem_map, forall_exists_index, and_imp,
    forall_apply_eq_imp_iff₂, true_and]
  intro piece hpiece
  unfold Segment.ofText
  split
  · exact .inl rfl
  · next hstar =>
    refine .inr ⟨_, rfl, ?_, fun hdot => (mem_of_mem_splitOn hpiece (by simpa using hdot)).2 rfl⟩
    -- a segment is `*` or nonempty, and it is not `*`
    rcases h.1 piece hpiece with rfl | ⟨hne, -⟩
    · exact absurd rfl hstar
    · simpa using hne

theorem Grammar.Derives.readable {ph : Phrase} {cs : List Char} {n : Node} (h : Derives ph cs n) :
    ∀ p ∈ n.patterns, p.Readable := by
  induction h with
  | atom hp =>
    intro p hmem
    rw [Node.patterns, List.mem_singleton] at hmem
    exact hmem ▸ Pattern.readable_ofText hp
  | group _ _ _ ih | not _ ih => exact ih
  | primary _ ih | negation _ ih | allOf _ ih => exact ih
  | and _ _ _ _ ihl ihr | or _ _ _ _ ihl ihr =>
    intro p hmem
    rcases List.mem_append.mp hmem with hmem | hmem
    · exact ihl p hmem
    · exact ihr p hmem

/-- Every pattern of a tree read from a text is readable. -/
theorem Node.parse_patterns_readable {t : String} {n : Node} (h : Node.parse t = .ok n) :
    ∀ p ∈ n.patterns, p.Readable := by
  obtain ⟨⟨-, body, -, -, -, hd, -⟩, -⟩ := Node.parse_sound h
  exact hd.readable

/-- A pattern the reader builds matches a name exactly when the name is dot-free pieces its
segments read (a literal its text, the wildcard any nonempty piece), joined by dots, alone or
followed by a dot and anything; without wildcards, when the name is the pattern's text alone
or followed by a dot and anything; and it never matches the empty name. -/
theorem Pattern.matchesName_iff_dotted_prefix {t : String} {tree : Node}
    (ht : Node.parse t = .ok tree) {p : Pattern} (hp : p ∈ tree.patterns) :
    (∀ n : String, p.matchesName ⟨n⟩ = true ↔
      ∃ qs : List String, (∀ q ∈ qs, '.' ∉ q.toList) ∧ List.Forall₂ Segment.Reads p.segments qs ∧
        (n = ".".intercalate qs ∨ ∃ r, n = ".".intercalate qs ++ "." ++ r)) ∧
    (Segment.wildcard ∉ p.segments → ∀ n : String,
      p.matchesName ⟨n⟩ = true ↔ n = p.text ∨ ∃ r, n = p.text ++ "." ++ r) ∧
    p.matchesName ⟨""⟩ = false :=
  have hr := Node.parse_patterns_readable ht p hp
  ⟨hr.matchesName_iff, hr.matchesName_iff_text, Pattern.matchesName_empty hr.1⟩

/-- `source.js`, read from its own text, matches `source.js` and the names below it, and
nothing else. -/
theorem source_js_matches_below_itself :
    Node.parse "source.js" = .ok (.atom (Pattern.ofText "source.js")) ∧
      ∀ n : String, (Pattern.ofText "source.js").matchesName ⟨n⟩ = true ↔
        n = "source.js" ∨ ∃ r, n = "source.js" ++ "." ++ r := by
  have hp : IsPatternText "source.js".toList := by
    have hs : "source.js".toList = ['s', 'o', 'u', 'r', 'c', 'e', '.', 'j', 's'] := rfl
    have hsplit : List.splitOn '.' ['s', 'o', 'u', 'r', 'c', 'e', '.', 'j', 's'] =
        [['s', 'o', 'u', 'r', 'c', 'e'], ['j', 's']] := rfl
    rw [hs]
    refine ⟨?_, by decide⟩
    rw [hsplit]
    simp [IsSegment, isSegmentChar]
  have hnil : IsBlanks [] := fun _ h => by cases h
  have hd : DerivesSelector "source.js".toList (.atom (Pattern.ofText "source.js")) :=
    ⟨[], "source.js".toList, [], by simp, hnil,
      by simpa using Derives.allOf (.negation (.primary (Derives.atom hp))), hnil⟩
  have ht := (Node.parse_complete hd).1 (by decide)
  refine ⟨ht, fun n => ?_⟩
  simpa using (Pattern.matchesName_iff_dotted_prefix ht (List.mem_singleton_self _)).2.1
    (by decide +kernel) n

end ScopeSelectors
