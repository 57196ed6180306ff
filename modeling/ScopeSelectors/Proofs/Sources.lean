import ScopeSelectors.Proofs.CacheRuns
import ScopeSelectors.Proofs.Resolution
/-!
# Compiling rule sources

A rule table is compiled from its sources, each a selector text with a value, one after the
other (`RuleTable.compileFrom`).  A text that parses becomes the next rule of the table, which
numbers its rules among themselves; one that does not is set aside with its position among the
sources and its error.  So the table holds the sources whose texts parse, in order
(`acceptedRules`), and the rejected list holds the others, in order of position
(`rejectedRules`).  Nothing is lost or repeated: the two lists together are as long as the
sources (`length_acceptedRules_add_length_rejectedRules`), and a text that does not parse leaves
no trace in the table (`acceptedRules_filter_parses`).  `ofSources_partitions` collects these.

Compiling through a cache answers what parsing answers as long as every entry holds the
selector of its own key (`compileFrom_of_parse`, `ofSourcesCached_of_coherent`), and that holds
along every run of the cache.  Whatever the cache, compiling through it keeps its entries and
adds one for each text among the sources that parses and was no key
(`get?_compileFrom_getOrParse`), so it gains one entry for each such distinct text
(`size_compileFrom_getOrParse`).  `ofSourcesCached_transparent` states both for every cache a
run can reach.
-/

namespace ScopeSelectors

theorem Except.toOption_eq_some_iff {ε β : Type} {r : Except ε β} {b : β} :
    r.toOption = some b ↔ r = .ok b := by
  cases r <;> simp [Except.toOption]

namespace RuleTable

variable {α : Type}

/-! ## The two lists -/

/-- The rules of the sources whose texts parse, in order. -/
def acceptedRules (sources : List (String × α)) : List (Rule α) :=
  sources.filterMap fun s => (Selector.parse s.1).toOption.map fun x => ⟨x, s.2⟩

/-- The sources whose texts do not parse, numbered by their position from `index` on. -/
def rejectedRules (index : Nat) (sources : List (String × α)) : List RejectedRule :=
  (sources.zipIdx index).filterMap fun p =>
    match Selector.parse p.1.1 with
    | .ok _ => none
    | .error e => some ⟨p.2, p.1.1, e⟩

section Cons

variable {text : String} {value : α} {rest : List (String × α)} {index : Nat}

theorem acceptedRules_cons_of_ok {x : Selector} (h : Selector.parse text = .ok x) :
    acceptedRules ((text, value) :: rest) = ⟨x, value⟩ :: acceptedRules rest := by
  simp only [acceptedRules, List.filterMap_cons, h, Except.toOption, Option.map_some]

theorem acceptedRules_cons_of_error {e : ParseError} (h : Selector.parse text = .error e) :
    acceptedRules ((text, value) :: rest) = acceptedRules rest := by
  simp only [acceptedRules, List.filterMap_cons, h, Except.toOption, Option.map_none]

theorem rejectedRules_cons_of_ok {x : Selector} (h : Selector.parse text = .ok x) :
    rejectedRules index ((text, value) :: rest) = rejectedRules (index + 1) rest := by
  simp only [rejectedRules, List.zipIdx_cons, List.filterMap_cons, h]

theorem rejectedRules_cons_of_error {e : ParseError} (h : Selector.parse text = .error e) :
    rejectedRules index ((text, value) :: rest) =
      ⟨index, text, e⟩ :: rejectedRules (index + 1) rest := by
  simp only [rejectedRules, List.zipIdx_cons, List.filterMap_cons, h]

end Cons

theorem rejectedRules_pairwise (index : Nat) (sources : List (String × α)) :
    (rejectedRules index sources).Pairwise fun a b => a.index < b.index := by
  refine (pairwise_zipIdx sources index).filterMap _ fun p p' hpp' x hx x' hx' => ?_
  -- a rule set aside keeps the position it was compiled at
  have hindex : ∀ {p : (String × α) × Nat} {x : RejectedRule},
      (match Selector.parse p.1.1 with
        | .ok _ => none
        | .error e => some (⟨p.2, p.1.1, e⟩ : RejectedRule)) = some x → x.index = p.2 := by
    intro p x hx
    split at hx
    · cases hx
    · cases hx
      rfl
  rw [hindex hx, hindex hx']
  exact hpp'

/-- Every source is accepted or set aside, once. -/
theorem length_acceptedRules_add_length_rejectedRules (index : Nat)
    (sources : List (String × α)) :
    (acceptedRules sources).length + (rejectedRules index sources).length = sources.length := by
  induction sources generalizing index with
  | nil => rfl
  | cons source rest ih =>
    obtain ⟨text, value⟩ := source
    -- the source goes to exactly one of the two lists
    cases h : Selector.parse text with
    | ok x =>
      rw [acceptedRules_cons_of_ok h, rejectedRules_cons_of_ok h, List.length_cons,
        List.length_cons, Nat.add_right_comm, ih]
    | error e =>
      rw [acceptedRules_cons_of_error h, rejectedRules_cons_of_error h, List.length_cons,
        List.length_cons, ← Nat.add_assoc, ih]

/-- Sources whose texts do not parse leave no trace among the accepted rules. -/
theorem acceptedRules_filter_parses (sources : List (String × α)) :
    acceptedRules (sources.filter fun s => (Selector.parse s.1).toOption.isSome) =
      acceptedRules sources := by
  rw [acceptedRules, acceptedRules, List.filterMap_filter]
  congr 1
  funext s
  cases (Selector.parse s.1).toOption <;> rfl

/-! ## Compiling, step by step -/

/-- Compiling a source, then the rest from the state it leaves. -/
theorem compileFrom_cons_value {σ : Type}
    (compile : σ → String → Logged (Except ParseError Selector × σ)) (s : σ) (index : Nat)
    (text : String) (value : α) (rest : List (String × α)) :
    (compileFrom compile s index ((text, value) :: rest)).value =
      let later := (compileFrom compile (compile s text).value.2 (index + 1) rest).value
      match (compile s text).value.1 with
      | .ok x => (⟨x, value⟩ :: later.1, later.2.1, later.2.2)
      | .error e => (later.1, ⟨index, text, e⟩ :: later.2.1, later.2.2) := by
  simp only [compileFrom, Logged.value_bind]
  cases (compile s text).value.1 <;> rfl

/-- The state after compiling a source and the rest is the state after the rest, compiled from
the state the source leaves. -/
theorem compileFrom_cons_state {σ : Type}
    (compile : σ → String → Logged (Except ParseError Selector × σ)) (s : σ) (index : Nat)
    (text : String) (value : α) (rest : List (String × α)) :
    (compileFrom compile s index ((text, value) :: rest)).value.2.2 =
      (compileFrom compile (compile s text).value.2 (index + 1) rest).value.2.2 := by
  rw [compileFrom_cons_value]
  split <;> rfl

/-- Compiling with anything that answers what parsing answers, as long as it keeps an
invariant, accepts the sources that parse and sets aside the others. -/
theorem compileFrom_of_parse {σ : Type}
    {compile : σ → String → Logged (Except ParseError Selector × σ)} (inv : σ → Prop)
    (hcompile : ∀ s t, inv s → (compile s t).value.1 = Selector.parse t ∧ inv (compile s t).value.2)
    {s : σ} (hs : inv s) (index : Nat) (sources : List (String × α)) :
    (compileFrom compile s index sources).value.1 = acceptedRules sources ∧
      (compileFrom compile s index sources).value.2.1 = rejectedRules index sources := by
  induction sources generalizing s index with
  | nil => exact ⟨rfl, rfl⟩
  | cons source rest ih =>
    obtain ⟨text, value⟩ := source
    obtain ⟨hresult, hs'⟩ := hcompile s text hs
    -- the rest is compiled from the state after this text
    obtain ⟨ihrules, ihrejected⟩ := ih hs' (index + 1)
    rw [compileFrom_cons_value, hresult]
    cases hparse : Selector.parse text with
    | ok x =>
      exact ⟨by rw [acceptedRules_cons_of_ok hparse, ← ihrules],
        by rw [rejectedRules_cons_of_ok hparse, ← ihrejected]⟩
    | error e =>
      exact ⟨by rw [acceptedRules_cons_of_error hparse, ← ihrules],
        by rw [rejectedRules_cons_of_error hparse, ← ihrejected]⟩

/-- Through a coherent cache, the table holds the sources that parse, and the others are set
aside. -/
theorem ofSourcesCached_of_coherent {c : SelectorCache} (hc : c.Coherent)
    (sources : List (String × α)) :
    (ofSourcesCached c sources).value.1 = (⟨acceptedRules sources⟩, rejectedRules 0 sources) := by
  obtain ⟨hrules, hrejected⟩ := compileFrom_of_parse SelectorCache.Coherent
    (fun c t hc => ⟨hc.getOrParse_result t, hc.getOrParse t⟩) hc 0 sources
  show ((⟨_⟩, _) : RuleTable α × List RejectedRule) = _
  rw [hrules, hrejected]

theorem ofSources_value (sources : List (String × α)) :
    (ofSources sources).value = (⟨acceptedRules sources⟩, rejectedRules 0 sources) := by
  obtain ⟨hrules, hrejected⟩ := @compileFrom_of_parse α Unit
    (fun () text => pure (Selector.parse text, ())) (fun _ => True) (fun _ _ _ => ⟨rfl, trivial⟩)
    () trivial 0 sources
  show ((⟨_⟩, _) : RuleTable α × List RejectedRule) = _
  rw [hrules, hrejected]

/-- Compiling sources keeps, in order, the sources whose texts parse, each with the selector
its text reads as and its own value, numbered among themselves; it sets aside the others in
order of position, each with its position, its text and its error.  The two lists together are
as long as the sources, and the table is the one the sources that parse give alone. -/
theorem ofSources_partitions (sources : List (String × α)) :
    (ofSources sources).value.1.rules = acceptedRules sources ∧
    (ofSources sources).value.2 = rejectedRules 0 sources ∧
    (ofSources sources).value.1.size + (ofSources sources).value.2.length = sources.length ∧
    (ofSources sources).value.1 =
      (ofSources (sources.filter fun s => (Selector.parse s.1).toOption.isSome)).value.1 := by
  rw [ofSources_value, ofSources_value, acceptedRules_filter_parses]
  exact ⟨rfl, rfl, length_acceptedRules_add_length_rejectedRules 0 sources, rfl⟩

/-! ## Through a cache -/

/-- Compiling through any cache keeps its entries and adds each text among the sources that
parses and is no key, with the selector it reads as. -/
theorem get?_compileFrom_getOrParse (c : SelectorCache) (index : Nat)
    (sources : List (String × α)) (k : String) :
    (compileFrom SelectorCache.getOrParse c index sources).value.2.2.get? k =
      (c.get? k).or (if k ∈ sources.map Prod.fst then (Selector.parse k).toOption else none) := by
  induction sources generalizing c index with
  | nil =>
    rw [List.map_nil, if_neg List.not_mem_nil, Option.or_none]
    rfl
  | cons source rest ih =>
    obtain ⟨text, value⟩ := source
    rw [compileFrom_cons_state, ih]
    rcases SelectorCache.getOrParse_cases c text with
      ⟨x, hget, heq⟩ | ⟨e, hget, hp, heq⟩ | ⟨x, hget, hp, heq⟩
    · -- a key: the cache stays, and already answers for the text
      rw [heq]
      by_cases hk : k = text
      · subst hk
        simp [hget]
      · simp only [List.map_cons, List.mem_cons, hk, false_or]
    · -- a text that does not parse: the cache stays, and the text adds nothing
      rw [heq]
      by_cases hk : k = text
      · subst hk
        simp [hget, hp, Except.toOption]
      · simp only [List.map_cons, List.mem_cons, hk, false_or]
    · -- a new text that parses is inserted
      rw [heq, SelectorCache.get?_insertIfNew hget]
      by_cases hk : k = text
      · subst hk
        simp [hget, hp, Except.toOption]
      · simp only [List.map_cons, List.mem_cons, hk, false_or, Ne.symm hk, if_false]

/-- Compiling through any cache adds one entry for each distinct text among the sources that
parses and is no key. -/
theorem size_compileFrom_getOrParse (c : SelectorCache) (index : Nat)
    (sources : List (String × α)) :
    (compileFrom SelectorCache.getOrParse c index sources).value.2.2.size =
      c.size + ((sources.map Prod.fst).toFinset.filter fun k =>
        (Selector.parse k).toOption.isSome ∧ (c.get? k).isNone).card := by
  -- the keys after are the keys before and, apart from them, the new texts
  have hkeys :
      {k | ((compileFrom SelectorCache.getOrParse c index sources).value.2.2.get? k).isSome} =
      {k | (c.get? k).isSome} ∪ ↑((sources.map Prod.fst).toFinset.filter fun k =>
        (Selector.parse k).toOption.isSome ∧ (c.get? k).isNone) := by
    ext k
    simp only [Set.mem_ofPred_eq, Set.mem_union, Finset.coe_filter, List.mem_toFinset,
      get?_compileFrom_getOrParse]
    cases c.get? k <;> by_cases hk : k ∈ sources.map Prod.fst <;> simp [hk]
  have hdisjoint : Disjoint {k | (c.get? k).isSome} ↑((sources.map Prod.fst).toFinset.filter
      fun k => (Selector.parse k).toOption.isSome ∧ (c.get? k).isNone) := by
    rw [Set.disjoint_left]
    intro k hk hnew
    simp only [Set.mem_ofPred_eq] at hk
    simp only [Finset.coe_filter, Set.mem_ofPred_eq] at hnew
    simp [Option.isSome_iff_ne_none.mp hk] at hnew
  rw [SelectorCache.size_eq_ncard, hkeys, Set.ncard_union_eq hdisjoint c.keySet_finite
    (Finset.finite_toSet _), Set.ncard_coe_finset, ← SelectorCache.size_eq_ncard]

/-- On every cache a run can reach, compiling through the cache gives the table and the rules
set aside that compiling without it gives; the cache keeps its entries and gains one for each
distinct text among the sources that parses and was no key, holding the selector the text
reads as. -/
theorem ofSourcesCached_transparent (calls : List CacheCall) (sources : List (String × α)) :
    let c := (SelectorCache.empty.replay calls).2
    (ofSourcesCached c sources).value.1 = (ofSources sources).value ∧
    (∀ k, (ofSourcesCached c sources).value.2.get? k =
      (c.get? k).or (if k ∈ sources.map Prod.fst then (Selector.parse k).toOption else none)) ∧
    (ofSourcesCached c sources).value.2.size = c.size +
      ((sources.map Prod.fst).toFinset.filter fun k =>
        (Selector.parse k).toOption.isSome ∧ (c.get? k).isNone).card := by
  intro c
  refine ⟨?_, get?_compileFrom_getOrParse c 0 sources, size_compileFrom_getOrParse c 0 sources⟩
  rw [ofSourcesCached_of_coherent (SelectorCache.reflects_replay calls).coherent, ofSources_value]

end RuleTable

end ScopeSelectors
