import Mathlib
import ScopeSelectors.Cache
/-!
# Runs of the selector cache

A client calls the cache again and again, in any order: `getOrParse`, `get?`, `size` and
`clear` (`CacheCall`).  Each call answers (`CacheReply`) and leaves a cache for the next
(`SelectorCache.call`); a run from a cache lists every call with its answer, and ends in a
cache (`SelectorCache.replay`).  Along every run from the empty cache:

* every entry holds the selector of its own key, so the tree kept under a text is the tree
  the text reads as;
* the keys are exactly the texts given to a `getOrParse` that succeeded, with no `clear`
  after it (`KeptSince`), and `size` counts them;
* `getOrParse` answers what `Selector.parse` answers, and on a text that does not parse it
  leaves the cache as it was;
* `getOrParse` writes its one trace record, the miss, exactly when its text is not a key;
  a text that does not parse is never a key, so every attempt on it is a miss.

The first fact is an invariant of the cache alone (`Coherent`): it is what makes a hit
answer the text's own selector.  Together with the keys it is kept by every call
(`Reflects.call`), hence along every run (`reflects_replay`, by induction on the calls from
the last one back).
-/

namespace ScopeSelectors

/-- A call a client makes on a selector cache. -/
inductive CacheCall where
  /-- The selector of a text, compiled on a miss. -/
  | getOrParse (text : String)
  /-- The cached selector of a text, never compiled. -/
  | get (text : String)
  /-- The number of entries. -/
  | len
  /-- Drop every entry. -/
  | clear
  deriving DecidableEq, Repr

/-- What a call answers. -/
inductive CacheReply where
  /-- The selector of the text, or why it does not parse. -/
  | parsed (result : Except ParseError Selector)
  /-- The cached selector, if there is one. -/
  | found (selector : Option Selector)
  /-- The number of entries. -/
  | count (n : Nat)
  /-- The entries are gone. -/
  | cleared

/-- `text` was given to a `getOrParse` that succeeded, and no `clear` came after it. -/
def KeptSince (log : List (CacheCall × CacheReply)) (text : String) : Prop :=
  ∃ pre x post, log = pre ++ (.getOrParse text, .parsed (.ok x)) :: post ∧
    ∀ e ∈ post, e.1 ≠ .clear

theorem not_keptSince_nil (text : String) : ¬ KeptSince [] text := by
  rintro ⟨pre, x, post, h, -⟩
  simp at h

/-- One more call keeps a text exactly when it is no `clear`, and the text was kept before or
the call is a `getOrParse` of the text that succeeded. -/
theorem keptSince_append_singleton {log : List (CacheCall × CacheReply)}
    {e : CacheCall × CacheReply} {text : String} :
    KeptSince (log ++ [e]) text ↔
      e.1 ≠ .clear ∧ (KeptSince log text ∨ ∃ x, e = (.getOrParse text, .parsed (.ok x))) := by
  constructor
  · rintro ⟨pre, x, post, heq, hpost⟩
    rcases List.eq_nil_or_concat post with rfl | ⟨post, last, rfl⟩
    all_goals try rw [List.concat_eq_append] at heq hpost
    · -- the last call is the successful one
      obtain ⟨-, he⟩ := List.append_inj' heq rfl
      rw [List.singleton_inj] at he
      subst he
      exact ⟨by simp, .inr ⟨x, rfl⟩⟩
    · -- it came earlier, and the last call is no `clear`
      rw [← List.cons_append, ← List.append_assoc] at heq
      obtain ⟨rfl, he⟩ := List.append_inj' heq rfl
      rw [List.singleton_inj] at he
      subst he
      refine ⟨hpost _ (by simp), .inl ⟨pre, x, post, rfl, fun e he => hpost e (by simp [he])⟩⟩
  · rintro ⟨hne, ⟨pre, x, post, rfl, hpost⟩ | ⟨x, rfl⟩⟩
    · refine ⟨pre, x, post ++ [e], by simp, fun e' he' => ?_⟩
      rcases List.mem_append.mp he' with he' | he'
      · exact hpost e' he'
      · rw [List.mem_singleton.mp he']
        exact hne
    · exact ⟨log, x, [], rfl, by simp⟩

theorem keptSince_append_success {log : List (CacheCall × CacheReply)} {t k : String}
    {x : Selector} :
    KeptSince (log ++ [(.getOrParse t, .parsed (.ok x))]) k ↔ KeptSince log k ∨ k = t := by
  rw [keptSince_append_singleton]
  constructor
  · rintro ⟨-, hk | ⟨y, hy⟩⟩
    · exact .inl hk
    · simp only [Prod.mk.injEq, CacheCall.getOrParse.injEq] at hy
      exact .inr hy.1.symm
  · rintro (hk | rfl)
    · exact ⟨by simp, .inl hk⟩
    · exact ⟨by simp, .inr ⟨x, rfl⟩⟩

theorem keptSince_append_idle {log : List (CacheCall × CacheReply)} {e : CacheCall × CacheReply}
    (hclear : e.1 ≠ .clear) (hidle : ∀ t x, e ≠ (.getOrParse t, .parsed (.ok x))) (k : String) :
    KeptSince (log ++ [e]) k ↔ KeptSince log k := by
  rw [keptSince_append_singleton]
  constructor
  · rintro ⟨-, hk | ⟨x, hx⟩⟩
    · exact hk
    · exact absurd hx (hidle k x)
  · intro hk
    exact ⟨hclear, .inl hk⟩

namespace Selector

theorem parse_eq_ok_iff {t : String} {x : Selector} : Selector.parse t = .ok x ↔ x.text = t := by
  unfold Selector.parse
  split
  · next root h =>
    constructor
    · intro hx
      cases hx
      rfl
    · intro hx
      exact congrArg Except.ok (Selector.ext hx.symm)
  · next e h =>
    simp only [reduceCtorEq, false_iff]
    rintro rfl
    rw [x.parse_text] at h
    cases h

end Selector

namespace SelectorCache

variable {c : SelectorCache} {t k : String} {x : Selector}

/-! ## The cache, call by call -/

theorem get?_empty (k : String) : empty.get? k = none := by
  simp [empty, get?]

theorem get?_clear (c : SelectorCache) (k : String) : c.clear.get? k = none :=
  get?_empty k

theorem get?_insertIfNew (h : c.get? t = none) (x : Selector) (k : String) :
    (⟨c.entries.insertIfNew t x⟩ : SelectorCache).get? k = if t = k then some x else c.get? k := by
  have hnot : t ∉ c.entries := by
    rw [Std.HashMap.mem_iff_isSome_getElem?, ← Std.HashMap.get?_eq_getElem?]
    simp [get?] at h
    simp [h]
  simp only [get?, Std.HashMap.get?_eq_getElem?, Std.HashMap.getElem?_insertIfNew, beq_iff_eq,
    hnot, not_false_eq_true, and_true]

/-- The texts the cache answers for are the keys of its map. -/
theorem keySet_eq (c : SelectorCache) : {k | (c.get? k).isSome} = ↑c.entries.keys.toFinset := by
  ext k
  simp only [Set.mem_ofPred_eq, Finset.mem_coe, List.mem_toFinset, Std.HashMap.mem_keys,
    Std.HashMap.mem_iff_isSome_getElem?, get?, Std.HashMap.get?_eq_getElem?]

theorem keySet_finite (c : SelectorCache) : {k | (c.get? k).isSome}.Finite := by
  rw [keySet_eq]
  exact Finset.finite_toSet _

theorem size_eq_ncard (c : SelectorCache) : c.size = {k | (c.get? k).isSome}.ncard := by
  rw [keySet_eq, Set.ncard_coe_finset, List.toFinset_card_of_nodup Std.HashMap.nodup_keys,
    Std.HashMap.length_keys]
  rfl

/-- Every entry holds the selector of its own key. -/
def Coherent (c : SelectorCache) : Prop :=
  ∀ k x, c.get? k = some x → x.text = k

theorem coherent_empty : empty.Coherent := by
  intro k x h
  rw [get?_empty] at h
  cases h

/-- What `getOrParse` can do: answer the cached selector of a key and write nothing, or
write the miss and then answer the error of a text that does not parse and keep the cache, or
answer the selector of a text that parses and insert it. -/
theorem getOrParse_cases (c : SelectorCache) (t : String) :
    (∃ x, c.get? t = some x ∧ c.getOrParse t = ⟨(.ok x, c), []⟩) ∨
    (∃ e, c.get? t = none ∧ Selector.parse t = .error e ∧
      c.getOrParse t = ⟨(.error e, c), [⟨.trace, .cache, missMessage t, ""⟩]⟩) ∨
    (∃ x, c.get? t = none ∧ Selector.parse t = .ok x ∧
      c.getOrParse t =
        ⟨(.ok x, ⟨c.entries.insertIfNew t x⟩), [⟨.trace, .cache, missMessage t, ""⟩]⟩) := by
  cases hget : c.get? t with
  | some x =>
    refine .inl ⟨x, rfl, ?_⟩
    simp only [getOrParse, hget]
    rfl
  | none =>
    cases hparse : Selector.parse t with
    | error e =>
      refine .inr (.inl ⟨e, rfl, rfl, ?_⟩)
      simp only [getOrParse, hget, hparse]
      rfl
    | ok x =>
      refine .inr (.inr ⟨x, rfl, rfl, ?_⟩)
      simp only [getOrParse, hget, hparse]
      rfl

/-- `getOrParse` writes the miss, and only the miss, when its text is not a key. -/
theorem getOrParse_records (c : SelectorCache) (t : String) :
    (c.getOrParse t).records =
      if (c.get? t).isSome then [] else [⟨.trace, .cache, missMessage t, ""⟩] := by
  rcases getOrParse_cases c t with ⟨x, hget, heq⟩ | ⟨e, hget, -, heq⟩ | ⟨x, hget, -, heq⟩ <;>
    simp [heq, hget]

/-- On a coherent cache, `getOrParse` answers what parsing answers. -/
theorem Coherent.getOrParse_result (hc : c.Coherent) (t : String) :
    (c.getOrParse t).value.1 = Selector.parse t := by
  rcases getOrParse_cases c t with ⟨x, hget, heq⟩ | ⟨e, -, hp, heq⟩ | ⟨x, -, hp, heq⟩
  · -- the cached selector is the text's own
    rw [heq, Selector.parse_eq_ok_iff.mpr (hc t x hget)]
  · rw [heq, hp]
  · rw [heq, hp]

/-- On a coherent cache, a text that does not parse is a miss that leaves the cache as it
was. -/
theorem Coherent.getOrParse_of_error (hc : c.Coherent) {e : ParseError}
    (he : Selector.parse t = .error e) :
    c.getOrParse t = ⟨(.error e, c), [⟨.trace, .cache, missMessage t, ""⟩]⟩ := by
  rcases getOrParse_cases c t with ⟨x, hget, -⟩ | ⟨e', -, hp, heq⟩ | ⟨x, -, hp, -⟩
  · -- a cached selector of the text would make it parse
    rw [Selector.parse_eq_ok_iff.mpr (hc t x hget)] at he
    cases he
  · rw [heq, ← Except.error.inj (hp.symm.trans he)]
  · rw [hp] at he
    cases he

/-- `getOrParse` keeps a cache coherent: a text is only ever inserted with its own
selector. -/
theorem Coherent.getOrParse (hc : c.Coherent) (t : String) : (c.getOrParse t).value.2.Coherent := by
  rcases getOrParse_cases c t with ⟨x, -, heq⟩ | ⟨e, -, -, heq⟩ | ⟨x, hget, hp, heq⟩
  · rw [heq]
    exact hc
  · rw [heq]
    exact hc
  · rw [heq]
    intro k y hy
    rw [get?_insertIfNew hget] at hy
    split at hy
    · next htk =>
      cases hy
      rw [Selector.parse_eq_ok_iff.mp hp, htk]
    · exact hc k y hy

/-! ## Runs -/

/-- One call: its answer and the cache after it, with the records it writes. -/
def call (c : SelectorCache) : CacheCall → Logged (CacheReply × SelectorCache)
  | .getOrParse text => do
    let (result, c) ← c.getOrParse text
    pure (.parsed result, c)
  | .get text => pure (.found (c.get? text), c)
  | .len => pure (.count c.size, c)
  | .clear => pure (.cleared, c.clear)

/-- The calls made one after another from `c`, each with its answer, and the cache after the
last. -/
def replay (c : SelectorCache) : List CacheCall → List (CacheCall × CacheReply) × SelectorCache
  | [] => ([], c)
  | k :: rest =>
    let step := (c.call k).value
    let run := step.2.replay rest
    ((k, step.1) :: run.1, run.2)

theorem call_getOrParse_value (c : SelectorCache) (t : String) :
    (c.call (.getOrParse t)).value = (.parsed (c.getOrParse t).value.1, (c.getOrParse t).value.2) :=
  rfl

theorem replay_append (c : SelectorCache) (calls : List CacheCall) (k : CacheCall) :
    c.replay (calls ++ [k]) =
      ((c.replay calls).1 ++ [(k, ((c.replay calls).2.call k).value.1)],
        ((c.replay calls).2.call k).value.2) := by
  induction calls generalizing c with
  | nil => rfl
  | cons k' rest ih => simp only [List.cons_append, replay, ih]

/-- What a run keeps of its calls: every entry holds the selector of its key, and the keys
are the texts kept since the last `clear`. -/
structure Reflects (c : SelectorCache) (log : List (CacheCall × CacheReply)) : Prop where
  coherent : c.Coherent
  keys : ∀ k, (c.get? k).isSome ↔ KeptSince log k

variable {log : List (CacheCall × CacheReply)}

theorem reflects_empty : empty.Reflects [] :=
  ⟨coherent_empty, fun k => by simp [get?_empty, not_keptSince_nil]⟩

theorem Reflects.append_idle (hr : c.Reflects log) {e : CacheCall × CacheReply}
    (hclear : e.1 ≠ .clear) (hidle : ∀ t x, e ≠ (.getOrParse t, .parsed (.ok x))) :
    c.Reflects (log ++ [e]) :=
  ⟨hr.coherent, fun k => (hr.keys k).trans (keptSince_append_idle hclear hidle k).symm⟩

theorem Reflects.getOrParse (hr : c.Reflects log) (t : String) :
    (c.call (.getOrParse t)).value.2.Reflects
      (log ++ [(.getOrParse t, (c.call (.getOrParse t)).value.1)]) := by
  rw [call_getOrParse_value]
  refine ⟨hr.coherent.getOrParse t, fun k => ?_⟩
  rcases getOrParse_cases c t with ⟨x, hget, heq⟩ | ⟨e, -, -, heq⟩ | ⟨x, hget, -, heq⟩
  · -- a hit: the text was already kept
    rw [heq, keptSince_append_success, ← hr.keys]
    by_cases hk : k = t
    · subst hk
      simp [hget]
    · simp [hk]
  · -- a failure keeps nothing new
    rw [heq, keptSince_append_idle (by simp) (by simp), ← hr.keys]
  · -- a miss that parses: the text becomes a key
    rw [heq, get?_insertIfNew hget, keptSince_append_success, ← hr.keys]
    by_cases hk : k = t
    · subst hk
      simp
    · simp [hk, Ne.symm hk]

theorem reflects_clear (c : SelectorCache) (log : List (CacheCall × CacheReply)) :
    c.clear.Reflects (log ++ [(.clear, .cleared)]) := by
  refine ⟨fun k x hx => ?_, fun k => ?_⟩
  · rw [get?_clear] at hx
    cases hx
  · rw [get?_clear, keptSince_append_singleton]
    simp

/-- Every call keeps what a run keeps. -/
theorem Reflects.call (hr : c.Reflects log) (k : CacheCall) :
    (c.call k).value.2.Reflects (log ++ [(k, (c.call k).value.1)]) := by
  cases k with
  | getOrParse t => exact hr.getOrParse t
  | get t => exact hr.append_idle (by simp) (by simp)
  | len => exact hr.append_idle (by simp) (by simp)
  | clear => exact reflects_clear c log

/-- Every run from the empty cache keeps what its calls did. -/
theorem reflects_replay (calls : List CacheCall) :
    (empty.replay calls).2.Reflects (empty.replay calls).1 := by
  induction calls using List.reverseRecOn with
  | nil => exact reflects_empty
  | append_singleton calls k ih =>
    rw [replay_append]
    exact ih.call k

/-- Along every run from the empty cache, each entry is the selector its key reads as; the
keys are the texts given to a successful `getOrParse` since the last `clear`, and `get?` and
`size` see exactly them; `getOrParse` answers what parsing answers, leaves the cache alone
on a text that does not parse, and writes the miss exactly when its text is not a key. -/
theorem replay_keeps_parsed_texts (calls : List CacheCall) :
    let c := (empty.replay calls).2
    let log := (empty.replay calls).1
    (∀ k x, c.get? k = some x → x.text = k ∧ Node.parse k = .ok x.root) ∧
    (∀ k, k ∈ c.entries ↔ KeptSince log k) ∧
    (∀ k, (c.get? k).isSome ↔ KeptSince log k) ∧
    c.size = {k | KeptSince log k}.ncard ∧
    (∀ t, (c.getOrParse t).value.1 = Selector.parse t) ∧
    (∀ t e, Selector.parse t = .error e →
      (c.getOrParse t).value.2 = c ∧
        (c.getOrParse t).records = [⟨.trace, .cache, missMessage t, ""⟩]) ∧
    (∀ t, (c.getOrParse t).records =
      if (c.get? t).isSome then [] else [⟨.trace, .cache, missMessage t, ""⟩]) := by
  intro c log
  have hr : c.Reflects log := reflects_replay calls
  refine ⟨fun k x hx => ?_, fun k => ?_, hr.keys, ?_, hr.coherent.getOrParse_result,
    fun t e he => ?_, getOrParse_records c⟩
  · have htext := hr.coherent k x hx
    exact ⟨htext, htext ▸ x.parse_text⟩
  · rw [← hr.keys, get?, Std.HashMap.get?_eq_getElem?, Std.HashMap.mem_iff_isSome_getElem?]
  · rw [size_eq_ncard]
    congr 1
    ext k
    exact hr.keys k
  · rw [hr.coherent.getOrParse_of_error he]
    exact ⟨rfl, rfl⟩

end SelectorCache

end ScopeSelectors
