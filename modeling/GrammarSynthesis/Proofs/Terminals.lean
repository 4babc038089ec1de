import GrammarSynthesis.Proofs.StageSentences

/-!
# Where terminals come from

The stages of a bundle add productions, drop some and rewrite others, yet nearly all terminals that
come out of a stage went into it, with the follow sets they had and under the same sort. Only two
stages make terminals of their own: follow restrictions, which change follow sets and no text, and
the recursive form of lists, which writes the separator anew.

* `terminalsFrom_loosenCells`, `terminalsFrom_addRuleLists`: stages that make no terminals;
* `allTerminals_restrictAll`: follow restrictions change follow sets only;
* `mem_desugar`: the productions of a parse module;
* `separator_mem`: the separator of a list is the text of a terminal of its written form.
-/
namespace GrammarSynthesis

namespace Production

theorem mem_terminals_iff {p : Production} {t : Terminal} :
    t ∈ p.terminals ↔ .terminal t ∈ p.items := by
  simp only [terminals, List.mem_filterMap]
  constructor
  · intro ht
    rcases ht with ⟨_ | _, hi, h⟩
    · cases h; exact hi
    · cases h
  · exact fun hi => ⟨_, hi, rfl⟩

@[simp] theorem terminals_injection (sort sub : SortName) :
    (injection sort sub).terminals = [] := rfl

end Production

/-! ## Terminals of sentences -/

/-- The terminals of the productions of all sorts but internal ones have the property. -/
def AllTerminals (cfg : Settings) (P : Terminal → Prop) (set : SentenceSet) : Prop :=
  ∀ p, .production p ∈ set → cfg.isInternal p.sort = false → ∀ t ∈ p.terminals, P t

/-- Each terminal of `new` stands in a production of `old` of the same sort. -/
def TerminalsFrom (old new : SentenceSet) : Prop :=
  ∀ p, .production p ∈ new → ∀ t ∈ p.terminals,
    ∃ q, .production q ∈ old ∧ q.sort = p.sort ∧ t ∈ q.terminals

variable {cfg : Settings} {cs : Capabilities} {set new : SentenceSet}

theorem TerminalsFrom.allTerminals {P : Terminal → Prop} (h : TerminalsFrom set new)
    (hP : AllTerminals cfg P set) : AllTerminals cfg P new := by
  intro p hp hint t ht
  obtain ⟨q, hq, hsort, ht⟩ := h p hp t ht
  exact hP q hq (hsort ▸ hint) t ht

theorem AllTerminals.mono {P Q : Terminal → Prop} (h : ∀ t, P t → Q t)
    (hP : AllTerminals cfg P set) : AllTerminals cfg Q set :=
  fun p hp hint t ht => h t (hP p hp hint t ht)

/-! ## Follow restrictions -/

namespace Vocabulary

variable {v : Vocabulary}

theorem mem_restrictAll {p : Production} (h : .production p ∈ v.restrictAll cfg set) :
    ∃ q, .production q ∈ set ∧ v.restrict cfg q = p := by
  obtain ⟨s, hs, e⟩ := OrdSet.mem_map.1 h
  cases s with
  | declaration sort => cases e
  | production q => cases e; exact ⟨q, hs, rfl⟩

theorem sort_restrict (v : Vocabulary) (cfg : Settings) (p : Production) :
    (v.restrict cfg p).sort = p.sort := by
  unfold restrict
  split <;> rfl

theorem mem_terminals_restrict {p : Production} {t : Terminal}
    (hint : cfg.isInternal p.sort = false) (h : t ∈ (v.restrict cfg p).terminals) :
    ∃ t₀ ∈ p.terminals, v.restrictTerminal t₀ = t := by
  rw [restrict, if_neg (by simp [hint])] at h
  obtain ⟨item, hitem, e⟩ := List.mem_map.1 (Production.mem_terminals_iff.1 h)
  cases item with
  | nonTerminal s => cases e
  | terminal t₀ => cases e; exact ⟨t₀, Production.mem_terminals_iff.2 hitem, rfl⟩

theorem allTerminals_restrictAll {P Q : Terminal → Prop} (h : ∀ t, P t → Q (v.restrictTerminal t))
    (hP : AllTerminals cfg P set) : AllTerminals cfg Q (v.restrictAll cfg set) := by
  intro p hp hint t ht
  obtain ⟨q, hq, rfl⟩ := mem_restrictAll hp
  rw [sort_restrict] at hint
  obtain ⟨t₀, ht₀, rfl⟩ := mem_terminals_restrict hint ht
  exact h t₀ (hP q hq hint t₀ ht₀)

end Vocabulary

/-! ## Lists -/

namespace UserList

/-- The recursive cons of a list. -/
def recursiveCons (cfg : Settings) (u : UserList) : Production :=
  .ofRow (cfg.nonEmptySort u.sort) (.nonTerminal u.element)
    [.ofText u.separator, .nonTerminal (cfg.nonEmptySort u.sort)] (some u.listLabel)
    (u.withOrigin cfg u.listLabel u.cons)

theorem terminals_recursiveCons (u : UserList) :
    (u.recursiveCons cfg).terminals = [{ text := u.separator }] := rfl

/-- All terminals of a recursive form but the separator are blank. -/
theorem mem_parseForm {u : UserList} {p : Production} (h : .production p ∈ parseForm cfg u) :
    p = u.recursiveCons cfg ∨ ∀ t ∈ p.terminals, Text.isBlank t.text = true := by
  simp only [parseForm, List.mem_append, List.mem_cons, reduceCtorEq, Sentence.production.injEq,
    List.not_mem_nil, or_false, false_or] at h
  rcases h with (rfl | rfl | rfl | rfl) | h
  · refine .inr fun t ht => ?_
    obtain rfl : t = { text := "" } := by
      simpa [Production.mem_terminals_iff, Production.ofRow, Item.ofText] using ht
    exact Text.isBlank_empty
  · exact .inl rfl
  · exact .inr fun t ht => by simp [Production.mem_terminals_iff, Production.ofRow] at ht
  · exact .inr fun t ht => by simp at ht
  · split at h
    · cases h
    · simp only [List.mem_singleton, Sentence.production.injEq] at h
      exact .inr fun t ht => by simp [h] at ht

/-- The separator of a list stands in a production of a sort that is not internal. -/
theorem separator_mem {u : UserList} (h : u ∈ ofSentences cfg set.toList) :
    ∃ p, .production p ∈ set ∧ cfg.isInternal p.sort = false ∧
      ∃ t ∈ p.terminals, t.text = u.separator := by
  obtain ⟨cons, hcons, hparts, -⟩ := exists_cons h
  obtain ⟨hfree, hmem, hsort, -⟩ := mem_declared.1 (List.mem_of_find?_eq_some hcons)
  obtain ⟨t, htext, hitems⟩ := consParts?_eq_some_iff.1 hparts
  exact ⟨cons, hmem, hsort ▸ Settings.isInternal_of_isReserved hfree, t,
    Production.mem_terminals_iff.2 (by simp [hitems]), htext⟩

end UserList

/-! ## The stages -/

namespace Synthesizer

theorem terminalsFrom_loosenCells (h : loosenCells cfg cs set = .ok new) :
    TerminalsFrom set new := by
  intro p hp t ht
  rcases origin_of_loosenCells h hp with hp | hp | ⟨q, r, hq, hl, e⟩
  · exact ⟨p, hp, rfl, ht⟩
  · obtain ⟨sort, e⟩ := eq_injection_of_mem_bridges hp
    cases e
    simp at ht
  · cases e
    exact ⟨q, hq, hl.sort.symm, Production.mem_terminals_iff.2
      (hl.terminals t (Production.mem_terminals_iff.1 ht))⟩

theorem terminalsFrom_addRuleLists (cfg : Settings) (cs : Capabilities) (set : SentenceSet) :
    TerminalsFrom set (addRuleLists cfg cs set) := by
  intro p hp t ht
  rcases mem_addRuleLists.1 hp with hp | ⟨-, u, -, e⟩
  · exact ⟨p, hp, rfl, ht⟩
  · cases e
    simp at ht

/-- The lists that a grammar for programs writes out. -/
def writtenLists (cfg : Settings) (cs : Capabilities) (m : Module) : List UserList :=
  if .programLists ∈ cs then UserList.ofSentences cfg m.sentences.toList else []

theorem separator_mem_of_written {m : Module} {u : UserList} (h : u ∈ writtenLists cfg cs m) :
    ∃ p, .production p ∈ m.sentences ∧ cfg.isInternal p.sort = false ∧
      ∃ t ∈ p.terminals, t.text = u.separator := by
  unfold writtenLists at h
  split at h
  · exact UserList.separator_mem h
  · cases h

/-- A production of a parse module comes from the disambiguation module, says nothing, or is the
recursive cons of a list. -/
theorem mem_desugar {m : Module} {p : Production}
    (h : .production p ∈ ((desugar? cfg cs m).getD m).sentences) :
    .production p ∈ m.sentences ∨ (∀ t ∈ p.terminals, Text.isBlank t.text = true) ∨
      ∃ u ∈ writtenLists cfg cs m, p = u.recursiveCons cfg := by
  unfold writtenLists
  by_cases hcs : .programLists ∈ cs
  · rw [if_pos hcs]
    obtain ⟨-, hp | hp | ⟨u, hu, hp⟩⟩ := (mem_desugar_iff hcs).1 h
    · exact .inl hp
    · obtain ⟨s, -, e⟩ := List.mem_map.1 hp
      cases e
      exact .inr (.inl (by simp))
    · rcases UserList.mem_parseForm hp with rfl | hblank
      · exact .inr (.inr ⟨u, hu, rfl⟩)
      · exact .inr (.inl hblank)
  · rw [desugar?, if_neg hcs] at h
    exact .inl h

end Synthesizer

end GrammarSynthesis
