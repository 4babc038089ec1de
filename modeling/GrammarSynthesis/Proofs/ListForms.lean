import GrammarSynthesis.Proofs.Extension
import GrammarSynthesis.Proofs.StageSentences
import GrammarSynthesis.Sample.Lambda

/-!
# The forms of a list

A list has a form for disambiguation, the injection of its elements, and a recursive form for the
parser. Each form alone reads a list of one element in one way, and both together read it in two.
The two forms come from capabilities of their own, though, and the parse module starts as a copy of
the disambiguation module. So a grammar that has both capabilities has both forms.

* `Stages.Made.injection_mem_disambiguation`, `Stages.injection_mem_parse`: which injections a bundle
  has;
* `element_injection_iff`: when the injection of the elements stands beside the recursive form;
* `element_injection_beside_recursive_form`: a list with both forms.
-/
namespace GrammarSynthesis

namespace Synthesizer

open Definition

namespace Stages

variable {st : Stages} {a : Synthesizer} {d : Definition} {seed : Module} {sort sub : SortName}

theorem injection_mem_restricted {cfg : Settings} {set : SentenceSet} :
    .production (.injection sort sub) ∈ st.restricted cfg set ↔
      .production (.injection sort sub) ∈ set := by
  constructor
  · intro hs
    obtain ⟨x, hx, hbare⟩ := bare_of_mem_restricted hs
    obtain rfl : x = .production (.injection sort sub) :=
      Sentence.bare_eq_injection_iff.1 hbare.symm
    exact hx
  · intro hx
    obtain ⟨s, hs, hbare⟩ := bare_mem_restricted hx
    obtain rfl : s = .production (.injection sort sub) := Sentence.bare_eq_injection_iff.1 hbare
    exact hs

/-- An injection of a parse module with lists written out stands in the disambiguation module, makes
a term of the top sort, or belongs to the recursive form of a list. -/
theorem injection_mem_parse (hcs : .programLists ∈ st.capabilities) :
    .production (.injection sort sub) ∈ (st.bundle a d seed).parse.sentences ↔
      .production (.injection sort sub) ∈ (st.disambiguation a.settings).sentences ∨
      .production (.injection sort sub) ∈
        topSortInjections a.settings (st.disambiguation a.settings) ∨
      ∃ u ∈ UserList.ofSentences a.settings (st.disambiguation a.settings).sentences.toList,
        .production (.injection sort sub) ∈ u.parseForm a.settings :=
  (mem_parse_iff hcs).trans (and_iff_right rfl)

/-- An injection of the disambiguation module was written by the user, connects a cell to the sort
of all cells, or makes an element a list. -/
theorem Made.injection_mem_disambiguation (h : st.Made a d seed) :
    .production (.injection sort sub) ∈ (st.disambiguation a.settings).sentences ↔
      .production (.injection sort sub) ∈ st.flat.sentences ∨
      .production (.injection sort sub) ∈
        bridges a.settings st.capabilities st.flat.sentences ∨
      .ruleLists ∈ st.capabilities ∧ ∃ u ∈ UserList.ofSentences a.settings
        (st.disambiguation a.settings).sentences.toList, u.sort = sort ∧ u.element = sub := by
  rw [mem_disambiguation_iff, injection_mem_restricted, injection_mem_loosenCells h.loosened,
    or_assoc]
  simp only [Production.injection, Production.ofRow, Sentence.production.injEq,
    Production.mk.injEq, List.cons.injEq, Item.nonTerminal.injEq, and_true, eq_comm (a := sort),
    eq_comm (a := sub)]

end Stages

/-- **When a list has both forms.** In a grammar with lists written out, the recursive form of each
list stands in the parse module. The injection of its elements stands beside it if and only if

* the user wrote it, or lists of rules are on as well, or
* another stage makes the very same injection: into the sort of all cells, into the top sort, or out
  of a scaffolding sort. -/
theorem element_injection_iff {a : Synthesizer} {d : Definition} {seed : Module} {b : Bundle}
    {cs : Capabilities} (h : a.combine d seed = .ok b)
    (hcs : a.settings.capabilities d seed = .ok cs) (hlists : .programLists ∈ cs) :
    ∃ user, d.userSentences b.extension = .ok user ∧
      ∀ u ∈ UserList.ofSentences a.settings b.disambiguation.sentences.toList,
        .production (.injection u.sort (a.settings.nonEmptySort u.sort)) ∈ b.parse.sentences ∧
        (.production (.injection u.sort u.element) ∈ b.parse.sentences ↔
          .production (.injection u.sort u.element) ∈ user ∨ .ruleLists ∈ cs ∨
          .production (.injection u.sort u.element) ∈ bridges a.settings cs user ∨
          .production (.injection u.sort u.element) ∈
            topSortInjections a.settings b.disambiguation ∨
          .production (.injection u.sort u.element) ∈ u.parseForm a.settings) := by
  obtain ⟨st, made, rfl⟩ := combine_eq_ok_iff.1 h
  obtain rfl : st.capabilities = cs := Except.ok.inj (made.capabilities.symm.trans hcs)
  refine ⟨_, userSentences_of_flatten made.flat, fun u hu => ⟨?_, ?_⟩⟩
  · refine (Stages.injection_mem_parse hlists).2 (.inr (.inr ⟨u, hu, ?_⟩))
    exact UserList.injection_mem_parseForm.2 ⟨rfl, .inl rfl⟩
  · -- the list is the only one of its sort
    have hform : (∃ u' ∈ UserList.ofSentences a.settings
          (st.disambiguation a.settings).sentences.toList,
          .production (.injection u.sort u.element) ∈ u'.parseForm a.settings) ↔
        .production (.injection u.sort u.element) ∈ u.parseForm a.settings := by
      refine ⟨fun hex => ?_, fun hin => ⟨u, hu, hin⟩⟩
      obtain ⟨u', hu', hin⟩ := hex
      have hsort : u.sort = u'.sort := (UserList.injection_mem_parseForm.1 hin).1
      exact UserList.eq_of_sort_eq hu hu' hsort ▸ hin
    have hrule : (.ruleLists ∈ st.capabilities ∧ ∃ u' ∈ UserList.ofSentences a.settings
          (st.disambiguation a.settings).sentences.toList,
          u'.sort = u.sort ∧ u'.element = u.element) ↔ .ruleLists ∈ st.capabilities :=
      and_iff_left ⟨u, hu, rfl, rfl⟩
    rw [Stages.injection_mem_parse hlists, made.injection_mem_disambiguation, hform, hrule,
      or_assoc, or_assoc]
    exact or_congr_right or_left_comm

/-- A list of expressions between commas. -/
def expressionList : Module where
  name := "LISTS"
  sentences := Catalog.ofList [
    Sample.rule "Exps" (Sample.sort "Exp") [Sample.word ",", Sample.sort "Exps"] "_,_"
      Sample.listTag,
    Sample.rule "Exps" (Sample.word ".Exps") [] ".Exps" Sample.listTag]

/-- A seed of the list that has the capabilities of some markers. -/
def expressionSeed (markers : List String) : Module where
  name := "SEED"
  imports := "LISTS" :: markers

/-- Without lists of rules: the recursive form stands alone. -/
theorem element_injection_iff_expressions :
    ∃ a, create {} (Settings.standardBase {}) false = .ok a ∧
      ∃ b, a.combine (a.emptyDefinition.insert expressionList)
        (expressionSeed ["PROGRAM-LISTS"]) = .ok b ∧
      ∃ u ∈ UserList.ofSentences a.settings b.disambiguation.sentences.toList,
        .production (.injection u.sort (a.settings.nonEmptySort u.sort)) ∈ b.parse.sentences ∧
        .production (.injection u.sort u.element) ∉ b.parse.sentences := by
  have run : ∃ a, create {} (Settings.standardBase {}) false = .ok a ∧
      ∃ cs, a.settings.capabilities (a.emptyDefinition.insert expressionList)
        (expressionSeed ["PROGRAM-LISTS"]) = .ok cs ∧ .programLists ∈ cs ∧ .ruleLists ∉ cs ∧
      ∃ b, a.combine (a.emptyDefinition.insert expressionList)
        (expressionSeed ["PROGRAM-LISTS"]) = .ok b ∧
      ∃ user, (a.emptyDefinition.insert expressionList).userSentences b.extension = .ok user ∧
      ∃ u ∈ UserList.ofSentences a.settings b.disambiguation.sentences.toList,
        .production (.injection u.sort u.element) ∉ user ∧
        .production (.injection u.sort u.element) ∉ bridges a.settings cs user ∧
        .production (.injection u.sort u.element) ∉
          topSortInjections a.settings b.disambiguation ∧
        .production (.injection u.sort u.element) ∉ u.parseForm a.settings := by
    decide +kernel
  obtain ⟨a, ha, cs, hcs, hlists, hrules, b, hb, user, huser, u, hu, hwritten, hbridge, htop,
    hform⟩ := run
  obtain ⟨user', huser', hall⟩ := element_injection_iff hb hcs hlists
  obtain rfl : user = user' := Except.ok.inj (huser.symm.trans huser')
  obtain ⟨hrecursive, hiff⟩ := hall u hu
  refine ⟨a, ha, b, hb, u, hu, hrecursive, fun h => ?_⟩
  rcases hiff.1 h with h | h | h | h | h
  · exact hwritten h
  · exact hrules h
  · exact hbridge h
  · exact htop h
  · exact hform h

/-- With lists of rules: the disambiguation module has the injection of the elements, and the parse
module keeps it beside the recursive form. The user wrote no such injection. -/
theorem element_injection_beside_recursive_form :
    ∃ a, create {} (Settings.standardBase {}) false = .ok a ∧
      (∃ cs, a.settings.capabilities (a.emptyDefinition.insert expressionList)
        (expressionSeed ["RULE-LISTS", "PROGRAM-LISTS"]) = .ok cs ∧ .programLists ∈ cs) ∧
      ∃ b, a.combine (a.emptyDefinition.insert expressionList)
        (expressionSeed ["RULE-LISTS", "PROGRAM-LISTS"]) = .ok b ∧
      ∃ user, (a.emptyDefinition.insert expressionList).userSentences b.extension = .ok user ∧
      ∃ u ∈ UserList.ofSentences a.settings b.disambiguation.sentences.toList,
        (∀ s ∈ u.parseForm a.settings, s ∈ b.parse.sentences) ∧
        .production (.injection u.sort u.element) ∈ b.parse.sentences ∧
        .production (.injection u.sort u.element) ∉ user := by
  decide +kernel

end Synthesizer

end GrammarSynthesis
