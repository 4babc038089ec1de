import GrammarSynthesis.Proofs.Extension
import GrammarSynthesis.Proofs.StageSentences
import GrammarSynthesis.Sample.Lambda

/-!
# Failures

Import closures are asked for again and again on the way to a bundle: for the capabilities of the
seed, for its casts, for the flat module, the vocabulary and the restricted copies of the extension.
They are closures of two modules only, so whatever has come through once comes through again. What
else may fail is the loosening of cells, and only in a grammar for rules. It takes the sentences in
order and reports the first cell without brackets.

* `Production.exists_brackets_iff`: what has brackets;
* `firstMalformed_iff`: the least malformed cell comes before all others;
* `CellKinds.loosenAll_eq_error_iff`: loosening fails at the first malformed cell;
* `combine_eq_error_iff`: once the two closures are there, assembling fails as loosening does;
* `combine_outcome`: when assembling fails, and with which error.
-/
namespace GrammarSynthesis

variable {cfg : Settings} {set : SentenceSet}

/-! ## Malformed cells -/

namespace Production

/-- The production has two items at least, and begins and ends with terminals. -/
def Bracketed (p : Production) : Prop :=
  2 ≤ p.items.length ∧ (∃ t, p.items.head? = some (.terminal t)) ∧
    ∃ t, p.items.getLast? = some (.terminal t)

/-- A cell without brackets. -/
structure MalformedCell (cfg : Settings) (p : Production) : Prop where
  tagged : p.hasAttribute cfg.keys.cell = true
  unbracketed : ¬ p.Bracketed

/-- The error that reports a malformed cell. -/
def malformed (p : Production) : SynthesisError := .malformedCell p.sort p.render p.location

theorem exists_brackets_iff {p : Production} : (∃ b, p.brackets? = some b) ↔ p.Bracketed := by
  obtain ⟨sort, items, label, attributes, location, hne⟩ := p
  rcases items with _ | ⟨first, _ | ⟨second, rest⟩⟩
  · exact absurd rfl hne
  · simp [brackets?, Bracketed]
  · simp only [brackets?, Bracketed, List.head?_cons, List.tail_cons, List.getLast?_cons_cons]
    cases first with
    | nonTerminal s => simp
    | terminal t =>
      rcases (second :: rest).getLast? with _ | _ | _ <;> simp

end Production

/-- Of the malformed cells of the set, the production is the least in the order of sentences. -/
structure FirstMalformed (cfg : Settings) (set : SentenceSet) (p : Production) : Prop where
  mem : .production p ∈ set
  malformed : p.MalformedCell cfg
  least : ∀ q, .production q ∈ set → q.MalformedCell cfg →
    (compare (Sentence.production p) (.production q)).isLE = true

/-- Sentences are listed in their order, so the first malformed cell of the list is the least. -/
theorem firstMalformed_iff {p : Production} :
    FirstMalformed cfg set p ↔ p.MalformedCell cfg ∧
      ∃ before after, set.toList = before ++ .production p :: after ∧
        ∀ q, .production q ∈ before → ¬ q.MalformedCell cfg := by
  constructor
  · intro h
    obtain ⟨before, after, hset⟩ := List.append_of_mem (Catalog.mem_toList.2 h.mem)
    refine ⟨h.malformed, before, after, hset, fun q hq hbad => ?_⟩
    have hmem : .production q ∈ set := by
      rw [← Catalog.mem_toList, hset]
      exact List.mem_append_left _ hq
    have hlt : compare (Sentence.production q) (.production p) = .lt :=
      (Catalog.lt_of_split hset).1 _ hq
    have hle := h.least q hmem hbad
    rw [Std.OrientedCmp.gt_of_lt hlt] at hle
    cases hle
  · rintro ⟨hp, before, after, hset, hbefore⟩
    have hmem : ∀ q, .production q ∈ set ↔ .production q ∈ before ∨ q = p ∨
        .production q ∈ after := by
      intro q
      rw [← Catalog.mem_toList, hset, List.mem_append, List.mem_cons, Sentence.production.injEq]
    refine ⟨(hmem p).2 (.inr (.inl rfl)), hp, fun q hq hbad => ?_⟩
    rcases (hmem q).1 hq with hq | rfl | hq
    · exact absurd hbad (hbefore q hq)
    · rw [Std.ReflOrd.compare_self]
      rfl
    · exact Ordering.isLE_of_eq_lt ((Catalog.lt_of_split hset).2 _ hq)

namespace CellKinds

variable {kinds : CellKinds} {e : SynthesisError}

theorem loosen_eq_error_iff {p : Production} :
    loosen cfg kinds p = .error e ↔ ¬ p.Bracketed ∧ e = p.malformed := by
  rw [← Production.exists_brackets_iff, loosen]
  cases p.brackets? with
  | none => simp [Production.malformed, eq_comm]
  | some b => simp

theorem replacements_eq_error_iff {x : Sentence} :
    replacements cfg kinds x = .error e ↔
      ∃ p, x = .production p ∧ p.MalformedCell cfg ∧ e = p.malformed := by
  cases x with
  | declaration s => simp [replacements]
  | production p =>
    simp only [Sentence.production.injEq, exists_eq_left', replacements]
    split
    · rename_i htag
      rw [Outcome.map_eq_error_iff, loosen_eq_error_iff]
      exact and_congr_left fun _ => ⟨fun h => ⟨htag, h⟩, fun h => h.unbracketed⟩
    · rename_i htag
      have hno : ¬ p.MalformedCell cfg := fun h => htag h.tagged
      split <;> simp [hno]

theorem exists_replacements_iff {x : Sentence} :
    (∃ group, replacements cfg kinds x = .ok group) ↔
      ∀ p, x = .production p → ¬ p.MalformedCell cfg := by
  rw [Outcome.exists_ok_iff]
  constructor
  · intro h p hx hp
    exact h p.malformed (replacements_eq_error_iff.2 ⟨p, hx, hp, rfl⟩)
  · intro h e he
    obtain ⟨p, hx, hp, -⟩ := replacements_eq_error_iff.1 he
    exact h p hx hp

/-- Loosening fails at the first malformed cell. -/
theorem loosenAll_eq_error_iff :
    loosenAll cfg kinds set = .error e ↔ ∃ p, FirstMalformed cfg set p ∧ e = p.malformed := by
  rw [loosenAll, Outcome.map_eq_error_iff, Outcome.mapM_eq_error_iff]
  constructor
  · rintro ⟨before, x, after, hset, hbefore, hx⟩
    obtain ⟨p, rfl, hp, rfl⟩ := replacements_eq_error_iff.1 hx
    exact ⟨p, firstMalformed_iff.2 ⟨hp, before, after, hset, fun q hq =>
      exists_replacements_iff.1 (hbefore _ hq) q rfl⟩, rfl⟩
  · rintro ⟨p, hfirst, rfl⟩
    obtain ⟨hp, before, after, hset, hbefore⟩ := firstMalformed_iff.1 hfirst
    refine ⟨before, _, after, hset, fun x hx => exists_replacements_iff.2 fun q hq => ?_,
      replacements_eq_error_iff.2 ⟨p, rfl, hp, rfl⟩⟩
    exact hbefore q (hq ▸ hx)

/-- If there is a malformed cell, there is a first one. -/
theorem exists_firstMalformed {p : Production} (hmem : .production p ∈ set)
    (hp : p.MalformedCell cfg) : ∃ first, FirstMalformed cfg set first := by
  cases h : loosenAll cfg ∅ set with
  | ok new =>
    obtain ⟨q, hq, -⟩ := exists_loosened h hmem hp.tagged
    rw [loosen_eq_error_iff.2 ⟨hp.unbracketed, rfl⟩] at hq
    cases hq
  | error e =>
    obtain ⟨first, hfirst, -⟩ := loosenAll_eq_error_iff.1 h
    exact ⟨first, hfirst⟩

end CellKinds

namespace Synthesizer

open Definition

variable {cs : Capabilities} {e : SynthesisError}

/-- Cells fail in grammars for rules only. -/
theorem loosenCells_eq_error_iff :
    loosenCells cfg cs set = .error e ↔
      .ruleCells ∈ cs ∧ ∃ p, FirstMalformed cfg set p ∧ e = p.malformed := by
  unfold loosenCells
  split
  · rename_i hcs
    split
    · rw [CellKinds.loosenAll_eq_error_iff]
      exact (and_iff_right hcs).symm
    · rename_i hnone
      refine iff_of_false (by simp) ?_
      rintro ⟨-, p, hp, -⟩
      have hcell : p ∈ CellKinds.cellProductions cfg set.toList :=
        List.mem_filter.2 ⟨mem_productionsOf.2 hp.mem, hp.malformed.tagged⟩
      rw [CellKinds.ofSentences?, if_neg (by simpa using List.ne_nil_of_mem hcell)] at hnone
      cases hnone
  · rename_i hcs
    exact iff_of_false (by simp) fun h => hcs h.1

/-! ## The stages of a bundle -/

variable {a : Synthesizer} {d : Definition} {seed : Module} {closure : List Module}

theorem capabilities_eq_error_iff :
    cfg.capabilities d seed = .error e ↔ d.importClosure seed = .error e := by
  rw [Settings.capabilities, Outcome.map_eq_error_iff, importedNames, Outcome.map_eq_error_iff]

theorem exists_extend? (h : d.importClosure seed = .ok closure) (cfg : Settings)
    (cs : Capabilities) : ∃ extended, Casts.extend? cfg d seed cs = .ok extended := by
  obtain ⟨flat, hflat⟩ := exists_flatten_iff.2 ⟨closure, h⟩
  obtain ⟨visible, hvisible⟩ := exists_visibleSentences hflat
  obtain ⟨new, hnew⟩ : ∃ new, Casts.additions cfg d seed cs = .ok new :=
    Casts.exists_additions (userSentences_of_flatten hflat) hvisible
  exact ⟨_, Outcome.map_eq_ok_iff.2 ⟨new, hnew, rfl⟩⟩

theorem exists_vocabulary? {extension : Module} {visible : SentenceSet}
    (h : d.visibleSentences extension = .ok visible) (cfg : Settings) (cs : Capabilities) :
    ∃ v, vocabulary? cfg cs d extension = .ok v := by
  unfold vocabulary?
  split
  · exact ⟨_, Outcome.map_eq_ok_iff.2 ⟨visible, h, rfl⟩⟩
  · exact ⟨none, rfl⟩

section Combine

variable {extended : Option Module} (hcs : a.settings.capabilities d seed = .ok cs)
  (hextended : Casts.extend? a.settings d seed cs = .ok extended)
include hcs hextended

theorem combine_eq_error_of_importClosure (h : d.importClosure (extended.getD seed) = .error e) :
    a.combine d seed = .error e := by
  have hflat : d.flatten (extended.getD seed) = .error e := Outcome.map_eq_error_iff.2 h
  simp [combine, hcs, hextended, hflat, bind, Except.bind]

/-- Once the extension can be flattened, cells alone can fail. -/
theorem combine_eq_error_iff {flat : Module} (hflat : d.flatten (extended.getD seed) = .ok flat) :
    a.combine d seed = .error e ↔ loosenCells a.settings cs flat.sentences = .error e := by
  obtain ⟨closure, hclosure⟩ := exists_flatten_iff.1 ⟨flat, hflat⟩
  obtain ⟨visible, hvisible⟩ := exists_visibleSentences hflat
  obtain ⟨vocabulary, hvocabulary⟩ := exists_vocabulary? hvisible a.settings cs
  cases hloosened : loosenCells a.settings cs flat.sentences with
  | error e' =>
    simp [combine, hcs, hextended, hflat, hloosened, bind, Except.bind]
  | ok loosened =>
    have hmade : Stages.Made ⟨cs, extended, flat, loosened, vocabulary, closure⟩ a d seed :=
      ⟨hcs, hextended, hflat, hloosened, hvocabulary, hclosure⟩
    rw [combine_eq_ok_iff.2 ⟨_, hmade, rfl⟩]
    simp

end Combine

/-! ## All that can fail -/

/-- **When assembling fails, and with which error.** It fails if the import closure of the seed
does. Else the casts are known, and it fails if the seed gets some and the import closure of the
extension fails. Else, in a grammar for rules, it fails if the user wrote a malformed cell, and
reports the first of them. Else there is a bundle. -/
theorem combine_outcome (a : Synthesizer) (d : Definition) (seed : Module) :
    (∀ e, d.importClosure seed = .error e → a.combine d seed = .error e) ∧
    ∀ seedClosure, d.importClosure seed = .ok seedClosure →
      ∃ cs extended, a.settings.capabilities d seed = .ok cs ∧
        Casts.extend? a.settings d seed cs = .ok extended ∧
        (∀ e, d.importClosure (extended.getD seed) = .error e →
          extended ≠ none ∧ a.combine d seed = .error e) ∧
        ∀ closure, d.importClosure (extended.getD seed) = .ok closure →
          ∃ user, d.userSentences (extended.getD seed) = .ok user ∧
            (.ruleCells ∈ cs → ∀ p, .production p ∈ user → p.MalformedCell a.settings →
              ∃ first, FirstMalformed a.settings user first ∧
                a.combine d seed = .error (.malformedCell first.sort first.render first.location)) ∧
            ((.ruleCells ∈ cs → ∀ p, .production p ∈ user → ¬ p.MalformedCell a.settings) →
              ∃ b, a.combine d seed = .ok b) := by
  refine ⟨fun e he => ?_, fun seedClosure hseed => ?_⟩
  · have hcs : a.settings.capabilities d seed = .error e := capabilities_eq_error_iff.2 he
    simp [combine, hcs, bind, Except.bind]
  obtain ⟨cs, hcs⟩ := exists_capabilities hseed a.settings
  obtain ⟨extended, hextended⟩ := exists_extend? hseed a.settings cs
  refine ⟨cs, extended, hcs, hextended, fun e he => ⟨?_, ?_⟩, fun closure hclosure => ?_⟩
  · rintro rfl
    rw [Option.getD_none, hseed] at he
    cases he
  · exact combine_eq_error_of_importClosure hcs hextended he
  obtain ⟨flat, hflat⟩ := exists_flatten_iff.2 ⟨closure, hclosure⟩
  refine ⟨flat.sentences, userSentences_of_flatten hflat, fun hrule p hmem hp => ?_, fun h => ?_⟩
  · obtain ⟨first, hfirst⟩ := CellKinds.exists_firstMalformed hmem hp
    have herror := loosenCells_eq_error_iff.2 ⟨hrule, first, hfirst, rfl⟩
    exact ⟨first, hfirst, (combine_eq_error_iff hcs hextended hflat).2 herror⟩
  · refine Outcome.exists_ok_iff.2 fun e he => ?_
    obtain ⟨hrule, first, hfirst, -⟩ :=
      loosenCells_eq_error_iff.1 ((combine_eq_error_iff hcs hextended hflat).1 he)
    exact h hrule first hfirst.mem hfirst.malformed

/-- Of two malformed cells the lesser is reported, and only in a grammar for rules. -/
example :
    let cells := ["BCell", "ACell"].map fun s =>
      Sample.rule s (Sample.word "<") [Sample.sort "K"] s Sample.cellTag
    ∃ a, create {} (Settings.standardBase {}) false = .ok a ∧
      let d := a.emptyDefinition.insert { name := "CELLS", sentences := Catalog.ofList cells }
      a.build d "CELLS" .rule =
          .error (.malformedCell ⟨"ACell"⟩ "ACell ::= \"<\" K [label(ACell), cell]" none) ∧
        (a.build d "CELLS" .configuration).toOption.isSome := by
  decide +kernel

end Synthesizer

end GrammarSynthesis
