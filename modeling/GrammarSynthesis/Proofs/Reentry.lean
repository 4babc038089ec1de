import GrammarSynthesis.Proofs.Assembly
import GrammarSynthesis.Sample.Lambda

/-!
# Modules of the user behind base modules

The modules of a bundle import base modules only. What they import in turn is looked up from the top
layer down, though, and a module of the user may have a name that a base module imports. The closure
then leaves the base, and the parser sees what the user wrote there beside what the stages made of
it: cells without dots, terminals without restrictions, and lists in their written form.

* `Definition.Reenters`: the closure has a base module that imports a name of the top layer;
* `own_modules_return_iff`: modules of the top layer come back if and only if it does;
* `own_module_returns`: over the base modules, a user's module with the name of a marker comes back.
-/
namespace GrammarSynthesis

namespace Definition

/-- A base module of the closure imports a name of the top layer. -/
def Reenters (d : Definition) (closure : List Module) : Prop :=
  ∃ x ∈ closure, d.isBase x.name = true ∧ ∃ n ∈ x.imports, n ∈ d.ownNames

instance (d : Definition) (closure : List Module) : Decidable (d.Reenters closure) :=
  inferInstanceAs <| Decidable <|
    ∃ x ∈ closure, d.isBase x.name = true ∧ ∃ n ∈ x.imports, n ∈ d.ownNames

variable {d : Definition} {m flat : Module} {closure flatClosure : List Module}
  (h : d.flatten m = .ok flat) (hm : d.importClosure m = .ok closure)
include h hm

/-- Imports lead from the flat module to base modules and, as long as none of these imports a name
of the top layer, to nothing else. -/
theorem isBase_of_reaches_flat (hr : ¬ d.Reenters closure) {n : String}
    (hn : d.Reaches flat.imports n) : d.isBase n = true := by
  have hall := exists_importClosure_iff.1 ⟨closure, hm⟩
  induction hn with
  | @direct name hi =>
    obtain ⟨_, _, -, himports⟩ := flatten_spec h
    exact ((himports name).1 hi).1
  | @step name next x hname hget hi ih =>
    have hx := name_of_get? hget
    have hreach := reaches_of_reaches_flat h hname
    have hmem : x ∈ closure := (mem_importClosure_iff hm).2 ⟨hx ▸ hreach, hx ▸ hget⟩
    have hfound := hall next (hreach.step hget hi)
    exact isBase_iff.2 ⟨fun hown => hr ⟨x, hmem, hx ▸ ih, next, hi, hown⟩, hfound⟩

/-- The closure of the flat module stays within the base unless a base module leaves it. -/
theorem no_own_module_iff (hf : d.importClosure flat = .ok flatClosure) :
    (∀ x ∈ flatClosure, x.name ∉ d.ownNames) ↔ ¬ d.Reenters closure := by
  constructor
  · intro hall hr
    obtain ⟨x, hx, hb, n, hi, hown⟩ := hr
    have hxf := (mem_flatClosure_iff_of_base h hm hf hb).2 hx
    obtain ⟨hreach, hget⟩ := (mem_importClosure_iff hf).1 hxf
    obtain ⟨y, hy, hgy⟩ := found_of_reaches hf (hreach.step hget hi)
    exact hall y hy (name_of_get? hgy ▸ hown)
  · intro hr x hx
    have hreach := ((mem_importClosure_iff hf).1 hx).1
    exact (isBase_iff.1 (isBase_of_reaches_flat h hm hr hreach)).1

end Definition

namespace Synthesizer

open Definition

/-- **Modules of the user come back through the base, and only so.** The closures of the two flat
modules of a bundle hold a module of the user's top layer if and only if a base module of the
extension's closure imports a name of that layer. Otherwise each sentence that the parser sees is
one of the parse module itself or of a base module. -/
theorem own_modules_return_iff {a : Synthesizer} {d : Definition} {seed : Module} {b : Bundle}
    (h : a.combine d seed = .ok b) :
    ∃ closure imported visible, d.importClosure b.extension = .ok closure ∧
      b.definition.importClosure b.disambiguation = .ok imported ∧
      b.definition.importClosure b.parse = .ok imported ∧ b.parseSentences = .ok visible ∧
      ((∀ x ∈ imported, x.name ∉ d.ownNames) ↔ ¬ d.Reenters closure) ∧
      (¬ d.Reenters closure → ∀ s ∈ visible, s ∈ b.parse.sentences ∨
        ∃ x ∈ imported, d.isBase x.name = true ∧ s ∈ x.sentences) := by
  obtain ⟨st, made, rfl⟩ := combine_eq_ok_iff.1 h
  obtain ⟨flatClosure, hf, hclosures⟩ := made.importClosure_bundle
  have hparse := hclosures _ (.inr rfl)
  refine ⟨st.closure, _, _, made.closure, hclosures _ (.inl rfl), hparse,
    Outcome.map_eq_ok_iff.2 ⟨_, hparse, rfl⟩, ?_, ?_⟩
  · rw [← no_own_module_iff made.flat made.closure hf]
    simp only [List.forall_mem_map, seenThrough_name]
  · intro hr s hs
    obtain ⟨x, hx, hs⟩ := mem_sentencesOf.1 hs
    rcases List.mem_cons.1 hx with rfl | hx
    · exact .inl hs
    · obtain ⟨y, hy, rfl⟩ := List.mem_map.1 hx
      have hreach := ((mem_importClosure_iff hf).1 hy).1
      have hb := isBase_of_reaches_flat made.flat made.closure hr hreach
      exact .inr ⟨_, hx, by rw [seenThrough_name]; exact hb, hs⟩

/-- The sample: its module has no name that a base module imports. -/
theorem own_modules_return_iff_lambda :
    ∃ a, create {} (Settings.standardBase {}) false = .ok a ∧
      ∃ seed, a.seed (a.emptyDefinition.insert Sample.lambdaModule) "LAMBDA" .program = .ok seed ∧
      ∃ b, a.combine (a.emptyDefinition.insert Sample.lambdaModule) seed = .ok b ∧
      ∃ imported, b.definition.importClosure b.parse = .ok imported ∧
        ∀ x ∈ imported, x.name ∉ (a.emptyDefinition.insert Sample.lambdaModule).ownNames := by
  have run : ∃ a, create {} (Settings.standardBase {}) false = .ok a ∧
      ∃ seed, a.seed (a.emptyDefinition.insert Sample.lambdaModule) "LAMBDA" .program = .ok seed ∧
      ∃ b, a.combine (a.emptyDefinition.insert Sample.lambdaModule) seed = .ok b ∧
      ∃ closure, (a.emptyDefinition.insert Sample.lambdaModule).importClosure b.extension =
          .ok closure ∧ ¬ (a.emptyDefinition.insert Sample.lambdaModule).Reenters closure := by
    decide +kernel
  obtain ⟨a, ha, seed, hseed, b, hb, closure, hclosure, hr⟩ := run
  obtain ⟨closure', imported, -, hc, -, himported, -, hiff, -⟩ := own_modules_return_iff hb
  rw [hclosure] at hc
  cases hc
  exact ⟨a, ha, seed, hseed, b, hb, imported, himported, hiff.2 hr⟩

/-- A module of the user that has the name of a marker of the base. -/
def markerNamesake : Module where
  name := "K-TOP-SORT"
  sentences := Catalog.ofList [
    Sample.rule "KCell" (Sample.word "<k>") [Sample.sort "K", Sample.word "</k>"] "<k>"
      Sample.cellTag,
    Sample.rule "Exp" (Sample.sort "Exp") [Sample.word "<", Sample.sort "Exp"] "_<_",
    Sample.rule "Exps" (Sample.sort "Exp") [Sample.word ",", Sample.sort "Exps"] "_,_"
      Sample.listTag,
    Sample.rule "Exps" (Sample.word ".Exps") [] ".Exps" Sample.listTag]

/-- A seed that asks for cells with dots, follow restrictions and lists that are written out. -/
def namesakeSeed : Module where
  name := "SEED"
  imports := ["K-TOP-SORT", "RULE-CELLS", "PROGRAM-LISTS"]

/-- The marker module of rules imports the user's module by its name. So the parser sees the cell,
the terminal `<` and the two productions of the list as they were written, beside what the stages
made of them. -/
theorem own_module_returns :
    ∃ a, create {} (Settings.standardBase {}) false = .ok a ∧
      ∃ b, a.combine (a.emptyDefinition.insert markerNamesake) namesakeSeed = .ok b ∧
      (∃ imported, b.definition.importClosure b.disambiguation = .ok imported ∧
        b.definition.importClosure b.parse = .ok imported ∧
        ∃ x ∈ imported, x.name ∈ (a.emptyDefinition.insert markerNamesake).ownNames) ∧
      ∃ visible, b.parseSentences = .ok visible ∧
        ∀ s ∈ markerNamesake.sentences.toList, s ∈ visible ∧ s ∉ b.parse.sentences := by
  decide +kernel

end Synthesizer

end GrammarSynthesis
