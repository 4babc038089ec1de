import Mathlib.Data.List.Nodup
import GrammarSynthesis.Proofs.Flattening
import GrammarSynthesis.Proofs.PrivateLayer
import GrammarSynthesis.Synthesis.Synthesizer

/-!
# What a bundle is made of

`combine` chains its stages and gives a bundle only if each stage gives a result. `Stages` keeps the
results, and `Stages.Made` says that they are those of a seed. What is proved about bundles starts
from there, so a change to the chain is a change to this module.

* `combine_eq_ok_iff`: a bundle is what its stages make of the seed;
* `seenThrough_shadowLayer`: the layer of restricted copies, seen from the modules it hides;
* `Made.importClosure_bundle`: what the two flat modules of a bundle import.
-/
namespace GrammarSynthesis

namespace Definition

/-- A walk starts from the name and the imports of a module. -/
theorem importClosure_congr {d : Definition} {m m' : Module} (hname : m.name = m'.name)
    (himports : m.imports = m'.imports) : d.importClosure m = d.importClosure m' := by
  rw [importClosure, importClosure, hname, himports]

end Definition

namespace Synthesizer

open Definition

/-! ## Restricted copies -/

section Copies

variable {cfg : Settings} {d : Definition} {v : Vocabulary} {closure : List Module}

theorem restrictModule?_eq_some {x y : Module} (h : v.restrictModule? cfg x = some y) :
    y = { x with sentences := v.restrictAll cfg x.sentences } := by
  simp only [Vocabulary.restrictModule?] at h
  split at h
  · cases h
  · exact (Option.some.inj h).symm

/-- A module that gains no restriction is its own copy. -/
theorem getD_restrictModule? (x : Module) :
    (v.restrictModule? cfg x).getD x = { x with sentences := v.restrictAll cfg x.sentences } := by
  simp only [Vocabulary.restrictModule?]
  split
  · rename_i h
    rw [h]; rfl
  · rfl

theorem mem_shadowLayer {y : Module} (h : y ∈ shadowLayer cfg d v closure) :
    ∃ x ∈ closure, d.isBase x.name = true ∧ v.restrictModule? cfg x = some y := by
  obtain ⟨x, hx, hy⟩ := List.mem_filterMap.1 (Catalog.mem_of_mem_ofList h)
  obtain ⟨hx, hb⟩ := List.mem_filter.1 hx
  exact ⟨x, hx, hb, hy⟩

/-- Each base module of a closure is found as its restricted copy, and the others as they were. -/
theorem seenThrough_shadowLayer (hnodup : (closure.map Module.name).Nodup) {x : Module}
    (hx : x ∈ closure) :
    seenThrough (shadowLayer cfg d v closure) x =
      if d.isBase x.name then { x with sentences := v.restrictAll cfg x.sentences } else x := by
  have same : ∀ x' ∈ closure, x'.name = x.name → x' = x := fun x' hx' e =>
    List.inj_on_of_nodup_map hnodup hx' hx e
  have entry : ∀ y ∈ shadowLayer cfg d v closure, y.name = x.name →
      d.isBase x.name = true ∧ v.restrictModule? cfg x = some y := by
    intro y hy hname
    obtain ⟨x', hx', hb, hr⟩ := mem_shadowLayer hy
    have hx'name : x'.name = x.name := by rw [← hname, restrictModule?_eq_some hr]
    rw [same x' hx' hx'name] at hb hr
    exact ⟨hb, hr⟩
  unfold seenThrough
  cases hfind : (shadowLayer cfg d v closure).find? x.name with
  | some y =>
    obtain ⟨hy, hname⟩ := Catalog.find?_eq_some_iff.1 hfind
    obtain ⟨hb, hr⟩ := entry y hy hname
    rw [if_pos hb, ← restrictModule?_eq_some hr]; rfl
  | none =>
    split
    · rename_i hb
      rw [← getD_restrictModule?]
      cases hr : v.restrictModule? cfg x with
      | none => rfl
      | some y =>
        -- a copy would have been found
        have hin : y ∈ (baseModules d closure).filterMap (v.restrictModule? cfg) :=
          List.mem_filterMap.2 ⟨x, List.mem_filter.2 ⟨hx, hb⟩, hr⟩
        have hname : y.name = x.name := by rw [restrictModule?_eq_some hr]
        obtain ⟨z, hz⟩ : ∃ z, (shadowLayer cfg d v closure).find? y.name = some z :=
          Catalog.exists_find?_ofList hin
        rw [hname] at hz
        exact absurd (hfind.symm.trans hz) (by simp)
    · rfl

end Copies

/-! ## Stages -/

/-- What the stages of a bundle give. -/
structure Stages where
  capabilities : Capabilities
  extended : Option Module
  flat : Module
  loosened : SentenceSet
  vocabulary : Option Vocabulary
  closure : List Module

namespace Stages

variable (st : Stages)

/-- Sentences with the restrictions of the vocabulary, if there is one. -/
def restricted (cfg : Settings) (set : SentenceSet) : SentenceSet :=
  st.vocabulary.elim set fun v => v.restrictAll cfg set

def disambiguation (cfg : Settings) : Module :=
  { st.flat with sentences := addRuleLists cfg st.capabilities (st.restricted cfg st.loosened) }

/-- The bundle that the stages make. -/
def bundle (a : Synthesizer) (d : Definition) (seed : Module) : Bundle where
  seed := seed
  extended := st.extended
  disambiguation := st.disambiguation a.settings
  desugared := desugar? a.settings st.capabilities (st.disambiguation a.settings)
  strict := a.strict
  user := d
  shadows := st.vocabulary.elim ∅ fun v => shadowLayer a.settings d v st.closure

/-- The stages give these results for a seed. -/
structure Made (a : Synthesizer) (d : Definition) (seed : Module) : Prop where
  capabilities : a.settings.capabilities d seed = .ok st.capabilities
  extended : Casts.extend? a.settings d seed st.capabilities = .ok st.extended
  flat : d.flatten (st.extended.getD seed) = .ok st.flat
  loosened : loosenCells a.settings st.capabilities st.flat.sentences = .ok st.loosened
  vocabulary :
    vocabulary? a.settings st.capabilities d (st.extended.getD seed) = .ok st.vocabulary
  closure : d.importClosure (st.extended.getD seed) = .ok st.closure

end Stages

/-- A bundle is what its stages make of the seed. -/
theorem combine_eq_ok_iff {a : Synthesizer} {d : Definition} {seed : Module} {b : Bundle} :
    a.combine d seed = .ok b ↔ ∃ st : Stages, st.Made a d seed ∧ st.bundle a d seed = b := by
  simp only [combine, Outcome.bind_eq_ok_iff]
  constructor
  · intro h
    obtain ⟨cs, hcs, extended, he, flat, hf, loosened, hl, vocabulary, hv, closure, hc, hb⟩ := h
    exact ⟨⟨cs, extended, flat, loosened, vocabulary, closure⟩, ⟨hcs, he, hf, hl, hv, hc⟩,
      Except.ok.inj hb⟩
  · intro hst
    obtain ⟨st, h, rfl⟩ := hst
    exact ⟨_, h.capabilities, _, h.extended, _, h.flat, _, h.loosened, _, h.vocabulary, _,
      h.closure, rfl⟩

/-! ## What the modules of a bundle import -/

namespace Stages.Made

variable {st : Stages} {a : Synthesizer} {d : Definition} {seed : Module}
  (h : st.Made a d seed)

theorem parse_name_imports (st : Stages) (a : Synthesizer) (d : Definition) (seed : Module) :
    (st.bundle a d seed).parse.name = st.flat.name ∧
      (st.bundle a d seed).parse.imports = st.flat.imports := by
  simp only [Bundle.parse, bundle, desugar?]
  split <;> exact ⟨rfl, rfl⟩

/-- Each copy is one of a module of the extension's closure. -/
theorem mem_shadows {y : Module} (hy : y ∈ (st.bundle a d seed).shadows) :
    ∃ x ∈ st.closure, y.name = x.name ∧ y.imports = x.imports := by
  unfold bundle at hy
  cases hv : st.vocabulary with
  | none =>
    rw [hv] at hy
    exact absurd hy (Catalog.not_mem_empty y)
  | some v =>
    rw [hv] at hy
    obtain ⟨x, hx, -, hr⟩ := mem_shadowLayer hy
    rw [restrictModule?_eq_some hr]
    exact ⟨x, hx, rfl, rfl⟩

include h

/-- How the layer of a bundle shows the modules of the extension's closure. -/
theorem seenThrough_shadows {x : Module} (hx : x ∈ st.closure) :
    seenThrough (st.bundle a d seed).shadows x =
      if d.isBase x.name then { x with sentences := st.restricted a.settings x.sentences }
      else x := by
  unfold bundle restricted
  cases st.vocabulary with
  | none => exact (ite_self x).symm
  | some v => exact seenThrough_shadowLayer (importClosure_spec h.closure).1 hx

theorem copies : d.Copies (st.bundle a d seed).shadows := by
  intro y hy
  obtain ⟨x, hx, hname, himports⟩ := mem_shadows hy
  obtain ⟨-, hget⟩ := (mem_importClosure_iff h.closure).1 hx
  exact ⟨x, hname ▸ hget, himports⟩

/-- The disambiguation module and the parse module of a bundle import what the flat module imports,
seen through the layer of the bundle. -/
theorem importClosure_bundle :
    ∃ flatClosure, d.importClosure st.flat = .ok flatClosure ∧
      ∀ m, m = (st.bundle a d seed).disambiguation ∨ m = (st.bundle a d seed).parse →
        (st.bundle a d seed).definition.importClosure m =
          .ok (flatClosure.map (seenThrough (st.bundle a d seed).shadows)) := by
  obtain ⟨flatClosure, hf⟩ := importClosure_flat h.flat
  refine ⟨flatClosure, hf, fun m hm => ?_⟩
  have hsame : d.importClosure m = d.importClosure st.flat := by
    rcases hm with rfl | rfl
    · exact importClosure_congr rfl rfl
    · have hp := parse_name_imports st a d seed
      exact importClosure_congr hp.1 hp.2
  have hclosure := Bundle.importClosure_definition (b := st.bundle a d seed) h.copies m
  rw [hclosure]
  show Except.map _ (d.importClosure m) = _
  rw [hsame, hf]
  rfl

end Stages.Made

end Synthesizer

end GrammarSynthesis
