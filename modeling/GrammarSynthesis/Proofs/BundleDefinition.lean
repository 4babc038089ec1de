import GrammarSynthesis.Proofs.SyntaxKept

/-!
# The definition of a bundle

The imports of a bundle's modules refer to the definition of the user under a layer of copies. A
copy stands for a base module that the extension reaches, and differs from it in follow sets, which
only grow. Two sentences of a module may become one on the way, but none is lost and none comes
from nowhere. So whatever module one starts from, a walk along imports takes the same turns in
either definition, and finds at each of them the same module, up to follow sets.

* `Module.Stricter`: two modules are the same but for follow sets;
* `Stages.stricter_restricted`: restrictions give a stricter module;
* `Made.seenThrough_of_not_mem`: modules that the extension does not reach have no copy;
* `combine_definition`: import closures in the definition of a bundle.
-/
namespace GrammarSynthesis

/-- The second module is the first, except that its terminals may refuse more. Each sentence of one
is a sentence of the other, up to that. -/
structure Module.Stricter (x y : Module) : Prop where
  name : y.name = x.name
  imports : y.imports = x.imports
  attributes : y.attributes = x.attributes
  kept : ∀ s ∈ x.sentences, ∃ t ∈ y.sentences, s.SameBut Terminal.Stricter t
  origin : ∀ t ∈ y.sentences, ∃ s ∈ x.sentences, s.SameBut Terminal.Stricter t

theorem Module.Stricter.refl (x : Module) : x.Stricter x where
  name := rfl
  imports := rfl
  attributes := rfl
  kept s hs := ⟨s, hs, .refl Terminal.Stricter.refl s⟩
  origin s hs := ⟨s, hs, .refl Terminal.Stricter.refl s⟩

namespace Synthesizer

open Definition

variable {a : Synthesizer} {d : Definition} {seed : Module}

/-- The second module is what the definition of a bundle shows in the place of the first, a module
of the user's definition. It is the first itself, unless that is a base module among those that
the extension reached. -/
structure ShownAs (d : Definition) (reached : List Module) (x y : Module) : Prop where
  stricter : x.Stricter y
  own : x.name ∈ d.ownNames → y = x
  unreached : x ∉ reached → y = x

namespace Stages

variable {st : Stages}

theorem stricter_restricted (st : Stages) (cfg : Settings) (x : Module) :
    x.Stricter { x with sentences := st.restricted cfg x.sentences } where
  name := rfl
  imports := rfl
  attributes := rfl
  kept _ hs := st.exists_stricter_restricted cfg hs
  origin _ ht := st.exists_of_mem_restricted cfg ht

namespace Made

variable (h : st.Made a d seed)
include h

/-- A module that the extension does not reach has no copy. -/
theorem seenThrough_of_not_mem {x : Module} (hget : d.get? x.name = some x)
    (hx : x ∉ st.closure) : seenThrough (st.bundle a d seed).shadows x = x := by
  unfold seenThrough
  cases hfind : (st.bundle a d seed).shadows.find? x.name with
  | none => rfl
  | some y =>
    obtain ⟨hy, hname⟩ := Catalog.find?_eq_some_iff.1 hfind
    obtain ⟨x', hx', hname', -⟩ := mem_shadows hy
    -- the module that was copied is found under the same name
    obtain ⟨-, hget'⟩ := (mem_importClosure_iff h.closure).1 hx'
    rw [← hname', hname, hget] at hget'
    cases hget'
    exact absurd hx' hx

theorem shownAs_seenThrough {x : Module} (hget : d.get? x.name = some x) :
    ShownAs d st.closure x (seenThrough (st.bundle a d seed).shadows x) := by
  by_cases hx : x ∈ st.closure
  · rw [h.seenThrough_shadows hx]
    split
    · rename_i hbase
      exact ⟨st.stricter_restricted a.settings x,
        fun hown => absurd hown ((isBase_iff_of_get? hget).1 hbase), fun hno => absurd hx hno⟩
    · exact ⟨.refl x, fun _ => rfl, fun _ => rfl⟩
  · rw [h.seenThrough_of_not_mem hget hx]
    exact ⟨.refl x, fun _ => rfl, fun _ => rfl⟩

/-- The imports of all modules of a bundle can be followed. -/
theorem exists_importClosure_of_mem_modules {m : Module}
    (hm : m ∈ (st.bundle a d seed).modules) :
    ∃ seen, (st.bundle a d seed).definition.importClosure m = .ok seen := by
  obtain ⟨flatClosure, -, hflat⟩ := h.importClosure_bundle
  have through : ∀ {closure}, d.importClosure m = .ok closure →
      ∃ seen, (st.bundle a d seed).definition.importClosure m = .ok seen := fun hc =>
    ⟨_, (Bundle.importClosure_definition h.copies m).trans (Outcome.map_eq_ok_iff.2 ⟨_, hc, rfl⟩)⟩
  simp only [Bundle.modules, List.mem_cons, List.not_mem_nil, or_false] at hm
  rcases hm with rfl | rfl | hm
  · obtain ⟨names, hnames, -⟩ := Outcome.map_eq_ok_iff.1 h.capabilities
    obtain ⟨closure, hc, -⟩ := Outcome.map_eq_ok_iff.1 hnames
    exact through hc
  · exact through h.closure
  · exact ⟨_, hflat m hm⟩

end Made

end Stages

/-- **The definition of a bundle is that of the user, up to follow sets.** Whatever module one
starts from, the import closure in one definition exists if it does in the other. It then has the
same names in the same order, and in each place the same module but for follow sets, which may have
grown. Modules of the user's own layer, and modules that the extension does not reach, are as they
were. The imports of the bundle's own modules can be followed. -/
theorem combine_definition {b : Bundle} (h : a.combine d seed = .ok b) :
    ∃ reached, d.importClosure b.extension = .ok reached ∧
      (∀ m,
        ((∃ seen, b.definition.importClosure m = .ok seen) ↔
          ∃ closure, d.importClosure m = .ok closure) ∧
        ∀ closure seen, d.importClosure m = .ok closure →
          b.definition.importClosure m = .ok seen →
            seen.map Module.name = closure.map Module.name ∧
              List.Forall₂ (ShownAs d reached) closure seen) ∧
      ∀ m ∈ b.modules, ∃ seen, b.definition.importClosure m = .ok seen := by
  obtain ⟨st, made, rfl⟩ := combine_eq_ok_iff.1 h
  refine ⟨st.closure, made.closure, fun m => ?_, fun m hm =>
    made.exists_importClosure_of_mem_modules hm⟩
  have hthrough : (st.bundle a d seed).definition.importClosure m =
      (d.importClosure m).map (·.map (seenThrough (st.bundle a d seed).shadows)) :=
    Bundle.importClosure_definition made.copies m
  rw [hthrough]
  constructor
  · cases d.importClosure m <;> simp [Except.map]
  · intro closure seen hclosure hseen
    rw [hclosure] at hseen
    cases hseen
    refine ⟨?_, ?_⟩
    · rw [List.map_map]
      exact List.map_congr_left fun x _ => seenThrough_name _ x
    · rw [List.forall₂_map_right_iff]
      exact List.forall₂_same.2 fun x hx =>
        made.shownAs_seenThrough ((mem_importClosure_iff hclosure).1 hx).2

/-- A seed with a terminal that begins with one of the base. -/
def openingSeed : Module where
  name := "SEED"
  imports := ["BASIC-K", "AUTO-FOLLOW"]
  sentences := Catalog.ofList [Sample.rule "Exp" (Sample.word "(|") [] "empty"]

/-- The base module with the shorter terminal is copied, and the parse module imports the names that
it would import without the copy. -/
theorem combine_definition_opening :
    ∃ a, create {} (Settings.standardBase {}) false = .ok a ∧
      ∃ b, a.combine a.emptyDefinition openingSeed = .ok b ∧
      b.shadows.hasKey "BASIC-K" = true ∧
      ∃ closure, a.emptyDefinition.importClosure b.parse = .ok closure ∧
      ∃ seen, b.definition.importClosure b.parse = .ok seen ∧
        seen.map Module.name = closure.map Module.name := by
  have run : ∃ a, create {} (Settings.standardBase {}) false = .ok a ∧
      ∃ b, a.combine a.emptyDefinition openingSeed = .ok b ∧
      b.shadows.hasKey "BASIC-K" = true := by
    decide +kernel
  obtain ⟨a, ha, b, hb, hcopy⟩ := run
  obtain ⟨_, -, hall, hmodules⟩ := combine_definition hb
  obtain ⟨seen, hseen⟩ := hmodules b.parse (by simp [Bundle.modules])
  obtain ⟨closure, hclosure⟩ := (hall b.parse).1.1 ⟨seen, hseen⟩
  exact ⟨a, ha, b, hb, hcopy, closure, hclosure, seen, hseen,
    ((hall b.parse).2 closure seen hclosure hseen).1⟩

end Synthesizer

end GrammarSynthesis
