import GrammarSynthesis.Proofs.Layers
import GrammarSynthesis.Proofs.Outcome
import GrammarSynthesis.Synthesis.Bundle

/-!
# Private layers

A bundle puts copies of base modules into a layer of its own. A copy has the name and the imports of
the module it hides, so a walk along imports takes the same turns through the new layer: it finds a
copy where there is one and fails at the same name.

* `Definition.get?_push_copies`: lookup through a layer of copies;
* `Definition.importClosure_push_copies`: the closure through a layer of copies;
* `Bundle.importClosure_definition`: the closure in the definition of a bundle.
-/
namespace GrammarSynthesis

namespace Definition

/-- The layer holds copies: each of its modules is found in the definition, with other sentences
perhaps, but with the same imports. -/
def Copies (d : Definition) (layer : Layer) : Prop :=
  ∀ y ∈ layer, ∃ x, d.get? y.name = some x ∧ y.imports = x.imports

/-- What a module looks like through a layer: its copy, if the layer has one. -/
def seenThrough (layer : Layer) (x : Module) : Module := (layer.find? x.name).getD x

variable {d : Definition} {layer : Layer}

theorem seenThrough_name (layer : Layer) (x : Module) : (seenThrough layer x).name = x.name := by
  unfold seenThrough
  cases h : layer.find? x.name with
  | none => rfl
  | some y => exact (Catalog.find?_eq_some_iff.1 h).2

theorem seenThrough_imports (hl : d.Copies layer) {x : Module} (hx : d.get? x.name = some x) :
    (seenThrough layer x).imports = x.imports := by
  unfold seenThrough
  cases h : layer.find? x.name with
  | none => rfl
  | some y =>
    obtain ⟨hy, hname⟩ := Catalog.find?_eq_some_iff.1 h
    obtain ⟨x', hx', himports⟩ := hl y hy
    rw [hname, hx] at hx'
    cases hx'
    exact himports

theorem get?_push_copies (hl : d.Copies layer) (name : String) :
    (d.push layer).get? name = (d.get? name).map (seenThrough layer) := by
  rw [get?_push]
  cases hget : d.get? name with
  | some x =>
    have hname := name_of_get? hget
    rw [Option.map_some, seenThrough, hname]
    cases layer.find? name <;> rfl
  | none =>
    cases h : layer.find? name with
    | none => rfl
    | some y =>
      obtain ⟨hy, hname⟩ := Catalog.find?_eq_some_iff.1 h
      obtain ⟨x, hx, -⟩ := hl y hy
      rw [hname, hget] at hx
      cases hx

theorem reach_push_copies (hl : d.Copies layer) (visited : List String)
    (pending : List (String × String)) :
    (d.push layer).reach visited pending =
      (d.reach visited pending).map (·.map (seenThrough layer)) := by
  fun_induction reach d visited pending with
  | case1 => rw [reach]; rfl
  | case2 visited importer name pending hv ih => rw [reach_of_mem hv, ih]
  | case3 visited importer name pending hv hget =>
    have hnone : (d.push layer).get? name = none := by rw [get?_push_copies hl, hget]; rfl
    rw [reach_of_none hv hnone]
    rfl
  | case4 visited importer name pending hv m hget ih =>
    have hname := name_of_get? hget
    have hsome : (d.push layer).get? name = some (seenThrough layer m) := by
      rw [get?_push_copies hl, hget]; rfl
    have himports : (seenThrough layer m).imports = m.imports :=
      seenThrough_imports hl (hname ▸ hget)
    rw [reach_of_some hv hsome, himports, seenThrough_name, ih]
    cases d.reach (name :: visited) (m.imports.map ((m.name, ·)) ++ pending) <;> rfl

theorem importClosure_push_copies (hl : d.Copies layer) (m : Module) :
    (d.push layer).importClosure m = (d.importClosure m).map (·.map (seenThrough layer)) :=
  reach_push_copies hl [] _

end Definition

namespace Bundle

/-- The closures of a bundle are those in the definition of the user, with copies in the place of
the modules they hide. -/
theorem importClosure_definition {b : Bundle} (h : b.user.Copies b.shadows) (m : Module) :
    b.definition.importClosure m =
      (b.user.importClosure m).map (·.map (Definition.seenThrough b.shadows)) := by
  unfold definition
  split
  · rename_i hempty
    have hnone : ∀ name, b.shadows.find? name = none := fun name => by
      rw [Catalog.find?, List.isEmpty_iff.1 hempty]; rfl
    have hid : Definition.seenThrough b.shadows = id := by
      funext x
      rw [Definition.seenThrough, hnone]; rfl
    cases b.user.importClosure m <;> simp [hid, Except.map]
  · exact Definition.importClosure_push_copies h m

end Bundle

end GrammarSynthesis
