import GrammarSynthesis.Grammar.SynthesisError
import GrammarSynthesis.Grammar.Module

/-!
# Layered definitions

A definition finds modules by name. Its modules lie in layers, and a name is looked up from the top
layer down, so a module hides those of the same name below it. The layers below the top one are the
*base*: transforms change what the user wrote in the top layer and put a copy of a base module,
when they must change one, into a new layer above it.

Results:
* `Definition.name_of_get?` — lookup finds a module of the name asked for;
* `Definition.get?_eq_some_iff` — it finds the module of the topmost layer that has the name.
-/
namespace GrammarSynthesis

/-- Modules by name. -/
abbrev Layer := Catalog Module.name

/-- A top layer and the layers below it, from the top down. -/
structure Definition where
  own : Layer := ∅
  below : List Layer := []
  deriving DecidableEq, Repr

namespace Definition

instance : Inhabited Definition := ⟨{}⟩

def layers (d : Definition) : List Layer := d.own :: d.below

/-- The definition without its top layer; a definition of one layer has no base. -/
def base? (d : Definition) : Option Definition :=
  match d.below with
  | [] => none
  | own :: below => some { own, below }

/-- Put a layer on top. -/
def push (d : Definition) (own : Layer := ∅) : Definition := { own, below := d.layers }

/-- Put a module into the top layer, instead of one with the same name if there is one. -/
def insert (d : Definition) (m : Module) : Definition := { d with own := d.own.insert m }

/-- The module of a name in the topmost layer that has one. -/
def get? (d : Definition) (name : String) : Option Module :=
  d.layers.findSome? fun layer => layer.find? name

/-- The module of a name that was asked for directly. -/
def lookup (d : Definition) (name : String) : Except SynthesisError Module :=
  match d.get? name with
  | some m => .ok m
  | none => .error (.unknownModule name none)

def contains (d : Definition) (name : String) : Bool := (d.get? name).isSome

/-- The name is found in the base and not in the top layer. -/
def isBase (d : Definition) (name : String) : Bool :=
  !d.own.hasKey name && d.below.any fun layer => layer.hasKey name

/-- The names of the top layer in order. -/
def ownNames (d : Definition) : List String := d.own.keys

/-! ## Lookup -/

theorem get?_eq_some_iff {d : Definition} {name : String} {m : Module} :
    d.get? name = some m ↔
      ∃ above layer under, d.layers = above ++ layer :: under ∧ m ∈ layer ∧ m.name = name ∧
        ∀ l ∈ above, ∀ x ∈ l, x.name ≠ name := by
  simp only [get?, List.findSome?_eq_some_iff, Catalog.find?_eq_some_iff, Catalog.find?_eq_none_iff]
  constructor
  · intro hget
    obtain ⟨above, layer, under, h, ⟨hm, hn⟩, ha⟩ := hget
    exact ⟨above, layer, under, h, hm, hn, ha⟩
  · intro hget
    obtain ⟨above, layer, under, h, hm, hn, ha⟩ := hget
    exact ⟨above, layer, under, h, ⟨hm, hn⟩, ha⟩

theorem name_of_get? {d : Definition} {name : String} {m : Module} (h : d.get? name = some m) :
    m.name = name := by
  obtain ⟨_, _, _, _, _, h, _⟩ := get?_eq_some_iff.1 h
  exact h

end Definition

end GrammarSynthesis
