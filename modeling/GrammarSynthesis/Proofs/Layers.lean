import GrammarSynthesis.Grammar.Definition

/-!
# Lookup through layers

A name is looked up in the top layer and, if it is not there, in the base. So a module is a base
module if it is found although the top layer does not have its name.

* `Catalog.ext_find?`: what is found under each key determines a catalog;
* `Catalog.hasKey_iff`, `Catalog.find?_ofList`: lookup in a catalog that was built from a list
  finds the last entry with the key;
* `Definition.isBase_iff`: base modules are those that are found below the top layer;
* `Definition.get?_push`: a new layer on top hides what has a name of it;
* `Definition.get?_insert`, `Definition.isBase_insert`: a new module changes what is found under its
  own name.
-/
namespace GrammarSynthesis

/-! ## Lookup in a catalog -/

namespace Catalog

variable {α κ : Type} [Ord κ] {key : α → κ}

theorem hasKey_iff [Std.LawfulEqOrd κ] {c : Catalog key} {k : κ} :
    c.hasKey k = true ↔ ∃ a ∈ c, key a = k := by
  simp [hasKey, Option.isSome_iff_exists, find?_eq_some_iff]

theorem mem_keys {c : Catalog key} {k : κ} : k ∈ c.keys ↔ ∃ a ∈ c, key a = k := List.mem_map

variable [Std.TransOrd κ] [Std.LawfulEqOrd κ]

/-- Two catalogs are the same if the same is found in both. -/
theorem ext_find? {c d : Catalog key} (h : ∀ k, c.find? k = d.find? k) : c = d := by
  have mem : ∀ {e : Catalog key} {a : α}, a ∈ e ↔ e.find? (key a) = some a := by
    intro e a
    rw [find?_eq_some_iff]
    exact (and_iff_left rfl).symm
  apply ext
  intro a
  rw [mem, mem, h]

/-- An entry that was added is found, and the others are found as before. -/
theorem find?_insert [DecidableEq κ] {c : Catalog key} {a : α} {k : κ} :
    (c.insert a).find? k = if key a = k then some a else c.find? k := by
  split
  · rename_i h
    exact find?_eq_some_iff.2 ⟨mem_insert.2 (.inl rfl), h⟩
  · rename_i h
    ext x
    simp only [find?_eq_some_iff, mem_insert]
    constructor
    · intro hx
      rcases hx with ⟨rfl | ⟨hx, -⟩, hk⟩
      · exact absurd hk h
      · exact ⟨hx, hk⟩
    · intro hx
      obtain ⟨hx, rfl⟩ := hx
      exact ⟨.inr ⟨hx, fun e => h e.symm⟩, rfl⟩

omit [Std.TransOrd κ] in
/-- An entry that was removed is not found, and the others are found as before. -/
theorem find?_erase [DecidableEq κ] {c : Catalog key} {k k' : κ} :
    (c.erase k).find? k' = if k = k' then none else c.find? k' := by
  split
  · rename_i h
    exact find?_eq_none_iff.2 fun a ha hk => (mem_erase.1 ha).2 (hk.trans h.symm)
  · rename_i h
    ext x
    simp only [find?_eq_some_iff, mem_erase]
    constructor
    · intro hx
      exact ⟨hx.1.1, hx.2⟩
    · intro hx
      obtain ⟨hx, rfl⟩ := hx
      exact ⟨⟨hx, fun e => h e.symm⟩, rfl⟩

theorem find?_insertAll [DecidableEq κ] {c : Catalog key} {l : List α} {k : κ} :
    (c.insertAll l).find? k = (l.reverse.find? fun a => key a = k).or (c.find? k) := by
  induction l generalizing c with
  | nil => simp [insertAll]
  | cons a l ih =>
    show ((c.insert a).insertAll l).find? k = _
    rw [ih, find?_insert, List.reverse_cons, List.find?_append, Option.or_assoc]
    by_cases h : key a = k <;> simp [h]

/-- Of the entries of a list that have the key, the last one is found. -/
theorem find?_ofList [DecidableEq κ] {l : List α} {k : κ} :
    (ofList l : Catalog key).find? k = l.reverse.find? fun a => key a = k := by
  rw [ofList, find?_insertAll]
  simp [find?, empty]

theorem mem_of_mem_ofList [DecidableEq κ] {l : List α} {a : α} (h : a ∈ (ofList l : Catalog key)) :
    a ∈ l := by
  have hfind : (ofList l : Catalog key).find? (key a) = some a := find?_eq_some_iff.2 ⟨h, rfl⟩
  rw [find?_ofList] at hfind
  exact List.mem_reverse.1 (List.mem_of_find?_eq_some hfind)

/-- Each key of the list is found, be it with a later entry. -/
theorem exists_find?_ofList [DecidableEq κ] {l : List α} {a : α} (h : a ∈ l) :
    ∃ b, (ofList l : Catalog key).find? (key a) = some b := by
  rw [find?_ofList, ← Option.isSome_iff_exists, List.find?_isSome]
  exact ⟨a, List.mem_reverse.2 h, by simp⟩

end Catalog

/-! ## Lookup in a definition -/

namespace Definition

theorem lookup_eq_ok_iff {d : Definition} {name : String} {x : Module} :
    d.lookup name = .ok x ↔ d.get? name = some x := by
  unfold lookup
  cases d.get? name <;> simp

theorem mem_ownNames_iff {d : Definition} {name : String} :
    name ∈ d.ownNames ↔ d.own.hasKey name = true :=
  Catalog.mem_keys.trans Catalog.hasKey_iff.symm

theorem isBase_iff {d : Definition} {name : String} :
    d.isBase name = true ↔ name ∉ d.ownNames ∧ ∃ x, d.get? name = some x := by
  simp only [isBase, Bool.and_eq_true, Bool.not_eq_true', ← Bool.not_eq_true, mem_ownNames_iff]
  refine and_congr_right fun hown => ?_
  have hnone : d.own.find? name = none := by simpa [Catalog.hasKey] using hown
  simp only [get?, layers, List.findSome?_cons, hnone, ← Option.isSome_iff_exists]
  rw [List.any_eq_true, List.findSome?_isSome_iff]
  rfl

theorem isBase_iff_of_get? {d : Definition} {name : String} {x : Module}
    (h : d.get? name = some x) : d.isBase name = true ↔ name ∉ d.ownNames :=
  isBase_iff.trans (and_iff_left ⟨x, h⟩)

/-- What is found and is no base module is a module of the top layer. -/
theorem mem_ownNames_of_get? {d : Definition} {name : String} {x : Module}
    (h : d.get? name = some x) (hb : d.isBase name = false) : name ∈ d.ownNames := by
  refine Decidable.byContradiction fun hno => ?_
  rw [(isBase_iff_of_get? h).2 hno] at hb
  cases hb

theorem get?_push {d : Definition} {layer : Layer} {name : String} :
    (d.push layer).get? name = (layer.find? name).or (d.get? name) := by
  show (layer :: d.layers).findSome? _ = _
  rw [List.findSome?_cons]
  cases layer.find? name <;> rfl

theorem get?_insert {d : Definition} {n : Module} {name : String} :
    (d.insert n).get? name = if n.name = name then some n else d.get? name := by
  by_cases hname : n.name = name <;>
    simp [get?, layers, insert, List.findSome?_cons, Catalog.find?_insert, hname]

theorem isBase_insert {d : Definition} {n : Module} {name : String} (hne : n.name ≠ name) :
    (d.insert n).isBase name = d.isBase name := by
  have hkey : (d.own.insert n).hasKey name = d.own.hasKey name := by
    rw [Catalog.hasKey, Catalog.find?_insert, if_neg hne]
    rfl
  exact congrArg (fun own => !own && d.below.any fun layer => layer.hasKey name) hkey

end Definition

end GrammarSynthesis
