import GrammarSynthesis.Grammar.Definition

/-!
# Import closures

The import closure of a module holds every module that can be reached along imports, each of them
once, in the order of a depth-first walk that takes imports as they are declared. Cycles do no harm:
a module that can be reached from its own imports is part of its own closure.

From the closure follow the sentences that a module sees and the part of them that the user wrote.

Results: `mem_sentencesOf` — the sentences of several modules are those of each of them.
-/
namespace GrammarSynthesis.Definition

/-- All modules of all layers. -/
def modules (d : Definition) : List Module := d.layers.flatMap Catalog.toList

theorem mem_modules_of_get? {d : Definition} {name : String} {m : Module}
    (h : d.get? name = some m) : m ∈ d.modules := by
  obtain ⟨above, layer, under, hl, hm, _, _⟩ := get?_eq_some_iff.1 h
  simp only [modules, List.mem_flatMap]
  exact ⟨layer, by simp [hl], hm⟩

/-- How many imports the modules have whose names were not visited. -/
def unvisitedImports (d : Definition) (visited : List String) : Nat :=
  ((d.modules.filter fun m => m.name ∉ visited).flatMap Module.imports).length

/-- Further visits take nothing onto the count of imports that are yet to be followed. -/
theorem length_unvisited_le {visited visited' : List String} (h : ∀ n ∈ visited, n ∈ visited')
    (l : List Module) :
    ((l.filter fun y => y.name ∉ visited').flatMap Module.imports).length ≤
      ((l.filter fun y => y.name ∉ visited).flatMap Module.imports).length := by
  induction l with
  | nil => simp
  | cons y l ih =>
    by_cases hv : y.name ∈ visited
    · simpa [hv, h _ hv] using ih
    · by_cases hv' : y.name ∈ visited'
      · simp [hv, hv'] at ih ⊢
        omega
      · simpa [hv, hv'] using ih

theorem unvisitedImports_anti (d : Definition) {visited visited' : List String}
    (h : ∀ n ∈ visited, n ∈ visited') : d.unvisitedImports visited' ≤ d.unvisitedImports visited :=
  length_unvisited_le h d.modules

/-- A visit to a module takes its imports off the count. -/
theorem unvisitedImports_visit {d : Definition} {visited : List String} {m : Module}
    (hm : m ∈ d.modules) (hv : m.name ∉ visited) :
    d.unvisitedImports (m.name :: visited) + m.imports.length ≤ d.unvisitedImports visited := by
  unfold unvisitedImports
  generalize d.modules = l at hm
  induction l with
  | nil => simp at hm
  | cons x rest ih =>
    rcases List.mem_cons.1 hm with rfl | hm
    · have := length_unvisited_le (fun n (hn : n ∈ visited) => List.mem_cons_of_mem m.name hn) rest
      simp [hv] at this ⊢
      omega
    · have := ih hm
      by_cases hx : x.name ∈ visited
      · simpa [hx] using this
      · by_cases hn : x.name = m.name
        · simp [hn, hv] at this ⊢
          omega
        · simp [hx, hn] at this ⊢
          omega

/-- The modules reached from a list of pending imports, each given with its importer. Names in
`visited` were reached before. -/
def reach (d : Definition) (visited : List String) :
    List (String × String) → Except SynthesisError (List Module)
  | [] => .ok []
  | (importer, name) :: pending =>
    if name ∈ visited then reach d visited pending
    else
      match _hget : d.get? name with
      | none => .error (.unknownModule name (some importer))
      | some m =>
        (reach d (name :: visited) (m.imports.map ((m.name, ·)) ++ pending)).map (m :: ·)
termination_by pending => pending.length + d.unvisitedImports visited
decreasing_by
  · simp
  · rename_i hv
    have hn := name_of_get? _hget
    have := unvisitedImports_visit (mem_modules_of_get? _hget) (hn ▸ hv)
    simp only [List.length_append, List.length_map, List.length_cons]
    rw [hn] at this
    omega

section Turns

variable {d : Definition} {visited : List String} {importer name : String}
  {pending : List (String × String)}

theorem reach_of_mem (hv : name ∈ visited) :
    d.reach visited ((importer, name) :: pending) = d.reach visited pending := by
  rw [reach, if_pos hv]

theorem reach_of_none (hv : name ∉ visited) (hget : d.get? name = none) :
    d.reach visited ((importer, name) :: pending) =
      .error (.unknownModule name (some importer)) := by
  rw [reach, if_neg hv]
  split
  · rfl
  · simp_all

theorem reach_of_some (hv : name ∉ visited) {m : Module} (hget : d.get? name = some m) :
    d.reach visited ((importer, name) :: pending) =
      (d.reach (name :: visited) (m.imports.map ((m.name, ·)) ++ pending)).map (m :: ·) := by
  rw [reach, if_neg hv]
  split
  · simp_all
  · rename_i x hx
    rw [hget] at hx
    cases hx
    rfl

end Turns

/-- The modules that can be reached along imports from `m`. -/
def importClosure (d : Definition) (m : Module) : Except SynthesisError (List Module) :=
  d.reach [] (m.imports.map ((m.name, ·)))

/-- The names of the modules of the closure. -/
def importedNames (d : Definition) (m : Module) : Except SynthesisError (OrdSet String) :=
  (d.importClosure m).map fun closure => Catalog.ofList (closure.map Module.name)

/-! ## Sentences -/

/-- The module and those modules of its closure that are not base modules. -/
def userSide (d : Definition) (m : Module) (closure : List Module) : List Module :=
  m :: closure.filter fun x => !d.isBase x.name

/-- The sentences of several modules. -/
def sentencesOf (l : List Module) : SentenceSet :=
  l.foldl (fun set m => set ∪ m.sentences) ∅

theorem mem_foldl_union {l : List Module} {set : SentenceSet} {s : Sentence} :
    s ∈ l.foldl (fun set m => set ∪ m.sentences) set ↔ s ∈ set ∨ ∃ m ∈ l, s ∈ m.sentences := by
  induction l generalizing set with
  | nil => simp
  | cons m rest ih => simp [ih, or_assoc]

theorem mem_sentencesOf {l : List Module} {s : Sentence} :
    s ∈ sentencesOf l ↔ ∃ m ∈ l, s ∈ m.sentences := by
  rw [sentencesOf, mem_foldl_union]
  simp

/-- What the user wrote: the module's own sentences and those of the modules of its closure that are
not base modules. -/
def userSentences (d : Definition) (m : Module) : Except SynthesisError SentenceSet :=
  (d.importClosure m).map fun closure => sentencesOf (d.userSide m closure)

/-- What the module sees: its own sentences and those of its whole closure. -/
def visibleSentences (d : Definition) (m : Module) : Except SynthesisError SentenceSet :=
  (d.importClosure m).map fun closure => sentencesOf (m :: closure)

/-! ## Flattening -/

/-- The user's side of a module as one module. It holds the user's sentences and imports the base
modules that a module of the user's side imports, each once, in the order of first occurrence. -/
def flatten (d : Definition) (m : Module) : Except SynthesisError Module :=
  (d.importClosure m).map fun closure =>
    let side := d.userSide m closure
    { name := m.name
      imports := ((side.flatMap Module.imports).filter d.isBase).eraseDups
      sentences := sentencesOf side
      attributes := m.attributes }

end GrammarSynthesis.Definition
