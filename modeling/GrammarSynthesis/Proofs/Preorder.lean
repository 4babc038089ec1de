import GrammarSynthesis.Proofs.Reachability

/-!
# The import closure as a depth-first preorder

An import closure is found by a walk over pending imports, in which a name may be pending many times
and is marked only when it is taken up. `preorder` says what order this gives, without a list of
pending imports: the imports of a module are visited as they are declared, and a visit takes up the
module and then, before the next import, the imports of the module.

* `reach_append`: the imports of one module, pending before others, are visited in preorder before
  the others are taken up;
* `importClosure_eq_preorder`: the import closure is the preorder, in its failures as well.
-/
namespace GrammarSynthesis.Definition

/-- What visits leave that began with the names `before`: the names that are visited now, and the
modules in the order in which they were taken up. -/
structure Visit (before : List String) where
  visited : List String
  found : List Module
  keeps : ∀ n ∈ before, n ∈ visited

/-- Visit the imports of a module in the order of their declaration. A name that was visited before
is passed over; a module that is found comes before what its own imports lead to, and that comes
before the next import. -/
def preorder (d : Definition) (visited : List String) (importer : String) :
    List String → Except SynthesisError (Visit visited)
  | [] => .ok { visited, found := [], keeps := fun _ => id }
  | name :: rest =>
    if name ∈ visited then preorder d visited importer rest
    else
      match _hget : d.get? name with
      | none => .error (.unknownModule name (some importer))
      | some m => do
        let inner ← preorder d (name :: visited) m.name m.imports
        let outer ← preorder d inner.visited importer rest
        return {
          visited := outer.visited
          found := m :: inner.found ++ outer.found
          keeps := fun n hn => outer.keeps n (inner.keeps n (List.mem_cons_of_mem name hn)) }
termination_by imports => imports.length + d.unvisitedImports visited
decreasing_by
  · simp
  · rename_i hv
    have hn := name_of_get? _hget
    have := unvisitedImports_visit (mem_modules_of_get? _hget) (hn ▸ hv)
    simp only [List.length_cons]
    rw [hn] at this
    omega
  · have hkept : ∀ n ∈ visited, n ∈ inner.visited := fun n hn =>
      inner.keeps n (List.mem_cons_of_mem name hn)
    have := d.unvisitedImports_anti hkept
    simp only [List.length_cons]
    omega

/-- Imports that are pending before others are visited in preorder, and the walk goes on with the
others where the visits have left it. -/
theorem reach_append (d : Definition) (visited : List String) (importer : String)
    (imports : List String) (pending : List (String × String)) :
    d.reach visited (imports.map ((importer, ·)) ++ pending) =
      d.preorder visited importer imports >>= fun v =>
        (d.reach v.visited pending).map (v.found ++ ·) := by
  fun_induction preorder d visited importer imports generalizing pending with
  | case1 visited importer =>
    cases h : d.reach visited pending <;> simp [h, bind, Except.bind, Except.map]
  | case2 visited importer name rest hv ih =>
    rw [List.map_cons, List.cons_append, reach_of_mem hv, ih]
  | case3 visited importer name rest hv hget =>
    rw [List.map_cons, List.cons_append, reach_of_none hv hget]
    rfl
  | case4 visited importer name rest hv m hget ihinner ihouter =>
    rw [List.map_cons, List.cons_append, reach_of_some hv hget, ihinner]
    cases d.preorder (name :: visited) m.name m.imports with
    | error e => rfl
    | ok inner =>
      -- the other imports of the module are pending now, and what was pending comes after them
      simp only [bind, Except.bind, ihouter inner]
      cases d.preorder inner.visited importer rest with
      | error e => rfl
      | ok outer =>
        cases h : d.reach outer.visited pending <;> simp [h, pure, Except.pure, Except.map]

/-- **The import closure is a depth-first preorder.** It lists the same modules in the same order as
the visits do, and where the visits fail, it fails at the same name with the same importer. Taken
turn by turn, its walk ends with that result. -/
theorem importClosure_eq_preorder (d : Definition) (m : Module) :
    d.importClosure m = (d.preorder [] m.name m.imports).map Visit.found ∧
      ∃ turns, (Walk.start m).run d turns =
        some ((d.preorder [] m.name m.imports).map Visit.found) := by
  have heq : d.importClosure m = (d.preorder [] m.name m.imports).map Visit.found := by
    have h := d.reach_append [] m.name m.imports []
    rw [List.append_nil] at h
    rw [importClosure, h]
    cases d.preorder [] m.name m.imports <;> simp [bind, Except.bind, Except.map, reach]
  exact ⟨heq, _, heq ▸ Walk.run_start d m⟩

/-- A module that is pending already is taken up where it is first met on the way down. -/
example :
    let top : Module := { name := "TOP", imports := ["A", "B"] }
    let first : Module := { name := "A", imports := ["B", "C"] }
    let second : Module := { name := "B" }
    let third : Module := { name := "C" }
    (importClosure { own := Catalog.ofList [first, second, third] } top).toOption =
      some [first, second, third] := by
  decide +kernel

end GrammarSynthesis.Definition
