import GrammarSynthesis.Proofs.FirstOccurrences
import GrammarSynthesis.Proofs.Flattening

/-!
# The imports of flat modules

A flat module imports base modules, each once, and only those that the user's side imports itself.
Flattening it again changes nothing. Its closure may hold modules of the user once more, if a base
module imports a name that the top layer redefines, but these belong to the side that was folded
before. They bring in no sentence and no import that the flat module lacks, and as they come after
it, they do not move its imports either.

* `Definition.imports_flat_nodup`, `Definition.mem_imports_flat_iff`: the imports of a flat module;
* `Definition.imports_userSide_flat`: the modules behind a flat module add no import to it;
* `Definition.flatten_idempotent`: flattening a flat module gives it back.
-/
namespace GrammarSynthesis

namespace Definition

variable {d : Definition} {m flat : Module}

/-! ## Which imports a flat module has -/

theorem flatten_of_importClosure {closure : List Module} (h : d.importClosure m = .ok closure) :
    d.flatten m = .ok
      { name := m.name
        imports := (((d.userSide m closure).flatMap Module.imports).filter d.isBase).eraseDups
        sentences := sentencesOf (d.userSide m closure)
        attributes := m.attributes } := by
  rw [flatten, h]
  rfl

theorem imports_flat_nodup (h : d.flatten m = .ok flat) : flat.imports.Nodup := by
  obtain ⟨closure, -, rfl⟩ := Outcome.map_eq_ok_iff.1 h
  exact nodup_eraseDups _

/-- A flat module imports the base modules that the module itself or a module of the user behind it
imports. -/
theorem mem_imports_flat_iff {closure : List Module} (h : d.flatten m = .ok flat)
    (hm : d.importClosure m = .ok closure) {n : String} :
    n ∈ flat.imports ↔ d.isBase n = true ∧
      (n ∈ m.imports ∨ ∃ x ∈ closure, d.isBase x.name = false ∧ n ∈ x.imports) := by
  obtain ⟨c, hc, -, himports⟩ := flatten_spec h
  obtain rfl : closure = c := Except.ok.inj (hm.symm.trans hc)
  simp only [himports, mem_userSide_iff, or_and_right, exists_or, exists_eq_left, and_assoc]

/-! ## Flattening a flat module -/

section Again

variable {flatClosure : List Module} (h : d.flatten m = .ok flat)
  (hf : d.importClosure flat = .ok flatClosure)
include h hf

/-- A module of the user that comes back behind a flat module was part of the side that the flat
module was made of. -/
theorem imports_of_returning {x : Module} (hx : x ∈ flatClosure) (hb : d.isBase x.name = false)
    {n : String} (hn : n ∈ x.imports) (hbase : d.isBase n = true) : n ∈ flat.imports := by
  obtain ⟨closure, hm, -, -⟩ := flatten_spec h
  have hclosure : x ∈ closure := flatClosure_subset h hm hf hx
  exact (mem_imports_flat_iff h hm).2 ⟨hbase, .inr ⟨x, hclosure, hb, hn⟩⟩

theorem imports_userSide_flat :
    (((d.userSide flat flatClosure).flatMap Module.imports).filter d.isBase).eraseDups =
      flat.imports := by
  have hown : flat.imports.filter d.isBase = flat.imports := by
    obtain ⟨_, _, -, himports⟩ := flatten_spec h
    exact List.filter_eq_self.2 fun n hn => ((himports n).1 hn).1
  rw [userSide, List.flatMap_cons, List.filter_append, hown, eraseDups_append_of_subset,
    eraseDups_of_nodup (imports_flat_nodup h)]
  intro n hn
  obtain ⟨hn, hbase⟩ := List.mem_filter.1 hn
  obtain ⟨x, hx, hn⟩ := List.mem_flatMap.1 hn
  obtain ⟨hx, hb⟩ := List.mem_filter.1 hx
  exact imports_of_returning h hf hx (by simpa using hb) hn hbase

end Again

/-- **Flattening is idempotent, and its imports are minimal.** A flat module imports no name twice.
The names are those of the base modules that the module or a module of the user in its closure
imports, all of them and no others. Flattening the flat module gives the same module: its name, its
imports in their order, its sentences and its attributes. -/
theorem flatten_idempotent (h : d.flatten m = .ok flat) :
    flat.imports.Nodup ∧
    (∃ closure, d.importClosure m = .ok closure ∧ ∀ n, n ∈ flat.imports ↔ d.isBase n = true ∧
      (n ∈ m.imports ∨ ∃ x ∈ closure, d.isBase x.name = false ∧ n ∈ x.imports)) ∧
    d.flatten flat = .ok flat := by
  obtain ⟨closure, hm, -, -⟩ := flatten_spec h
  obtain ⟨flatClosure, hf⟩ := importClosure_flat h
  refine ⟨imports_flat_nodup h, ⟨closure, hm, fun n => mem_imports_flat_iff h hm⟩, ?_⟩
  have hsentences : sentencesOf (d.userSide flat flatClosure) = flat.sentences := user_flat h hm hf
  rw [flatten_of_importClosure hf, imports_userSide_flat h hf, hsentences]

/-- A base whose module `LISTS` imports `SYNTAX`, and a top layer that redefines `SYNTAX`. -/
def redefinedImport : Definition where
  own := Catalog.ofList [
    { name := "SYNTAX", imports := ["LISTS", "SORTS"], sentences := Catalog.ofList [
        .declaration ⟨"Exp"⟩] }]
  below := [Catalog.ofList [
    { name := "LISTS", imports := ["SYNTAX"] },
    { name := "SORTS" },
    { name := "SYNTAX" }]]

/-- The user's `SYNTAX` is in the closure of the flat module, and it imports the base module `SORTS`,
which the flat module imports anyway. -/
theorem flatten_idempotent_redefined :
    ∃ flat, redefinedImport.flatten { name := "SEED", imports := ["LISTS", "LISTS"] } = .ok flat ∧
      flat.imports = ["LISTS", "SORTS"] ∧
      (∃ flatClosure, redefinedImport.importClosure flat = .ok flatClosure ∧
        ∃ x ∈ flatClosure, redefinedImport.isBase x.name = false) ∧
      redefinedImport.flatten flat = .ok flat := by
  have run : ∃ flat,
      redefinedImport.flatten { name := "SEED", imports := ["LISTS", "LISTS"] } = .ok flat ∧
      flat.imports = ["LISTS", "SORTS"] ∧
      ∃ flatClosure, redefinedImport.importClosure flat = .ok flatClosure ∧
        ∃ x ∈ flatClosure, redefinedImport.isBase x.name = false := by
    decide +kernel
  obtain ⟨flat, hflat, himports, hreturn⟩ := run
  exact ⟨flat, hflat, himports, hreturn, (flatten_idempotent hflat).2.2⟩

end Definition

end GrammarSynthesis
