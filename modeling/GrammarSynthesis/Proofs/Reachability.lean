import GrammarSynthesis.Grammar.ImportClosure
import GrammarSynthesis.Proofs.Outcome

/-!
# Import closures and reachability

A walk over pending imports marks a name when it takes it up, so a name may be pending many times
and the names of a cycle come up again. Reachability along imports (`Reaches`) knows neither an
order nor visited names; here the walk is measured against it.

* `walked_of_reach`: what a walk has found when it ends is closed under imports, up to the names
  that were visited before it began;
* `reach_keeps`: a property of names that imports hand on holds of all that a walk takes up;
* `reach_error`: a walk fails at a name without a module, and its importer is known;
* `Walk.run_eq`: taken turn by turn, a walk ends, and the number of turns is bounded;
* `importClosure_spec`: the import closure holds the modules of the reachable names.
-/
namespace GrammarSynthesis.Definition

/-- The names that can be reached from `start` along the imports of modules that are found. -/
inductive Reaches (d : Definition) (start : List String) : String → Prop where
  | direct {name : String} : name ∈ start → Reaches d start name
  | step {name next : String} {x : Module} :
    Reaches d start name → d.get? name = some x → next ∈ x.imports → Reaches d start next

/-! ## What a walk finds -/

/-- What can be said of the modules `found` by a walk that began with these names. -/
structure Walked (d : Definition) (visited : List String) (pending : List (String × String))
    (found : List Module) : Prop where
  resolved : ∀ x ∈ found, d.get? x.name = some x
  fresh : ∀ x ∈ found, x.name ∉ visited
  nodup : (found.map Module.name).Nodup
  pending_found : ∀ p ∈ pending, p.2 ∈ visited ∨ p.2 ∈ found.map Module.name
  imports_found : ∀ x ∈ found, ∀ n ∈ x.imports, n ∈ visited ∨ n ∈ found.map Module.name

/-- A visit puts the module before what the rest of the walk finds. -/
theorem Walked.visit {d : Definition} {visited : List String} {importer name : String}
    {pending : List (String × String)} {m : Module} {found : List Module}
    (hv : name ∉ visited) (hm : d.get? name = some m)
    (w : d.Walked (name :: visited) (m.imports.map ((m.name, ·)) ++ pending) found) :
    d.Walked visited ((importer, name) :: pending) (m :: found) := by
  have hn := name_of_get? hm
  have move : ∀ {n}, n ∈ name :: visited ∨ n ∈ found.map Module.name →
      n ∈ visited ∨ n ∈ (m :: found).map Module.name := by
    intro n h
    simp only [List.mem_cons, List.map_cons, hn] at h ⊢
    rcases h with (h | h) | h
    · exact .inr (.inl h)
    · exact .inl h
    · exact .inr (.inr h)
  refine ⟨?_, ?_, ?_, ?_, ?_⟩
  · intro x hx
    rcases List.mem_cons.1 hx with rfl | hx
    · rw [hn]; exact hm
    · exact w.resolved x hx
  · intro x hx
    rcases List.mem_cons.1 hx with rfl | hx
    · rw [hn]; exact hv
    · exact fun h => w.fresh x hx (List.mem_cons_of_mem _ h)
  · rw [List.map_cons, List.nodup_cons]
    refine ⟨fun h => ?_, w.nodup⟩
    obtain ⟨x, hx, e⟩ := List.mem_map.1 h
    exact w.fresh x hx (by rw [e, hn]; exact List.mem_cons_self)
  · intro p hp
    rcases List.mem_cons.1 hp with rfl | hp
    · exact .inr (by simp [hn])
    · exact move (w.pending_found p (List.mem_append_right _ hp))
  · intro x hx n hi
    rcases List.mem_cons.1 hx with rfl | hx
    · exact move (w.pending_found (x.name, n)
        (List.mem_append_left _ (List.mem_map.2 ⟨n, hi, rfl⟩)))
    · exact move (w.imports_found x hx n hi)

theorem walked_of_reach {d : Definition} {visited : List String} {pending : List (String × String)}
    {found : List Module} (h : d.reach visited pending = .ok found) :
    d.Walked visited pending found := by
  fun_induction reach d visited pending generalizing found with
  | case1 visited => cases h; constructor <;> simp
  | case2 visited importer name pending hv ih =>
    have w := ih h
    refine ⟨w.resolved, w.fresh, w.nodup, ?_, w.imports_found⟩
    intro p hp
    rcases List.mem_cons.1 hp with rfl | hp
    · exact .inl hv
    · exact w.pending_found p hp
  | case3 => cases h
  | case4 visited importer name pending hv m hget ih =>
    obtain ⟨rest, hr, rfl⟩ := Outcome.map_eq_ok_iff.1 h
    exact (ih hr).visit hv hget

/-! ## What a walk takes up -/

section Kept

variable {d : Definition} {P : String → Prop}
  (hP : ∀ name x, P name → d.get? name = some x → ∀ n ∈ x.imports, P n)

include hP in
theorem visit_keeps {importer name : String} {m : Module} {pending : List (String × String)}
    (hm : d.get? name = some m) (hp : ∀ p ∈ (importer, name) :: pending, P p.2) :
    ∀ p ∈ m.imports.map ((m.name, ·)) ++ pending, P p.2 := by
  intro p h
  rcases List.mem_append.1 h with h | h
  · obtain ⟨n, hi, rfl⟩ := List.mem_map.1 h
    exact hP name m (hp _ List.mem_cons_self) hm n hi
  · exact hp p (List.mem_cons_of_mem _ h)

include hP in
/-- A property that the pending names have and that modules hand on to their imports holds of all
names that a walk finds. -/
theorem reach_keeps {visited : List String} {pending : List (String × String)}
    {found : List Module} (hp : ∀ p ∈ pending, P p.2) (h : d.reach visited pending = .ok found) :
    ∀ x ∈ found, P x.name := by
  fun_induction reach d visited pending generalizing found with
  | case1 => cases h; simp
  | case2 visited importer name pending hv ih =>
    exact ih (fun p hm => hp p (List.mem_cons_of_mem _ hm)) h
  | case3 => cases h
  | case4 visited importer name pending hv m hget ih =>
    obtain ⟨rest, hr, rfl⟩ := Outcome.map_eq_ok_iff.1 h
    intro x hx
    rcases List.mem_cons.1 hx with rfl | hx
    · rw [name_of_get? hget]; exact hp _ List.mem_cons_self
    · exact ih (visit_keeps hP hget hp) hr x hx

include hP in
/-- A walk fails at a name without a module. Its importer wanted the name from the beginning, or is
a module that the walk took up. -/
theorem reach_error {visited : List String} {pending : List (String × String)} {e : SynthesisError}
    (hp : ∀ p ∈ pending, P p.2) (h : d.reach visited pending = .error e) :
    ∃ name importer, e = .unknownModule name (some importer) ∧ P name ∧ d.get? name = none ∧
      ((importer, name) ∈ pending ∨
        ∃ x, P importer ∧ d.get? importer = some x ∧ name ∈ x.imports) := by
  fun_induction reach d visited pending with
  | case1 => cases h
  | case2 visited importer name pending hv ih =>
    obtain ⟨n, i, he, hn, hget, hi⟩ := ih (fun p hm => hp p (List.mem_cons_of_mem _ hm)) h
    exact ⟨n, i, he, hn, hget, hi.imp_left (List.mem_cons_of_mem _)⟩
  | case3 visited importer name pending hv hget =>
    cases h
    exact ⟨name, importer, rfl, hp _ List.mem_cons_self, hget, .inl List.mem_cons_self⟩
  | case4 visited importer name pending hv m hget ih =>
    obtain ⟨n, i, he, hn, hnone, hi⟩ :=
      ih (visit_keeps hP hget hp) (Outcome.map_eq_error_iff.1 h)
    refine ⟨n, i, he, hn, hnone, ?_⟩
    rcases hi with hi | hi
    · rcases List.mem_append.1 hi with hi | hi
      · obtain ⟨k, hk, e⟩ := List.mem_map.1 hi
        cases e
        have hname := name_of_get? hget
        exact .inr ⟨m, hname ▸ hp _ List.mem_cons_self, hname ▸ hget, hk⟩
      · exact .inl (List.mem_cons_of_mem _ hi)
    · exact .inr hi

end Kept

/-! ## Turn by turn -/

/-- A walk under way: the names it took up, the imports that are pending, what it found so far. -/
structure Walk where
  visited : List String := []
  pending : List (String × String)
  found : List Module := []
  deriving DecidableEq, Repr

namespace Walk

/-- The walk that makes up the import closure of a module. -/
def start (m : Module) : Walk := { pending := m.imports.map ((m.name, ·)) }

/-- The next state of a walk, or its result if it ends. -/
def turn (d : Definition) (w : Walk) : Walk ⊕ Except SynthesisError (List Module) :=
  match w.pending with
  | [] => .inr (.ok w.found)
  | (importer, name) :: pending =>
    if name ∈ w.visited then .inl { w with pending }
    else
      match d.get? name with
      | none => .inr (.error (.unknownModule name (some importer)))
      | some m =>
        .inl { visited := name :: w.visited
               pending := m.imports.map ((m.name, ·)) ++ pending
               found := w.found ++ [m] }

/-- The result of a walk that ends within `n` turns. -/
def run (d : Definition) : Nat → Walk → Option (Except SynthesisError (List Module))
  | 0, _ => none
  | n + 1, w =>
    match w.turn d with
    | .inl next => run d n next
    | .inr result => some result

/-- The imports that a walk may still take up, each as often as it may come up. -/
def work (d : Definition) (w : Walk) : Nat := w.pending.length + d.unvisitedImports w.visited

/-- A turn that does not end the walk takes up an import, and what the walk will find stays. -/
theorem turn_progress {d : Definition} {w next : Walk} (h : w.turn d = .inl next) :
    next.work d < w.work d ∧
      (d.reach next.visited next.pending).map (next.found ++ ·) =
        (d.reach w.visited w.pending).map (w.found ++ ·) := by
  obtain ⟨visited, pending, found⟩ := w
  cases pending with
  | nil => cases h
  | cons p pending =>
    obtain ⟨importer, name⟩ := p
    simp only [turn] at h
    split at h
    · rename_i hv
      cases h
      exact ⟨by simp [work], by rw [reach_of_mem hv]⟩
    · rename_i hv
      split at h
      · cases h
      · rename_i m hget
        cases h
        have hn := name_of_get? hget
        have hvisit := unvisitedImports_visit (mem_modules_of_get? hget) (hn ▸ hv)
        rw [hn] at hvisit
        refine ⟨?_, ?_⟩
        · simp only [work, List.length_append, List.length_map, List.length_cons]
          omega
        · rw [reach_of_some hv hget]
          cases d.reach (name :: visited) (m.imports.map ((m.name, ·)) ++ pending) <;>
            simp [Except.map]

theorem turn_ends {d : Definition} {w : Walk} {result : Except SynthesisError (List Module)}
    (h : w.turn d = .inr result) :
    result = (d.reach w.visited w.pending).map (w.found ++ ·) := by
  obtain ⟨visited, pending, found⟩ := w
  cases pending with
  | nil => cases h; simp [reach, Except.map]
  | cons p pending =>
    obtain ⟨importer, name⟩ := p
    simp only [turn] at h
    split at h
    · cases h
    · rename_i hv
      split at h
      · rename_i hget
        cases h
        rw [reach_of_none hv hget]
        rfl
      · cases h

/-- A walk with more turns than work ends. -/
theorem run_eq {d : Definition} {n : Nat} {w : Walk} (h : w.work d < n) :
    w.run d n = some ((d.reach w.visited w.pending).map (w.found ++ ·)) := by
  induction n generalizing w with
  | zero => omega
  | succ n ih =>
    rw [run]
    split
    · rename_i next ht
      obtain ⟨hless, hsame⟩ := turn_progress ht
      rw [ih (by omega), hsame]
    · rename_i result ht
      rw [turn_ends ht]

/-- The walk of an import closure takes at most one turn for each import of the module and of each
module of the definition, and one to end. -/
theorem run_start (d : Definition) (m : Module) :
    (start m).run d (m.imports.length + (d.modules.flatMap Module.imports).length + 1) =
      some (d.importClosure m) := by
  have hall : d.modules.filter (fun x => x.name ∉ ([] : List String)) = d.modules :=
    List.filter_eq_self.2 (by simp)
  have hwork : (start m).work d = m.imports.length + (d.modules.flatMap Module.imports).length := by
    rw [work, unvisitedImports, start, hall, List.length_map]
  rw [run_eq (by omega)]
  exact congrArg some (congrFun Except.map_id _)

end Walk

/-! ## The import closure -/

/-- The names that an import closure finds are closed under imports, so each reachable name is among
them. -/
theorem found_of_reaches {d : Definition} {m : Module} {closure : List Module} {name : String}
    (h : d.importClosure m = .ok closure) (hr : d.Reaches m.imports name) :
    ∃ x ∈ closure, d.get? name = some x := by
  have w := walked_of_reach h
  have named : ∀ {n}, n ∈ [] ∨ n ∈ closure.map Module.name → ∃ x ∈ closure, d.get? n = some x := by
    intro n hn
    obtain ⟨x, hx, rfl⟩ := List.mem_map.1 (hn.resolve_left List.not_mem_nil)
    exact ⟨x, hx, w.resolved x hx⟩
  induction hr with
  | @direct name hi => exact named (w.pending_found (m.name, name) (List.mem_map.2 ⟨name, hi, rfl⟩))
  | @step name next x hr hx hi ih =>
    obtain ⟨y, hy, hgy⟩ := ih
    rw [hx] at hgy
    cases hgy
    exact named (w.imports_found x hy next hi)

theorem importClosure_spec {d : Definition} {m : Module} {closure : List Module}
    (h : d.importClosure m = .ok closure) :
    (closure.map Module.name).Nodup ∧
      ∀ x, x ∈ closure ↔ d.Reaches m.imports x.name ∧ d.get? x.name = some x := by
  have w := walked_of_reach h
  have hkeep := reach_keeps (P := d.Reaches m.imports) (fun _ _ hn hx _ hi => hn.step hx hi)
    (by
      intro p hp
      obtain ⟨n, hi, rfl⟩ := List.mem_map.1 hp
      exact .direct hi) h
  refine ⟨w.nodup, fun x => ⟨fun hx => ⟨hkeep x hx, w.resolved x hx⟩, ?_⟩⟩
  intro hreach
  obtain ⟨hr, hx⟩ := hreach
  obtain ⟨y, hy, hgy⟩ := found_of_reaches h hr
  rw [hx] at hgy
  cases hgy
  exact hy

theorem mem_importClosure_iff {d : Definition} {m x : Module} {closure : List Module}
    (h : d.importClosure m = .ok closure) :
    x ∈ closure ↔ d.Reaches m.imports x.name ∧ d.get? x.name = some x :=
  (importClosure_spec h).2 x

theorem importClosure_error {d : Definition} {m : Module} {e : SynthesisError}
    (h : d.importClosure m = .error e) :
    ∃ name x, e = .unknownModule name (some x.name) ∧ d.Reaches m.imports name ∧
      d.get? name = none ∧ name ∈ x.imports ∧
      (x = m ∨ d.Reaches m.imports x.name ∧ d.get? x.name = some x) := by
  obtain ⟨name, importer, he, hr, hget, hi⟩ :=
    reach_error (P := d.Reaches m.imports) (fun _ _ hn hx _ hi => hn.step hx hi)
      (by
        intro p hp
        obtain ⟨n, hi, rfl⟩ := List.mem_map.1 hp
        exact .direct hi) h
  rcases hi with hi | ⟨x, hx, hgx, hi⟩
  · obtain ⟨n, hn, e⟩ := List.mem_map.1 hi
    cases e
    exact ⟨name, m, he, hr, hget, hn, .inl rfl⟩
  · have hname := name_of_get? hgx
    exact ⟨name, x, hname ▸ he, hr, hget, hi, .inr ⟨hname ▸ hx, hname ▸ hgx⟩⟩

theorem exists_importClosure_iff {d : Definition} {m : Module} :
    (∃ closure, d.importClosure m = .ok closure) ↔
      ∀ name, d.Reaches m.imports name → ∃ x, d.get? name = some x := by
  constructor
  · intro hclosure name hr
    obtain ⟨closure, h⟩ := hclosure
    obtain ⟨x, -, hx⟩ := found_of_reaches h hr
    exact ⟨x, hx⟩
  · intro hall
    refine Outcome.exists_ok_iff.2 fun e h => ?_
    obtain ⟨name, x, he, hr, hget, -⟩ := importClosure_error h
    obtain ⟨y, hy⟩ := hall name hr
    rw [hget] at hy
    cases hy

/-- **The import closure computes reachability.** Its walk ends after a bounded number of turns. It
fails only if a reachable name has no module, and then it names such a name and a module that
imports it. Otherwise it has exactly one entry for each reachable name, the module of that name. -/
theorem importClosure_computes_reachability (d : Definition) (m : Module) :
    (∃ turns ≤ m.imports.length + (d.modules.flatMap Module.imports).length + 1,
      (Walk.start m).run d turns = some (d.importClosure m)) ∧
    ((∃ closure, d.importClosure m = .ok closure) ↔
      ∀ name, d.Reaches m.imports name → ∃ x, d.get? name = some x) ∧
    (∀ closure, d.importClosure m = .ok closure →
      (closure.map Module.name).Nodup ∧
        (∀ name, name ∈ closure.map Module.name ↔ d.Reaches m.imports name) ∧
        ∀ x ∈ closure, d.get? x.name = some x) ∧
    ∀ e, d.importClosure m = .error e →
      ∃ name x, e = .unknownModule name (some x.name) ∧ d.get? name = none ∧ name ∈ x.imports ∧
        (x = m ∨ d.Reaches m.imports x.name ∧ d.get? x.name = some x) := by
  refine ⟨⟨_, Nat.le_refl _, Walk.run_start d m⟩, exists_importClosure_iff, ?_, ?_⟩
  · intro closure h
    refine ⟨(importClosure_spec h).1, fun name => ⟨fun hn => ?_, fun hr => ?_⟩, fun x hx => ?_⟩
    · obtain ⟨x, hx, rfl⟩ := List.mem_map.1 hn
      exact ((mem_importClosure_iff h).1 hx).1
    · obtain ⟨x, hx, hget⟩ := found_of_reaches h hr
      exact List.mem_map.2 ⟨x, hx, name_of_get? hget⟩
    · exact ((mem_importClosure_iff h).1 hx).2
  · intro e h
    obtain ⟨name, x, he, -, hget, hi, hx⟩ := importClosure_error h
    exact ⟨name, x, he, hget, hi, hx⟩

/-- Two modules that import each other: the first is part of its own closure. -/
example :
    let first : Module := { name := "A", imports := ["B", "B"] }
    let second : Module := { name := "B", imports := ["A"] }
    (importClosure { own := Catalog.ofList [first, second] } first).toOption =
      some [second, first] := by
  decide +kernel

end GrammarSynthesis.Definition
