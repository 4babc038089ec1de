import GrammarSynthesis.Proofs.Flattening
import GrammarSynthesis.Proofs.Numbering
import GrammarSynthesis.Synthesis.Casts

/-!
# Extensions

A module that lacks casts is extended: it gets the casts as sentences of its own, and an import of
the core module. What the extension reaches is what the module reached and what the core module
reaches, so its flat module is known from that of the module.

* `reaches_union_iff`: what two lists of names reach together;
* `forall_reaches_singleton_iff`: what a name reaches can be found if its module has a closure;
* `mem_flat_sentences_iff`, `mem_flat_imports_iff`: the flat module, by reachability;
* `mem_visible_iff_reaches`: what a module sees, by reachability;
* `mem_flat_extension_sentences`, `mem_flat_extension_imports`, `mem_visible_extension`: the flat
  module of an extension, and what an extension sees;
* `Casts.mem_ofSort`, `Casts.mem_additions`, `Casts.extend?_eq_ok_iff`: which casts a sort and a
  module get.
-/
namespace GrammarSynthesis

namespace Definition

variable {d : Definition} {m flat : Module}

/-! ## More names to start from -/

theorem Reaches.mono {start start' : List String} (h : ∀ n ∈ start, n ∈ start') {name : String}
    (hr : d.Reaches start name) : d.Reaches start' name := by
  induction hr with
  | direct hn => exact .direct (h _ hn)
  | step _ hget hi ih => exact ih.step hget hi

theorem reaches_union_iff {both left right : List String}
    (h : ∀ n, n ∈ both ↔ n ∈ left ∨ n ∈ right) {name : String} :
    d.Reaches both name ↔ d.Reaches left name ∨ d.Reaches right name := by
  constructor
  · intro hr
    induction hr with
    | direct hn => exact ((h _).1 hn).imp .direct .direct
    | step _ hget hi ih => exact ih.imp (·.step hget hi) (·.step hget hi)
  · intro hr
    rcases hr with hr | hr
    · exact hr.mono fun n hn => (h n).2 (.inl hn)
    · exact hr.mono fun n hn => (h n).2 (.inr hn)

theorem reaches_congr {start start' : List String} (h : ∀ n, n ∈ start ↔ n ∈ start')
    {name : String} : d.Reaches start name ↔ d.Reaches start' name :=
  ⟨.mono fun n => (h n).1, .mono fun n => (h n).2⟩

/-- From the name of a module one reaches that name and what the module imports. -/
theorem reaches_singleton_iff {name n : String} {x : Module} (hx : d.get? name = some x) :
    d.Reaches [name] n ↔ n = name ∨ d.Reaches x.imports n := by
  constructor
  · intro hr
    induction hr with
    | direct hn => exact .inl (List.mem_singleton.1 hn)
    | step _ hget hi ih =>
      rcases ih with rfl | ih
      · rw [hx] at hget
        cases hget
        exact .inr (.direct hi)
      · exact .inr (ih.step hget hi)
  · intro hr
    have hname : d.Reaches [name] name := .direct (List.mem_singleton.2 rfl)
    rcases hr with rfl | hr
    · exact hname
    · induction hr with
      | direct hi => exact hname.step hx hi
      | step _ hget hi ih => exact ih.step hget hi

/-- What can be reached from the name of a module is that module or is in its closure. -/
theorem exists_mem_of_reaches {name n : String} {x : Module} {closure : List Module}
    (hx : d.get? name = some x) (hc : d.importClosure x = .ok closure)
    (hr : d.Reaches [name] n) : ∃ y ∈ x :: closure, d.get? n = some y := by
  rcases (reaches_singleton_iff hx).1 hr with rfl | hr
  · exact ⟨x, List.mem_cons_self, hx⟩
  · obtain ⟨y, hy, hget⟩ := found_of_reaches hc hr
    exact ⟨y, List.mem_cons_of_mem _ hy, hget⟩

/-- All that is reached from a name can be found if the name can and its module has a closure. -/
theorem forall_reaches_singleton_iff {name : String} :
    (∀ n, d.Reaches [name] n → ∃ x, d.get? n = some x) ↔
      ∃ x, d.get? name = some x ∧ ∃ closure, d.importClosure x = .ok closure := by
  constructor
  · intro h
    obtain ⟨x, hx⟩ := h name (.direct (List.mem_singleton.2 rfl))
    refine ⟨x, hx, exists_importClosure_iff.2 fun n hr => h n ?_⟩
    exact (reaches_singleton_iff hx).2 (.inr hr)
  · intro h n hr
    obtain ⟨x, hx, closure, hc⟩ := h
    obtain ⟨y, -, hget⟩ := exists_mem_of_reaches hx hc hr
    exact ⟨y, hget⟩

/-! ## The flat module by reachability -/

/-- The module can be reached and is one of the user's. -/
def ReachesOwn (d : Definition) (start : List String) (x : Module) : Prop :=
  d.Reaches start x.name ∧ d.get? x.name = some x ∧ d.isBase x.name = false

theorem mem_userSide_iff_reachesOwn {closure : List Module} (h : d.importClosure m = .ok closure)
    {x : Module} : x ∈ d.userSide m closure ↔ x = m ∨ d.ReachesOwn m.imports x := by
  rw [mem_userSide_iff, mem_importClosure_iff h, and_assoc]
  rfl

theorem mem_flat_sentences_iff (h : d.flatten m = .ok flat) {s : Sentence} :
    s ∈ flat.sentences ↔
      s ∈ m.sentences ∨ ∃ x, d.ReachesOwn m.imports x ∧ s ∈ x.sentences := by
  obtain ⟨closure, hc, hsentences, -⟩ := flatten_spec h
  simp only [hsentences, mem_sentencesOf, mem_userSide_iff_reachesOwn hc, or_and_right,
    exists_or, exists_eq_left]

theorem mem_flat_imports_iff (h : d.flatten m = .ok flat) {n : String} :
    n ∈ flat.imports ↔ d.isBase n = true ∧
      (n ∈ m.imports ∨ ∃ x, d.ReachesOwn m.imports x ∧ n ∈ x.imports) := by
  obtain ⟨closure, hc, -, himports⟩ := flatten_spec h
  simp only [himports, mem_userSide_iff_reachesOwn hc, or_and_right, exists_or, exists_eq_left]

theorem userSentences_of_flatten (h : d.flatten m = .ok flat) :
    d.userSentences m = .ok flat.sentences := by
  obtain ⟨closure, hc, hsentences, -⟩ := flatten_spec h
  rw [userSentences, hc, hsentences]
  rfl

/-- A module sees its own sentences and those of every module that it reaches. -/
theorem mem_visible_iff_reaches {visible : SentenceSet} (h : d.visibleSentences m = .ok visible)
    {s : Sentence} : s ∈ visible ↔ s ∈ m.sentences ∨
      ∃ x, d.Reaches m.imports x.name ∧ d.get? x.name = some x ∧ s ∈ x.sentences := by
  obtain ⟨closure, hc, rfl⟩ := Outcome.map_eq_ok_iff.1 h
  simp only [mem_sentencesOf, List.mem_cons, exists_eq_or_imp, mem_importClosure_iff hc, and_assoc]

theorem mem_visible_iff_reaches_name {name : String} {x : Module} {visible : SentenceSet}
    (hx : d.get? name = some x) (hv : d.visibleSentences x = .ok visible) {s : Sentence} :
    s ∈ visible ↔ ∃ y, d.Reaches [name] y.name ∧ d.get? y.name = some y ∧ s ∈ y.sentences := by
  simp only [mem_visible_iff_reaches hv, reaches_singleton_iff hx, or_and_right, exists_or]
  refine or_congr_left ⟨fun hs => ⟨x, name_of_get? hx, name_of_get? hx ▸ hx, hs⟩, fun hs => ?_⟩
  obtain ⟨y, rfl, hy, hs⟩ := hs
  rw [hx] at hy
  cases hy
  exact hs

theorem exists_visibleSentences (h : d.flatten m = .ok flat) :
    ∃ visible, d.visibleSentences m = .ok visible := by
  obtain ⟨closure, hc⟩ := exists_flatten_iff.1 ⟨flat, h⟩
  exact ⟨_, by rw [visibleSentences, hc]; rfl⟩

/-! ## The flat module of an extension -/

section Extension

variable {core : String} {new : List Sentence}

theorem mem_imports_addImport {name n : String} :
    n ∈ (m.addImport name).imports ↔ n ∈ m.imports ∨ n = name := by
  unfold Module.addImport
  split
  · rename_i hname
    exact ⟨.inl, fun h => h.elim id fun e => e ▸ hname⟩
  · simp

theorem mem_imports_extension {n : String} :
    n ∈ ((m.addImport core).extend new).imports ↔ n ∈ m.imports ∨ n ∈ [core] := by
  rw [List.mem_singleton]
  exact mem_imports_addImport

theorem mem_sentences_extension {s : Sentence} :
    s ∈ ((m.addImport core).extend new).sentences ↔ s ∈ m.sentences ∨ s ∈ new := by
  have hsame : (m.addImport core).sentences = m.sentences := by
    unfold Module.addImport
    split <;> rfl
  rw [Module.extend, OrdSet.mem_insertAll, hsame]

theorem reaches_extension_iff {n : String} :
    d.Reaches ((m.addImport core).extend new).imports n ↔
      d.Reaches m.imports n ∨ d.Reaches [core] n :=
  reaches_union_iff fun _ => mem_imports_extension

theorem reachesOwn_extension_iff {x : Module} :
    d.ReachesOwn ((m.addImport core).extend new).imports x ↔
      d.ReachesOwn m.imports x ∨ d.ReachesOwn [core] x := by
  rw [ReachesOwn, reaches_extension_iff, or_and_right]
  rfl

/-- An extension can be flattened if the module can and the core module reaches no unknown name. -/
theorem exists_flatten_extension_iff :
    (∃ flat', d.flatten ((m.addImport core).extend new) = .ok flat') ↔
      (∃ flat, d.flatten m = .ok flat) ∧ ∀ n, d.Reaches [core] n → ∃ x, d.get? n = some x := by
  simp only [exists_flatten_iff, exists_importClosure_iff, reaches_extension_iff, or_imp,
    forall_and]

variable {flat' : Module} (h : d.flatten m = .ok flat)
  (h' : d.flatten ((m.addImport core).extend new) = .ok flat')
include h h'

theorem mem_flat_extension_sentences {s : Sentence} :
    s ∈ flat'.sentences ↔
      s ∈ flat.sentences ∨ s ∈ new ∨ ∃ x, d.ReachesOwn [core] x ∧ s ∈ x.sentences := by
  simp only [mem_flat_sentences_iff h, mem_flat_sentences_iff h', mem_sentences_extension,
    reachesOwn_extension_iff, or_and_right, exists_or]
  exact or_or_or_comm

theorem mem_flat_extension_imports {n : String} :
    n ∈ flat'.imports ↔ n ∈ flat.imports ∨
      d.isBase n = true ∧ (n = core ∨ ∃ x, d.ReachesOwn [core] x ∧ n ∈ x.imports) := by
  simp only [mem_flat_imports_iff h, mem_flat_imports_iff h', mem_imports_extension,
    List.mem_singleton, reachesOwn_extension_iff, or_and_right, exists_or]
  rw [← and_or_left, or_or_or_comm]

end Extension

theorem mem_visible_extension {core : String} {new : List Sentence}
    {visible visible' : SentenceSet} (h : d.visibleSentences m = .ok visible)
    (h' : d.visibleSentences ((m.addImport core).extend new) = .ok visible') {s : Sentence} :
    s ∈ visible' ↔ s ∈ visible ∨ s ∈ new ∨
      ∃ x, d.Reaches [core] x.name ∧ d.get? x.name = some x ∧ s ∈ x.sentences := by
  simp only [mem_visible_iff_reaches h, mem_visible_iff_reaches h', mem_sentences_extension,
    reaches_extension_iff, or_and_right, exists_or]
  exact or_or_or_comm

end Definition

/-! ## Casts -/

namespace Casts

open Definition

variable {cfg : Settings} {d : Definition} {m : Module} {cs : Capabilities}

theorem mem_candidates {sorts : List SortName} {p : Production} :
    p ∈ candidates cfg sorts cs ↔
      ∃ s ∈ sorts, cfg.isReserved s = false ∧ p ∈ ofSort cfg cs s := by
  simp only [candidates, OrdSet.mem_ofList, List.mem_flatMap,
    SortNumbering.mem_sortsOf_assignAll, List.mem_filter, Bool.not_eq_true', and_assoc]

theorem mem_ofSort {s : SortName} {p : Production} :
    p ∈ ofSort cfg cs s ↔
      .autoCasts ∈ cs ∧ p ∈ fourCasts cfg cfg.sorts.bottom cfg.sorts.top s ∨
      .topSort ∈ cs ∧ p = .injection cfg.sorts.top s ∨
      .bottomSort ∈ cs ∧ p = .injection s cfg.sorts.bottom := by
  simp only [ofSort, List.mem_append, List.mem_ite_nil_right, List.mem_singleton, or_assoc]

/-- A cast of a sort makes the sort, or the bottom or the top sort. -/
theorem sort_of_mem_ofSort {s : SortName} {p : Production} (h : p ∈ ofSort cfg cs s) :
    p.sort = s ∨ p.sort = cfg.sorts.top ∨ p.sort = cfg.sorts.bottom := by
  rcases mem_ofSort.1 h with ⟨-, h⟩ | ⟨-, rfl⟩ | ⟨-, rfl⟩
  · simp only [fourCasts, List.mem_cons, List.not_mem_nil, or_false] at h
    rcases h with rfl | rfl | rfl | rfl
    · exact .inl rfl
    · exact .inl rfl
    · exact .inr (.inr rfl)
    · exact .inl rfl
  · exact .inr (.inl rfl)
  · exact .inl rfl

theorem exists_additions {user visible : SentenceSet} (hu : d.userSentences m = .ok user)
    (hv : d.visibleSentences m = .ok visible) : ∃ new, additions cfg d m cs = .ok new :=
  ⟨_, by rw [additions, hu, hv]; rfl⟩

theorem mem_additions {user visible : SentenceSet} {new : List Sentence}
    (hu : d.userSentences m = .ok user) (hv : d.visibleSentences m = .ok visible)
    (h : additions cfg d m cs = .ok new) {x : Sentence} :
    x ∈ new ↔ x ∉ visible ∧
      ∃ p ∈ candidates cfg (definedSorts user.toList).toList cs, .production p = x := by
  rw [additions, hu, hv] at h
  obtain rfl := Except.ok.inj h
  simp only [List.mem_filter, List.mem_map, Catalog.mem_toList, decide_eq_true_eq]
  exact and_comm

theorem exists_flatten_of_additions {new : List Sentence}
    (h : additions cfg d m cs = .ok new) : ∃ flat, d.flatten m = .ok flat := by
  obtain ⟨user, hu, -⟩ := Outcome.bind_eq_ok_iff.1 h
  obtain ⟨closure, hc, -⟩ := Outcome.map_eq_ok_iff.1 hu
  exact exists_flatten_iff.2 ⟨closure, hc⟩

/-- A module with all its casts stays as it is, any other gets those that it lacks. -/
theorem extend?_eq_ok_iff {extended : Option Module} :
    extend? cfg d m cs = .ok extended ↔ ∃ new, additions cfg d m cs = .ok new ∧
      (new = [] ∧ extended = none ∨
        new ≠ [] ∧ extended = some ((m.addImport cfg.coreModule).extend new)) := by
  rw [extend?, Outcome.map_eq_ok_iff]
  refine exists_congr fun new => and_congr_right fun _ => ?_
  cases new <;> simp [eq_comm]

end Casts

end GrammarSynthesis
