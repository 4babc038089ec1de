import GrammarSynthesis.Proofs.Layers
import GrammarSynthesis.Proofs.Reachability
import GrammarSynthesis.Settings.Basic

/-!
# Flattening

Flattening folds the user's side of a module into one module and keeps, of all imports, the names of
base modules only. Nothing is lost: a path along imports leaves the user's side at a base module,
and that one is imported directly by the module at the end of the user's side. Nothing is won
either, as each import that is kept could be reached before.

A base module may import a name that a module of the top layer redefines. The closure then enters
the user's side again; what it finds there has been folded into the flat module already.

* `flatten_spec`: the imports and the sentences of the flat module;
* `reaches_of_reaches_flat`, `reaches_flat_of_base`: both modules reach the same base modules;
* `flatten_preserves_visibility`: both modules see the same and have the same capabilities.
-/
namespace GrammarSynthesis.Definition

variable {d : Definition} {m flat : Module}

/-! ## The flat module -/

theorem mem_userSide_iff {closure : List Module} {x : Module} :
    x ∈ d.userSide m closure ↔ x = m ∨ x ∈ closure ∧ d.isBase x.name = false := by
  simp [userSide]

theorem flatten_spec (h : d.flatten m = .ok flat) :
    ∃ closure, d.importClosure m = .ok closure ∧
      flat.sentences = sentencesOf (d.userSide m closure) ∧
      ∀ n, n ∈ flat.imports ↔ d.isBase n = true ∧ ∃ x ∈ d.userSide m closure, n ∈ x.imports := by
  obtain ⟨closure, hc, rfl⟩ := Outcome.map_eq_ok_iff.1 h
  refine ⟨closure, hc, rfl, fun n => ?_⟩
  simp only [List.mem_eraseDups, List.mem_filter, List.mem_flatMap]
  exact and_comm

theorem exists_flatten_iff :
    (∃ flat, d.flatten m = .ok flat) ↔ ∃ closure, d.importClosure m = .ok closure := by
  cases h : d.importClosure m <;> simp [flatten, h, Except.map]

/-! ## What the flat module reaches -/

/-- Each import of the flat module is reached by the module itself. -/
theorem reaches_of_mem_flat_imports (h : d.flatten m = .ok flat) {n : String}
    (hn : n ∈ flat.imports) : d.Reaches m.imports n := by
  obtain ⟨closure, hc, -, himports⟩ := flatten_spec h
  obtain ⟨-, x, hx, hi⟩ := (himports n).1 hn
  rcases mem_userSide_iff.1 hx with rfl | ⟨hx, -⟩
  · exact .direct hi
  · obtain ⟨hr, hget⟩ := (mem_importClosure_iff hc).1 hx
    exact hr.step hget hi

theorem reaches_of_reaches_flat (h : d.flatten m = .ok flat) {n : String}
    (hr : d.Reaches flat.imports n) : d.Reaches m.imports n := by
  induction hr with
  | direct hn => exact reaches_of_mem_flat_imports h hn
  | step _ hget hi ih => exact ih.step hget hi

theorem reaches_flat_of_base (h : d.flatten m = .ok flat) {n : String} (hb : d.isBase n = true)
    (hr : d.Reaches m.imports n) : d.Reaches flat.imports n := by
  obtain ⟨closure, hc, -, himports⟩ := flatten_spec h
  induction hr with
  | direct hn => exact .direct ((himports _).2 ⟨hb, m, mem_userSide_iff.2 (.inl rfl), hn⟩)
  | @step name next x hr hget hi ih =>
    cases hbase : d.isBase name with
    | true => exact (ih hbase).step hget hi
    | false =>
      -- here the path leaves the user's side
      have hname := name_of_get? hget
      have hx : x ∈ closure := (mem_importClosure_iff hc).2 ⟨hname ▸ hr, hname ▸ hget⟩
      have hside : x ∈ d.userSide m closure := mem_userSide_iff.2 (.inr ⟨hx, hname ▸ hbase⟩)
      exact .direct ((himports next).2 ⟨hb, x, hside, hi⟩)

theorem reaches_flat_iff_of_base (h : d.flatten m = .ok flat) {n : String}
    (hb : d.isBase n = true) : d.Reaches flat.imports n ↔ d.Reaches m.imports n :=
  ⟨reaches_of_reaches_flat h, reaches_flat_of_base h hb⟩

theorem importClosure_flat (h : d.flatten m = .ok flat) :
    ∃ closure, d.importClosure flat = .ok closure := by
  have hm := exists_importClosure_iff.1 (exists_flatten_iff.1 ⟨flat, h⟩)
  exact exists_importClosure_iff.2 fun n hr => hm n (reaches_of_reaches_flat h hr)

/-! ## What the flat module sees -/

/-- Sentences of the user's side are sentences of the flat module. -/
theorem mem_flat_of_user {closure : List Module} {x : Module} {s : Sentence}
    (h : d.flatten m = .ok flat) (hm : d.importClosure m = .ok closure) (hx : x ∈ closure)
    (hb : d.isBase x.name = false) (hs : s ∈ x.sentences) : s ∈ flat.sentences := by
  obtain ⟨c, hc, hsentences, -⟩ := flatten_spec h
  rw [hm] at hc
  cases hc
  rw [hsentences]
  exact mem_sentencesOf.2 ⟨x, mem_userSide_iff.2 (.inr ⟨hx, hb⟩), hs⟩

section Closures

variable {closure flatClosure : List Module} (h : d.flatten m = .ok flat)
  (hm : d.importClosure m = .ok closure) (hf : d.importClosure flat = .ok flatClosure)
include h hm hf

theorem flatClosure_subset {x : Module} (hx : x ∈ flatClosure) : x ∈ closure := by
  obtain ⟨hr, hget⟩ := (mem_importClosure_iff hf).1 hx
  exact (mem_importClosure_iff hm).2 ⟨reaches_of_reaches_flat h hr, hget⟩

theorem mem_flatClosure_iff_of_base {x : Module} (hb : d.isBase x.name = true) :
    x ∈ flatClosure ↔ x ∈ closure := by
  rw [mem_importClosure_iff hf, mem_importClosure_iff hm, reaches_flat_iff_of_base h hb]

theorem visible_flat : sentencesOf (flat :: flatClosure) = sentencesOf (m :: closure) := by
  obtain ⟨c, hc, hsentences, -⟩ := flatten_spec h
  rw [hm] at hc
  cases hc
  ext s
  simp only [mem_sentencesOf, List.mem_cons, exists_eq_or_imp, hsentences, mem_userSide_iff]
  constructor
  · intro hs
    rcases hs with (hs | ⟨x, ⟨hx, -⟩, hs⟩) | ⟨x, hx, hs⟩
    · exact .inl hs
    · exact .inr ⟨x, hx, hs⟩
    · exact .inr ⟨x, flatClosure_subset h hm hf hx, hs⟩
  · intro hs
    rcases hs with hs | ⟨x, hx, hs⟩
    · exact .inl (.inl hs)
    · cases hb : d.isBase x.name with
      | true => exact .inr ⟨x, (mem_flatClosure_iff_of_base h hm hf hb).2 hx, hs⟩
      | false => exact .inl (.inr ⟨x, ⟨hx, hb⟩, hs⟩)

theorem user_flat : sentencesOf (d.userSide flat flatClosure) = flat.sentences := by
  ext s
  simp only [mem_sentencesOf, mem_userSide_iff]
  constructor
  · intro hs
    rcases hs with ⟨x, rfl | ⟨hx, hb⟩, hs⟩
    · exact hs
    · exact mem_flat_of_user h hm (flatClosure_subset h hm hf hx) hb hs
  · exact fun hs => ⟨flat, .inl rfl, hs⟩

end Closures

/-! ## Capabilities -/

theorem mem_importedNames_iff {names : OrdSet String} (h : d.importedNames m = .ok names)
    {n : String} : n ∈ names ↔ d.Reaches m.imports n := by
  obtain ⟨closure, hc, rfl⟩ := Outcome.map_eq_ok_iff.1 h
  simp only [OrdSet.mem_ofList, List.mem_map, mem_importClosure_iff hc]
  constructor
  · intro hn
    obtain ⟨x, ⟨hr, -⟩, rfl⟩ := hn
    exact hr
  · intro hr
    obtain ⟨x, hx, hget⟩ := found_of_reaches hc hr
    exact ⟨x, (mem_importClosure_iff hc).1 hx, name_of_get? hget⟩

/-- A capability is on if the module reaches a base module that is a marker of it. -/
theorem mem_capabilities_iff {cfg : Settings} {cs : Capabilities}
    (h : cfg.capabilities d m = .ok cs) {c : Capability} :
    c ∈ cs ↔ ∃ name, (c, name) ∈ cfg.markers ∧ d.isBase name = true ∧ d.Reaches m.imports name := by
  obtain ⟨names, hn, rfl⟩ := Outcome.map_eq_ok_iff.1 h
  simp only [OrdSet.mem_ofList, List.mem_map, List.mem_filter, Bool.and_eq_true, decide_eq_true_eq,
    mem_importedNames_iff hn]
  constructor
  · intro hc
    obtain ⟨entry, ⟨hmarker, hreach, hbase⟩, rfl⟩ := hc
    exact ⟨entry.2, hmarker, hbase, hreach⟩
  · intro hc
    obtain ⟨name, hmarker, hbase, hreach⟩ := hc
    exact ⟨(c, name), ⟨hmarker, hreach, hbase⟩, rfl⟩

theorem exists_capabilities {closure : List Module} (h : d.importClosure m = .ok closure)
    (cfg : Settings) : ∃ cs, cfg.capabilities d m = .ok cs := by
  simp [Settings.capabilities, importedNames, h, Except.map]

/-- The capabilities of a module depend on the base modules that it reaches and on nothing else. -/
theorem capabilities_congr {m' : Module} {closure closure' : List Module}
    (h : d.importClosure m = .ok closure) (h' : d.importClosure m' = .ok closure')
    (hsame : ∀ n, d.isBase n = true → (d.Reaches m.imports n ↔ d.Reaches m'.imports n))
    (cfg : Settings) : ∃ cs, cfg.capabilities d m = .ok cs ∧ cfg.capabilities d m' = .ok cs := by
  obtain ⟨cs, hcs⟩ := exists_capabilities h cfg
  obtain ⟨cs', hcs'⟩ := exists_capabilities h' cfg
  have heq : cs = cs' := by
    ext c
    rw [mem_capabilities_iff hcs, mem_capabilities_iff hcs']
    exact exists_congr fun n => and_congr_right fun _ => and_congr_right fun hb => hsame n hb
  exact ⟨cs, hcs, heq ▸ hcs'⟩

/-- **Flattening preserves what is visible.** It succeeds if the import closure does. The flat
module then sees the same sentences and reaches the same base modules, has the user's sentences as
its own, and switches the same capabilities on under every settings. -/
theorem flatten_preserves_visibility (d : Definition) (m : Module) :
    ((∃ flat, d.flatten m = .ok flat) ↔ ∃ closure, d.importClosure m = .ok closure) ∧
    ∀ flat, d.flatten m = .ok flat →
      (∃ visible, d.visibleSentences flat = .ok visible ∧ d.visibleSentences m = .ok visible) ∧
      d.userSentences flat = .ok flat.sentences ∧ d.userSentences m = .ok flat.sentences ∧
      (∃ flatClosure closure, d.importClosure flat = .ok flatClosure ∧
        d.importClosure m = .ok closure ∧
        ∀ x, d.isBase x.name = true → (x ∈ flatClosure ↔ x ∈ closure)) ∧
      ∀ cfg : Settings,
        ∃ cs, cfg.capabilities d flat = .ok cs ∧ cfg.capabilities d m = .ok cs := by
  refine ⟨exists_flatten_iff, fun flat h => ?_⟩
  obtain ⟨closure, hm, hsentences, -⟩ := flatten_spec h
  obtain ⟨flatClosure, hf⟩ := importClosure_flat h
  refine ⟨⟨sentencesOf (m :: closure), ?_, ?_⟩, ?_, ?_, ?_, ?_⟩
  · rw [visibleSentences, hf, ← visible_flat h hm hf]; rfl
  · rw [visibleSentences, hm]; rfl
  · rw [userSentences, hf, ← user_flat h hm hf]; rfl
  · rw [userSentences, hm, hsentences]; rfl
  · exact ⟨flatClosure, closure, hf, hm, fun x hb => mem_flatClosure_iff_of_base h hm hf hb⟩
  · exact capabilities_congr hf hm fun n hb => reaches_flat_iff_of_base h hb

end GrammarSynthesis.Definition
