import Mathlib.Logic.Relation
import GrammarSynthesis.Proofs.Saturation

/-!
# Cycles of injections

An injection `X ::= Y` is an edge from `X` to `Y`. With both injections of the lattice, every sort
of the user stands between the top and the bottom sort, so that a new edge could close a cycle
through any chain of edges that were there. It does not, if no sort of the user reached the top sort
before: a path that comes to the bottom sort ends there, and one that leaves the top sort by a new
edge never comes back to it.

* `Diamond.path`: what a path over old and new edges is made of;
* `Diamond.acyclic`: edges from a top and to a bottom close no cycle;
* `Casts.injects_extension`: the injections that an extension sees;
* `Casts.extension_adds_no_cycle`: they are free of cycles if those before were.
-/
namespace GrammarSynthesis

open Relation

/-! ## Edges from a top and to a bottom -/

section Graphs

variable {α : Type} {edge old new : α → α → Prop} {top bottom x y : α} {middle : α → Prop}

/-- No path leads from a point back to it. -/
def Acyclic (edge : α → α → Prop) : Prop := ∀ x, ¬ TransGen edge x x

/-- Every new edge leads from the top to a point of the middle, or from one to the bottom. The
bottom is a dead end, and no old path leads from the middle to the top. -/
structure Diamond (old new : α → α → Prop) (top bottom : α) (middle : α → Prop) : Prop where
  edge : ∀ x y, new x y → old x y ∨ x = top ∧ middle y ∨ middle x ∧ y = bottom
  top_ne_bottom : top ≠ bottom
  bottom_not_middle : ¬ middle bottom
  dead_end : ∀ y, ¬ old bottom y
  below_top : ∀ s, middle s → ¬ ReflTransGen old s top

namespace Diamond

theorem no_edge_from_bottom (h : Diamond old new top bottom middle) : ¬ new bottom y := by
  intro he
  rcases h.edge _ _ he with he | ⟨he, -⟩ | ⟨he, -⟩
  · exact h.dead_end _ he
  · exact h.top_ne_bottom he.symm
  · exact h.bottom_not_middle he

/-- A path ends at the bottom, or it is an old path, or it comes by an old path to the top and by
another one from the middle to its end. -/
theorem path (h : Diamond old new top bottom middle) (hp : TransGen new x y) :
    y = bottom ∨ TransGen old x y ∨
      ∃ s, middle s ∧ ReflTransGen old x top ∧ ReflTransGen old s y := by
  induction hp with
  | single he =>
    rcases h.edge _ _ he with he | ⟨rfl, hs⟩ | ⟨-, hbottom⟩
    · exact .inr (.inl (.single he))
    · exact .inr (.inr ⟨_, hs, .refl, .refl⟩)
    · exact .inl hbottom
  | @tail y z _ he ih =>
    rcases ih with rfl | hold | ⟨s, hs, htop, hdown⟩
    · exact absurd he h.no_edge_from_bottom
    · rcases h.edge _ _ he with he | ⟨rfl, hs⟩ | ⟨-, hbottom⟩
      · exact .inr (.inl (hold.tail he))
      · exact .inr (.inr ⟨z, hs, hold.to_reflTransGen, .refl⟩)
      · exact .inl hbottom
    · rcases h.edge _ _ he with he | ⟨rfl, -⟩ | ⟨-, hbottom⟩
      · exact .inr (.inr ⟨s, hs, htop, hdown.tail he⟩)
      · exact absurd hdown (h.below_top s hs)
      · exact .inl hbottom

theorem acyclic (h : Diamond old new top bottom middle) (hold : Acyclic old) : Acyclic new := by
  intro x hp
  rcases h.path hp with rfl | hcycle | ⟨s, hs, htop, hdown⟩
  · obtain ⟨y, he, -⟩ := TransGen.head'_iff.1 hp
    exact h.no_edge_from_bottom he
  · exact hold x hcycle
  · exact h.below_top s hs (hdown.trans htop)

end Diamond

/-- Where every edge leads to a lesser rank, so does every path. -/
theorem rank_lt_of_path {rank : α → Nat} (h : ∀ x y, edge x y → rank y < rank x)
    (hp : TransGen edge x y) : rank y < rank x := by
  induction hp with
  | single he => exact h _ _ he
  | tail _ he ih => exact Nat.lt_trans (h _ _ he) ih

end Graphs

/-! ## Injections -/

/-- The sort that an injection makes and the sort of which it is made. -/
def Sentence.injection? : Sentence → Option (SortName × SortName)
  | production p =>
    match p.items with
    | [.nonTerminal sub] => some (p.sort, sub)
    | _ => none
  | declaration _ => none

/-- The module sees an injection between the sorts. -/
def Definition.Injects (d : Definition) (m : Module) (sort sub : SortName) : Prop :=
  ∃ visible, d.visibleSentences m = .ok visible ∧ ∃ s ∈ visible, s.injection? = some (sort, sub)

/-- The module or the core module sees an injection between the sorts. -/
def Settings.InjectsWithCore (cfg : Settings) (d : Definition) (m : Module)
    (sort sub : SortName) : Prop :=
  d.Injects m sort sub ∨ ∃ core, d.lookup cfg.coreModule = .ok core ∧ d.Injects core sort sub

namespace Casts

open Definition

variable {cfg : Settings} {d : Definition} {m : Module} {cs : Capabilities}

theorem injection?_of_mem_ofSort {s x y : SortName} {p : Production} (hp : p ∈ ofSort cfg cs s)
    (h : (Sentence.production p).injection? = some (x, y)) :
    x = cfg.sorts.top ∧ y = s ∨ x = s ∧ y = cfg.sorts.bottom := by
  rcases mem_ofSort.1 hp with ⟨-, hp⟩ | ⟨-, rfl⟩ | ⟨-, rfl⟩
  · simp only [fourCasts, List.mem_cons, List.not_mem_nil, or_false] at hp
    rcases hp with rfl | rfl | rfl | rfl <;> cases h
  · cases h
    exact .inl ⟨rfl, rfl⟩
  · cases h
    exact .inr ⟨rfl, rfl⟩

/-- An extension sees the injections that its module or the core module sees, and new ones between a
sort of the user and the top or the bottom sort. -/
theorem injects_extension {extended : Option Module} {user : SentenceSet}
    (h : extend? cfg d m cs = .ok extended) (hu : d.userSentences m = .ok user) {x y : SortName}
    (hxy : d.Injects (extended.getD m) x y) :
    cfg.InjectsWithCore d m x y ∨
      ∃ s ∈ definedSorts user.toList, cfg.isReserved s = false ∧
        (x = cfg.sorts.top ∧ y = s ∨ x = s ∧ y = cfg.sorts.bottom) := by
  obtain ⟨new, hnew, ⟨-, rfl⟩ | ⟨-, rfl⟩⟩ := extend?_eq_ok_iff.1 h
  · exact .inl (.inl hxy)
  · obtain ⟨flat, hflat⟩ := exists_flatten_of_additions hnew
    obtain ⟨visible, hv⟩ := exists_visibleSentences hflat
    obtain ⟨visible', hv', z, hz, hinjection⟩ := hxy
    rcases (mem_visible_extension hv hv').1 hz with hz | hz | hz
    · exact .inl (.inl ⟨visible, hv, z, hz, hinjection⟩)
    · obtain ⟨-, p, hp, rfl⟩ := (mem_additions hu hv hnew).1 hz
      obtain ⟨s, hs, hfree, hps⟩ := mem_candidates.1 hp
      exact .inr ⟨s, hs, hfree, injection?_of_mem_ofSort hps hinjection⟩
    · obtain ⟨closure', hc', -⟩ := Outcome.map_eq_ok_iff.1 hv'
      have hcore := (exists_flatten_extension_iff.1 (exists_flatten_iff.2 ⟨closure', hc'⟩)).2
      obtain ⟨core, hget, closure, hc⟩ := forall_reaches_singleton_iff.1 hcore
      have hseen : d.visibleSentences core = .ok (sentencesOf (core :: closure)) :=
        Outcome.map_eq_ok_iff.2 ⟨closure, hc, rfl⟩
      have hmem := (mem_visible_iff_reaches_name hget hseen).2 hz
      exact .inl (.inr ⟨core, lookup_eq_ok_iff.2 hget, _, hseen, z, hmem, hinjection⟩)

theorem exists_visible_extension {extended : Option Module}
    (h : extend? cfg d m cs = .ok extended)
    (hcore : extended = none ∨ ∃ core, d.lookup cfg.coreModule = .ok core ∧
      ∃ closure, d.importClosure core = .ok closure) :
    ∃ visible, d.visibleSentences (extended.getD m) = .ok visible := by
  obtain ⟨new, hnew, hextended⟩ := extend?_eq_ok_iff.1 h
  obtain ⟨flat, hflat⟩ := exists_flatten_of_additions hnew
  rcases hextended with ⟨-, rfl⟩ | ⟨-, rfl⟩
  · exact exists_visibleSentences hflat
  · obtain ⟨core, hlookup, hclosure⟩ := hcore.resolve_left (by simp)
    have hfound := forall_reaches_singleton_iff.2 ⟨core, lookup_eq_ok_iff.1 hlookup, hclosure⟩
    obtain ⟨_, hflat'⟩ := exists_flatten_extension_iff.2 ⟨⟨flat, hflat⟩, hfound⟩
    exact exists_visibleSentences hflat'

/-- **Cast synthesis adds no cycle of injections.** Let the top and the bottom sort be reserved and
different. If the injections that a module and the core module see form no cycle, the bottom sort is
a dead end and no sort of the user reaches the top sort, then the injections that the extension sees
form no cycle. It sees something, unless it imports a core module that is not there. -/
theorem extension_adds_no_cycle {extended : Option Module} {user : SentenceSet}
    (htop : cfg.isReserved cfg.sorts.top = true)
    (hbottom : cfg.isReserved cfg.sorts.bottom = true) (hne : cfg.sorts.top ≠ cfg.sorts.bottom)
    (h : extend? cfg d m cs = .ok extended) (hu : d.userSentences m = .ok user)
    (hacyclic : Acyclic (cfg.InjectsWithCore d m))
    (hend : ∀ y, ¬ cfg.InjectsWithCore d m cfg.sorts.bottom y)
    (hbelow : ∀ s ∈ definedSorts user.toList, cfg.isReserved s = false →
      ¬ TransGen (cfg.InjectsWithCore d m) s cfg.sorts.top) :
    Acyclic (d.Injects (extended.getD m)) ∧
      ((extended = none ∨ ∃ core, d.lookup cfg.coreModule = .ok core ∧
          ∃ closure, d.importClosure core = .ok closure) →
        ∃ visible, d.visibleSentences (extended.getD m) = .ok visible) := by
  have hdiamond : Diamond (cfg.InjectsWithCore d m) (d.Injects (extended.getD m)) cfg.sorts.top
      cfg.sorts.bottom fun s => s ∈ definedSorts user.toList ∧ cfg.isReserved s = false := by
    refine ⟨fun x y hxy => ?_, hne, fun hs => ?_, hend, fun s hs hp => ?_⟩
    · rcases injects_extension h hu hxy with hold | ⟨s, hs, hfree, ⟨rfl, rfl⟩ | ⟨rfl, rfl⟩⟩
      · exact .inl hold
      · exact .inr (.inl ⟨rfl, hs, hfree⟩)
      · exact .inr (.inr ⟨⟨hs, hfree⟩, rfl⟩)
    · rw [hbottom] at hs
      cases hs.2
    · rcases reflTransGen_iff_eq_or_transGen.1 hp with rfl | hp
      · rw [htop] at hs
        cases hs.2
      · exact hbelow s hs.1 hs.2 hp
  exact ⟨hdiamond.acyclic hacyclic, exists_visible_extension h⟩

/-- The sample has no cycle of injections, and it has none with the injections of the lattice. -/
theorem extension_adds_no_cycle_lambda :
    let m := Sample.lambdaModule
    let d := (Settings.standardBase {}).push.insert m
    let cs : Capabilities := Catalog.ofList [.autoCasts, .topSort, .bottomSort]
    ∃ extended, extend? {} d m cs = .ok (some extended) ∧
      (∃ visible, d.visibleSentences extended = .ok visible) ∧ Acyclic (d.Injects extended) := by
  intro m d cs
  -- a rank that drops along every injection; the sorts of the user stand below the top sort
  let rank : SortName → Nat := fun s =>
    if s = ⟨"KList"⟩ then 3 else if s = ⟨"K"⟩ then 2 else if s = ⟨"Exp"⟩ ∨ s = ⟨"Bag"⟩ then 1 else 0
  let drops (set : SentenceSet) : Prop :=
    ∀ s ∈ set.toList, ∀ e ∈ s.injection?, rank e.2 < rank e.1
  have run : Settings.isReserved {} (Settings.sorts {}).top = true ∧
      Settings.isReserved {} (Settings.sorts {}).bottom = true ∧
      (Settings.sorts {}).top ≠ (Settings.sorts {}).bottom ∧
      (∃ extended, extend? {} d m cs = .ok extended ∧ extended ≠ none) ∧
      (∃ user, d.userSentences m = .ok user ∧ ∀ s ∈ (definedSorts user.toList).toList,
        rank s ≤ rank (Settings.sorts {}).top) ∧
      (∃ visible, d.visibleSentences m = .ok visible ∧ drops visible) ∧
      ∃ core, d.lookup (Settings.coreModule {}) = .ok core ∧
        ∃ seen, d.visibleSentences core = .ok seen ∧ drops seen := by
    decide +kernel
  obtain ⟨htop, hbottom, hne, ⟨extended, hextended, hsome⟩, ⟨user, hu, hlow⟩,
    ⟨visible, hv, hdrops⟩, core, hcore, seen, hseen, hdrops'⟩ := run
  obtain ⟨e, rfl⟩ := Option.ne_none_iff_exists'.1 hsome
  obtain ⟨closure, hc, -⟩ := Outcome.map_eq_ok_iff.1 hseen
  have hrank : ∀ x y, Settings.InjectsWithCore {} d m x y → rank y < rank x := by
    intro x y hxy
    rcases hxy with ⟨set, hset, s, hs, hinjection⟩ | ⟨x', hx', set, hset, s, hs, hinjection⟩
    · rw [hv] at hset
      cases hset
      exact hdrops s hs _ hinjection
    · rw [hcore] at hx'
      cases hx'
      rw [hseen] at hset
      cases hset
      exact hdrops' s hs _ hinjection
  obtain ⟨hacyclic, hsees⟩ := extension_adds_no_cycle htop hbottom hne hextended hu
    (fun x hp => Nat.lt_irrefl _ (rank_lt_of_path hrank hp))
    (fun y hy => Nat.not_lt_zero _ (hrank _ y hy))
    (fun s hs _ hp => Nat.not_lt.2 (hlow s hs) (rank_lt_of_path hrank hp))
  exact ⟨e, hextended, hsees (.inr ⟨core, hcore, closure, hc⟩), hacyclic⟩

end Casts

end GrammarSynthesis
