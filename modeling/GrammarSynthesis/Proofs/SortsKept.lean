import GrammarSynthesis.Proofs.Extension
import GrammarSynthesis.Proofs.StageSentences
import GrammarSynthesis.Sample.Lambda

/-!
# Which sorts the stages keep

The stages rewrite sentences, but each sentence keeps its *role*: the sort it defines, whether it is
tagged as a part of a list, and which part it can be. So the disambiguation module defines all sorts
of the user. It also declares the lists of the user, and no others.

The parse module leaves out what is tagged. A sort comes back with the recursive form of its list,
but half a list has no such form. Neither has a list of a reserved sort.

* `Stages.Made.plays_disambiguation_iff`: the roles in a disambiguation module;
* `UserList.exists_mem_ofSentences_iff`: which sorts have a list;
* `sort_kept_iff`: when the parse module keeps a sort;
* `incomplete_list_loses_sort`: a sort that is lost.
-/
namespace GrammarSynthesis

variable {cfg : Settings} {cs : Capabilities} {set new : SentenceSet}

/-! ## Roles -/

/-- What a sentence says about the sorts and the lists of its module. -/
structure Role where
  sort : SortName
  /-- The sentence is tagged as a part of a list. -/
  tagged : Bool
  /-- It has the shape of a cons of its sort. -/
  cons : Bool
  /-- It has the shape of a terminator. -/
  terminator : Bool
  deriving DecidableEq, Repr

namespace Production

def role (cfg : Settings) (p : Production) : Role where
  sort := p.sort
  tagged := p.hasAttribute cfg.keys.userList
  cons := (UserList.consParts? p.sort p).isSome
  terminator := UserList.isTerminator p

/-- The shape of a cons has nothing to do with follow sets. -/
theorem consParts?_bare (s : SortName) (p : Production) :
    UserList.consParts? s p.bare = UserList.consParts? s p := by
  obtain ⟨sort, items, label, attributes, location, hne⟩ := p
  rcases items with _ | ⟨_ | _, _ | ⟨_ | _, _ | ⟨_ | _, _ | _⟩⟩⟩ <;> rfl

theorem role_bare (p : Production) : p.bare.role cfg = p.role cfg := by
  simp only [role, consParts?_bare, UserList.isTerminator, length_items_bare]
  rfl

end Production

namespace Sentence

/-- A declaration is no part of a list. -/
def role (cfg : Settings) : Sentence → Role
  | .production p => p.role cfg
  | .declaration s => { sort := s, tagged := false, cons := false, terminator := false }

theorem sort_role (x : Sentence) : (x.role cfg).sort = x.definedSort := by
  cases x <;> rfl

theorem tagged_role (x : Sentence) : (x.role cfg).tagged = UserList.isSugar cfg x := by
  cases x <;> rfl

theorem role_bare (x : Sentence) : x.bare.role cfg = x.role cfg := by
  cases x with
  | declaration s => rfl
  | production p => exact p.role_bare

theorem definedSort_eq_of_role_eq {x y : Sentence} (h : x.role cfg = y.role cfg) :
    x.definedSort = y.definedSort := by
  have hsort := congrArg Role.sort h
  rwa [sort_role, sort_role] at hsort

theorem isSugar_eq_of_role_eq {x y : Sentence} (h : x.role cfg = y.role cfg) :
    UserList.isSugar cfg x = UserList.isSugar cfg y := by
  rw [← tagged_role, h, tagged_role]

/-- Sentences that differ in their follow sets have one role. -/
theorem role_eq_of_bare_eq {x y : Sentence} (h : x.bare = y.bare) : x.role cfg = y.role cfg := by
  rw [← role_bare x, h, role_bare]

end Sentence

/-- Before and after it is loosened, a cell is too long for a terminator, and no cons: at first it
begins with a terminal, and then it has five items. -/
theorem CellKinds.Loosened.role_eq {p q : Production} (h : Loosened p q) :
    q.role cfg = p.role cfg := by
  obtain ⟨t, rest, hitems, hrest⟩ := h.opened
  have hlength := h.length
  have hp : UserList.consParts? p.sort p = none := by
    rw [UserList.consParts?, hitems]
  have hq : UserList.consParts? p.sort q = none := by
    unfold UserList.consParts?
    split
    · rename_i heq
      rw [heq] at hlength
      cases hlength
    · rfl
  have hends : UserList.isTerminator p = false := by
    simp [UserList.isTerminator, hitems, hrest]
  have hends' : UserList.isTerminator q = false := by
    simp [UserList.isTerminator, hlength]
  simp only [Production.role, Production.hasAttribute, h.sort, h.attributes, hp, hq, hends, hends']

/-- Some sentence of the set plays the role. -/
def Plays (cfg : Settings) (set : SentenceSet) (r : Role) : Prop := ∃ x ∈ set, x.role cfg = r

namespace Synthesizer

open Definition CellKinds

variable {r : Role}

/-- Bridges are not tagged. -/
theorem isSugar_bridges {x : Sentence} (h : x ∈ bridges cfg cs set) :
    UserList.isSugar cfg x = false := by
  obtain ⟨sort, rfl⟩ := eq_injection_of_mem_bridges h
  rfl

theorem isSugar_topSortInjections {m : Module} {x : Sentence} (h : x ∈ topSortInjections cfg m) :
    UserList.isSugar cfg x = false := by
  obtain ⟨s, -, rfl⟩ := List.mem_map.1 h
  rfl

theorem plays_loosenCells_iff (h : loosenCells cfg cs set = .ok new) :
    Plays cfg new r ↔ Plays cfg set r ∨ ∃ x ∈ bridges cfg cs set, x.role cfg = r := by
  constructor
  · intro hr
    obtain ⟨x, hx, rfl⟩ := hr
    rcases origin_of_loosenCells h hx with hx | hx | ⟨p, q, hp, hpq, rfl⟩
    · exact .inl ⟨x, hx, rfl⟩
    · exact .inr ⟨x, hx, rfl⟩
    · exact .inl ⟨_, hp, hpq.role_eq.symm⟩
  · intro hr
    rcases hr with ⟨x, hx, rfl⟩ | ⟨x, hx, rfl⟩
    · rcases kept_or_loosened h hx with hx | ⟨p, q, rfl, hpq, hq⟩
      · exact ⟨x, hx, rfl⟩
      · exact ⟨_, hq, hpq.role_eq⟩
    · exact ⟨x, mem_bridges_loosenCells h hx, rfl⟩

namespace Stages

variable {st : Stages} {a : Synthesizer} {d : Definition} {seed : Module}

theorem plays_restricted_iff : Plays cfg (st.restricted cfg set) r ↔ Plays cfg set r := by
  constructor
  · intro hr
    obtain ⟨s, hs, rfl⟩ := hr
    obtain ⟨x, hx, hbare⟩ := bare_of_mem_restricted hs
    exact ⟨x, hx, Sentence.role_eq_of_bare_eq hbare.symm⟩
  · intro hr
    obtain ⟨x, hx, rfl⟩ := hr
    obtain ⟨s, hs, hbare⟩ := bare_mem_restricted hx
    exact ⟨s, hs, Sentence.role_eq_of_bare_eq hbare⟩

/-- The disambiguation forms of lists are put beside the restricted sentences. -/
theorem plays_disambiguation :
    Plays cfg (st.disambiguation cfg).sentences r ↔
      Plays cfg (st.restricted cfg st.loosened) r ∨
      .ruleLists ∈ st.capabilities ∧
        ∃ u ∈ UserList.ofSentences cfg (st.disambiguation cfg).sentences.toList,
          (Sentence.production (.injection u.sort u.element)).role cfg = r := by
  constructor
  · rintro ⟨x, hx, rfl⟩
    rcases mem_disambiguation_iff.1 hx with hx | ⟨hcs, u, hu, rfl⟩
    · exact .inl ⟨x, hx, rfl⟩
    · exact .inr ⟨hcs, u, hu, rfl⟩
  · rintro (⟨x, hx, rfl⟩ | ⟨hcs, u, hu, rfl⟩)
    · exact ⟨x, mem_disambiguation_iff.2 (.inl hx), rfl⟩
    · exact ⟨_, mem_disambiguation_iff.2 (.inr ⟨hcs, u, hu, rfl⟩), rfl⟩

namespace Made

variable (h : st.Made a d seed)
include h

/-- **The roles in a disambiguation module** are those of the sentences of the user, of the bridges
of cells and of the disambiguation forms of lists. -/
theorem plays_disambiguation_iff :
    Plays a.settings (st.disambiguation a.settings).sentences r ↔
      Plays a.settings st.flat.sentences r ∨
      (∃ x ∈ bridges a.settings st.capabilities st.flat.sentences, x.role a.settings = r) ∨
      .ruleLists ∈ st.capabilities ∧ ∃ u ∈ UserList.ofSentences a.settings
        (st.disambiguation a.settings).sentences.toList,
        (Sentence.production (.injection u.sort u.element)).role a.settings = r := by
  rw [plays_disambiguation, plays_restricted_iff, plays_loosenCells_iff h.loosened, or_assoc]

/-- No stage before the parse module adds a part of a list or takes one away. -/
theorem plays_tagged_iff (hr : r.tagged = true) :
    Plays a.settings (st.disambiguation a.settings).sentences r ↔
      Plays a.settings st.flat.sentences r := by
  rw [h.plays_disambiguation_iff]
  refine or_iff_left ?_
  rintro (⟨x, hx, rfl⟩ | ⟨-, u, -, rfl⟩)
  · rw [Sentence.tagged_role, isSugar_bridges hx] at hr
    cases hr
  · cases hr

end Made

end Stages

end Synthesizer

/-! ## Complete lists -/

namespace UserList

/-- The sentences declare a list of the sort: the sort is not reserved and has two tagged
productions of the right shapes. -/
structure Complete (cfg : Settings) (set : SentenceSet) (s : SortName) : Prop where
  notReserved : cfg.isReserved s = false
  cons : ∃ p, .production p ∈ set ∧ p.sort = s ∧ p.hasAttribute cfg.keys.userList = true ∧
    (consParts? s p).isSome = true
  terminator : ∃ p, .production p ∈ set ∧ p.sort = s ∧
    p.hasAttribute cfg.keys.userList = true ∧ isTerminator p = true

/-- A list needs a cons and a terminator, and no more. -/
theorem exists_ofProductions?_iff {s : SortName} {l : List Production} :
    (∃ u, ofProductions? cfg s l = some u) ↔
      (∃ p ∈ l, (consParts? s p).isSome = true) ∧ ∃ p ∈ l, isTerminator p = true := by
  rw [← List.find?_isSome, ← List.find?_isSome]
  simp only [ofProductions?, Option.bind_eq_bind, Option.bind_eq_some_iff]
  constructor
  · rintro ⟨u, cons, hcons, parts, -, terminator, hterminator, -⟩
    exact ⟨by rw [hcons]; rfl, by rw [hterminator]; rfl⟩
  · intro hfound
    obtain ⟨hcons, hterminator⟩ := hfound
    obtain ⟨cons, hcons⟩ := Option.isSome_iff_exists.1 hcons
    obtain ⟨terminator, hterminator⟩ := Option.isSome_iff_exists.1 hterminator
    have hsome := List.find?_some hcons
    obtain ⟨parts, hparts⟩ := Option.isSome_iff_exists.1 hsome
    exact ⟨_, cons, hcons, parts, hparts, terminator, hterminator, rfl⟩

/-- The sorts that have a list are those whose list is complete. -/
theorem exists_mem_ofSentences_iff {set : SentenceSet} {s : SortName} :
    (∃ u ∈ ofSentences cfg set.toList, u.sort = s) ↔ Complete cfg set s := by
  constructor
  · rintro ⟨u, hu, rfl⟩
    obtain ⟨⟨p, hp, hcons⟩, q, hq, hterminator⟩ :=
      exists_ofProductions?_iff.1 ⟨u, mem_ofSentences hu⟩
    obtain ⟨hres, hp, hps, hpt⟩ := mem_declared.1 hp
    obtain ⟨-, hq, hqs, hqt⟩ := mem_declared.1 hq
    exact ⟨hres, ⟨p, hp, hps, hpt, hcons⟩, ⟨q, hq, hqs, hqt, hterminator⟩⟩
  · intro hs
    obtain ⟨p, hp, hps, hpt, hcons⟩ := hs.cons
    obtain ⟨q, hq, hqs, hqt, hterminator⟩ := hs.terminator
    have hp' := mem_declared.2 ⟨hs.notReserved, hp, hps, hpt⟩
    have hq' := mem_declared.2 ⟨hs.notReserved, hq, hqs, hqt⟩
    obtain ⟨u, hu⟩ := exists_ofProductions?_iff.2 ⟨⟨p, hp', hcons⟩, q, hq', hterminator⟩
    have hsort : s ∈ taggedSorts cfg set.toList :=
      OrdSet.mem_ofList.2 (List.mem_map.2 ⟨p, mem_tagged.2 ⟨hp, hpt, hps ▸ hs.notReserved⟩, hps⟩)
    exact ⟨u, List.mem_filterMap.2 ⟨s, hsort, hu⟩, sort_of_ofProductions? hu⟩

/-- Complete lists can be told from the roles of sentences. -/
theorem complete_iff_plays {set : SentenceSet} {s : SortName} :
    Complete cfg set s ↔ cfg.isReserved s = false ∧
      (∃ r, r.tagged = true ∧ Plays cfg set r ∧ r.sort = s ∧ r.cons = true) ∧
      ∃ r, r.tagged = true ∧ Plays cfg set r ∧ r.sort = s ∧ r.terminator = true := by
  constructor
  · intro hs
    obtain ⟨p, hp, rfl, hpt, hcons⟩ := hs.cons
    obtain ⟨q, hq, hqs, hqt, hterminator⟩ := hs.terminator
    exact ⟨hs.notReserved, ⟨_, hpt, ⟨_, hp, rfl⟩, rfl, hcons⟩,
      ⟨_, hqt, ⟨_, hq, rfl⟩, hqs, hterminator⟩⟩
  · rintro ⟨hres, ⟨_, hpt, ⟨x, hx, rfl⟩, rfl, hcons⟩, _, hqt, ⟨y, hy, rfl⟩, hqs, hterminator⟩
    cases x with
    | declaration => cases hpt
    | production p =>
      cases y with
      | declaration => cases hqt
      | production q =>
        exact ⟨hres, ⟨p, hx, rfl, hpt, hcons⟩, ⟨q, hy, hqs, hqt, hterminator⟩⟩

/-- The sorts that the recursive form of a list defines. -/
def formSorts (cfg : Settings) (s : SortName) : List SortName :=
  [s, cfg.nonEmptySort s, cfg.terminatorSort s]

theorem definedSort_parseForm {u : UserList} {x : Sentence} (h : x ∈ u.parseForm cfg) :
    x.definedSort ∈ formSorts cfg u.sort := by
  unfold parseForm at h
  rw [List.mem_append] at h
  rcases h with h | h
  · simp only [List.mem_cons, List.not_mem_nil, or_false] at h
    rcases h with rfl | rfl | rfl | rfl | rfl | rfl <;>
      simp [formSorts, Sentence.definedSort, Production.ofRow, Production.injection]
  · rw [List.mem_ite_nil_left, List.mem_singleton] at h
    obtain ⟨-, rfl⟩ := h
    exact List.mem_cons_self

/-- The scaffolding sorts are declared, and the sort of the list has an injection. -/
theorem exists_untagged_parseForm {u : UserList} {s : SortName} (h : s ∈ formSorts cfg u.sort) :
    ∃ x ∈ u.parseForm cfg, isSugar cfg x = false ∧ x.definedSort = s := by
  simp only [formSorts, List.mem_cons, List.not_mem_nil, or_false] at h
  rcases h with rfl | rfl | rfl
  · exact ⟨_, injection_mem_parseForm.2 ⟨rfl, .inl rfl⟩, rfl, rfl⟩
  · exact ⟨.declaration (cfg.nonEmptySort u.sort), by simp [parseForm], rfl, rfl⟩
  · exact ⟨.declaration (cfg.terminatorSort u.sort), by simp [parseForm], rfl, rfl⟩

end UserList

/-! ## The sorts of a bundle -/

namespace Synthesizer

open Definition

variable {a : Synthesizer} {d : Definition} {seed : Module}

/-- What the user wrote stays in sight of the extension. -/
theorem exists_userSentences {extended : Option Module} {flat : Module}
    (he : Casts.extend? a.settings d seed cs = .ok extended)
    (hf : d.flatten (extended.getD seed) = .ok flat) :
    ∃ before, d.userSentences seed = .ok before ∧ ∀ x ∈ before, x ∈ flat.sentences := by
  obtain ⟨added, -, ⟨-, rfl⟩ | ⟨-, rfl⟩⟩ := Casts.extend?_eq_ok_iff.1 he
  · exact ⟨_, userSentences_of_flatten hf, fun x hx => hx⟩
  · obtain ⟨⟨flatSeed, hseed⟩, -⟩ := exists_flatten_extension_iff.1 ⟨flat, hf⟩
    exact ⟨_, userSentences_of_flatten hseed, fun x hx =>
      (mem_flat_extension_sentences hseed hf).2 (.inl hx)⟩

namespace Stages.Made

variable {st : Stages} (h : st.Made a d seed) {s : SortName}
include h

/-- The lists of a disambiguation module are the complete lists of the user. -/
theorem exists_mem_ofSentences_disambiguation_iff :
    (∃ u ∈ UserList.ofSentences a.settings (st.disambiguation a.settings).sentences.toList,
      u.sort = s) ↔ UserList.Complete a.settings st.flat.sentences s := by
  rw [UserList.exists_mem_ofSentences_iff, UserList.complete_iff_plays,
    UserList.complete_iff_plays]
  have hpart : ∀ shape : Role → Prop,
      (∃ r, r.tagged = true ∧ Plays a.settings (st.disambiguation a.settings).sentences r ∧
          r.sort = s ∧ shape r) ↔
        ∃ r, r.tagged = true ∧ Plays a.settings st.flat.sentences r ∧ r.sort = s ∧ shape r :=
    fun shape => exists_congr fun r => and_congr_right fun hr =>
      and_congr_left' (h.plays_tagged_iff hr)
  rw [hpart (·.cons = true), hpart (·.terminator = true)]

theorem mem_sorts_disambiguation {x : Sentence} (hx : x ∈ st.flat.sentences) :
    x.definedSort ∈ (st.disambiguation a.settings).localSorts := by
  obtain ⟨y, hy, hrole⟩ := h.plays_disambiguation_iff.2 (.inl ⟨x, hx, rfl⟩)
  exact mem_definedSorts.2 ⟨y, hy, Sentence.definedSort_eq_of_role_eq hrole⟩

/-- The sorts of a disambiguation module that do without the tagged productions. -/
theorem exists_untagged_disambiguation_iff :
    (∃ x ∈ (st.disambiguation a.settings).sentences,
      UserList.isSugar a.settings x = false ∧ x.definedSort = s) ↔
      (∃ x ∈ st.flat.sentences, UserList.isSugar a.settings x = false ∧ x.definedSort = s) ∨
      (∃ x ∈ bridges a.settings st.capabilities st.flat.sentences, x.definedSort = s) ∨
      .ruleLists ∈ st.capabilities ∧ UserList.Complete a.settings st.flat.sentences s := by
  constructor
  · rintro ⟨x, hx, hsugar, rfl⟩
    rcases h.plays_disambiguation_iff.1 ⟨x, hx, rfl⟩ with
      ⟨y, hy, hrole⟩ | ⟨y, hy, hrole⟩ | ⟨hcs, u, hu, hrole⟩
    · exact .inl ⟨y, hy, (Sentence.isSugar_eq_of_role_eq hrole).trans hsugar,
        Sentence.definedSort_eq_of_role_eq hrole⟩
    · exact .inr (.inl ⟨y, hy, Sentence.definedSort_eq_of_role_eq hrole⟩)
    · exact .inr (.inr ⟨hcs, h.exists_mem_ofSentences_disambiguation_iff.1
        ⟨u, hu, Sentence.definedSort_eq_of_role_eq hrole⟩⟩)
  · rintro (⟨x, hx, hsugar, rfl⟩ | ⟨x, hx, rfl⟩ | ⟨hcs, hs⟩)
    · obtain ⟨y, hy, hrole⟩ := h.plays_disambiguation_iff.2 (.inl ⟨x, hx, rfl⟩)
      exact ⟨y, hy, (Sentence.isSugar_eq_of_role_eq hrole).trans hsugar,
        Sentence.definedSort_eq_of_role_eq hrole⟩
    · obtain ⟨y, hy, hrole⟩ := h.plays_disambiguation_iff.2 (.inr (.inl ⟨x, hx, rfl⟩))
      exact ⟨y, hy, (Sentence.isSugar_eq_of_role_eq hrole).trans (isSugar_bridges hx),
        Sentence.definedSort_eq_of_role_eq hrole⟩
    · obtain ⟨u, hu, rfl⟩ := h.exists_mem_ofSentences_disambiguation_iff.2 hs
      exact ⟨_, mem_disambiguation_iff.2 (.inr ⟨hcs, u, hu, rfl⟩), rfl, rfl⟩

/-- The sorts of a parse module with lists written out. -/
theorem mem_sorts_parse_iff (hcs : .programLists ∈ st.capabilities) :
    s ∈ (st.bundle a d seed).parse.localSorts ↔
      (∃ x ∈ st.flat.sentences, UserList.isSugar a.settings x = false ∧ x.definedSort = s) ∨
      (∃ t, UserList.Complete a.settings st.flat.sentences t ∧
        s ∈ UserList.formSorts a.settings t) ∨
      ∃ x ∈ bridges a.settings st.capabilities st.flat.sentences ++
        topSortInjections a.settings (st.disambiguation a.settings), x.definedSort = s := by
  refine mem_definedSorts.trans ⟨?_, ?_⟩
  · rintro ⟨x, hx, hsort⟩
    obtain ⟨hsugar, hx | hx | ⟨u, hu, hx⟩⟩ := (mem_parse_iff hcs).1 hx
    · rcases h.exists_untagged_disambiguation_iff.1 ⟨x, hx, hsugar, hsort⟩ with
        hx | ⟨y, hy, hsort⟩ | ⟨-, hs⟩
      · exact .inl hx
      · exact .inr (.inr ⟨y, List.mem_append_left _ hy, hsort⟩)
      · exact .inr (.inl ⟨s, hs, List.mem_cons_self⟩)
    · exact .inr (.inr ⟨x, List.mem_append_right _ hx, hsort⟩)
    · exact .inr (.inl ⟨u.sort, h.exists_mem_ofSentences_disambiguation_iff.1 ⟨u, hu, rfl⟩,
        hsort ▸ UserList.definedSort_parseForm hx⟩)
  · have hkept (hx : ∃ x ∈ (st.disambiguation a.settings).sentences,
        UserList.isSugar a.settings x = false ∧ x.definedSort = s) :
        ∃ x ∈ (st.bundle a d seed).parse.sentences, x.definedSort = s := by
      obtain ⟨x, hx, hsugar, hsort⟩ := hx
      exact ⟨x, (mem_parse_iff hcs).2 ⟨hsugar, .inl hx⟩, hsort⟩
    rintro (hx | ⟨t, ht, hs⟩ | ⟨x, hx, hsort⟩)
    · exact hkept (h.exists_untagged_disambiguation_iff.2 (.inl hx))
    · obtain ⟨u, hu, rfl⟩ := h.exists_mem_ofSentences_disambiguation_iff.2 ht
      obtain ⟨x, hx, hsugar, hsort⟩ := UserList.exists_untagged_parseForm hs
      exact ⟨x, (mem_parse_iff hcs).2 ⟨hsugar, .inr (.inr ⟨u, hu, hx⟩)⟩, hsort⟩
    · rcases List.mem_append.1 hx with hx | hx
      · exact hkept (h.exists_untagged_disambiguation_iff.2 (.inr (.inl ⟨x, hx, hsort⟩)))
      · exact ⟨x, (mem_parse_iff hcs).2 ⟨isSugar_topSortInjections hx, .inr (.inl hx)⟩, hsort⟩

end Stages.Made

/-- **Which sorts the stages keep.** Each sort that the user defines is a sort of the disambiguation
module. It is also one of the parse module, unless lists are written out there and

* only tagged productions define the sort,
* the list that they belong to is not complete, and
* no other list and no other stage defines it. -/
theorem sort_kept_iff {b : Bundle} (h : a.combine d seed = .ok b) :
    ∃ cs before user, a.settings.capabilities d seed = .ok cs ∧
      d.userSentences seed = .ok before ∧ d.userSentences b.extension = .ok user ∧
      ∀ s ∈ definedSorts before.toList,
        s ∈ b.disambiguation.localSorts ∧
        (s ∈ b.parse.localSorts ↔ .programLists ∉ cs ∨
          (∃ x ∈ user, UserList.isSugar a.settings x = false ∧ x.definedSort = s) ∨
          (∃ t, UserList.Complete a.settings user t ∧ s ∈ UserList.formSorts a.settings t) ∨
          ∃ x ∈ bridges a.settings cs user ++ topSortInjections a.settings b.disambiguation,
            x.definedSort = s) := by
  obtain ⟨st, made, rfl⟩ := combine_eq_ok_iff.1 h
  obtain ⟨before, hbefore, hsub⟩ := exists_userSentences made.extended made.flat
  refine ⟨st.capabilities, before, st.flat.sentences, made.capabilities, hbefore,
    userSentences_of_flatten made.flat, fun s hs => ?_⟩
  obtain ⟨x, hx, rfl⟩ := mem_definedSorts.1 hs
  have hdis : x.definedSort ∈ (st.disambiguation a.settings).localSorts :=
    made.mem_sorts_disambiguation (hsub x hx)
  refine ⟨hdis, ?_⟩
  by_cases hcs : .programLists ∈ st.capabilities
  · exact (made.mem_sorts_parse_iff hcs).trans (or_iff_right (not_not_intro hcs)).symm
  · -- the parse module is the disambiguation module
    have hsame : (st.bundle a d seed).parse = st.disambiguation a.settings := by
      simp only [Bundle.parse, Stages.bundle, desugar?, if_neg hcs, Option.getD_none]
    rw [hsame]
    exact iff_of_true hdis (.inl hcs)

/-- A list of expressions, and a list of identifiers that has no cons. -/
def halfList : Module where
  name := "LISTS"
  sentences := Catalog.ofList [
    Sample.rule "Exps" (Sample.sort "Exp") [Sample.word ",", Sample.sort "Exps"] "_,_"
      Sample.listTag,
    Sample.rule "Exps" (Sample.word ".Exps") [] ".Exps" Sample.listTag,
    Sample.rule "Ids" (Sample.word ".Ids") [] ".Ids" Sample.listTag]

/-- The seed of the grammar for programs. -/
def halfListSeed : Module where
  name := "LISTS-PROGRAM-LISTS"
  imports := ["LISTS", "PROGRAM-LISTS"]

/-- The complete list keeps its sort, and the other one does not. -/
theorem sort_kept_iff_halfList :
    ∃ a, create {} (Settings.standardBase {}) false = .ok a ∧
      ∃ b, a.combine (a.emptyDefinition.insert halfList) halfListSeed = .ok b ∧
        (⟨"Exps"⟩ ∈ b.disambiguation.localSorts ∧ ⟨"Exps"⟩ ∈ b.parse.localSorts) ∧
        ⟨"Ids"⟩ ∈ b.disambiguation.localSorts ∧ ⟨"Ids"⟩ ∉ b.parse.localSorts := by
  have run : ∃ a, create {} (Settings.standardBase {}) false = .ok a ∧
      ∃ b, a.combine (a.emptyDefinition.insert halfList) halfListSeed = .ok b ∧
      ∃ cs, a.settings.capabilities (a.emptyDefinition.insert halfList) halfListSeed = .ok cs ∧
        .programLists ∈ cs ∧
      ∃ before, (a.emptyDefinition.insert halfList).userSentences halfListSeed = .ok before ∧
        (definedSorts before.toList).toList = [⟨"Exps"⟩, ⟨"Ids"⟩] ∧
      ∃ user, (a.emptyDefinition.insert halfList).userSentences b.extension = .ok user ∧
        (∀ x ∈ user.toList, UserList.isSugar a.settings x = false → x.definedSort ≠ ⟨"Ids"⟩) ∧
        (UserList.ofSentences a.settings user.toList).map UserList.sort = [⟨"Exps"⟩] ∧
        ⟨"Ids"⟩ ∉ UserList.formSorts a.settings ⟨"Exps"⟩ ∧
        ∀ x ∈ bridges a.settings cs user ++ topSortInjections a.settings b.disambiguation,
          x.definedSort ≠ ⟨"Ids"⟩ := by
    decide +kernel
  obtain ⟨a, ha, b, hb, cs, hcs, hlists, before, hbefore, hsorts, user, huser, htagged, hcomplete,
    hform, hstages⟩ := run
  obtain ⟨cs', before', user', hcs', hbefore', huser', hall⟩ := sort_kept_iff hb
  obtain rfl : cs = cs' := Except.ok.inj (hcs.symm.trans hcs')
  obtain rfl : before = before' := Except.ok.inj (hbefore.symm.trans hbefore')
  obtain rfl : user = user' := Except.ok.inj (huser.symm.trans huser')
  have hlist : ∀ t, UserList.Complete a.settings user t ↔ t = ⟨"Exps"⟩ := fun t => by
    rw [← UserList.exists_mem_ofSentences_iff, ← List.mem_singleton, ← hcomplete, List.mem_map]
  have hdefined : ∀ s, s ∈ definedSorts before.toList ↔ s = ⟨"Exps"⟩ ∨ s = ⟨"Ids"⟩ := fun s => by
    rw [← Catalog.mem_toList, hsorts, List.mem_pair]
  obtain ⟨hexps, hexps'⟩ := hall _ ((hdefined _).2 (.inl rfl))
  obtain ⟨hids, hids'⟩ := hall _ ((hdefined _).2 (.inr rfl))
  refine ⟨a, ha, b, hb, ⟨hexps, hexps'.2 ?_⟩, hids, fun hkept => ?_⟩
  · exact .inr (.inr (.inl ⟨_, (hlist _).2 rfl, List.mem_cons_self⟩))
  · rcases hids'.1 hkept with h | ⟨x, hx, hsugar, hsort⟩ | ⟨t, ht, hs⟩ | ⟨x, hx, hsort⟩
    · exact h hlists
    · exact htagged x hx hsugar hsort
    · obtain rfl := (hlist t).1 ht
      exact hform hs
    · exact hstages x hx hsort

/-- The user defines the sort of identifier lists, and the parse module does not. -/
theorem incomplete_list_loses_sort :
    ∃ a, create {} (Settings.standardBase {}) false = .ok a ∧
      ∃ b, a.combine (a.emptyDefinition.insert halfList) halfListSeed = .ok b ∧
      ∃ before, (a.emptyDefinition.insert halfList).userSentences halfListSeed = .ok before ∧
        ⟨"Ids"⟩ ∈ definedSorts before.toList ∧ ⟨"Ids"⟩ ∉ b.parse.localSorts := by
  decide +kernel

end Synthesizer

end GrammarSynthesis
