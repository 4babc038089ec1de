import GrammarSynthesis.Proofs.Assembly

/-!
# What the stages make of sentences

Each stage takes a set of sentences to another: it rewrites some, adds some and drops some. Here
this is said for one stage at a time, in both directions: what becomes of a sentence that goes in,
and where a sentence that comes out is from.

* Loosening cells rewrites the productions of cells and adds the injections of `bridges`
  (`mem_bridges_loosenCells`, `kept_or_loosened`, `origin_of_loosenCells`).
* Follow restrictions change follow sets only: without them, a sentence stays the same
  (`Vocabulary.bare_restrictSentence`).
* The disambiguation forms of lists add injections (`mem_addRuleLists`), which declare no list
  (`UserList.ofSentences_congr`).
* Writing lists out adds the forms of the lists and the injections into the top sort and drops what
  is tagged (`mem_desugar_iff`).
* Put together for a bundle: `Stages.mem_disambiguation_iff`, `Stages.mem_parse_iff`.
-/
namespace GrammarSynthesis

variable {cfg : Settings} {cs : Capabilities} {set new : SentenceSet}

/-! ## Sentences without their follow sets -/

/-- The item with an empty follow set. -/
def Item.bare : Item → Item
  | .terminal t => .ofText t.text
  | .nonTerminal s => .nonTerminal s

/-- The production with empty follow sets. -/
def Production.bare (p : Production) : Production :=
  { p with items := p.items.map Item.bare, items_ne_nil := by simp [p.items_ne_nil] }

/-- The sentence with empty follow sets. -/
def Sentence.bare : Sentence → Sentence
  | .production p => .production p.bare
  | .declaration s => .declaration s

theorem Production.length_items_bare (p : Production) : p.bare.items.length = p.items.length :=
  List.length_map _

/-- Without terminals there are no follow sets to leave out. -/
theorem Production.bare_eq_injection_iff {p : Production} {sort sub : SortName} :
    p.bare = .injection sort sub ↔ p = .injection sort sub := by
  refine ⟨fun h => ?_, fun h => by rw [h]; rfl⟩
  obtain ⟨psort, items, label, attributes, location, hne⟩ := p
  simp only [bare, injection, ofRow, mk.injEq] at h ⊢
  obtain ⟨hsort, hitems, hrest⟩ := h
  obtain ⟨item, rfl, hitem⟩ := List.map_eq_singleton_iff.1 hitems
  cases item with
  | terminal t => cases hitem
  | nonTerminal s => exact ⟨hsort, congrArg (List.cons · []) hitem, hrest⟩

theorem Sentence.bare_eq_injection_iff {x : Sentence} {sort sub : SortName} :
    x.bare = .production (.injection sort sub) ↔ x = .production (.injection sort sub) := by
  cases x with
  | declaration s => simp [bare]
  | production p => simp [bare, Production.bare_eq_injection_iff]

/-! ## Follow restrictions -/

namespace Vocabulary

variable {v : Vocabulary}

theorem bare_restrict (v : Vocabulary) (cfg : Settings) (p : Production) :
    (v.restrict cfg p).bare = p.bare := by
  have hitem : ∀ item, (v.restrictItem item).bare = item.bare := fun item => by
    cases item <;> rfl
  unfold restrict
  split
  · rfl
  · simp only [Production.bare, List.map_map, Production.mk.injEq, and_self, and_true, true_and]
    exact List.map_congr_left fun item _ => hitem item

theorem bare_restrictSentence (v : Vocabulary) (cfg : Settings) (x : Sentence) :
    (v.restrictSentence cfg x).bare = x.bare := by
  cases x with
  | declaration s => rfl
  | production p => exact congrArg Sentence.production (bare_restrict v cfg p)

end Vocabulary

/-! ## Cells -/

/-- The brackets of a production are its first and its last item. -/
theorem Production.brackets?_eq_some_iff {p : Production} {first last : Terminal} :
    p.brackets? = some (first, last) ↔
      p.items = .terminal first :: (p.content ++ [.terminal last]) := by
  constructor
  · intro h
    unfold brackets? at h
    split at h
    · rename_i hfirst hlast
      cases h
      obtain ⟨rest, hitems⟩ := List.head?_eq_some_iff.1 hfirst
      rw [hitems, List.tail_cons] at hlast
      rw [content, hitems, List.tail_cons, List.dropLast_append_getLast? _ hlast]
    · cases h
  · intro h
    rw [brackets?, h, List.head?_cons, List.tail_cons, List.getLast?_concat]

namespace CellKinds

/-- What is left of a cell that was loosened: it began with a terminal and went on, it has its sort
and its attributes, five items now, and no terminals but those that it had. -/
structure Loosened (p q : Production) : Prop where
  sort : q.sort = p.sort
  attributes : q.attributes = p.attributes
  opened : ∃ t rest, p.items = .terminal t :: rest ∧ rest ≠ []
  length : q.items.length = 5
  terminals : ∀ t, .terminal t ∈ q.items → .terminal t ∈ p.items

variable {kinds : CellKinds}

theorem brackets_mem {p : Production} {first last : Terminal}
    (h : p.brackets? = some (first, last)) :
    .terminal first ∈ p.items ∧ .terminal last ∈ p.items := by
  rw [Production.brackets?_eq_some_iff.1 h]
  simp

/-- A production with two brackets does not end with the first. -/
theorem opened_of_brackets {p : Production} {first last : Terminal}
    (h : p.brackets? = some (first, last)) :
    ∃ t rest, p.items = .terminal t :: rest ∧ rest ≠ [] :=
  ⟨first, _, Production.brackets?_eq_some_iff.1 h, by simp⟩

theorem body_mem {p : Production} {t : Terminal}
    (h : body cfg kinds p = .terminal t) : .terminal t ∈ p.items := by
  unfold body at h
  split at h
  · rename_i item _ hcontent
    have hmem : item ∈ p.content := hcontent ▸ List.mem_singleton.2 rfl
    exact h ▸ List.mem_of_mem_tail ((List.dropLast_sublist _).subset hmem)
  · cases h

theorem loosened_of_loosen {p q : Production} (h : loosen cfg kinds p = .ok q) : Loosened p q := by
  unfold loosen at h
  split at h
  · cases h
  · rename_i first last hbrackets
    cases h
    obtain ⟨hfirst, hlast⟩ := brackets_mem hbrackets
    refine ⟨rfl, rfl, opened_of_brackets hbrackets, rfl, fun t ht => ?_⟩
    simp only [List.mem_cons, Item.terminal.injEq, reduceCtorEq, List.not_mem_nil, or_false,
      false_or] at ht
    rcases ht with rfl | hbody | rfl
    · exact hfirst
    · exact body_mem hbody.symm
    · exact hlast

/-- The injections that come with loosened cells and with fragments. -/
def bridges (cfg : Settings) (l : List Sentence) : List Sentence :=
  ((productionsOf l).filter fun p =>
    p.hasAttribute cfg.keys.cell || p.hasAttribute cfg.keys.cellFragment).map fun p =>
      bridge cfg p.sort

theorem mem_bridges {l : List Sentence} {s : Sentence} :
    s ∈ bridges cfg l ↔ ∃ p, .production p ∈ l ∧
      (p.hasAttribute cfg.keys.cell = true ∨ p.hasAttribute cfg.keys.cellFragment = true) ∧
      bridge cfg p.sort = s := by
  simp only [bridges, List.mem_map, List.mem_filter, mem_productionsOf, Bool.or_eq_true, and_assoc]

/-- A production is loosened or kept, and it gets a bridge if it is a cell or a fragment. -/
theorem mem_replacements {p : Production} {group : List Sentence}
    (h : replacements cfg kinds (.production p) = .ok group) {s : Sentence} :
    s ∈ group ↔ (if p.hasAttribute cfg.keys.cell then
        ∃ q, loosen cfg kinds p = .ok q ∧ s = .production q else s = .production p) ∨
      (p.hasAttribute cfg.keys.cell = true ∨ p.hasAttribute cfg.keys.cellFragment = true) ∧
        s = bridge cfg p.sort := by
  simp only [replacements] at h
  split at h
  · rename_i hcell
    obtain ⟨q, hq, rfl⟩ := Outcome.map_eq_ok_iff.1 h
    simp [hcell, hq]
  · rename_i hcell
    split at h
    · rename_i hfragment
      cases h
      simp [hcell, hfragment]
    · rename_i hfragment
      cases h
      simp [hcell, hfragment]

theorem mem_loosenAll (h : loosenAll cfg kinds set = .ok new) {s : Sentence} :
    s ∈ new ↔ ∃ x ∈ set, ∃ group, replacements cfg kinds x = .ok group ∧ s ∈ group := by
  obtain ⟨groups, hgroups, rfl⟩ := Outcome.map_eq_ok_iff.1 h
  rw [OrdSet.mem_ofList, List.mem_flatten]
  constructor
  · intro hs
    obtain ⟨group, hgroup, hs⟩ := hs
    obtain ⟨x, hx, hxg⟩ := Outcome.mem_of_mapM_eq_ok hgroups hgroup
    exact ⟨x, hx, group, hxg, hs⟩
  · intro hs
    obtain ⟨x, hx, group, hxg, hs⟩ := hs
    obtain ⟨group', hgroup', hxg'⟩ := Outcome.exists_mem_of_mapM_eq_ok hgroups hx
    rw [hxg] at hxg'
    cases hxg'
    exact ⟨group, hgroup', hs⟩

/-- Every sentence of the set has replacements, since otherwise there would be no result. -/
theorem exists_replacements (h : loosenAll cfg kinds set = .ok new) {x : Sentence} (hx : x ∈ set) :
    ∃ group, replacements cfg kinds x = .ok group ∧ ∀ s ∈ group, s ∈ new := by
  obtain ⟨groups, hgroups, -⟩ := Outcome.map_eq_ok_iff.1 h
  obtain ⟨group, -, hxg⟩ := Outcome.exists_mem_of_mapM_eq_ok hgroups hx
  exact ⟨group, hxg, fun s hs => (mem_loosenAll h).2 ⟨x, hx, group, hxg, hs⟩⟩

/-- A sentence stays unless it is a cell. -/
theorem mem_loosenAll_of_kept (h : loosenAll cfg kinds set = .ok new) {x : Sentence} (hx : x ∈ set)
    (hkept : ∀ p, x = .production p → p.hasAttribute cfg.keys.cell = false) : x ∈ new := by
  obtain ⟨group, hgroup, hsub⟩ := exists_replacements h hx
  refine hsub x ?_
  cases x with
  | declaration s =>
    cases hgroup
    exact List.mem_singleton.2 rfl
  | production p => exact (mem_replacements hgroup).2 (.inl (by simp [hkept p rfl]))

section Production

variable (h : loosenAll cfg kinds set = .ok new) {p : Production} (hp : .production p ∈ set)
include h hp

theorem exists_loosened (hcell : p.hasAttribute cfg.keys.cell = true) :
    ∃ q, loosen cfg kinds p = .ok q ∧ .production q ∈ new := by
  obtain ⟨group, hgroup, hsub⟩ := exists_replacements h hp
  cases hq : loosen cfg kinds p with
  | error e => simp [replacements, hcell, hq, Except.map] at hgroup
  | ok q => exact ⟨q, rfl, hsub _ ((mem_replacements hgroup).2 (.inl (by simp [hcell, hq])))⟩

theorem bridge_mem_loosenAll (htag : p.hasAttribute cfg.keys.cell = true ∨
    p.hasAttribute cfg.keys.cellFragment = true) : bridge cfg p.sort ∈ new := by
  obtain ⟨group, hgroup, hsub⟩ := exists_replacements h hp
  exact hsub _ ((mem_replacements hgroup).2 (.inr ⟨htag, rfl⟩))

end Production

end CellKinds

namespace Synthesizer

open CellKinds

/-- The injections into the sort of cells that loosening adds. -/
def bridges (cfg : Settings) (cs : Capabilities) (set : SentenceSet) : List Sentence :=
  if .ruleCells ∈ cs ∧ (CellKinds.ofSentences? cfg set.toList).isSome then
    CellKinds.bridges cfg set.toList
  else []

theorem eq_injection_of_mem_bridges {x : Sentence} (h : x ∈ bridges cfg cs set) :
    ∃ sort, x = .production (.injection cfg.sorts.cell sort) := by
  unfold bridges at h
  split at h
  · obtain ⟨p, -, -, rfl⟩ := CellKinds.mem_bridges.1 h
    exact ⟨p.sort, rfl⟩
  · cases h

section Cells

variable (h : loosenCells cfg cs set = .ok new)
include h

theorem loosenCells_cases :
    (bridges cfg cs set = [] ∧ new = set) ∨
      ∃ kinds, bridges cfg cs set = CellKinds.bridges cfg set.toList ∧
        loosenAll cfg kinds set = .ok new := by
  unfold loosenCells at h
  unfold bridges
  split at h
  · rename_i hcells
    split at h
    · rename_i kinds hkinds
      exact .inr ⟨kinds, by simp [hcells, hkinds], h⟩
    · rename_i hkinds
      cases h
      exact .inl ⟨by simp [hkinds], rfl⟩
  · rename_i hcells
    cases h
    exact .inl ⟨by simp [hcells], rfl⟩

theorem mem_bridges_loosenCells {s : Sentence} (hs : s ∈ bridges cfg cs set) : s ∈ new := by
  rcases loosenCells_cases h with ⟨hnone, -⟩ | ⟨kinds, hbridges, hall⟩
  · rw [hnone] at hs
    cases hs
  · rw [hbridges] at hs
    obtain ⟨p, hp, htag, rfl⟩ := CellKinds.mem_bridges.1 hs
    exact bridge_mem_loosenAll hall hp htag

/-- A sentence stays, unless it is a cell that is loosened. -/
theorem kept_or_loosened {x : Sentence} (hx : x ∈ set) :
    x ∈ new ∨ ∃ p q, x = .production p ∧ Loosened p q ∧ .production q ∈ new := by
  rcases loosenCells_cases h with ⟨-, rfl⟩ | ⟨kinds, -, hall⟩
  · exact .inl hx
  · by_cases hcell : ∃ p, x = .production p ∧ p.hasAttribute cfg.keys.cell = true
    · obtain ⟨p, rfl, hcell⟩ := hcell
      obtain ⟨q, hq, hmem⟩ := exists_loosened hall hx hcell
      exact .inr ⟨p, q, rfl, loosened_of_loosen hq, hmem⟩
    · exact .inl (mem_loosenAll_of_kept hall hx fun p e =>
        Bool.eq_false_iff.2 fun htrue => hcell ⟨p, e, htrue⟩)

/-- A sentence that is no cell stays, and so does each cell of a grammar that is not for rules. -/
theorem mem_loosenCells_of_kept {x : Sentence} (hx : x ∈ set)
    (hkept : ∀ p, x = .production p → p.hasAttribute cfg.keys.cell = true → .ruleCells ∉ cs) :
    x ∈ new := by
  by_cases hcs : .ruleCells ∈ cs
  · rcases loosenCells_cases h with ⟨-, rfl⟩ | ⟨kinds, -, hall⟩
    · exact hx
    · exact mem_loosenAll_of_kept hall hx fun p e =>
        Bool.eq_false_iff.2 fun hcell => hkept p e hcell hcs
  · rw [loosenCells, if_neg hcs] at h
    cases h
    exact hx

theorem origin_of_loosenCells {s : Sentence} (hs : s ∈ new) :
    s ∈ set ∨ s ∈ bridges cfg cs set ∨
      ∃ p q, .production p ∈ set ∧ Loosened p q ∧ s = .production q := by
  rcases loosenCells_cases h with ⟨-, rfl⟩ | ⟨kinds, hbridges, hall⟩
  · exact .inl hs
  · obtain ⟨x, hx, group, hgroup, hs⟩ := (mem_loosenAll hall).1 hs
    cases x with
    | declaration sort =>
      cases hgroup
      exact .inl (List.mem_singleton.1 hs ▸ hx)
    | production p =>
      rcases (mem_replacements hgroup).1 hs with hs | ⟨hcell, rfl⟩
      · split at hs
        · obtain ⟨q, hq, rfl⟩ := hs
          exact .inr (.inr ⟨p, q, hx, loosened_of_loosen hq, rfl⟩)
        · exact .inl (hs ▸ hx)
      · rw [hbridges]
        exact .inr (.inl (CellKinds.mem_bridges.2 ⟨p, hx, hcell, rfl⟩))

/-- An injection comes out of the stage if it went in or is a bridge: a cell is never one. -/
theorem injection_mem_loosenCells {sort sub : SortName} :
    .production (.injection sort sub) ∈ new ↔
      .production (.injection sort sub) ∈ set ∨
        .production (.injection sort sub) ∈ bridges cfg cs set := by
  constructor
  · intro hs
    rcases origin_of_loosenCells h hs with hs | hs | ⟨p, q, -, hl, e⟩
    · exact .inl hs
    · exact .inr hs
    · cases e
      exact absurd hl.length (by simp [Production.injection, Production.ofRow])
  · intro hs
    rcases hs with hs | hs
    · rcases kept_or_loosened h hs with hs | ⟨p, q, e, hl, -⟩
      · exact hs
      · cases e
        obtain ⟨t, rest, hitems, -⟩ := hl.opened
        cases hitems
    · exact mem_bridges_loosenCells h hs

end Cells

end Synthesizer

/-! ## Lists -/

namespace UserList

/-- The tagged productions among sentences that two sets share are listed alike. -/
theorem tagged_congr {set set' : SentenceSet}
    (h : ∀ p, p.hasAttribute cfg.keys.userList = true →
      (.production p ∈ set ↔ .production p ∈ set')) :
    tagged cfg set.toList = tagged cfg set'.toList := by
  have hfilter : ∀ l : List Sentence, tagged cfg l =
      productionsOf (l.filter fun x => isSugar cfg x && !cfg.isReserved x.definedSort) := by
    intro l
    rw [tagged, productionsOf, productionsOf, List.filter_filterMap, List.filterMap_filter]
    congr 1
    funext x
    cases x <;> rfl
  have hsets : set.filter (fun x => isSugar cfg x && !cfg.isReserved x.definedSort) =
      set'.filter (fun x => isSugar cfg x && !cfg.isReserved x.definedSort) := by
    ext x
    simp only [Catalog.mem_filter, Bool.and_eq_true]
    refine and_congr_left fun hx => ?_
    cases x with
    | declaration s => cases hx.1
    | production p => exact h p hx.1
  rw [hfilter, hfilter]
  exact congrArg (fun c : SentenceSet => productionsOf c.toList) hsets

/-- Lists are recovered from tagged productions. -/
theorem ofSentences_congr {set set' : SentenceSet}
    (h : ∀ p, p.hasAttribute cfg.keys.userList = true →
      (.production p ∈ set ↔ .production p ∈ set')) :
    ofSentences cfg set.toList = ofSentences cfg set'.toList := by
  simp only [ofSentences, taggedSorts, declared, tagged_congr h]

/-- A cons has three items: the element, the separator and the list again. -/
theorem consParts?_eq_some_iff {s element : SortName} {text : String} {p : Production} :
    consParts? s p = some (element, text) ↔ ∃ separator : Terminal, separator.text = text ∧
      p.items = [.nonTerminal element, .terminal separator, .nonTerminal s] := by
  unfold consParts?
  split
  · rename_i hitems
    simp [hitems, and_comm, and_assoc]
  · rename_i hother
    simp only [reduceCtorEq, false_iff, not_exists, not_and]
    exact fun separator _ => hother element separator s

theorem mem_tagged {l : List Sentence} {p : Production} :
    p ∈ tagged cfg l ↔ .production p ∈ l ∧ p.hasAttribute cfg.keys.userList = true ∧
      cfg.isReserved p.sort = false := by
  simp [tagged, mem_productionsOf]

theorem mem_declared {l : List Sentence} {s : SortName} {p : Production} :
    p ∈ declared cfg l s ↔ cfg.isReserved s = false ∧ .production p ∈ l ∧ p.sort = s ∧
      p.hasAttribute cfg.keys.userList = true := by
  simp only [declared, List.mem_filter, mem_tagged, beq_iff_eq]
  constructor
  · rintro ⟨⟨hp, htag, hres⟩, rfl⟩
    exact ⟨hres, hp, rfl, htag⟩
  · rintro ⟨hres, hp, rfl, htag⟩
    exact ⟨⟨hp, htag, hres⟩, rfl⟩

theorem sort_of_ofProductions? {sort : SortName} {l : List Production} {u : UserList}
    (h : ofProductions? cfg sort l = some u) : u.sort = sort := by
  simp only [ofProductions?, Option.bind_eq_bind, Option.bind_eq_some_iff] at h
  obtain ⟨_, _, _, _, _, _, e⟩ := h
  cases e
  rfl

theorem mem_ofSentences {l : List Sentence} {u : UserList} (h : u ∈ ofSentences cfg l) :
    ofProductions? cfg u.sort (declared cfg l u.sort) = some u := by
  obtain ⟨sort, -, hu⟩ := List.mem_filterMap.1 h
  rw [sort_of_ofProductions? hu]
  exact hu

/-- A list is read off the first cons of its sort. -/
theorem exists_cons {l : List Sentence} {u : UserList} (h : u ∈ ofSentences cfg l) :
    ∃ p, (declared cfg l u.sort).find? (fun p => (consParts? u.sort p).isSome) = some p ∧
      consParts? u.sort p = some (u.element, u.separator) ∧
      u.attributes = p.attributes.erase cfg.keys.userList := by
  have hu := mem_ofSentences h
  simp only [ofProductions?, Option.bind_eq_bind, Option.bind_eq_some_iff] at hu
  obtain ⟨p, hp, ⟨element, separator⟩, hparts, terminator, -, hfields⟩ := hu
  have hfields := Option.some.inj hfields
  have helement : element = u.element := congrArg UserList.element hfields
  have hseparator : separator = u.separator := congrArg UserList.separator hfields
  have hattributes : p.attributes.erase cfg.keys.userList = u.attributes :=
    congrArg UserList.attributes hfields
  rw [helement, hseparator] at hparts
  exact ⟨p, hp, hparts, hattributes.symm⟩

/-- A sort has one list. -/
theorem eq_of_sort_eq {l : List Sentence} {u u' : UserList} (h : u ∈ ofSentences cfg l)
    (h' : u' ∈ ofSentences cfg l) (hsort : u.sort = u'.sort) : u = u' := by
  have hu := mem_ofSentences h
  rw [hsort, mem_ofSentences h'] at hu
  exact (Option.some.inj hu).symm

/-- The recursive form has two injections, from the scaffolding sorts into the sort of the list. -/
theorem injection_mem_parseForm {u : UserList} {sort sub : SortName} :
    .production (.injection sort sub) ∈ parseForm cfg u ↔ sort = u.sort ∧
      (sub = cfg.nonEmptySort u.sort ∨ u.nonEmpty = false ∧ sub = cfg.terminatorSort u.sort) := by
  rw [parseForm, List.mem_append, and_or_left]
  refine or_congr ?_ ?_
  · simp [Production.injection, Production.ofRow, Item.ofText]
  · cases u.nonEmpty <;> simp [Production.injection, Production.ofRow]

end UserList

namespace Synthesizer

theorem mem_addRuleLists {s : Sentence} :
    s ∈ addRuleLists cfg cs set ↔ s ∈ set ∨ .ruleLists ∈ cs ∧
      ∃ u ∈ UserList.ofSentences cfg set.toList, s = .production (.injection u.sort u.element) := by
  unfold addRuleLists
  split
  · rename_i hcs
    simp [UserList.addDisambiguationForms, OrdSet.mem_insertAll, UserList.disambiguationForm, hcs]
  · rename_i hcs
    simp [hcs]

/-- The lists are the same when their disambiguation forms have been added. -/
theorem ofSentences_addRuleLists :
    UserList.ofSentences cfg (addRuleLists cfg cs set).toList =
      UserList.ofSentences cfg set.toList := by
  refine UserList.ofSentences_congr fun p hp => mem_addRuleLists.trans (or_iff_left ?_)
  rintro ⟨-, u, -, e⟩
  cases e
  cases hp

theorem mem_desugar_iff {m : Module} (hcs : .programLists ∈ cs) {s : Sentence} :
    s ∈ ((desugar? cfg cs m).getD m).sentences ↔ UserList.isSugar cfg s = false ∧
      (s ∈ m.sentences ∨ s ∈ topSortInjections cfg m ∨
        ∃ u ∈ UserList.ofSentences cfg m.sentences.toList, s ∈ u.parseForm cfg) := by
  simp only [desugar?, if_pos hcs, Option.getD_some, UserList.replaceByParseForms,
    UserList.mem_withoutSugar, OrdSet.mem_insertAll, List.mem_flatMap, or_assoc]
  exact and_comm

namespace Stages

variable {st : Stages}

theorem mem_disambiguation_iff {s : Sentence} :
    s ∈ (st.disambiguation cfg).sentences ↔
      s ∈ st.restricted cfg st.loosened ∨ .ruleLists ∈ st.capabilities ∧
        ∃ u ∈ UserList.ofSentences cfg (st.disambiguation cfg).sentences.toList,
          s = .production (.injection u.sort u.element) := by
  rw [disambiguation, mem_addRuleLists, ofSentences_addRuleLists]

/-- Restrictions change follow sets only. -/
theorem bare_of_mem_restricted {set : SentenceSet} {s : Sentence}
    (hs : s ∈ st.restricted cfg set) : ∃ x ∈ set, s.bare = x.bare := by
  unfold restricted at hs
  cases hv : st.vocabulary with
  | none =>
    rw [hv] at hs
    exact ⟨s, hs, rfl⟩
  | some v =>
    rw [hv] at hs
    obtain ⟨x, hx, rfl⟩ := OrdSet.mem_map.1 hs
    exact ⟨x, hx, Vocabulary.bare_restrictSentence v cfg x⟩

theorem bare_mem_restricted {set : SentenceSet} {x : Sentence} (hx : x ∈ set) :
    ∃ s ∈ st.restricted cfg set, s.bare = x.bare := by
  unfold restricted
  cases st.vocabulary with
  | none => exact ⟨x, hx, rfl⟩
  | some v => exact ⟨_, OrdSet.mem_map.2 ⟨x, hx, rfl⟩, Vocabulary.bare_restrictSentence v cfg x⟩

theorem mem_parse_iff {a : Synthesizer} {d : Definition} {seed : Module}
    (hcs : .programLists ∈ st.capabilities) {s : Sentence} :
    s ∈ (st.bundle a d seed).parse.sentences ↔ UserList.isSugar a.settings s = false ∧
      (s ∈ (st.disambiguation a.settings).sentences ∨
        s ∈ topSortInjections a.settings (st.disambiguation a.settings) ∨
        ∃ u ∈ UserList.ofSentences a.settings (st.disambiguation a.settings).sentences.toList,
          s ∈ u.parseForm a.settings) :=
  mem_desugar_iff hcs

end Stages

end Synthesizer

end GrammarSynthesis
