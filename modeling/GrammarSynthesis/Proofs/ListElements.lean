import GrammarSynthesis.Proofs.SortsKept

/-!
# The elements of lists

A sort may have several tagged conses, and then the first of them in the order of sentences is the
one that counts. Productions of a sort are in the order of their items, and a cons begins with its
element, so the element of a list is the least that any of its conses has. `DeclaresList` says this
of a set of sentences without recovering the list. It says nothing about follow sets: sentences that
differ in them alone declare the same lists of the same elements.

* `find?_le`: the first entry of an ascending list that passes a test is the least one;
* `UserList.element_least`: the element of a list is the least element of its conses;
* `UserList.exists_list_iff`: the lists that are recovered are those that the sentences declare;
* `UserList.declaresList_congr`: lists and elements do not depend on follow sets.
-/
namespace GrammarSynthesis

variable {cfg : Settings}

/-- Of the entries of an ascending list that pass a test, the first is the least. -/
theorem find?_le {α : Type} [Ord α] {l : List α} {f : α → Bool} {a b : α}
    (hl : l.Pairwise fun a b => compare a b = .lt) (ha : l.find? f = some a) (hb : b ∈ l)
    (hf : f b = true) : b = a ∨ compare a b = .lt := by
  obtain ⟨-, before, after, rfl, hbefore⟩ := List.find?_eq_some_iff_append.1 ha
  rcases List.mem_append.1 hb with hb | hb
  · have hno := hbefore b hb
    rw [hf] at hno
    cases hno
  · rcases List.mem_cons.1 hb with rfl | hb
    · exact .inl rfl
    · exact .inr ((List.pairwise_cons.1 (List.pairwise_append.1 hl).2.1).1 b hb)

theorem productionsOf_ascending (set : SentenceSet) :
    (productionsOf set.toList).Pairwise fun p q => compare p q = .lt := by
  rw [productionsOf, List.pairwise_filterMap]
  refine set.ascending.imp fun {x y} hxy p hp q hq => ?_
  cases x <;> cases hp
  cases y <;> cases hq
  exact hxy

namespace UserList

/-! ## The order of conses -/

/-- Conses of one sort are in the order of their elements, as a cons begins with its element. -/
theorem element_le_of_lt {s e e' : SortName} {separator separator' : String} {p q : Production}
    (hp : consParts? s p = some (e, separator)) (hq : consParts? s q = some (e', separator'))
    (hsort : p.sort = q.sort) (h : compare p q = .lt) : (compare e e').isLE = true := by
  obtain ⟨t, -, hitems⟩ := consParts?_eq_some_iff.1 hp
  obtain ⟨t', -, hitems'⟩ := consParts?_eq_some_iff.1 hq
  have hfields : compare p q = (compare p.sort q.sort).then
      ((compare p.items q.items).then ((compare p.label q.label).then
        ((compare p.attributes q.attributes).then (compare p.location q.location)))) := rfl
  have hfirst : compare (Item.nonTerminal e) (.nonTerminal e') = compare e e' := rfl
  rw [hfields, hsort, Std.ReflOrd.compare_self, hitems, hitems', List.compare_cons_cons,
    hfirst] at h
  cases hle : compare e e' with
  | lt => rfl
  | eq => rfl
  | gt =>
    rw [hle] at h
    cases h

/-! ## The element of a list -/

/-- The sentences have a tagged cons of the sort: an element of the other sort, a separator, and the
list again. -/
def HasCons (cfg : Settings) (set : SentenceSet) (s e : SortName) : Prop :=
  ∃ p, .production p ∈ set ∧ p.sort = s ∧ p.hasAttribute cfg.keys.userList = true ∧
    ∃ separator, p.items = [.nonTerminal e, .terminal separator, .nonTerminal s]

/-- The sentences have a tagged production of the sort with one item. -/
def HasTerminator (cfg : Settings) (set : SentenceSet) (s : SortName) : Prop :=
  ∃ p, .production p ∈ set ∧ p.sort = s ∧ p.hasAttribute cfg.keys.userList = true ∧
    p.items.length = 1

/-- The sentences declare a list: its sort is not reserved, has a cons and a terminator, and no cons
with a lesser element. -/
structure DeclaresList (cfg : Settings) (set : SentenceSet) (s e : SortName) : Prop where
  notReserved : cfg.isReserved s = false
  cons : HasCons cfg set s e
  least : ∀ e', HasCons cfg set s e' → (compare e e').isLE = true
  terminator : HasTerminator cfg set s

variable {set : SentenceSet} {s e : SortName}

/-- A cons is what the parts of a cons can be read from. -/
theorem hasCons_iff : HasCons cfg set s e ↔
    ∃ p, .production p ∈ set ∧ p.sort = s ∧ p.hasAttribute cfg.keys.userList = true ∧
      ∃ text, consParts? s p = some (e, text) := by
  simp only [HasCons, consParts?_eq_some_iff]
  simp

theorem complete_iff : Complete cfg set s ↔
    cfg.isReserved s = false ∧ (∃ e, HasCons cfg set s e) ∧ HasTerminator cfg set s := by
  simp only [hasCons_iff, HasTerminator]
  constructor
  · intro h
    obtain ⟨p, hp, hsort, htag, hsome⟩ := h.cons
    obtain ⟨⟨e, text⟩, hparts⟩ := Option.isSome_iff_exists.1 hsome
    obtain ⟨q, hq, hqsort, hqtag, hlength⟩ := h.terminator
    exact ⟨h.notReserved, ⟨e, p, hp, hsort, htag, text, hparts⟩, q, hq, hqsort, hqtag,
      beq_iff_eq.1 hlength⟩
  · rintro ⟨hres, ⟨e, p, hp, hsort, htag, text, hparts⟩, q, hq, hqsort, hqtag, hlength⟩
    exact ⟨hres, ⟨p, hp, hsort, htag, by rw [hparts]; rfl⟩, q, hq, hqsort, hqtag,
      beq_iff_eq.2 hlength⟩

/-- The element of a list is the least that a cons of it has. -/
theorem element_least {u : UserList} (h : u ∈ ofSentences cfg set.toList) :
    HasCons cfg set u.sort u.element ∧
      ∀ e, HasCons cfg set u.sort e → (compare u.element e).isLE = true := by
  obtain ⟨cons, hcons, hparts, -⟩ := exists_cons h
  obtain ⟨hfree, hmem, hsort, htag⟩ := mem_declared.1 (List.mem_of_find?_eq_some hcons)
  refine ⟨hasCons_iff.2 ⟨cons, hmem, hsort, htag, u.separator, hparts⟩, fun e he => ?_⟩
  obtain ⟨p, hp, hpsort, hptag, separator', hparts'⟩ := hasCons_iff.1 he
  have hascending : (declared cfg set.toList u.sort).Pairwise fun p q => compare p q = .lt :=
    ((productionsOf_ascending set).filter _).filter _
  have hdeclared := mem_declared.2 ⟨hfree, hp, hpsort, hptag⟩
  rcases find?_le hascending hcons hdeclared (by rw [hparts']; rfl) with rfl | hlt
  · rw [hparts] at hparts'
    cases hparts'
    rw [Std.ReflOrd.compare_self]
    rfl
  · exact element_le_of_lt hparts hparts' (hsort.trans hpsort.symm) hlt

/-- **The lists that are recovered** are those that the sentences declare, with their elements. -/
theorem exists_list_iff :
    (∃ u ∈ ofSentences cfg set.toList, u.sort = s ∧ u.element = e) ↔
      DeclaresList cfg set s e := by
  constructor
  · rintro ⟨u, hu, rfl, rfl⟩
    obtain ⟨hres, -, hterminator⟩ := complete_iff.1 (exists_mem_ofSentences_iff.1 ⟨u, hu, rfl⟩)
    obtain ⟨hcons, hleast⟩ := element_least hu
    exact ⟨hres, hcons, hleast, hterminator⟩
  · intro h
    obtain ⟨u, hu, rfl⟩ := exists_mem_ofSentences_iff.2
      (complete_iff.2 ⟨h.notReserved, ⟨e, h.cons⟩, h.terminator⟩)
    obtain ⟨hcons, hleast⟩ := element_least hu
    -- both are least elements of the same conses
    have heq : compare u.element e = .eq :=
      Std.OrientedCmp.isLE_antisymm (hleast e h.cons) (h.least _ hcons)
    exact ⟨u, hu, rfl, Std.LawfulEqOrd.eq_of_compare heq⟩

/-! ## Lists without follow sets -/

section Bare

variable {set' : SentenceSet}

/-- A tagged production of the one set stands in the other, but for its follow sets. -/
theorem exists_tagged_of_bare (h : ∀ x ∈ set, ∃ y ∈ set', y.bare = x.bare) {p : Production}
    (hp : .production p ∈ set) (htag : p.hasAttribute cfg.keys.userList = true) :
    ∃ q, .production q ∈ set' ∧ q.sort = p.sort ∧ q.hasAttribute cfg.keys.userList = true ∧
      q.bare = p.bare := by
  obtain ⟨y, hy, hbare⟩ := h _ hp
  cases y with
  | declaration s => cases hbare
  | production q =>
    have hq : q.bare = p.bare := Sentence.production.inj hbare
    have hsort : q.bare.sort = p.bare.sort := congrArg Production.sort hq
    have hattributes : q.bare.attributes = p.bare.attributes := congrArg Production.attributes hq
    refine ⟨q, hy, hsort, ?_, hq⟩
    rw [Production.hasAttribute, show q.attributes = p.attributes from hattributes]
    exact htag

theorem hasCons_of_bare (h : ∀ x ∈ set, ∃ y ∈ set', y.bare = x.bare)
    (hcons : HasCons cfg set s e) : HasCons cfg set' s e := by
  obtain ⟨p, hp, rfl, htag, text, hparts⟩ := hasCons_iff.1 hcons
  obtain ⟨q, hq, hsort, hqtag, hbare⟩ := exists_tagged_of_bare h hp htag
  refine hasCons_iff.2 ⟨q, hq, hsort, hqtag, text, ?_⟩
  rw [← Production.consParts?_bare, hbare, Production.consParts?_bare]
  exact hparts

theorem hasTerminator_of_bare (h : ∀ x ∈ set, ∃ y ∈ set', y.bare = x.bare)
    (hterminator : HasTerminator cfg set s) : HasTerminator cfg set' s := by
  obtain ⟨p, hp, rfl, htag, hlength⟩ := hterminator
  obtain ⟨q, hq, hsort, hqtag, hbare⟩ := exists_tagged_of_bare h hp htag
  refine ⟨q, hq, hsort, hqtag, ?_⟩
  rw [← Production.length_items_bare, hbare, Production.length_items_bare]
  exact hlength

/-- Sentences that differ in their follow sets alone declare the same lists of the same elements. -/
theorem declaresList_congr (h : ∀ x ∈ set, ∃ y ∈ set', y.bare = x.bare)
    (h' : ∀ y ∈ set', ∃ x ∈ set, x.bare = y.bare) :
    DeclaresList cfg set s e ↔ DeclaresList cfg set' s e := by
  constructor
  · intro hlist
    exact ⟨hlist.notReserved, hasCons_of_bare h hlist.cons,
      fun e' he' => hlist.least e' (hasCons_of_bare h' he'),
      hasTerminator_of_bare h hlist.terminator⟩
  · intro hlist
    exact ⟨hlist.notReserved, hasCons_of_bare h' hlist.cons,
      fun e' he' => hlist.least e' (hasCons_of_bare h he'),
      hasTerminator_of_bare h' hlist.terminator⟩

end Bare

end UserList

end GrammarSynthesis
