import GrammarSynthesis.Proofs.CellClasses
import GrammarSynthesis.Proofs.StageSentences

/-!
# The forms of loosened cells

In a grammar for rules the productions of cells give way to others. What these look like can be said
without kinds and numbers: the first and the last item stay, optional dots stand beside them, and
between the dots stands the value of the cell, or a bag if some cell of its sort holds no value.
Cells and fragments are injected into the sort of all cells, but fragments only if there is a cell.
Everything else stays.

* `LoosensTo`: the form of a loosened cell;
* `ReplacedBy`: the sentences that take the place of a sentence;
* `loosen_eq_ok_iff`: cells are loosened to this form;
* `Synthesizer.mem_loosenCells_iff`: the sentences of a grammar after its cells are loosened.
-/
namespace GrammarSynthesis

variable {cfg : Settings}

namespace CellKinds

variable {l : List Sentence} {p q : Production}

/-! ## Forms -/

/-- All cells of the sort hold a value. -/
def HoldsValues (cfg : Settings) (l : List Sentence) (s : SortName) : Prop :=
  ∀ p, Declares cfg l p → p.sort = s → HoldsValue cfg l p

/-- What stands between the dots of a loosened cell of the sort, if these items stood between its
brackets. -/
inductive Body (cfg : Settings) (l : List Sentence) (s : SortName) : List Item → Item → Prop where
  | value {item : Item} (h : HoldsValues cfg l s) : Body cfg l s [item] item
  | bag {middle : List Item} (h : ¬ HoldsValues cfg l s) :
      Body cfg l s middle (.nonTerminal cfg.sorts.bag)

/-- The second production is the first with its cell loosened: inside the brackets come optional
dots, and between these the body. -/
structure LoosensTo (cfg : Settings) (l : List Sentence) (p q : Production) : Prop where
  sort : q.sort = p.sort
  items : ∃ first middle last body,
    p.items = .terminal first :: (middle ++ [.terminal last]) ∧ Body cfg l p.sort middle body ∧
      q.items = [.terminal first, .nonTerminal cfg.sorts.dots, body, .nonTerminal cfg.sorts.dots,
        .terminal last]
  label : q.label = p.label
  attributes : q.attributes = p.attributes
  location : q.location = p.location

/-- Among the sentences, the second takes the place of the first or comes with it. -/
inductive ReplacedBy (cfg : Settings) (l : List Sentence) : Sentence → Sentence → Prop where
  | declaration (s : SortName) : ReplacedBy cfg l (.declaration s) (.declaration s)
  | kept {p : Production} (hcell : p.hasAttribute cfg.keys.cell = false) :
      ReplacedBy cfg l (.production p) (.production p)
  | loosened {p q : Production} (hcell : p.hasAttribute cfg.keys.cell = true)
      (h : LoosensTo cfg l p q) : ReplacedBy cfg l (.production p) (.production q)
  | bridged {p : Production} (hcells : ∃ r, Declares cfg l r)
      (htag : p.hasAttribute cfg.keys.cell = true ∨ p.hasAttribute cfg.keys.cellFragment = true) :
      ReplacedBy cfg l (.production p) (.production (.injection cfg.sorts.cell p.sort))

/-! ## How they come about -/

section Kinds

variable {kinds : CellKinds} (hkinds : ofSentences? cfg l = some kinds)
include hkinds

theorem kind?_eq_leaf_iff_holdsValues (hp : Declares cfg l p) :
    kinds.kind? p.sort = some .leaf ↔ HoldsValues cfg l p.sort := by
  rw [kind?_eq_leaf_iff hkinds]
  exact and_iff_right ⟨p, hp, rfl⟩

theorem body_eq_iff (hp : Declares cfg l p) {item : Item} :
    body cfg kinds p = item ↔ Body cfg l p.sort p.content item := by
  by_cases hvalues : HoldsValues cfg l p.sort
  · have hkind := (kind?_eq_leaf_iff_holdsValues hkinds hp).2 hvalues
    obtain ⟨first, value, last, hitems, -⟩ := hvalues p hp rfl
    have hcontent : p.content = [value] := by
      rw [Production.content, hitems]
      rfl
    rw [body, hkind, hcontent]
    constructor
    · rintro rfl
      exact .value hvalues
    · intro hbody
      cases hbody with
      | value => rfl
      | bag hno => exact absurd hvalues hno
  · have hkind : kinds.kind? p.sort ≠ some .leaf := fun hleaf =>
      hvalues ((kind?_eq_leaf_iff_holdsValues hkinds hp).1 hleaf)
    have hbag : body cfg kinds p = .nonTerminal cfg.sorts.bag := by
      unfold body
      split
      · rename_i hleaf _
        exact absurd hleaf hkind
      · rfl
    rw [hbag]
    constructor
    · rintro rfl
      exact .bag hvalues
    · intro hbody
      generalize p.content = middle at hbody
      cases hbody with
      | value h => exact absurd h hvalues
      | bag => rfl

/-- A cell is loosened if it has brackets, and then to its form. -/
theorem loosen_eq_ok_iff (hp : Declares cfg l p) :
    loosen cfg kinds p = .ok q ↔ LoosensTo cfg l p q := by
  constructor
  · intro h
    unfold loosen at h
    split at h
    · cases h
    · rename_i first last hbrackets
      cases h
      exact ⟨rfl, ⟨first, p.content, last, body cfg kinds p,
        Production.brackets?_eq_some_iff.1 hbrackets, (body_eq_iff hkinds hp).1 rfl, rfl⟩,
        rfl, rfl, rfl⟩
  · intro h
    obtain ⟨first, middle, last, item, hitems, hbody, hq⟩ := h.items
    have hcontent : p.content = middle := by
      rw [Production.content, hitems, List.tail_cons, List.dropLast_concat]
    have hbrackets : p.brackets? = some (first, last) := by
      rw [Production.brackets?_eq_some_iff, hcontent, hitems]
    rw [← hcontent, ← body_eq_iff hkinds hp] at hbody
    rw [← hbody] at hq
    rw [loosen, hbrackets]
    exact congrArg Except.ok
      (Production.ext h.sort.symm hq.symm h.label.symm h.attributes.symm h.location.symm)

theorem mem_replacements_iff {x s : Sentence} {group : List Sentence} (hx : x ∈ l)
    (h : replacements cfg kinds x = .ok group) : s ∈ group ↔ ReplacedBy cfg l x s := by
  cases x with
  | declaration sort =>
    cases h
    rw [List.mem_singleton]
    constructor
    · rintro rfl
      exact .declaration sort
    · intro hs
      cases hs
      rfl
  | production p =>
    rw [mem_replacements h]
    have hcells : ∃ r, Declares cfg l r := by
      by_contra hnone
      rw [not_exists, ← ofSentences?_eq_none_iff, hkinds] at hnone
      cases hnone
    constructor
    · intro hs
      rcases hs with hs | ⟨htag, rfl⟩
      · split at hs
        · rename_i hcell
          obtain ⟨q, hq, rfl⟩ := hs
          exact .loosened hcell ((loosen_eq_ok_iff hkinds ⟨hx, hcell⟩).1 hq)
        · rename_i hcell
          subst hs
          exact .kept (Bool.eq_false_iff.2 hcell)
      · exact .bridged hcells htag
    · intro hs
      cases hs with
      | kept hcell => exact .inl (by simp [hcell])
      | @loosened _ q hcell hq =>
        refine .inl ?_
        rw [if_pos hcell]
        exact ⟨q, (loosen_eq_ok_iff hkinds ⟨hx, hcell⟩).2 hq, rfl⟩
      | bridged _ htag => exact .inr ⟨htag, rfl⟩

end Kinds

/-- Without cells nothing is replaced. -/
theorem replacedBy_iff_eq (hnone : ∀ p, ¬ Declares cfg l p) {x s : Sentence} (hx : x ∈ l) :
    ReplacedBy cfg l x s ↔ s = x := by
  constructor
  · intro h
    cases h with
    | declaration => rfl
    | kept => rfl
    | loosened hcell => exact absurd ⟨hx, hcell⟩ (hnone _)
    | bridged hcells =>
      obtain ⟨r, hr⟩ := hcells
      exact absurd hr (hnone r)
  · rintro rfl
    cases s with
    | declaration sort => exact .declaration sort
    | production p =>
      exact .kept (Bool.eq_false_iff.2 fun hcell => hnone p ⟨hx, hcell⟩)

end CellKinds

namespace Synthesizer

open CellKinds

variable {cs : Capabilities} {set new : SentenceSet}

/-- **The sentences after cells are loosened** are those that replace a sentence if the grammar is
for rules, and the sentences themselves if it is not. -/
theorem mem_loosenCells_iff (h : loosenCells cfg cs set = .ok new) {s : Sentence} :
    s ∈ new ↔ if .ruleCells ∈ cs then ∃ x ∈ set, ReplacedBy cfg set.toList x s else s ∈ set := by
  unfold loosenCells at h
  split at h
  · rename_i hcs
    rw [if_pos hcs]
    split at h
    · rename_i kinds hkinds
      rw [mem_loosenAll h]
      refine exists_congr fun x => and_congr_right fun hx => ?_
      obtain ⟨group, hgroup, -⟩ := exists_replacements h hx
      rw [← mem_replacements_iff hkinds (Catalog.mem_toList.2 hx) hgroup]
      simp [hgroup]
    · rename_i hnone
      cases h
      have heq : ∀ x ∈ set, (ReplacedBy cfg set.toList x s ↔ s = x) := fun x hx =>
        replacedBy_iff_eq (ofSentences?_eq_none_iff.1 hnone) (Catalog.mem_toList.2 hx)
      rw [exists_congr fun x => and_congr_right (heq x)]
      simp
  · rename_i hcs
    cases h
    rw [if_neg hcs]

end Synthesizer

end GrammarSynthesis
