import Mathlib.Data.List.Forall2
import GrammarSynthesis.Proofs.FollowSet
import GrammarSynthesis.Proofs.StageSentences

/-!
# Restricted sentences

A restricted sentence is the sentence itself but for its follow sets. `Production.SameBut` says so
place by place: the two productions differ in their terminals only, and a relation says how a
terminal may differ from the one whose place it takes.

* `Terminal.Stricter`: the terminal refuses all that it refused before;
* `Terminal.RestrictedBy`: beside that, it refuses what would make it a longer word, and no more;
* `Vocabulary.restrictSentence_eq_iff`: a follow restriction does exactly what its words ask for.
-/
namespace GrammarSynthesis

/-! ## The same but for terminals -/

/-- Both are the same sort, or terminals that the relation connects. -/
inductive Item.SameBut (R : Terminal → Terminal → Prop) : Item → Item → Prop where
  | terminal {t t' : Terminal} : R t t' → SameBut R (.terminal t) (.terminal t')
  | nonTerminal (s : SortName) : SameBut R (.nonTerminal s) (.nonTerminal s)

/-- The second production is the first, except that the relation connects each of its terminals
with the one in the same place. -/
structure Production.SameBut (R : Terminal → Terminal → Prop) (p q : Production) : Prop where
  sort : q.sort = p.sort
  items : List.Forall₂ (Item.SameBut R) p.items q.items
  label : q.label = p.label
  attributes : q.attributes = p.attributes
  location : q.location = p.location

/-- The two sentences declare one sort, or their productions are the same but for terminals. -/
inductive Sentence.SameBut (R : Terminal → Terminal → Prop) : Sentence → Sentence → Prop where
  | production {p q : Production} (h : p.SameBut R q) : SameBut R (.production p) (.production q)
  | declaration (s : SortName) : SameBut R (.declaration s) (.declaration s)

/-- The terminal has the same text and refuses all that the other refuses, and perhaps more. -/
structure Terminal.Stricter (t t' : Terminal) : Prop where
  text : t'.text = t.text
  follow : ∀ u ∈ t.follow, u ∈ t'.follow

/-- The terminal has the same text. It refuses what the other refuses and, unless it is blank, all
that would make it a longer one of the words. It refuses nothing else. -/
structure Terminal.RestrictedBy (words : String → Prop) (t t' : Terminal) : Prop where
  text : t'.text = t.text
  follow : ∀ u, u ∈ t'.follow ↔
    u ∈ t.follow ∨ Text.isBlank t.text = false ∧ u ≠ "" ∧ words (t.text ++ u)

/-- The sentence with its terminals restricted by the words. Productions of internal sorts stay as
they are, and so do declarations. -/
inductive Sentence.RestrictedBy (cfg : Settings) (words : String → Prop) :
    Sentence → Sentence → Prop where
  | production {p q : Production} (hint : cfg.isInternal p.sort = false)
      (h : p.SameBut (Terminal.RestrictedBy words) q) :
      RestrictedBy cfg words (.production p) (.production q)
  | internal {p : Production} (hint : cfg.isInternal p.sort = true) :
      RestrictedBy cfg words (.production p) (.production p)
  | declaration (s : SortName) : RestrictedBy cfg words (.declaration s) (.declaration s)

variable {R : Terminal → Terminal → Prop}

theorem Item.SameBut.refl (h : ∀ t, R t t) (item : Item) : SameBut R item item := by
  cases item with
  | terminal t => exact .terminal (h t)
  | nonTerminal s => exact .nonTerminal s

theorem Production.SameBut.refl (h : ∀ t, R t t) (p : Production) : SameBut R p p where
  sort := rfl
  items := List.forall₂_same.2 fun item _ => Item.SameBut.refl h item
  label := rfl
  attributes := rfl
  location := rfl

theorem Sentence.SameBut.refl (h : ∀ t, R t t) (x : Sentence) : SameBut R x x := by
  cases x with
  | production p => exact .production (.refl h p)
  | declaration s => exact .declaration s

theorem Sentence.SameBut.isSugar_eq {cfg : Settings} {x y : Sentence} (h : x.SameBut R y) :
    UserList.isSugar cfg y = UserList.isSugar cfg x := by
  cases h with
  | @production p q h =>
    have hattributes : q.hasAttribute cfg.keys.userList = p.hasAttribute cfg.keys.userList := by
      rw [Production.hasAttribute, h.attributes]
      rfl
    exact hattributes
  | declaration s => rfl

theorem Terminal.Stricter.refl (t : Terminal) : t.Stricter t := ⟨rfl, fun _ hu => hu⟩

namespace Vocabulary

variable {v : Vocabulary} {cfg : Settings}

/-! ## What restrictions do -/

theorem sameBut_restrictItem (h : ∀ t, R t (v.restrictTerminal t)) (item : Item) :
    Item.SameBut R item (v.restrictItem item) := by
  cases item with
  | terminal t => exact .terminal (h t)
  | nonTerminal s => exact .nonTerminal s

theorem stricter_restrictTerminal (v : Vocabulary) (t : Terminal) :
    t.Stricter (v.restrictTerminal t) where
  text := rfl
  follow _ hu := OrdSet.mem_union.2 (.inl hu)

/-- A restricted production has all that it had, and refuses no less. -/
theorem sameBut_restrict (v : Vocabulary) (cfg : Settings) (p : Production) :
    p.SameBut Terminal.Stricter (v.restrict cfg p) := by
  unfold restrict
  split
  · exact .refl Terminal.Stricter.refl p
  · refine ⟨rfl, ?_, rfl, rfl, rfl⟩
    rw [List.forall₂_map_right_iff]
    exact List.forall₂_same.2 fun item _ =>
      sameBut_restrictItem v.stricter_restrictTerminal item

theorem sameBut_restrictSentence (v : Vocabulary) (cfg : Settings) (x : Sentence) :
    x.SameBut Terminal.Stricter (v.restrictSentence cfg x) := by
  cases x with
  | production p => exact .production (sameBut_restrict v cfg p)
  | declaration s => exact .declaration s

/-! ## What restrictions are -/

section Words

variable {words : String → Prop} (hwords : ∀ text, text ∈ v.terminals.toList ↔ words text)
include hwords

theorem restrictTerminal_eq_iff {t t' : Terminal} :
    v.restrictTerminal t = t' ↔ t.RestrictedBy words t' := by
  constructor
  · rintro rfl
    refine ⟨rfl, fun u => ?_⟩
    rw [restrictTerminal, OrdSet.mem_union, mem_followSet_iff, hwords]
  · intro h
    have hfollow : t.follow ∪ v.followSet t.text = t'.follow := by
      ext u
      rw [OrdSet.mem_union, mem_followSet_iff, hwords]
      exact (h.follow u).symm
    exact Terminal.ext h.text.symm hfollow

theorem restrictItem_eq_iff {item item' : Item} :
    v.restrictItem item = item' ↔ Item.SameBut (Terminal.RestrictedBy words) item item' := by
  constructor
  · rintro rfl
    exact sameBut_restrictItem (fun t => (restrictTerminal_eq_iff hwords).1 rfl) item
  · intro h
    cases h with
    | terminal h => exact congrArg Item.terminal ((restrictTerminal_eq_iff hwords).2 h)
    | nonTerminal s => rfl

theorem restrict_eq_iff {p q : Production} (hint : cfg.isInternal p.sort = false) :
    v.restrict cfg p = q ↔ p.SameBut (Terminal.RestrictedBy words) q := by
  have hitems : ∀ items : List Item, p.items.map v.restrictItem = items ↔
      List.Forall₂ (Item.SameBut (Terminal.RestrictedBy words)) p.items items := by
    intro items
    rw [← List.forall₂_eq_eq_eq, List.forall₂_map_left_iff]
    simp only [restrictItem_eq_iff hwords]
  rw [restrict, if_neg (by simp [hint]), Production.ext_iff]
  simp only [hitems]
  constructor
  · intro h
    obtain ⟨hsort, hitems, hlabel, hattributes, hlocation⟩ := h
    exact ⟨hsort.symm, hitems, hlabel.symm, hattributes.symm, hlocation.symm⟩
  · exact fun h => ⟨h.sort.symm, h.items, h.label.symm, h.attributes.symm, h.location.symm⟩

/-- **A follow restriction does what its words ask for.** The relation determines the restricted
sentence, since follow sets with the same texts are equal. -/
theorem restrictSentence_eq_iff {x s : Sentence} :
    v.restrictSentence cfg x = s ↔ x.RestrictedBy cfg words s := by
  constructor
  · rintro rfl
    cases x with
    | declaration s => exact .declaration s
    | production p =>
      cases hint : cfg.isInternal p.sort with
      | true =>
        have hsame : v.restrict cfg p = p := if_pos hint
        rw [restrictSentence, hsame]
        exact .internal hint
      | false => exact .production hint ((restrict_eq_iff hwords hint).1 rfl)
  · intro h
    cases h with
    | production hint h => exact congrArg Sentence.production ((restrict_eq_iff hwords hint).2 h)
    | internal hint => exact congrArg Sentence.production (if_pos hint)
    | declaration s => rfl

end Words

end Vocabulary

end GrammarSynthesis
