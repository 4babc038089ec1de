import GrammarSynthesis.Proofs.PrefixLaw
import GrammarSynthesis.Proofs.Restriction

/-!
# Restricting again

A vocabulary says once and for all what must not follow a text. So a production that was restricted
gains nothing when it is restricted again, and since texts stay as they are, the restricted sentences
have the vocabulary of the sentences they were made of.

A module is copied if its set of sentences changes. Two sentences that differ in their follow sets
may become one, but the set does not come out as it was unless each of its members did. For each
member of the new set is restricted already, and if the new set is the old one, so was each member of
the old one.

* `OrdSet.map_eq_self_iff`: an idempotent map that maps a set onto itself moves no member;
* `Vocabulary.restrict_restrict`, `Vocabulary.restrictAll_restrictAll`: restrictions are idempotent;
* `Vocabulary.restrict_eq_self_iff`: which productions stay as they are;
* `Vocabulary.restrictModule?_eq_none_iff`: which modules are not copied;
* `Vocabulary.restriction_is_closure`: all of it together.
-/
namespace GrammarSynthesis

/-! ## Idempotent maps on sets -/

namespace OrdSet

variable {α : Type} [Ord α] [Std.TransOrd α] [Std.LawfulEqOrd α] {f : α → α}

theorem map_map_self (hf : ∀ x, f (f x) = f x) (s : OrdSet α) : (s.map f).map f = s.map f := by
  ext y
  simp only [mem_map, exists_exists_and_eq_and, hf]

/-- The members of the image are at rest, so if the image is the set itself, all members are. -/
theorem map_eq_self_iff (hf : ∀ x, f (f x) = f x) {s : OrdSet α} :
    s.map f = s ↔ ∀ x ∈ s, f x = x := by
  constructor
  · intro himage y hy
    rw [← himage] at hy
    obtain ⟨x, -, rfl⟩ := mem_map.1 hy
    exact hf x
  · intro hrest
    ext y
    rw [mem_map]
    constructor
    · rintro ⟨x, hx, rfl⟩
      rw [hrest x hx]
      exact hx
    · exact fun hy => ⟨y, hy, hrest y hy⟩

end OrdSet

namespace Vocabulary

variable {v : Vocabulary} {cfg : Settings} {p : Production} {m : Module} {set : SentenceSet}

/-! ## Restricting twice -/

theorem restrictTerminal_eq_self_iff {t : Terminal} : v.restrictTerminal t = t ↔ v.Restricts t := by
  constructor
  · intro h u hu
    rw [← h]
    exact OrdSet.mem_union.2 (.inr hu)
  · intro h
    have hfollow : t.follow ∪ v.followSet t.text = t.follow := by
      ext u
      rw [OrdSet.mem_union]
      exact or_iff_left_of_imp (h u)
    rw [restrictTerminal, hfollow]

theorem restricts_restrictTerminal (v : Vocabulary) (t : Terminal) :
    v.Restricts (v.restrictTerminal t) :=
  fun _ hu => OrdSet.mem_union.2 (.inr hu)

theorem restrictItem_restrictItem (item : Item) :
    v.restrictItem (v.restrictItem item) = v.restrictItem item := by
  cases item with
  | terminal t =>
    exact congrArg Item.terminal (restrictTerminal_eq_self_iff.2 (v.restricts_restrictTerminal t))
  | nonTerminal s => rfl

theorem restrict_restrict (p : Production) :
    v.restrict cfg (v.restrict cfg p) = v.restrict cfg p := by
  by_cases hint : cfg.isInternal p.sort = true
  · simp [restrict, hint]
  · simp [restrict, hint, restrictItem_restrictItem]

theorem restrictSentence_restrictSentence (x : Sentence) :
    v.restrictSentence cfg (v.restrictSentence cfg x) = v.restrictSentence cfg x := by
  cases x with
  | production p => exact congrArg Sentence.production (restrict_restrict p)
  | declaration s => rfl

theorem restrictAll_restrictAll (set : SentenceSet) :
    v.restrictAll cfg (v.restrictAll cfg set) = v.restrictAll cfg set :=
  OrdSet.map_map_self restrictSentence_restrictSentence set

/-! ## The vocabulary of restricted sentences -/

theorem map_text_terminals_restrict (v : Vocabulary) (cfg : Settings) (p : Production) :
    (v.restrict cfg p).terminals.map Terminal.text = p.terminals.map Terminal.text := by
  unfold restrict
  split
  · rfl
  · simp only [Production.terminals, List.filterMap_map, List.map_filterMap]
    congr 1
    funext item
    cases item <;> rfl

theorem says_restrictAll_iff {text : String} :
    Says cfg (v.restrictAll cfg set) text ↔ Says cfg set text := by
  have htexts : ∀ set : SentenceSet, Says cfg set text ↔ ∃ p, .production p ∈ set ∧
      cfg.isInternal p.sort = false ∧ text ∈ p.terminals.map Terminal.text := by
    simp [Says]
  rw [htexts, htexts]
  constructor
  · intro h
    obtain ⟨p, hp, hint, htext⟩ := h
    obtain ⟨q, hq, rfl⟩ := mem_restrictAll hp
    rw [sort_restrict] at hint
    rw [map_text_terminals_restrict] at htext
    exact ⟨q, hq, hint, htext⟩
  · intro h
    obtain ⟨q, hq, hint, htext⟩ := h
    refine ⟨v.restrict cfg q, OrdSet.mem_map.2 ⟨_, hq, rfl⟩, ?_, ?_⟩
    · rw [sort_restrict]
      exact hint
    · rw [map_text_terminals_restrict]
      exact htext

/-- Two vocabularies with the same terminals are equal, as each lists them in order. -/
theorem eq_of_mem_iff {w : Vocabulary}
    (h : ∀ text, text ∈ v.terminals.toList ↔ text ∈ w.terminals.toList) : v = w := by
  obtain ⟨terminals, hascending, hblank⟩ := v
  obtain ⟨terminals', hascending', hblank'⟩ := w
  have hsets : (⟨terminals.toList, hascending⟩ : OrdSet String) =
      ⟨terminals'.toList, hascending'⟩ := Catalog.ext h
  have hlists : terminals = terminals' := Array.toList_inj.1 (congrArg Catalog.toList hsets)
  subst hlists
  rfl

theorem ofProductions_restrictAll (v : Vocabulary) (cfg : Settings) (set : SentenceSet) :
    ofProductions cfg (productionsOf (v.restrictAll cfg set).toList) =
      ofProductions cfg (productionsOf set.toList) := by
  refine eq_of_mem_iff fun text => ?_
  rw [mem_ofProductions, mem_ofProductions, Words, Words, says_restrictAll_iff]

/-! ## What stays as it is -/

/-- A terminal of the production does not refuse all that the vocabulary says must not follow it,
and the sort of the production is not internal. -/
def Gains (v : Vocabulary) (cfg : Settings) (p : Production) : Prop :=
  cfg.isInternal p.sort = false ∧ ∃ t ∈ p.terminals, ∃ u ∈ v.followSet t.text, u ∉ t.follow

theorem map_restrictItem_eq_self_iff {items : List Item} :
    items.map v.restrictItem = items ↔ ∀ t ∈ items.filterMap Item.terminal?, v.Restricts t := by
  induction items with
  | nil => simp
  | cons item rest ih =>
    cases item with
    | terminal t => simp [restrictItem, restrictTerminal_eq_self_iff, Item.terminal?, ih]
    | nonTerminal s => simp [restrictItem, Item.terminal?, ih]

theorem restrict_eq_self_iff : v.restrict cfg p = p ↔ ¬ v.Gains cfg p := by
  by_cases hint : cfg.isInternal p.sort = true
  · simp [restrict, Gains, hint]
  · have hitems : v.restrict cfg p = p ↔ p.items.map v.restrictItem = p.items := by
      rw [restrict, if_neg hint, Production.ext_iff]
      simp
    rw [hitems, map_restrictItem_eq_self_iff]
    simp [Gains, Restricts, Production.terminals, hint]

theorem restrictModule?_eq_none_iff :
    v.restrictModule? cfg m = none ↔ ∀ p ∈ m.productions, v.restrict cfg p = p := by
  have hset : v.restrictModule? cfg m = none ↔ v.restrictAll cfg m.sentences = m.sentences := by
    simp [restrictModule?]
  rw [hset, restrictAll, OrdSet.map_eq_self_iff restrictSentence_restrictSentence]
  constructor
  · intro h p hp
    exact Sentence.production.inj (h _ (mem_productionsOf.1 hp))
  · intro h x hx
    cases x with
    | production p => exact congrArg Sentence.production (h p (mem_productionsOf.2 hx))
    | declaration s => rfl

/-- A module is copied as soon as one terminal gains a restriction. -/
theorem restrictModule?_of_gains (hp : p ∈ m.productions) (h : v.Gains cfg p) :
    v.restrictModule? cfg m = some { m with sentences := v.restrictAll cfg m.sentences } := by
  cases hcopy : v.restrictModule? cfg m with
  | none => exact absurd h (restrict_eq_self_iff.1 (restrictModule?_eq_none_iff.1 hcopy p hp))
  | some copy => rw [Synthesizer.restrictModule?_eq_some hcopy]

/-- **The follow pass is a closure operation, and it tells whether it did anything.**

* A restricted production is the production itself but for follow sets, and these only grow.
* Restricting again changes nothing, neither of a production nor of a set of sentences, and the
  restricted sentences have the same vocabulary.
* A module is left alone if and only if all of its productions stay as they are. Once a terminal of
  it gains a restriction it is copied, whatever becomes of its other sentences. -/
theorem restriction_is_closure (v : Vocabulary) (cfg : Settings) :
    (∀ p : Production, p.SameBut Terminal.Stricter (v.restrict cfg p) ∧
      v.restrict cfg (v.restrict cfg p) = v.restrict cfg p) ∧
    (∀ set : SentenceSet, v.restrictAll cfg (v.restrictAll cfg set) = v.restrictAll cfg set ∧
      ofProductions cfg (productionsOf (v.restrictAll cfg set).toList) =
        ofProductions cfg (productionsOf set.toList)) ∧
    ∀ m : Module,
      (v.restrictModule? cfg m = none ↔ ∀ p ∈ m.productions, v.restrict cfg p = p) ∧
      ∀ p ∈ m.productions, v.Gains cfg p →
        v.restrictModule? cfg m = some { m with sentences := v.restrictAll cfg m.sentences } := by
  refine ⟨fun p => ⟨?_, ?_⟩, fun set => ⟨?_, ?_⟩, fun m => ⟨?_, fun p hp hgains => ?_⟩⟩
  · exact sameBut_restrict v cfg p
  · exact restrict_restrict p
  · exact restrictAll_restrictAll set
  · exact ofProductions_restrictAll v cfg set
  · exact restrictModule?_eq_none_iff
  · exact restrictModule?_of_gains hp hgains

/-- Two productions that become one: the module is copied all the same. -/
example :
    let bare := Terminal.mk "=" ∅
    let guarded := Terminal.mk "=" (Catalog.ofList ["="])
    let m : Module := { name := "M", sentences := Catalog.ofList [
      .production (.ofRow ⟨"Op"⟩ (.terminal bare) []),
      .production (.ofRow ⟨"Op"⟩ (.terminal guarded) [])] }
    ((ofTexts ["=", "=="]).restrictModule? {} m).map (·.productions) =
      some [.ofRow ⟨"Op"⟩ (.terminal guarded) []] := by
  decide +kernel

end Vocabulary

end GrammarSynthesis
