import Mathlib.Computability.ContextFreeGrammar
import GrammarSynthesis.Proofs.CellKinds
import GrammarSynthesis.Proofs.StageSentences
import GrammarSynthesis.Sample.Lambda

/-!
# The language of loosened cells

A loosened cell has optional dots inside its brackets, and a composite one has a bag between them in
the place of its cells. A rule may still write the cell out in full: the dots may be left out, and
a bag may be any row of cells, since each sort of cells has its bridge. So loosening takes nothing
from the language of any sort.

Sentences are read as a context-free grammar here: follow sets are left aside, and a terminal
without text says nothing.

* `derives_of_simulation`: a grammar derives all that another derives if it derives its rules;
* `derives_bag_of_row`: a bag may be any row of what single bags may be;
* `derives_loosened`: a loosened cell may be what the cell was;
* `loosening_enlarges`: loosened sentences derive all that the sentences derive.
-/
namespace GrammarSynthesis

/-! ## Sentences as a grammar -/

/-- What an item stands for in a derivation. -/
def Item.yield : Item → List (Symbol String SortName)
  | .terminal t => if t.text = "" then [] else [.terminal t.text]
  | .nonTerminal s => [.nonterminal s]

/-- What a row of items stands for. -/
def rowYield (items : List Item) : List (Symbol String SortName) := items.flatMap Item.yield

/-- The rule of a production puts what its items stand for in the place of its sort. -/
def Production.rule (p : Production) : ContextFreeRule String SortName where
  input := p.sort
  output := rowYield p.items

/-- The grammar of some sentences that starts with a sort. -/
abbrev grammarOf (set : SentenceSet) (start : SortName) : ContextFreeGrammar String where
  NT := SortName
  initial := start
  rules := ((productionsOf set.toList).map Production.rule).toFinset

theorem mem_rules {set : SentenceSet} {start : SortName} {r : ContextFreeRule String SortName} :
    r ∈ (grammarOf set start).rules ↔ ∃ p, .production p ∈ set ∧ p.rule = r := by
  simp only [List.mem_toFinset, List.mem_map, mem_productionsOf, Catalog.mem_toList]

section Derivations

variable {set old new : SentenceSet} {start : SortName} {u u' v v' : List (Symbol String SortName)}

theorem derives_of_mem {p : Production} (hp : .production p ∈ set) :
    (grammarOf set start).Derives [.nonterminal p.sort] (rowYield p.items) :=
  ContextFreeGrammar.Produces.single
    ⟨p.rule, mem_rules.2 ⟨p, hp, rfl⟩, ContextFreeRule.Rewrites.input_output⟩

theorem derives_append (hu : (grammarOf set start).Derives u u')
    (hv : (grammarOf set start).Derives v v') :
    (grammarOf set start).Derives (u ++ v) (u' ++ v') :=
  (hu.append_right v).trans (hv.append_left u')

/-- A grammar that derives the rules of another derives all that the other derives. -/
theorem derives_of_simulation
    (h : ∀ p, .production p ∈ old →
      (grammarOf new start).Derives [.nonterminal p.sort] (rowYield p.items))
    (huv : (grammarOf old start).Derives u v) : (grammarOf new start).Derives u v := by
  induction huv with
  | refl => exact .refl _
  | tail _ hstep ih =>
    obtain ⟨r, hr, hrewrites⟩ := hstep
    obtain ⟨p, hp, rfl⟩ := mem_rules.1 hr
    obtain ⟨before, after, rfl, rfl⟩ := hrewrites.exists_parts
    exact ih.trans (((h p hp).append_left before).append_right after)

end Derivations

/-! ## Bags and dots -/

/-- The core module of the base definition, unless a marker has its name. -/
theorem Settings.get?_coreModule {cfg : Settings}
    (h : ∀ entry ∈ cfg.markers, entry.2 ≠ cfg.coreModule) :
    cfg.standardBase.get? cfg.coreModule = some cfg.coreModuleBody := by
  have hmarkers : cfg.markerModules.reverse.find? (fun m => m.name = cfg.coreModule) = none := by
    rw [List.find?_eq_none]
    intro m hm
    obtain ⟨entry, hentry, rfl⟩ := List.mem_map.1 (List.mem_reverse.1 hm)
    exact fun hname => h entry hentry (of_decide_eq_true hname)
  have hcore : cfg.standardBase.own.find? cfg.coreModule = some cfg.coreModuleBody := by
    rw [standardBase, Catalog.find?_ofList, List.reverse_cons, List.reverse_cons,
      List.append_assoc, List.find?_append, hmarkers, Option.none_or]
    exact List.find?_cons_of_pos (decide_eq_true rfl)
  rw [Definition.get?, Definition.layers, List.findSome?_cons, hcore]

section Core

variable {cfg : Settings} {set : SentenceSet} {start : SortName}
  (hcore : ∀ s ∈ cfg.coreModuleBody.sentences, s ∈ set)
include hcore

/-- Dots may be left out. -/
theorem derives_noDots : (grammarOf set start).Derives [.nonterminal cfg.sorts.dots] [] := by
  have hmem := hcore (Settings.labelled cfg.sorts.dots (.ofText "") [] "#noDots")
    (by simp [Settings.coreModuleBody])
  exact derives_of_mem hmem

theorem derives_bag_cell :
    (grammarOf set start).Derives [.nonterminal cfg.sorts.bag] [.nonterminal cfg.sorts.cell] := by
  have hmem := hcore (.production (.injection cfg.sorts.bag cfg.sorts.cell))
    (by simp [Settings.coreModuleBody])
  exact derives_of_mem hmem

theorem derives_bag_bag : (grammarOf set start).Derives [.nonterminal cfg.sorts.bag]
    [.nonterminal cfg.sorts.bag, .nonterminal cfg.sorts.bag] := by
  have hmem := hcore (Settings.labelled cfg.sorts.bag (.nonTerminal cfg.sorts.bag)
    [.nonTerminal cfg.sorts.bag] "#cells") (by simp [Settings.coreModuleBody])
  exact derives_of_mem hmem

/-- A bag may be any row, not empty, of what single bags may be. -/
theorem derives_bag_of_row {items : List Item} (hne : items ≠ [])
    (hitems : ∀ item ∈ items,
      (grammarOf set start).Derives [.nonterminal cfg.sorts.bag] item.yield) :
    (grammarOf set start).Derives [.nonterminal cfg.sorts.bag] (rowYield items) := by
  induction items with
  | nil => exact absurd rfl hne
  | cons item rest ih =>
    obtain ⟨hitem, hrest⟩ := List.forall_mem_cons.1 hitems
    cases rest with
    | nil =>
      have hrow : rowYield [item] = item.yield := List.append_nil _
      rw [hrow]
      exact hitem
    | cons next rest =>
      -- the bag is split: one for this item, one for the rest of the row
      have hrow := ih (List.cons_ne_nil next rest) hrest
      exact (derives_bag_bag hcore).trans (derives_append hitem hrow)

end Core

/-! ## Cells -/

namespace CellKinds

variable {cfg : Settings} {set : SentenceSet} {kinds : CellKinds} {start : SortName}

/-- Terms of the sort may stand in a bag: they are bags or cells, those of a single sort of cells or
of fragments among them. -/
def Cellular (cfg : Settings) (set : SentenceSet) (s : SortName) : Prop :=
  s = cfg.sorts.bag ∨ s = cfg.sorts.cell ∨ ∃ p, .production p ∈ set ∧ p.sort = s ∧
    (p.hasAttribute cfg.keys.cell = true ∨ p.hasAttribute cfg.keys.cellFragment = true)

/-- Between the brackets stand sorts, one at least, whose terms may stand in a bag. -/
structure HoldsCells (cfg : Settings) (set : SentenceSet) (p : Production) : Prop where
  nonempty : p.content ≠ []
  cells : ∀ item ∈ p.content, ∃ s, item = .nonTerminal s ∧ Cellular cfg set s

instance (cfg : Settings) (set : SentenceSet) (s : SortName) : Decidable (Cellular cfg set s) :=
  decidable_of_iff (s = cfg.sorts.bag ∨ s = cfg.sorts.cell ∨ ∃ p ∈ productionsOf set.toList,
      p.sort = s ∧
        (p.hasAttribute cfg.keys.cell = true ∨ p.hasAttribute cfg.keys.cellFragment = true)) <| by
    simp only [mem_productionsOf]
    rfl

instance (cfg : Settings) (set : SentenceSet) (p : Production) :
    Decidable (HoldsCells cfg set p) :=
  decidable_of_iff
    (p.content ≠ [] ∧ ∀ item ∈ p.content, ∃ s ∈ item.sort?, Cellular cfg set s) <| by
    have hsort : ∀ item : Item, ∀ s, s ∈ item.sort? ↔ item = .nonTerminal s := fun item s => by
      cases item <;> simp [Item.sort?]
    simp only [hsort]
    exact ⟨fun h => ⟨h.1, h.2⟩, fun h => ⟨h.nonempty, h.cells⟩⟩

/-- A loosened cell may be what the cell was, if its body may be what stood between the brackets. -/
theorem derives_loosened (hcore : ∀ s ∈ cfg.coreModuleBody.sentences, s ∈ set)
    {p q : Production} (hq : loosen cfg kinds p = .ok q) (hmem : .production q ∈ set)
    (hbody : (grammarOf set start).Derives (body cfg kinds p).yield (rowYield p.content)) :
    (grammarOf set start).Derives [.nonterminal p.sort] (rowYield p.items) := by
  unfold loosen at hq
  split at hq
  · cases hq
  · rename_i first last hbrackets
    cases hq
    have hrule := (derives_of_mem hmem : (grammarOf set start).Derives _ _)
    have hdots := (derives_noDots hcore : (grammarOf set start).Derives _ _)
    -- the brackets stay, both dots are left out, and the body turns into the content
    have hsteps := derives_append (.refl (Item.terminal first).yield) (derives_append hdots
      (derives_append hbody (derives_append hdots (.refl (Item.terminal last).yield))))
    rw [Production.brackets?_eq_some_iff.1 hbrackets]
    simp only [rowYield, List.flatMap_cons, List.flatMap_append, List.flatMap_nil,
      List.append_nil] at hrule hsteps ⊢
    exact hrule.trans hsteps

section Loosened

variable {new base : SentenceSet} (hnew : loosenAll cfg kinds set = .ok new)
  (hcore : ∀ s ∈ cfg.coreModuleBody.sentences, s ∈ base)
include hnew hcore

/-- A bag may be a term of each sort whose terms may stand in it: cells and fragments have their
bridges. -/
theorem derives_bag_cellular {s : SortName} (hs : Cellular cfg set s) :
    (grammarOf (new ∪ base) start).Derives [.nonterminal cfg.sorts.bag] [.nonterminal s] := by
  have hunion : ∀ x ∈ cfg.coreModuleBody.sentences, x ∈ new ∪ base := fun x hx =>
    OrdSet.mem_union.2 (.inr (hcore x hx))
  rcases hs with rfl | rfl | ⟨p, hp, rfl, htag⟩
  · exact .refl _
  · exact derives_bag_cell hunion
  · have hbridge : bridge cfg p.sort ∈ new ∪ base :=
      OrdSet.mem_union.2 (.inl (bridge_mem_loosenAll hnew hp htag))
    exact (derives_bag_cell hunion).trans (derives_of_mem hbridge)

/-- What stands between the brackets of a cell may stand between its dots. -/
theorem derives_body (hkinds : ofSentences? cfg set.toList = some kinds) {p : Production}
    (hp : .production p ∈ set) (hcell : p.hasAttribute cfg.keys.cell = true)
    (hholds : kinds.kind? p.sort = some .composite → HoldsCells cfg set p) :
    (grammarOf (new ∪ base) start).Derives (body cfg kinds p).yield (rowYield p.content) := by
  have hmem : p ∈ cellProductions cfg set.toList := mem_cellProductions.2 ⟨hp, hcell⟩
  cases hkind : kinds.kind? p.sort with
  | none => exact absurd rfl ((kind?_eq_none_iff hkinds).1 hkind p hmem)
  | some kind =>
    cases kind with
    | leaf =>
      obtain ⟨item, hitem⟩ := List.length_eq_one_iff.1 (length_content_of_leaf hkinds hmem hkind)
      have hbody : body cfg kinds p = item := by rw [body, hkind, hitem]
      rw [hbody, hitem, rowYield, List.flatMap_singleton]
    | composite =>
      have hbody : body cfg kinds p = .nonTerminal cfg.sorts.bag := by rw [body, hkind]
      obtain ⟨hne, hcells⟩ := hholds hkind
      rw [hbody]
      refine derives_bag_of_row (fun x hx => OrdSet.mem_union.2 (.inr (hcore x hx))) hne
        fun item hitem => ?_
      obtain ⟨s, rfl, hs⟩ := hcells item hitem
      exact derives_bag_cellular hnew hcore hs

end Loosened

/-- **Loosening cells takes nothing from the language.** Let each production of a composite sort of
cells hold a row of sorts whose terms may stand in a bag. Then what a sort derives with the
sentences and those of the core module, it derives with the loosened sentences as well. -/
theorem loosening_enlarges {new base : SentenceSet}
    (hkinds : ofSentences? cfg set.toList = some kinds)
    (hnew : loosenAll cfg kinds set = .ok new)
    (hholds : ∀ p, .production p ∈ set → p.hasAttribute cfg.keys.cell = true →
      kinds.kind? p.sort = some .composite → HoldsCells cfg set p)
    (hcore : ∀ s ∈ cfg.coreModuleBody.sentences, s ∈ base)
    {w : List (Symbol String SortName)} (h : (grammarOf (set ∪ base) start).Generates w) :
    (grammarOf (new ∪ base) start).Generates w := by
  refine derives_of_simulation (fun p hp => ?_) h
  rcases OrdSet.mem_union.1 hp with hp | hp
  · cases hcell : p.hasAttribute cfg.keys.cell with
    | false =>
      have hkept : .production p ∈ new := mem_loosenAll_of_kept hnew hp fun q e => by
        cases e
        exact hcell
      exact derives_of_mem (OrdSet.mem_union.2 (.inl hkept))
    | true =>
      obtain ⟨q, hq, hmem⟩ := exists_loosened hnew hp hcell
      exact derives_loosened (fun x hx => OrdSet.mem_union.2 (.inr (hcore x hx))) hq
        (OrdSet.mem_union.2 (.inl hmem))
        (derives_body hnew hcore hkinds hp hcell (hholds p hp hcell))
  · exact derives_of_mem (OrdSet.mem_union.2 (.inr hp))

/-- The sample's configuration, written out in full over the core module of the base definition. -/
theorem loosening_enlarges_lambda :
    ∃ kinds ∈ ofSentences? {} Sample.lambdaModule.sentences.toList,
      ∃ new, loosenAll {} kinds Sample.lambdaModule.sentences = .ok new ∧
      ∃ core, (Settings.standardBase {}).get? "K" = some core ∧
        (grammarOf (new ∪ core.sentences) ⟨"TCell"⟩).Generates
          [.terminal "<T>", .terminal "<k>", .nonterminal ⟨"K"⟩, .terminal "</k>",
            .terminal "<env>", .nonterminal ⟨"Map"⟩, .terminal "</env>", .terminal "</T>"] := by
  have run : ∃ kinds ∈ ofSentences? {} Sample.lambdaModule.sentences.toList,
      (∀ p ∈ cellProductions {} Sample.lambdaModule.sentences.toList,
        kinds.kind? p.sort = some .composite → HoldsCells {} Sample.lambdaModule.sentences p) ∧
      ∃ new, loosenAll {} kinds Sample.lambdaModule.sentences = .ok new ∧ new.isEmpty = false := by
    decide +kernel
  obtain ⟨kinds, hkinds, hholds, new, hnew, -⟩ := run
  refine ⟨kinds, hkinds, new, hnew, _, Settings.get?_coreModule (by decide), ?_⟩
  refine loosening_enlarges hkinds hnew
    (fun p hp hcell => hholds p (mem_cellProductions.2 ⟨hp, hcell⟩)) (fun s hs => hs) ?_
  have derives : ∀ p, .production p ∈ Sample.lambdaModule.sentences →
      (grammarOf (Sample.lambdaModule.sentences ∪ (Settings.coreModuleBody {}).sentences)
        ⟨"TCell"⟩).Derives [.nonterminal p.sort] (rowYield p.items) := fun p hp =>
    derives_of_mem (OrdSet.mem_union.2 (.inl hp))
  have top := derives (.ofRow ⟨"TCell"⟩ (Sample.word "<T>") [Sample.sort "KCell",
    Sample.sort "EnvCell", Sample.word "</T>"] "<T>" Sample.cellTag) (by decide +kernel)
  have k := derives (.ofRow ⟨"KCell"⟩ (Sample.word "<k>") [Sample.sort "K", Sample.word "</k>"]
    "<k>" Sample.cellTag) (by decide +kernel)
  have env := derives (.ofRow ⟨"EnvCell"⟩ (Sample.word "<env>") [Sample.sort "Map",
    Sample.word "</env>"] "<env>" Sample.cellTag) (by decide +kernel)
  exact top.trans (derives_append (.refl [.terminal "<T>"])
    (derives_append k (derives_append env (.refl [.terminal "</T>"]))))

end CellKinds

end GrammarSynthesis
