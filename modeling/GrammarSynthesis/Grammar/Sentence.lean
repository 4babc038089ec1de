import GrammarSynthesis.Grammar.Production

/-!
# Sentences

A module declares productions and sorts. Sets of sentences are ordered, all productions before all
sort declarations, so a set has one form however it was put together.
-/
namespace GrammarSynthesis

inductive Sentence where
  | production (p : Production)
  /-- The sort exists, with or without productions. -/
  | declaration (sort : SortName)
  deriving DecidableEq, Repr

namespace Sentence

/-- Productions and declarations as the two sides of a sum. -/
def toSum : Sentence → Production ⊕ SortName
  | production p => .inl p
  | declaration s => .inr s

theorem toSum_inj {a b : Sentence} : a.toSum = b.toSum ↔ a = b := by
  cases a <;> cases b <;> simp [toSum]

instance : Ord Sentence := ⟨compareOn toSum⟩

instance : Std.TransOrd Sentence := inferInstanceAs (Std.TransCmp (compareOn toSum))

instance : Std.LawfulEqOrd Sentence where
  compare_self := compareOn_self
  eq_of_compare h := toSum_inj.1 (compareOn_eq_iff.1 h)

def production? : Sentence → Option Production
  | production p => some p
  | declaration _ => none

/-- The sort that the sentence defines. -/
def definedSort : Sentence → SortName
  | production p => p.sort
  | declaration s => s

def render : Sentence → String
  | production p => "syntax " ++ p.render
  | declaration s => "syntax " ++ s.name

end Sentence

abbrev SentenceSet := OrdSet Sentence

/-- The productions among sentences, in their order. -/
def productionsOf (l : List Sentence) : List Production := l.filterMap Sentence.production?

/-- The sorts that sentences define. -/
def definedSorts (l : List Sentence) : OrdSet SortName :=
  Catalog.ofList (l.map Sentence.definedSort)

theorem mem_productionsOf {l : List Sentence} {p : Production} :
    p ∈ productionsOf l ↔ .production p ∈ l := by
  simp only [productionsOf, List.mem_filterMap]
  constructor
  · intro hp
    rcases hp with ⟨_ | _, h, e⟩
    · cases e; exact h
    · cases e
  · exact fun h => ⟨_, h, rfl⟩

theorem mem_definedSorts {l : List Sentence} {s : SortName} :
    s ∈ definedSorts l ↔ ∃ x ∈ l, x.definedSort = s := by
  simp [definedSorts]

end GrammarSynthesis
