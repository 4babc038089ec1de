import GrammarSynthesis.Order

/-!
# Sorts

A sort is a syntactic category. Sorts are known by their names: two sorts with one name are the same
sort, and sorts are ordered by name.
-/
namespace GrammarSynthesis

structure SortName where
  name : String
  deriving DecidableEq, Repr, Inhabited

namespace SortName

instance : ToString SortName := ⟨name⟩

instance : Ord SortName := ⟨compareOn name⟩

instance : Std.TransOrd SortName := inferInstanceAs (Std.TransCmp (compareOn name))

instance : Std.LawfulEqOrd SortName where
  compare_self := compareOn_self
  eq_of_compare {a b} h := by
    cases a; cases b
    exact congrArg mk (compareOn_eq_iff.1 h)

/-- The name begins with the character. -/
def startsWith (s : SortName) (c : Char) : Bool := s.name.toList.head? == some c

end SortName

end GrammarSynthesis
