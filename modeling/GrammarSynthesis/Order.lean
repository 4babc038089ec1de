import GrammarSynthesis.Catalog

/-!
# Orders put together from others

Sentences, productions and their parts compare field by field. `compareLex` and `compareOn` of the
core library chain the fields, and `compareSum` orders two kinds of values, all of the first kind
before all of the second. Each of these orders is total, and only equal values compare equal.
-/
namespace GrammarSynthesis

theorem compareOn_eq_iff {α β : Type} [Ord β] [Std.LawfulEqOrd β] {f : α → β} {a b : α} :
    compareOn f a b = .eq ↔ f a = f b := by
  simp [compareOn]

theorem compareOn_self {α β : Type} [Ord β] [Std.ReflOrd β] {f : α → β} {a : α} :
    compareOn f a a = .eq :=
  Std.ReflOrd.compare_self

/-- A list that ascends does not repeat itself. -/
theorem nodup_of_ascending {α β : Type} [Ord β] [Std.ReflOrd β] {f : α → β} {l : List α}
    (h : l.Pairwise fun a b => compare (f a) (f b) = .lt) : l.Nodup := by
  refine h.imp fun {a b} hlt hab => ?_
  rw [hab, Std.ReflOrd.compare_self (a := f b)] at hlt
  cases hlt

section Kinds

variable {α β : Type} [Ord α] [Ord β]

/-- Values of the first kind come before those of the second. -/
def compareSum : α ⊕ β → α ⊕ β → Ordering
  | .inl a, .inl b => compare a b
  | .inl _, .inr _ => .lt
  | .inr _, .inl _ => .gt
  | .inr a, .inr b => compare a b

instance sumOrd : Ord (α ⊕ β) := ⟨compareSum⟩

instance sumTransOrd [Std.TransOrd α] [Std.TransOrd β] : Std.TransOrd (α ⊕ β) where
  eq_swap := by
    rintro (a | a) (b | b)
    · exact (Std.OrientedOrd.eq_swap : compare a b = (compare b a).swap)
    · rfl
    · rfl
    · exact (Std.OrientedOrd.eq_swap : compare a b = (compare b a).swap)
  isLE_trans := by
    rintro (a | a) (b | b) (c | c) <;> simp only [compare, compareSum] <;> try simp
    · exact Std.TransCmp.isLE_trans
    · exact Std.TransCmp.isLE_trans

instance sumLawfulEqOrd [Std.LawfulEqOrd α] [Std.LawfulEqOrd β] : Std.LawfulEqOrd (α ⊕ β) where
  compare_self := by
    rintro (a | a)
    · exact Std.ReflOrd.compare_self (α := α)
    · exact Std.ReflOrd.compare_self (α := β)
  eq_of_compare := by rintro (a | a) (b | b) <;> simp [compare, compareSum]

end Kinds

/-! ## Catalogs compare as lists -/

namespace Catalog

variable {α κ : Type} [Ord κ] {key : α → κ} [Ord α]

instance : Ord (Catalog key) := ⟨compareOn toList⟩

instance [Std.TransOrd α] : Std.TransOrd (Catalog key) :=
  inferInstanceAs (Std.TransCmp (compareOn toList))

instance [Std.TransOrd α] [Std.LawfulEqOrd α] : Std.LawfulEqOrd (Catalog key) where
  compare_self := compareOn_self
  eq_of_compare h := toList_inj.1 (compareOn_eq_iff.1 h)

end Catalog

end GrammarSynthesis
