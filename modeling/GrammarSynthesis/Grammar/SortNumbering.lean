import GrammarSynthesis.Grammar.Fault
import GrammarSynthesis.Grammar.SortName
import GrammarSynthesis.IndexSet

/-!
# Numbered sorts

Sorts are numbered from 0 in the order in which they are first seen, so that sets of sorts can be
kept as sets of indices. An index once given out is never changed. A numbering is kept both ways,
as the list of its sorts and as a catalog of their indices, and the one is always the inverse of the
other.

Results:
* `SortNumbering.index?_eq_some_iff_getElem?` — a sort has an index if it stands there;
* `SortNumbering.nodup` — no sort has two indices;
* `SortNumbering.assignAll_lt` — a numbering has a sort for every index in a set that it gave out,
  so `SortNumbering.sortsOf` finds them all.
-/
namespace GrammarSynthesis

/-- Sorts by index and indices by sort. -/
structure SortNumbering where
  sorts : List SortName := []
  indices : Catalog (Prod.fst : SortName × Nat → SortName) := ∅
  inverse : ∀ s i, (s, i) ∈ indices ↔ sorts[i]? = some s := by simp
  deriving DecidableEq, Repr

namespace SortNumbering

def empty : SortNumbering := {}

instance : Inhabited SortNumbering := ⟨empty⟩

def size (t : SortNumbering) : Nat := t.sorts.length

/-- The index of a sort that has one. -/
def index? (t : SortNumbering) (s : SortName) : Option Nat := (t.indices.find? s).map Prod.snd

/-- The sort at an index. -/
def sortAt (t : SortNumbering) (i : Nat) : Except Fault SortName :=
  match t.sorts[i]? with
  | some s => .ok s
  | none => .error (.indexOutOfBounds t.size i)

theorem index?_eq_some_iff_getElem? {t : SortNumbering} {s : SortName} {i : Nat} :
    t.index? s = some i ↔ t.sorts[i]? = some s := by
  rw [← t.inverse, index?, Option.map_eq_some_iff]
  simp only [Catalog.find?_eq_some_iff, Prod.exists, and_assoc]
  constructor
  · intro h
    obtain ⟨x, j, hmem, rfl, rfl⟩ := h
    exact hmem
  · intro h
    exact ⟨s, i, h, rfl, rfl⟩

theorem mem_sorts_iff {t : SortNumbering} {s : SortName} :
    s ∈ t.sorts ↔ ∃ i, t.index? s = some i := by
  simp only [index?_eq_some_iff_getElem?, List.mem_iff_getElem?]

theorem index?_eq_none_iff {t : SortNumbering} {s : SortName} :
    t.index? s = none ↔ s ∉ t.sorts := by
  rw [mem_sorts_iff, Option.eq_none_iff_forall_ne_some, not_exists]

theorem nodup (t : SortNumbering) : t.sorts.Nodup := by
  refine List.pairwise_iff_getElem.2 fun i j hi hj hlt heq => ?_
  have hfirst : t.index? t.sorts[i] = some i :=
    index?_eq_some_iff_getElem?.2 (List.getElem?_eq_getElem hi)
  have hsecond : t.index? t.sorts[j] = some j :=
    index?_eq_some_iff_getElem?.2 (List.getElem?_eq_getElem hj)
  rw [heq, hsecond] at hfirst
  exact Nat.ne_of_gt hlt (Option.some.inj hfirst)

/-- A new sort may be put at the end: it is not there, and its index is not taken. -/
theorem inverse_concat {t : SortNumbering} {s : SortName} (hnew : t.index? s = none) (x : SortName)
    (i : Nat) :
    (x, i) ∈ t.indices.insert (s, t.size) ↔ (t.sorts ++ [s])[i]? = some x := by
  have hother : ∀ {i}, t.sorts[i]? = some x → x ≠ s := fun hx e =>
    index?_eq_none_iff.1 hnew (e ▸ List.mem_of_getElem? hx)
  rw [Catalog.mem_insert, t.inverse, List.getElem?_append, Prod.mk.injEq, size]
  split
  · rename_i hlt
    constructor
    · intro h
      rcases h with ⟨-, rfl⟩ | ⟨h, -⟩
      · exact absurd hlt (Nat.lt_irrefl _)
      · exact h
    · intro h
      exact .inr ⟨h, hother h⟩
  · rename_i hge
    have hnone : t.sorts[i]? = none := List.getElem?_eq_none (Nat.le_of_not_lt hge)
    rw [hnone, List.getElem?_singleton]
    constructor
    · intro h
      rcases h with ⟨rfl, rfl⟩ | ⟨h, -⟩
      · simp
      · cases h
    · intro h
      split at h
      · cases h
        exact .inl ⟨rfl, by omega⟩
      · cases h

/-- The numbering with `s` in it, and the index of `s`: a new sort gets the next index. -/
def assign (t : SortNumbering) (s : SortName) : SortNumbering × Nat :=
  match h : t.index? s with
  | some i => (t, i)
  | none =>
    ({ sorts := t.sorts ++ [s]
       indices := t.indices.insert (s, t.size)
       inverse := inverse_concat h },
     t.size)

/-- Number sorts from left to right. -/
def assignList (t : SortNumbering) : List SortName → SortNumbering × List Nat
  | [] => (t, [])
  | s :: rest =>
    let (t₁, i) := t.assign s
    let (t₂, is) := t₁.assignList rest
    (t₂, i :: is)

/-- Number sorts from left to right, and give the set of their indices. -/
def assignAll (t : SortNumbering) (l : List SortName) : SortNumbering × IndexSet :=
  let (t, is) := t.assignList l
  (t, IndexSet.ofList is)

/-- The indices of those sorts that have one. -/
def indexSet (t : SortNumbering) (l : List SortName) : IndexSet :=
  IndexSet.ofList (l.filterMap t.index?)

/-- The sorts of a set of indices, in index order. -/
def sortsOf (t : SortNumbering) (set : IndexSet) (h : ∀ i ∈ set.members, i < t.size) :
    List SortName :=
  set.members.attach.map fun ⟨i, hi⟩ => t.sorts.get ⟨i, h i hi⟩

/-- The sorts of a set of indices, in index order; the first unknown index is refused. -/
def lookupAll (t : SortNumbering) (set : IndexSet) : Except Fault (List SortName) :=
  set.members.mapM t.sortAt

/-! ## Indices stay in range -/

theorem lt_of_index? {t : SortNumbering} {s : SortName} {i : Nat} (h : t.index? s = some i) :
    i < t.size :=
  (List.getElem?_eq_some_iff.1 (index?_eq_some_iff_getElem?.1 h)).1

theorem assign_lt (t : SortNumbering) (s : SortName) : (t.assign s).2 < (t.assign s).1.size := by
  unfold assign
  split
  · exact lt_of_index? ‹_›
  · simp [size]

theorem size_le_assign (t : SortNumbering) (s : SortName) : t.size ≤ (t.assign s).1.size := by
  unfold assign
  split <;> simp [size]

theorem size_le_assignList (t : SortNumbering) (l : List SortName) :
    t.size ≤ (t.assignList l).1.size := by
  induction l generalizing t with
  | nil => exact Nat.le_refl _
  | cons s rest ih => exact Nat.le_trans (t.size_le_assign s) (ih _)

theorem assignList_lt (t : SortNumbering) (l : List SortName) :
    ∀ i ∈ (t.assignList l).2, i < (t.assignList l).1.size := by
  induction l generalizing t with
  | nil => simp [assignList]
  | cons s rest ih =>
    simp only [assignList, List.mem_cons, forall_eq_or_imp]
    exact ⟨Nat.lt_of_lt_of_le (t.assign_lt s) (size_le_assignList _ rest), ih _⟩

theorem assignAll_lt (t : SortNumbering) (l : List SortName) :
    ∀ i ∈ (t.assignAll l).2.members, i < (t.assignAll l).1.size := by
  intro i hi
  simp only [assignAll, IndexSet.mem_members, IndexSet.mem_ofList] at hi
  exact t.assignList_lt l i hi

end SortNumbering

end GrammarSynthesis
