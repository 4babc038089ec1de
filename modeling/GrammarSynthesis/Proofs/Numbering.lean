import GrammarSynthesis.Grammar.SortNumbering
import GrammarSynthesis.Proofs.FirstOccurrences

/-!
# Numbered sorts and back

A numbering only grows: sorts are put at its end, so an index that was given out stays the index of
its sort. Sorts that are numbered and looked up again by their indices are the sorts that one began
with, each once.

* `sorts_assignList`: a numbering has the first occurrences of the sorts that were numbered;
* `idxOf_assignList`: numbering more sorts changes no index;
* `assignList_snd`: the indices given out are the indices of the sorts;
* `assignAll_snd`, `indexSet_assignAll`: a set that was given out is the set of the indices of its
  sorts, now and later;
* `intersects_indexSet_iff`: two sets of indices share a member if their sorts do;
* `lookupAll_eq`: the sorts of indices that were given out are found, and none fails;
* `nodup_sortsOf`: looking up a set of indices gives no sort twice;
* `mem_sortsOf_assignAll`: numbering sorts and looking them up loses none and brings in none.
-/
namespace GrammarSynthesis.SortNumbering

theorem index?_eq_some_iff {t : SortNumbering} {s : SortName} {i : Nat} :
    t.index? s = some i ↔ s ∈ t.sorts ∧ t.sorts.idxOf s = i := by
  have hidx : ∀ {j}, t.index? s = some j → t.sorts.idxOf s = j := by
    intro j h
    obtain ⟨hj, hs⟩ := List.getElem?_eq_some_iff.1 (index?_eq_some_iff_getElem?.1 h)
    rw [← hs, t.nodup.idxOf_getElem]
  rw [mem_sorts_iff]
  constructor
  · intro h
    exact ⟨⟨i, h⟩, hidx h⟩
  · intro h
    obtain ⟨⟨j, hj⟩, rfl⟩ := h
    rw [hidx hj, hj]

/-- What one assignment does: a sort that is new is put at the end. -/
theorem sorts_assign (t : SortNumbering) (s : SortName) :
    (t.assign s).1.sorts = (t.sorts ++ [s]).eraseDups := by
  rw [eraseDups_concat, eraseDups_of_nodup t.nodup]
  unfold assign
  split
  · rename_i i h
    rw [if_pos (mem_sorts_iff.2 ⟨i, h⟩)]
  · rename_i h
    rw [if_neg (index?_eq_none_iff.1 h)]

theorem assign_snd (t : SortNumbering) (s : SortName) :
    (t.assign s).2 = (t.assign s).1.sorts.idxOf s := by
  unfold assign
  split
  · rename_i i h
    exact (index?_eq_some_iff.1 h).2.symm
  · rename_i h
    simp [List.idxOf_append_of_notMem (index?_eq_none_iff.1 h), size]

/-- What is left behind when sorts are numbered: their first occurrences, behind the sorts that were
there before. -/
theorem sorts_assignList (t : SortNumbering) (l : List SortName) :
    (t.assignList l).1.sorts = (t.sorts ++ l).eraseDups := by
  induction l generalizing t with
  | nil =>
    rw [List.append_nil]
    exact (eraseDups_of_nodup t.nodup).symm
  | cons s rest ih =>
    show ((t.assign s).1.assignList rest).1.sorts = _
    rw [ih, sorts_assign, eraseDups_eraseDups_append, List.append_assoc, List.singleton_append]

theorem mem_assignList {t : SortNumbering} {l : List SortName} {x : SortName} :
    x ∈ (t.assignList l).1.sorts ↔ x ∈ t.sorts ∨ x ∈ l := by
  rw [sorts_assignList, List.mem_eraseDups, List.mem_append]

theorem idxOf_assignList {t : SortNumbering} {l : List SortName} {x : SortName}
    (hx : x ∈ t.sorts) : (t.assignList l).1.sorts.idxOf x = t.sorts.idxOf x := by
  obtain ⟨later, hlater⟩ := eraseDups_prefix t.sorts l
  rw [sorts_assignList, ← hlater, eraseDups_of_nodup t.nodup, List.idxOf_append_of_mem hx]

theorem assignList_snd (t : SortNumbering) (l : List SortName) :
    (t.assignList l).2 = l.map (t.assignList l).1.sorts.idxOf := by
  induction l generalizing t with
  | nil => rfl
  | cons s rest ih =>
    have hmem : s ∈ (t.assign s).1.sorts := by simp [sorts_assign]
    simp only [assignList, List.map_cons, ← ih]
    rw [idxOf_assignList hmem, assign_snd]

theorem mem_assignAll {t : SortNumbering} {l : List SortName} {x : SortName} :
    x ∈ (t.assignAll l).1.sorts ↔ x ∈ t.sorts ∨ x ∈ l := mem_assignList

/-! ## Sets of indices -/

theorem mem_indexSet {t : SortNumbering} {l : List SortName} {i : Nat} :
    i ∈ t.indexSet l ↔ ∃ s ∈ l, s ∈ t.sorts ∧ t.sorts.idxOf s = i := by
  simp only [indexSet, IndexSet.mem_ofList, List.mem_filterMap, index?_eq_some_iff]

theorem indexSet_append (t : SortNumbering) (l l' : List SortName) :
    t.indexSet (l ++ l') = t.indexSet l ∪ t.indexSet l' := by
  apply IndexSet.ext
  intro i
  simp only [IndexSet.mem_union, mem_indexSet, List.mem_append, or_and_right, exists_or]

theorem mem_assignAll_snd {t : SortNumbering} {l : List SortName} {i : Nat} :
    i ∈ (t.assignAll l).2 ↔ ∃ s ∈ l, (t.assignAll l).1.sorts.idxOf s = i := by
  rw [assignAll, IndexSet.mem_ofList, assignList_snd, List.mem_map]

/-- The set that is given out for some sorts is the set of their indices. -/
theorem assignAll_snd (t : SortNumbering) (l : List SortName) :
    (t.assignAll l).2 = (t.assignAll l).1.indexSet l := by
  apply IndexSet.ext
  intro i
  have hmem : ∀ s ∈ l, s ∈ (t.assignAll l).1.sorts := fun s hs => mem_assignAll.2 (.inr hs)
  rw [mem_assignAll_snd, mem_indexSet]
  exact exists_congr fun s => and_congr_right fun hs => (and_iff_right (hmem s hs)).symm

/-- Sorts that have an index keep it, whatever is numbered after them. -/
theorem indexSet_assignAll {t : SortNumbering} {l : List SortName} (h : ∀ s ∈ l, s ∈ t.sorts)
    (later : List SortName) : (t.assignAll later).1.indexSet l = t.indexSet l := by
  apply IndexSet.ext
  intro i
  rw [mem_indexSet, mem_indexSet]
  refine exists_congr fun s => and_congr_right fun hs => ?_
  have hlater : s ∈ (t.assignAll later).1.sorts := mem_assignAll.2 (.inl (h s hs))
  have hidx : (t.assignAll later).1.sorts.idxOf s = t.sorts.idxOf s := idxOf_assignList (h s hs)
  rw [and_iff_right hlater, and_iff_right (h s hs), hidx]

/-- Sets of indices meet where sorts do. -/
theorem intersects_indexSet_iff {t : SortNumbering} {l l' : List SortName} :
    (t.indexSet l).intersects (t.indexSet l') = true ↔ ∃ s ∈ t.sorts, s ∈ l ∧ s ∈ l' := by
  simp only [IndexSet.intersects_iff, mem_indexSet]
  constructor
  · intro h
    obtain ⟨i, ⟨s, hs, hmem, hi⟩, s', hs', -, hi'⟩ := h
    obtain rfl : s = s' := (List.idxOf_inj hmem).1 (hi.trans hi'.symm)
    exact ⟨s, hmem, hs, hs'⟩
  · intro h
    obtain ⟨s, hmem, hs, hs'⟩ := h
    exact ⟨_, ⟨s, hs, hmem, rfl⟩, s, hs', hmem, rfl⟩

/-! ## Looking up -/

theorem sortsOf_eq_pmap {t : SortNumbering} {set : IndexSet} (h : ∀ i ∈ set.members, i < t.size) :
    t.sortsOf set h = set.members.pmap (fun i (hi : i < t.size) => t.sorts.get ⟨i, hi⟩) h := by
  rw [List.pmap_eq_map_attach]
  rfl

theorem sortAt_of_lt {t : SortNumbering} {i : Nat} (h : i < t.size) :
    t.sortAt i = .ok (t.sorts.get ⟨i, h⟩) := by
  unfold sortAt
  rw [List.getElem?_eq_getElem h]
  rfl

theorem mapM_sortAt {t : SortNumbering} {l : List Nat} (h : ∀ i ∈ l, i < t.size) :
    l.mapM t.sortAt = .ok (l.pmap (fun i (hi : i < t.size) => t.sorts.get ⟨i, hi⟩) h) := by
  induction l with
  | nil => rfl
  | cons i rest ih =>
    obtain ⟨hi, hrest⟩ := List.forall_mem_cons.1 h
    rw [List.mapM_cons, sortAt_of_lt hi, ih hrest]
    rfl

theorem lookupAll_eq {t : SortNumbering} {set : IndexSet} (h : ∀ i ∈ set.members, i < t.size) :
    t.lookupAll set = .ok (t.sortsOf set h) := by
  rw [lookupAll, mapM_sortAt h, sortsOf_eq_pmap]

theorem nodup_sortsOf {t : SortNumbering} {set : IndexSet} (h : ∀ i ∈ set.members, i < t.size) :
    (t.sortsOf set h).Nodup := by
  rw [sortsOf_eq_pmap]
  refine List.Nodup.pmap (fun i hi j hj hij => ?_) (set.members_ascending.imp Nat.ne_of_lt)
  exact Fin.mk.inj (List.nodup_iff_injective_get.1 t.nodup hij)

theorem mem_sortsOf_assignAll {l : List SortName} {s : SortName} :
    s ∈ (empty.assignAll l).1.sortsOf (empty.assignAll l).2 (assignAll_lt empty l) ↔ s ∈ l := by
  have hindices : ∀ i, i ∈ (empty.assignAll l).2.members ↔
      ∃ x ∈ l, (empty.assignAll l).1.sorts.idxOf x = i :=
    fun i => IndexSet.mem_members.trans mem_assignAll_snd
  have hmem : ∀ x ∈ l, x ∈ (empty.assignAll l).1.sorts := fun x hx =>
    mem_assignAll.2 (.inr hx)
  simp only [sortsOf, List.mem_map, List.mem_attach, true_and, Subtype.exists, List.get_eq_getElem]
  constructor
  · intro h
    obtain ⟨i, hi, rfl⟩ := h
    obtain ⟨x, hx, rfl⟩ := (hindices i).1 hi
    rw [List.getElem_idxOf (List.idxOf_lt_length_of_mem (hmem x hx))]
    exact hx
  · intro hs
    exact ⟨_, (hindices _).2 ⟨s, hs, rfl⟩, List.getElem_idxOf _⟩

end GrammarSynthesis.SortNumbering
