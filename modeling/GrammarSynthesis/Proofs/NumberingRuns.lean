import Mathlib.Data.List.Sort
import GrammarSynthesis.Proofs.FirstOccurrences
import GrammarSynthesis.Proofs.Numbering
import GrammarSynthesis.Proofs.Outcome

/-!
# Runs of a numbering

Sorts are numbered one at a time or many at once, in calls that follow each other and may ask for
the same sorts again. What such a run leaves behind is told by the sorts that it asked for, all in a
row: the numbering holds their first occurrences. So it only ever grows at its end, and what was
read from it before stays true.

* `sorts_apply`, `sorts_after`: what one call leaves behind, and what a run does;
* `answers_eq`: the indices that a run gives out;
* `index?_after`, `lookupAll_after`: later calls change no index and the sorts of no set;
* `intersects_indexSet_after_iff`: sets of indices meet where sorts do, whenever they were made;
* `run_is_growing_bijection`: all of this for a run that begins with an empty numbering.
-/
namespace GrammarSynthesis.SortNumbering

/-! ## Calls -/

/-- A call that asks for the indices of sorts and puts those that are new into the numbering. -/
inductive Call where
  | assign (s : SortName)
  | assignAll (l : List SortName)
  deriving DecidableEq, Repr

namespace Call

/-- The sorts that the call asks for. -/
def sorts : Call → List SortName
  | assign s => [s]
  | assignAll l => l

def apply (t : SortNumbering) : Call → SortNumbering
  | assign s => (t.assign s).1
  | assignAll l => (t.assignAll l).1

/-- The indices that the call gives out, in this order. -/
def answers (t : SortNumbering) : Call → List Nat
  | assign s => [(t.assign s).2]
  | assignAll l => (t.assignList l).2

end Call

/-- The numbering after calls, made one after the other. -/
def after (t : SortNumbering) (calls : List Call) : SortNumbering := calls.foldl Call.apply t

/-- All sorts that calls ask for. -/
def requested (calls : List Call) : List SortName := calls.flatMap Call.sorts

/-- All indices that calls give out. -/
def answers (t : SortNumbering) : List Call → List Nat
  | [] => []
  | c :: rest => c.answers t ++ (c.apply t).answers rest

variable {t : SortNumbering} {calls : List Call} {s : SortName} {i : Nat}

/-! ## What is left behind -/

/-- A call puts its sorts at the end, as far as they are new. -/
theorem sorts_apply (t : SortNumbering) (c : Call) :
    (c.apply t).sorts = (t.sorts ++ c.sorts).eraseDups := by
  cases c with
  | assign s => exact sorts_assign t s
  | assignAll l => exact sorts_assignList t l

/-- A run leaves the first occurrences of all sorts that it asked for, behind those that were there
before. -/
theorem sorts_after (t : SortNumbering) (calls : List Call) :
    (t.after calls).sorts = (t.sorts ++ requested calls).eraseDups := by
  induction calls generalizing t with
  | nil =>
    rw [requested, List.flatMap_nil, List.append_nil]
    exact (eraseDups_of_nodup t.nodup).symm
  | cons c rest ih =>
    show ((c.apply t).after rest).sorts = _
    rw [ih, sorts_apply, eraseDups_eraseDups_append, List.append_assoc]
    rfl

theorem sorts_prefix (t : SortNumbering) (calls : List Call) :
    t.sorts <+: (t.after calls).sorts := by
  have hprefix := eraseDups_prefix t.sorts (requested calls)
  rwa [eraseDups_of_nodup t.nodup, ← sorts_after] at hprefix

theorem after_append (t : SortNumbering) (calls later : List Call) :
    t.after (calls ++ later) = (t.after calls).after later :=
  List.foldl_append

/-! ## Indices -/

theorem sortAt_eq_ok_iff : t.sortAt i = .ok s ↔ t.sorts[i]? = some s := by
  unfold sortAt
  split
  · rename_i x hx
    rw [hx, Except.ok.injEq, Option.some.injEq]
  · rename_i hnone
    rw [hnone]
    constructor <;> intro h <;> cases h

theorem sortAt_after (h : t.sortAt i = .ok s) (calls : List Call) :
    (t.after calls).sortAt i = .ok s := by
  obtain ⟨rest, hrest⟩ := sorts_prefix t calls
  have hs := sortAt_eq_ok_iff.1 h
  have hi : i < t.sorts.length := (List.getElem?_eq_some_iff.1 hs).1
  rw [sortAt_eq_ok_iff, ← hrest, List.getElem?_append_left hi, hs]

theorem index?_eq_some_iff_sortAt : t.index? s = some i ↔ t.sortAt i = .ok s :=
  index?_eq_some_iff_getElem?.trans sortAt_eq_ok_iff.symm

/-- An index that a sort has is its index for good. -/
theorem index?_after (h : t.index? s = some i) (calls : List Call) :
    (t.after calls).index? s = some i :=
  index?_eq_some_iff_sortAt.2 (sortAt_after (index?_eq_some_iff_sortAt.1 h) calls)

theorem answers_call (t : SortNumbering) (c : Call) :
    c.answers t = c.sorts.map (c.apply t).sorts.idxOf := by
  cases c with
  | assign s => exact congrArg (fun i => [i]) (assign_snd t s)
  | assignAll l => exact assignList_snd t l

/-- The indices that are given out are those that the sorts have at the end. -/
theorem answers_eq (t : SortNumbering) (calls : List Call) :
    t.answers calls = (requested calls).map (t.after calls).sorts.idxOf := by
  induction calls generalizing t with
  | nil => rfl
  | cons c rest ih =>
    have hstay : ∀ s ∈ c.sorts, (c.apply t).sorts.idxOf s =
        ((c.apply t).after rest).sorts.idxOf s := by
      intro s hs
      obtain ⟨more, hmore⟩ := sorts_prefix (c.apply t) rest
      have hmem : s ∈ (c.apply t).sorts := by
        rw [sorts_apply, List.mem_eraseDups]
        exact List.mem_append_right _ hs
      rw [← hmore, List.idxOf_append_of_mem hmem]
    show c.answers t ++ (c.apply t).answers rest = _
    rw [ih, answers_call, List.map_congr_left hstay, ← List.map_append]
    rfl

/-! ## Sets of indices -/

theorem mem_indexSet_iff_index? {l : List SortName} :
    i ∈ t.indexSet l ↔ ∃ s ∈ l, t.index? s = some i := by
  simp only [mem_indexSet, index?_eq_some_iff]

theorem lt_of_mem_indexSet {l : List SortName} : ∀ i ∈ (t.indexSet l).members, i < t.size := by
  intro i hi
  obtain ⟨s, -, hs⟩ := mem_indexSet_iff_index?.1 (IndexSet.mem_members.1 hi)
  exact lt_of_index? hs

/-- Indices that are found are found later, with the same sorts. -/
theorem lookupAll_after {set : IndexSet} {sorts : List SortName} (h : t.lookupAll set = .ok sorts)
    (calls : List Call) : (t.after calls).lookupAll set = .ok sorts := by
  have hlist : ∀ (l : List Nat) (sorts : List SortName), l.mapM t.sortAt = .ok sorts →
      l.mapM (t.after calls).sortAt = .ok sorts := by
    intro l
    induction l with
    | nil => exact fun _ h => h
    | cons i rest ih =>
      intro sorts h
      rw [List.mapM_cons] at h ⊢
      simp only [Outcome.bind_eq_ok_iff] at h ⊢
      obtain ⟨s, hs, more, hmore, hall⟩ := h
      exact ⟨s, sortAt_after hs calls, more, ih more hmore, hall⟩
  exact hlist set.members sorts h

/-- The indices of the set are those of these sorts, now and after any calls. -/
def Resolves (t : SortNumbering) (set : IndexSet) (sorts : List SortName) : Prop :=
  ∀ later, (t.after later).lookupAll set = .ok sorts

theorem exists_resolves {set : IndexSet} (h : ∀ i ∈ set.members, i < t.size) :
    ∃ sorts, t.Resolves set sorts :=
  ⟨_, lookupAll_after (lookupAll_eq h)⟩

/-- The set of all indices stands for all sorts, in the order of their indices. -/
theorem lookupAll_all {set : IndexSet} (h : ∀ i, i ∈ set ↔ i < t.size) :
    t.lookupAll set = .ok t.sorts := by
  have hmembers : set.members = List.range t.size :=
    set.members_ascending.eq_of_mem_iff List.pairwise_lt_range fun i => by
      rw [IndexSet.mem_members, h, List.mem_range]
  have hlt : ∀ i ∈ List.range t.size, i < t.size := fun i hi => List.mem_range.1 hi
  rw [lookupAll, hmembers, mapM_sortAt hlt]
  congr 1
  refine List.ext_getElem (by simp [size]) fun i hi hi' => ?_
  simp

/-- What is numbered first of all comes back, each sort once. -/
theorem resolves_assignAll_empty (l : List SortName) :
    (empty.assignAll l).1.Resolves (empty.assignAll l).2 l.eraseDups := by
  have hsorts : (empty.assignAll l).1.sorts = l.eraseDups := sorts_assignList empty l
  refine lookupAll_after (hsorts ▸ lookupAll_all fun i => ?_)
  rw [mem_assignAll_snd, size]
  constructor
  · intro h
    obtain ⟨s, hs, rfl⟩ := h
    exact List.idxOf_lt_length_of_mem (mem_assignAll.2 (.inr hs))
  · intro h
    have hmem := (mem_assignAll.1 (List.getElem_mem h)).resolve_left List.not_mem_nil
    exact ⟨_, hmem, (empty.assignAll l).1.nodup.idxOf_getElem i h⟩

/-- Sets of indices that were made at different times meet where the sorts of the earlier time do. -/
theorem intersects_indexSet_after_iff {l l' : List SortName} (later : List Call) :
    (t.indexSet l).intersects ((t.after later).indexSet l') = true ↔
      ∃ s ∈ t.sorts, s ∈ l ∧ s ∈ l' := by
  simp only [IndexSet.intersects_iff, mem_indexSet_iff_index?]
  constructor
  · intro h
    obtain ⟨i, ⟨s, hs, hi⟩, s', hs', hi'⟩ := h
    have hsame := (index?_eq_some_iff_sortAt.1 (index?_after hi later)).symm.trans
      (index?_eq_some_iff_sortAt.1 hi')
    exact ⟨s, mem_sorts_iff.2 ⟨i, hi⟩, hs, Except.ok.inj hsame ▸ hs'⟩
  · intro h
    obtain ⟨s, hmem, hs, hs'⟩ := h
    obtain ⟨i, hi⟩ := mem_sorts_iff.1 hmem
    exact ⟨i, ⟨s, hs, hi⟩, s, hs', index?_after hi later⟩

/-! ## Runs that begin with nothing -/

/-- **A run numbers sorts from 0, and takes nothing back.** After any calls on an empty numbering

* its sorts are those that were asked for, in the order of first occurrence, and each request was
  answered with the place of its sort among them, so that the indices count up from 0;
* a sort has an index if and only if it is found under that index, and no later call changes that;
* all sets of indices that are given out, for sorts that are numbered or looked up, stand for the
  same sorts after any later calls;
* two sets of indices, whenever they were made, meet if and only if a sort that had an index in the
  first place was asked for in both.

If the first call numbers some sorts, the indices that it gives out stand for just these sorts, each
once and in the order of first occurrence. -/
theorem run_is_growing_bijection (calls : List Call) :
    (empty.after calls).sorts = (requested calls).eraseDups ∧
    empty.answers calls = (requested calls).map (requested calls).eraseDups.idxOf ∧
    (empty.answers calls).eraseDups = List.range (empty.after calls).size ∧
    (∀ s i, (empty.after calls).index? s = some i ↔
      i < (empty.after calls).size ∧ (empty.after calls).sortAt i = .ok s) ∧
    (∀ s i later, (empty.after calls).index? s = some i →
      (empty.after (calls ++ later)).index? s = some i) ∧
    (∀ l, (∃ sorts, (empty.after calls).Resolves ((empty.after calls).indexSet l) sorts) ∧
      ∃ sorts, ((empty.after calls).assignAll l).1.Resolves ((empty.after calls).assignAll l).2
        sorts) ∧
    (∀ l l' later, ((empty.after calls).indexSet l).intersects
        ((empty.after (calls ++ later)).indexSet l') = true ↔
      ∃ s ∈ (empty.after calls).sorts, s ∈ l ∧ s ∈ l') ∧
    ∀ l, (empty.assignAll l).1.Resolves (empty.assignAll l).2 l.eraseDups := by
  have hsorts : (empty.after calls).sorts = (requested calls).eraseDups := sorts_after empty calls
  have hanswers : empty.answers calls = (requested calls).map (requested calls).eraseDups.idxOf :=
    hsorts ▸ answers_eq empty calls
  refine ⟨hsorts, hanswers, ?_, fun s i => ?_, fun s i later h => ?_, fun l => ⟨?_, ?_⟩,
    fun l l' later => ?_, resolves_assignAll_empty⟩
  · rw [hanswers, eraseDups_map_idxOf, size, hsorts]
  · rw [index?_eq_some_iff_sortAt]
    refine (and_iff_right_of_imp fun h => ?_).symm
    exact lt_of_index? (index?_eq_some_iff_sortAt.2 h)
  · rw [after_append]
    exact index?_after h later
  · exact exists_resolves lt_of_mem_indexSet
  · exact exists_resolves (assignAll_lt _ l)
  · rw [after_append]
    exact intersects_indexSet_after_iff later

end GrammarSynthesis.SortNumbering
