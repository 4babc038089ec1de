import GrammarSynthesis.IndexSet
import Mathlib.Data.Finset.Card
import Mathlib.Data.Finset.Range
import Mathlib.Order.Bounds.Basic

/-!
# Registers of index sets

An index set is a finite set in disguise: the finite set of its members (`toFinset`) decides its
form and all that can be read from it. Commands put sets into registers and combine them. Each
command does to the members what the set operation of its name prescribes, so after any number of
commands each register holds the set that the operations prescribe, in its smallest form.

* `toFinset_inj`: index sets with the same members are equal;
* `denotes_toFinset`: what is read from an index set is what its members say;
* `view_run`: one command does to the sets of all registers what it prescribes;
* `registers_denote`: so do any number of commands.
-/
namespace GrammarSynthesis

namespace IndexSet

variable {s t : IndexSet} {v w n : Nat} {l : List Nat}

/-! ## The finite set of the members -/

def toFinset (s : IndexSet) : Finset Nat := s.members.toFinset

@[simp] theorem mem_toFinset : v ∈ s.toFinset ↔ v ∈ s := by
  rw [toFinset, List.mem_toFinset, mem_members]

theorem toFinset_inj : s.toFinset = t.toFinset ↔ s = t := by
  constructor
  · intro h
    apply ext
    intro v
    rw [← mem_toFinset, h, mem_toFinset]
  · intro h
    rw [h]

/-- To compare the forms of two sets and the lists of their members is to compare the sets. -/
theorem same_form_and_members_iff : s.mode = t.mode ∧ s.members = t.members ↔ s = t := by
  constructor
  · intro h
    apply ext
    intro v
    rw [← mem_members, h.2, mem_members]
  · intro h
    rw [h]
    exact ⟨rfl, rfl⟩

theorem card_toFinset : s.toFinset.card = s.size := by
  have hlength : s.members.length = s.size := by cases s <;> rfl
  rw [toFinset, List.toFinset_card_of_nodup (s.members_ascending.imp Nat.ne_of_lt), hlength]

/-! ## Operations -/

@[simp] theorem toFinset_empty : (∅ : IndexSet).toFinset = ∅ := rfl

@[simp] theorem toFinset_singleton : (singleton v).toFinset = {v} := by
  ext
  simp

@[simp] theorem toFinset_range : (range n).toFinset = Finset.range n := by
  ext
  simp

@[simp] theorem toFinset_extend : (s.extend l).toFinset = s.toFinset ∪ l.toFinset := by
  ext
  simp [mem_extend]

@[simp] theorem toFinset_ofList : (ofList l).toFinset = l.toFinset := by
  ext
  simp

@[simp] theorem toFinset_insert : (s.insert v).1.toFinset = Insert.insert v s.toFinset := by
  ext
  simp [mem_insert]

@[simp] theorem toFinset_fillRange : (s.fillRange n).toFinset = s.toFinset ∪ Finset.range n := by
  ext
  simp

@[simp] theorem toFinset_union : (s ∪ t).toFinset = s.toFinset ∪ t.toFinset := by
  ext
  simp

@[simp] theorem toFinset_inter : (s ∩ t).toFinset = s.toFinset ∩ t.toFinset := by
  ext
  simp

/-! ## What is read from a set -/

/-- The form that fits a number of members. -/
def Mode.ofCard : Nat → Mode
  | 0 => .empty
  | 1 => .singleton
  | _ + 2 => .vector

theorem mode_eq_ofCard (s : IndexSet) : s.mode = Mode.ofCard s.size := by
  cases s with
  | empty => rfl
  | singleton v => rfl
  | vector bits h =>
    obtain ⟨n, hn⟩ := Nat.exists_eq_add_of_le' h
    simp [mode, size, hn, Mode.ofCard]

theorem isEmpty_iff : s.isEmpty = true ↔ s = ∅ := by
  cases s <;> simp [isEmpty, EmptyCollection.emptyCollection]

theorem bound_eq_getLast? (s : IndexSet) : s.bound = s.members.getLast?.elim 0 (· + 1) := by
  cases s <;> rfl

/-- The bound of a set is one more than its greatest member. -/
theorem bound_eq_of_isGreatest (h : IsGreatest {x | x ∈ s} v) : s.bound = v + 1 := by
  obtain ⟨hmem, hgreatest⟩ := h
  have hv : v ∈ s.members := mem_members.2 hmem
  have hascending := s.members_ascending
  rw [bound_eq_getLast?]
  rcases List.eq_nil_or_concat' s.members with hnil | ⟨l, last, hl⟩
  · rw [hnil] at hv
    cases hv
  · have hlast : last ≤ v := hgreatest (mem_members.1 (by simp [hl]))
    rw [hl] at hv
    rw [hl, List.pairwise_append] at hascending
    rw [hl]
    rcases List.mem_append.1 hv with hv | hv
    · have hlt : v < last := hascending.2.2 v hv last (List.mem_singleton_self last)
      omega
    · simp [List.mem_singleton.1 hv]

theorem next?_eq_find? (s : IndexSet) (v : Nat) : s.next? v = s.members.find? (v ≤ ·) := by
  cases s with
  | empty => rfl
  | singleton w => by_cases h : v ≤ w <;> simp [next?, members, h]
  | vector bits h => rfl

/-- The first member of the ascending list that is not below `v` is the least such member. -/
theorem isLeast_of_next? (h : s.next? v = some w) : IsLeast {x | x ∈ s ∧ v ≤ x} w := by
  rw [next?_eq_find?, List.find?_eq_some_iff_append] at h
  obtain ⟨hw, before, after, hsplit, hbefore⟩ := h
  have hascending := s.members_ascending
  rw [hsplit, List.pairwise_append, List.pairwise_cons] at hascending
  refine ⟨⟨mem_members.1 (by simp [hsplit]), by simpa using hw⟩, fun x hx => ?_⟩
  obtain ⟨hmem, hvx⟩ := hx
  rw [← mem_members, hsplit, List.mem_append, List.mem_cons] at hmem
  rcases hmem with hmem | rfl | hmem
  · have hlt : x < v := by simpa using hbefore x hmem
    omega
  · exact Nat.le_refl x
  · exact Nat.le_of_lt (hascending.2.1.1 x hmem)

theorem next?_eq_some_iff : s.next? v = some w ↔ IsLeast {x | x ∈ s ∧ v ≤ x} w := by
  refine ⟨isLeast_of_next?, fun h => ?_⟩
  cases hnext : s.next? v with
  | none =>
    rw [next?_eq_find?, List.find?_eq_none] at hnext
    have hlt : w < v := by simpa using hnext w (mem_members.2 h.1.1)
    have hle : v ≤ w := h.1.2
    omega
  | some w' => rw [(isLeast_of_next? hnext).unique h]

/-- The index set is the finite set in its smallest form, and what is read from it is true of the
finite set. -/
structure Denotes (s : IndexSet) (set : Finset Nat) : Prop where
  mode : s.mode = Mode.ofCard set.card
  size : s.size = set.card
  isEmpty : s.isEmpty = true ↔ set = ∅
  contains : ∀ v, s.contains v = true ↔ v ∈ set
  /-- An insertion reports that the number is new. -/
  insert : ∀ v, (s.insert v).2 = true ↔ v ∉ set
  bound : (set = ∅ → s.bound = 0) ∧ ∀ v, IsGreatest {x | x ∈ set} v → s.bound = v + 1
  next : ∀ v w, s.next? v = some w ↔ IsLeast {x | x ∈ set ∧ v ≤ x} w
  ascending : s.members.Pairwise (· < ·)
  members : ∀ v, v ∈ s.members ↔ v ∈ set

theorem denotes_toFinset (s : IndexSet) : s.Denotes s.toFinset where
  mode := by rw [card_toFinset, mode_eq_ofCard]
  size := card_toFinset.symm
  isEmpty := by rw [isEmpty_iff, ← toFinset_inj, toFinset_empty]
  contains v := by rw [mem_toFinset, contains_iff]
  insert v := by rw [mem_toFinset, insert_reports]
  bound := by
    refine ⟨fun h => ?_, fun v hv => ?_⟩
    · rw [toFinset_inj.1 (h.trans toFinset_empty.symm)]
      rfl
    · simp only [mem_toFinset] at hv
      exact bound_eq_of_isGreatest hv
  next v w := by simp only [mem_toFinset, next?_eq_some_iff]
  ascending := s.members_ascending
  members v := by rw [mem_members, mem_toFinset]

end IndexSet

/-! ## Registers -/

namespace Registers

open IndexSet

/-- What can be done to a register; `ι` holds the names of registers. -/
inductive Command (ι : Type) where
  | new
  | singleton (v : Nat)
  | withRange (n : Nat)
  | collect (l : List Nat)
  | extend (l : List Nat)
  | insert (v : Nat)
  | fillRange (n : Nat)
  | union (other : ι)
  | inter (other : ι)
  | copy (source : ι)
  deriving DecidableEq, Repr

/-- A command and the register that it changes. -/
structure Step (ι : Type) where
  register : ι
  command : Command ι
  deriving DecidableEq, Repr

variable {ι : Type} [DecidableEq ι]

/-- The new contents of a register, from those of all registers and its own. -/
def Command.eval (file : ι → IndexSet) (own : IndexSet) : Command ι → IndexSet
  | new => ∅
  | singleton v => .singleton v
  | withRange n => .range n
  | collect l => .ofList l
  | extend l => own.extend l
  | insert v => (own.insert v).1
  | fillRange n => own.fillRange n
  | union other => own ∪ file other
  | inter other => own ∩ file other
  | copy source => file source

/-- The finite set that a command asks for. -/
def Command.prescribed (sets : ι → Finset Nat) (own : Finset Nat) : Command ι → Finset Nat
  | new => ∅
  | singleton v => {v}
  | withRange n => Finset.range n
  | collect l => l.toFinset
  | extend l => own ∪ l.toFinset
  | insert v => Insert.insert v own
  | fillRange n => own ∪ Finset.range n
  | union other => own ∪ sets other
  | inter other => own ∩ sets other
  | copy source => sets source

/-- A command changes its own register and no other. -/
def Step.run (file : ι → IndexSet) (step : Step ι) : ι → IndexSet :=
  Function.update file step.register (step.command.eval file (file step.register))

def Step.prescribed (sets : ι → Finset Nat) (step : Step ι) : ι → Finset Nat :=
  Function.update sets step.register (step.command.prescribed sets (sets step.register))

/-- All registers are empty at the beginning. -/
def run (steps : List (Step ι)) : ι → IndexSet := steps.foldl Step.run fun _ => ∅

def prescribed (steps : List (Step ι)) : ι → Finset Nat := steps.foldl Step.prescribed fun _ => ∅

/-- The finite sets of all registers. -/
def view (file : ι → IndexSet) (r : ι) : Finset Nat := (file r).toFinset

omit [DecidableEq ι] in
theorem toFinset_eval (file : ι → IndexSet) (own : IndexSet) (c : Command ι) :
    (c.eval file own).toFinset = c.prescribed (view file) own.toFinset := by
  cases c <;> simp [Command.eval, Command.prescribed, view]

theorem view_run (file : ι → IndexSet) (step : Step ι) :
    view (step.run file) = step.prescribed (view file) := by
  funext r
  unfold view Step.run Step.prescribed
  by_cases hr : r = step.register
  · subst hr
    simp only [Function.update_self]
    exact toFinset_eval file _ step.command
  · simp only [Function.update_of_ne hr]

theorem view_foldl (steps : List (Step ι)) (file : ι → IndexSet) :
    view (steps.foldl Step.run file) = steps.foldl Step.prescribed (view file) := by
  induction steps generalizing file with
  | nil => rfl
  | cons step steps ih => rw [List.foldl_cons, List.foldl_cons, ih, view_run]

/-- **Registers hold the sets that the commands prescribe.** Whatever the commands and however many
registers there are, what is read from a register is what the prescribed set says, its form
included. Two registers, of the same run or of two, intersect if and only if the prescribed sets
share a member. They are equal, and compare equal by form and members, if and only if these sets
are. -/
theorem registers_denote (steps : List (Step ι)) (r : ι) :
    (run steps r).Denotes (prescribed steps r) ∧
    ∀ (others : List (Step ι)) (q : ι),
      ((run steps r).intersects (run others q) = true ↔
        ∃ v, v ∈ prescribed steps r ∧ v ∈ prescribed others q) ∧
      (run steps r = run others q ↔ prescribed steps r = prescribed others q) ∧
      ((run steps r).mode = (run others q).mode ∧ (run steps r).members = (run others q).members ↔
        prescribed steps r = prescribed others q) := by
  have hview : ∀ (steps : List (Step ι)) r, (run steps r).toFinset = prescribed steps r :=
    fun steps r => congrFun (view_foldl steps fun _ => ∅) r
  refine ⟨?_, fun others q => ⟨?_, ?_, ?_⟩⟩
  · rw [← hview]
    exact denotes_toFinset _
  · simp only [← hview, mem_toFinset, intersects_iff]
  · rw [← hview, ← hview, toFinset_inj]
  · rw [same_form_and_members_iff, ← hview, ← hview, toFinset_inj]

/-- A copy is a value of its own, and a register may be combined with itself. -/
example :
    let file := run [⟨"a", .collect [8, 1, 8]⟩, ⟨"b", .copy "a"⟩, ⟨"b", .insert 3⟩,
      ⟨"b", .inter "b"⟩, ⟨"a", .inter "c"⟩]
    file "a" = ∅ ∧ file "b" = .ofList [1, 3, 8] := by
  decide +kernel

end Registers

end GrammarSynthesis
