import GrammarSynthesis.Catalog
import GrammarSynthesis.Text.Joined

/-!
# Sets of indices

Sets of sorts and terminals are kept as sets of their indices. Nearly all of them are empty or have
one member, so these two cases have a form of their own, and `vector` holds two or more members. The
form always fits the number of members, hence equal sets have equal forms.

Results:
* `IndexSet.ext` — the members determine the set;
* `IndexSet.mem_insert`, `IndexSet.mem_union`, `IndexSet.mem_inter`, `IndexSet.mem_range` — the
  operations are those of sets;
* `IndexSet.intersects_iff` — two sets intersect if they share a member.
-/
namespace GrammarSynthesis

/-- A finite set of natural numbers in its smallest form. -/
inductive IndexSet where
  | empty
  | singleton (v : Nat)
  | vector (bits : OrdSet Nat) (two_le : 2 ≤ bits.size)
  deriving DecidableEq

namespace IndexSet

/-- The forms of a set: no member, one member, two or more. -/
inductive Mode where
  | empty
  | singleton
  | vector
  deriving DecidableEq, Repr

def Mode.name : Mode → String
  | .empty => "Empty"
  | .singleton => "Singleton"
  | .vector => "Vector"

instance : Inhabited IndexSet := ⟨empty⟩

instance : EmptyCollection IndexSet := ⟨empty⟩

/-! ## Reading -/

def mode : IndexSet → Mode
  | empty => .empty
  | singleton _ => .singleton
  | vector .. => .vector

/-- The members in ascending order. -/
def members : IndexSet → List Nat
  | empty => []
  | singleton v => [v]
  | vector bits _ => bits.toList

def size : IndexSet → Nat
  | empty => 0
  | singleton _ => 1
  | vector bits _ => bits.size

def isEmpty : IndexSet → Bool
  | empty => true
  | _ => false

/-- One more than the largest member, or 0. -/
def bound : IndexSet → Nat
  | empty => 0
  | singleton v => v + 1
  | vector bits _ => bits.toList.getLast?.elim 0 (· + 1)

def contains : IndexSet → Nat → Bool
  | empty, _ => false
  | singleton v, w => v == w
  | vector bits _, w => decide (w ∈ bits)

instance : Membership Nat IndexSet where
  mem s v := s.contains v = true

instance (v : Nat) (s : IndexSet) : Decidable (v ∈ s) :=
  inferInstanceAs (Decidable (s.contains v = true))

/-- The least member that is at least `v`. -/
def next? : IndexSet → Nat → Option Nat
  | empty, _ => none
  | singleton w, v => if v ≤ w then some w else none
  | vector bits _, v => bits.toList.find? (v ≤ ·)

/-- What `n` steps of a walk over the members give; after the last member every step gives none. -/
def walk (s : IndexSet) (n : Nat) : List (Option Nat) :=
  (List.range n).map (s.members[·]?)

/-- Some number is a member of both. -/
def intersects : IndexSet → IndexSet → Bool
  | empty, _ => false
  | _, empty => false
  | singleton a, t => t.contains a
  | s, singleton b => s.contains b
  | vector bits _, vector other _ => bits.toList.any fun v => decide (v ∈ other)

/-! ## Building -/

/-- The smallest form for a set of members. -/
def ofMembers (bits : OrdSet Nat) : IndexSet :=
  match h : bits.toList with
  | [] => empty
  | [v] => singleton v
  | _ :: _ :: _ => vector bits (by simp [Catalog.size, h])

/-- Two different numbers as a set. -/
def pair (a b : Nat) (h : a ≠ b) : IndexSet :=
  vector ((∅ : OrdSet Nat).insert a |>.insert b)
    (OrdSet.two_le_size_iff.2 ⟨a, by simp, b, by simp, h⟩)

/-- Add `v`, and tell whether it was absent. -/
def insert : IndexSet → Nat → IndexSet × Bool
  | empty, v => (singleton v, true)
  | singleton w, v => if h : w = v then (singleton w, false) else (pair w v h, true)
  | vector bits two_le, v =>
    (vector (bits.insert v) (OrdSet.two_le_size_of_subset two_le (by simp +contextual)),
      decide (v ∉ bits))

/-- Add the numbers of a list from left to right. -/
def extend (s : IndexSet) (l : List Nat) : IndexSet := l.foldl (fun s v => (s.insert v).1) s

def ofList (l : List Nat) : IndexSet := empty.extend l

/-- All members of either set. A set that gets more members never needs a smaller form. -/
def union : IndexSet → IndexSet → IndexSet
  | s, empty => s
  | empty, t => t
  | singleton a, singleton b => if h : a = b then singleton a else pair a b h
  | singleton a, vector other two_le =>
    vector (other.insert a) (OrdSet.two_le_size_of_subset two_le (by simp +contextual))
  | vector bits two_le, singleton b =>
    vector (bits.insert b) (OrdSet.two_le_size_of_subset two_le (by simp +contextual))
  | vector bits two_le, vector other _ =>
    vector (bits ∪ other) (OrdSet.two_le_size_of_subset two_le (by simp +contextual))

/-- The members of both sets. Few may be left of many, so the smallest form is sought again. -/
def inter : IndexSet → IndexSet → IndexSet
  | empty, _ => empty
  | _, empty => empty
  | singleton a, t => if t.contains a then singleton a else empty
  | s, singleton b => if s.contains b then singleton b else empty
  | vector bits _, vector other _ => ofMembers (bits.filter fun v => decide (v ∈ other))

instance : Union IndexSet := ⟨union⟩

instance : Inter IndexSet := ⟨inter⟩

/-- The numbers below `n`. -/
def range : Nat → IndexSet
  | 0 => empty
  | 1 => singleton 0
  | n + 2 =>
    vector ⟨List.range (n + 2), List.pairwise_lt_range.imp Nat.compare_eq_lt.2⟩
      (by simp [Catalog.size])

/-- Add the numbers below `n`. -/
def fillRange (s : IndexSet) (n : Nat) : IndexSet := s ∪ range n

/-! ## Text -/

/-- The members between braces. -/
def render (s : IndexSet) : String :=
  "\x7b" ++ Text.joined ", " (s.members.map toString) ++ "\x7d"

/-- The form of the set, then its members. -/
def renderForm (s : IndexSet) : String := s.mode.name ++ s.render

instance : ToString IndexSet := ⟨render⟩

/-! ## The members determine the set -/

theorem mem_members {s : IndexSet} {v : Nat} : v ∈ s.members ↔ v ∈ s := by
  show _ ↔ s.contains v = true
  cases s with
  | empty => simp [members, contains]
  | singleton w => simp [members, contains, eq_comm (a := v)]
  | vector bits h => simp [members, contains]

theorem members_ascending (s : IndexSet) : s.members.Pairwise (· < ·) := by
  cases s with
  | empty => exact .nil
  | singleton v => exact List.pairwise_singleton _ v
  | vector bits h => exact bits.ascending.imp Nat.compare_eq_lt.1

theorem members_ofMembers (bits : OrdSet Nat) : (ofMembers bits).members = bits.toList := by
  unfold ofMembers
  split <;> simp [members, *]

@[simp] theorem mem_ofMembers {bits : OrdSet Nat} {v : Nat} : v ∈ ofMembers bits ↔ v ∈ bits := by
  rw [← mem_members, members_ofMembers]; rfl

theorem ofMembers_vector (bits : OrdSet Nat) (h : 2 ≤ bits.size) :
    ofMembers bits = vector bits h := by
  unfold ofMembers
  split <;> rename_i hl
  · simp [Catalog.size, hl] at h
  · simp [Catalog.size, hl] at h
  · rfl

/-- The members as an ordered set. -/
def toCatalog : IndexSet → OrdSet Nat
  | empty => ∅
  | singleton v => ⟨[v], by simp⟩
  | vector bits _ => bits

theorem toList_toCatalog (s : IndexSet) : s.toCatalog.toList = s.members := by
  cases s <;> rfl

theorem ofMembers_toCatalog (s : IndexSet) : ofMembers s.toCatalog = s := by
  cases s with
  | empty => rfl
  | singleton v => rfl
  | vector bits h => exact ofMembers_vector bits h

theorem ext {s t : IndexSet} (h : ∀ v, v ∈ s ↔ v ∈ t) : s = t := by
  rw [← ofMembers_toCatalog s, ← ofMembers_toCatalog t]
  congr 1
  refine Catalog.ext fun v => ?_
  rw [← Catalog.mem_toList, ← Catalog.mem_toList, toList_toCatalog, toList_toCatalog,
    mem_members, mem_members, h]

/-! ## The operations are those of sets -/

@[simp] theorem not_mem_empty (v : Nat) : v ∉ empty := by simp [Membership.mem, contains]

@[simp] theorem mem_singleton {v w : Nat} : w ∈ singleton v ↔ w = v := by
  show (v == w) = true ↔ _
  rw [beq_iff_eq, eq_comm]

@[simp] theorem mem_vector {bits : OrdSet Nat} {h : 2 ≤ bits.size} {v : Nat} :
    v ∈ vector bits h ↔ v ∈ bits := by
  show decide (v ∈ bits) = true ↔ _
  simp

@[simp] theorem mem_pair {a b v : Nat} {h : a ≠ b} : v ∈ pair a b h ↔ v = a ∨ v = b := by
  simp [pair, or_comm]

theorem mem_insert {s : IndexSet} {v w : Nat} : w ∈ (s.insert v).1 ↔ w = v ∨ w ∈ s := by
  cases s with
  | empty => simp [insert]
  | singleton a =>
    simp only [insert]
    split
    · simp [*]
    · simp [or_comm]
  | vector bits h => simp [insert]

theorem insert_reports {s : IndexSet} {v : Nat} : (s.insert v).2 = true ↔ v ∉ s := by
  cases s with
  | empty => simp [insert]
  | singleton a =>
    simp only [insert]
    split
    · simp [*]
    · rename_i h
      simpa using Ne.symm h
  | vector bits h => simp [insert]

theorem mem_extend {s : IndexSet} {l : List Nat} {v : Nat} : v ∈ s.extend l ↔ v ∈ s ∨ v ∈ l := by
  induction l generalizing s with
  | nil => simp [extend]
  | cons a l ih =>
    show v ∈ ((s.insert a).1).extend l ↔ _
    rw [ih, mem_insert, List.mem_cons]
    constructor
    · intro hv
      rcases hv with (h | h) | h
      · exact .inr (.inl h)
      · exact .inl h
      · exact .inr (.inr h)
    · intro hv
      rcases hv with h | h | h
      · exact .inl (.inr h)
      · exact .inl (.inl h)
      · exact .inr h

@[simp] theorem mem_ofList {l : List Nat} {v : Nat} : v ∈ ofList l ↔ v ∈ l := by
  simp [ofList, mem_extend]

@[simp] theorem mem_union {s t : IndexSet} {v : Nat} : v ∈ s ∪ t ↔ v ∈ s ∨ v ∈ t := by
  show v ∈ union s t ↔ _
  cases s <;> cases t <;> simp only [union] <;> try split
  all_goals simp_all [or_comm]

@[simp] theorem mem_range {n v : Nat} : v ∈ range n ↔ v < n := by
  match n with
  | 0 => simp [range]
  | 1 => simp [range]
  | n + 2 => rw [range, mem_vector, ← Catalog.mem_toList, List.mem_range]

@[simp] theorem mem_fillRange {s : IndexSet} {n v : Nat} : v ∈ s.fillRange n ↔ v ∈ s ∨ v < n := by
  simp [fillRange]

theorem contains_iff {s : IndexSet} {v : Nat} : s.contains v = true ↔ v ∈ s := Iff.rfl

@[simp] theorem mem_inter {s t : IndexSet} {v : Nat} : v ∈ s ∩ t ↔ v ∈ s ∧ v ∈ t := by
  show v ∈ inter s t ↔ _
  cases s <;> cases t <;> simp only [inter] <;> try split
  all_goals
    simp only [contains_iff, mem_singleton, mem_vector, not_mem_empty, mem_ofMembers,
      Catalog.mem_filter, decide_eq_true_eq] at *
  all_goals grind

theorem intersects_iff {s t : IndexSet} : s.intersects t = true ↔ ∃ v, v ∈ s ∧ v ∈ t := by
  cases s <;> cases t <;> simp [intersects, contains]
  exact eq_comm

end IndexSet

end GrammarSynthesis
