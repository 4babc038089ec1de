/-!
# Catalogs

A catalog lists its entries in strictly ascending order of a key, so it holds at most one entry for
a key and has exactly one form: two catalogs with the same entries are equal (`Catalog.ext`).
Sets of sentences (`key = id`), attributes (`key = Prod.fst`) and the modules of a layer
(`key = Module.name`) are all catalogs.

Results:
* `Catalog.ext` — entries determine the catalog;
* `Catalog.mem_insert`, `Catalog.mem_erase`, `Catalog.mem_filter` — one membership law each;
* `Catalog.find?_eq_some_iff` — lookup finds the entry with the key, if there is one;
* `OrdSet.mem_ofList`, `OrdSet.mem_union`, `OrdSet.mem_map` — the laws of sets.
-/
namespace GrammarSynthesis

/-- Entries of type `α` in strictly ascending order of `key`. -/
structure Catalog {α κ : Type} [Ord κ] (key : α → κ) where
  toList : List α
  ascending : toList.Pairwise fun a b => compare (key a) (key b) = .lt

/-- An ordered set: every element is its own key. -/
abbrev OrdSet (α : Type) [Ord α] := Catalog (id : α → α)

namespace Catalog

variable {α κ : Type} [Ord κ] {key : α → κ}

instance [DecidableEq α] : DecidableEq (Catalog key) := fun c d =>
  decidable_of_iff (c.toList = d.toList) (by cases c; cases d; simp)

instance [Repr α] : Repr (Catalog key) where
  reprPrec c n := reprPrec c.toList n

instance : Membership α (Catalog key) where
  mem c a := a ∈ c.toList

instance [DecidableEq α] (a : α) (c : Catalog key) : Decidable (a ∈ c) :=
  inferInstanceAs (Decidable (a ∈ c.toList))

@[simp] theorem mem_toList {a : α} {c : Catalog key} : a ∈ c.toList ↔ a ∈ c := Iff.rfl

theorem toList_inj {c d : Catalog key} : c.toList = d.toList ↔ c = d := by
  cases c
  cases d
  rw [mk.injEq]

/-! ## Reading -/

def size (c : Catalog key) : Nat := c.toList.length

def isEmpty (c : Catalog key) : Bool := c.toList.isEmpty

def keys (c : Catalog key) : List κ := c.toList.map key

/-- The entry with key `k`. -/
def find? (c : Catalog key) (k : κ) : Option α :=
  c.toList.find? fun a => compare k (key a) == .eq

def hasKey (c : Catalog key) (k : κ) : Bool := (c.find? k).isSome

/-! ## Building -/

def empty : Catalog key := ⟨[], .nil⟩

instance : EmptyCollection (Catalog key) := ⟨empty⟩

instance : Inhabited (Catalog key) := ⟨empty⟩

/-- Put `a` at its place, instead of an entry with the same key if there is one. -/
def place (key : α → κ) (a : α) : List α → List α
  | [] => [a]
  | b :: rest =>
    match compare (key a) (key b) with
    | .lt => a :: b :: rest
    | .eq => a :: rest
    | .gt => b :: place key a rest

theorem mem_place_imp {a x : α} {l : List α} (h : x ∈ place key a l) : x = a ∨ x ∈ l := by
  induction l with
  | nil => simpa [place] using h
  | cons b rest ih =>
    unfold place at h
    split at h
    · simpa using h
    · simp only [List.mem_cons] at h ⊢
      exact h.imp_right .inr
    · simp only [List.mem_cons] at h ⊢
      rcases h with h | h
      · exact .inr (.inl h)
      · exact (ih h).imp_right .inr

theorem place_ascending [Std.TransOrd κ] (a : α) {l : List α}
    (h : l.Pairwise fun a b => compare (key a) (key b) = .lt) :
    (place key a l).Pairwise fun a b => compare (key a) (key b) = .lt := by
  induction l with
  | nil => simp [place]
  | cons b rest ih =>
    have hb := List.pairwise_cons.1 h
    unfold place
    split
    · rename_i hab
      refine List.pairwise_cons.2 ⟨fun x hx => ?_, h⟩
      rcases List.mem_cons.1 hx with rfl | hx
      · exact hab
      · exact Std.TransCmp.lt_trans hab (hb.1 x hx)
    · rename_i hab
      refine List.pairwise_cons.2 ⟨fun x hx => ?_, hb.2⟩
      exact (Std.TransCmp.congr_left hab).trans (hb.1 x hx)
    · rename_i hab
      refine List.pairwise_cons.2 ⟨fun x hx => ?_, ih hb.2⟩
      rcases mem_place_imp hx with rfl | hx
      · exact Std.OrientedCmp.lt_of_gt hab
      · exact hb.1 x hx

/-- Add `a`; an entry with the same key gives way to it. -/
def insert [Std.TransOrd κ] (c : Catalog key) (a : α) : Catalog key :=
  ⟨place key a c.toList, place_ascending a c.ascending⟩

/-- Keep the entries that satisfy `p`. -/
def filter (c : Catalog key) (p : α → Bool) : Catalog key :=
  ⟨c.toList.filter p, c.ascending.filter p⟩

/-- Remove the entry with key `k`. -/
def erase (c : Catalog key) (k : κ) : Catalog key :=
  c.filter fun a => compare k (key a) != .eq

/-- Add the entries of `l` from left to right. -/
def insertAll [Std.TransOrd κ] (c : Catalog key) (l : List α) : Catalog key :=
  l.foldl insert c

/-- The catalog of the entries of `l`; of two entries with one key the later stays. -/
def ofList [Std.TransOrd κ] (l : List α) : Catalog key := insertAll empty l

/-- Both catalogs' entries; where both have a key, the entry of the second. -/
def union [Std.TransOrd κ] (c d : Catalog key) : Catalog key := c.insertAll d.toList

instance [Std.TransOrd κ] : Union (Catalog key) := ⟨union⟩

/-! ## Entries determine the catalog -/

theorem eq_of_key_eq [Std.ReflOrd κ] {c : Catalog key} {a b : α}
    (ha : a ∈ c) (hb : b ∈ c) (h : key a = key b) : a = b := by
  obtain ⟨l, hl⟩ := c
  replace ha : a ∈ l := ha
  replace hb : b ∈ l := hb
  induction l with
  | nil => simp at ha
  | cons x rest ih =>
    have hx := List.pairwise_cons.1 hl
    have irrefl : ∀ y : α, compare (key y) (key y) ≠ .lt := fun y hy => by
      simp [Std.ReflCmp.compare_self] at hy
    rcases List.mem_cons.1 ha with rfl | ha' <;> rcases List.mem_cons.1 hb with rfl | hb'
    · rfl
    · exact absurd (h ▸ hx.1 b hb') (irrefl b)
    · exact absurd (h ▸ hx.1 a ha') (h ▸ irrefl a)
    · exact ih hx.2 ha' hb'

/-- What stands before an entry is less, and what stands after it is greater. -/
theorem lt_of_split {c : Catalog key} {before after : List α} {a : α}
    (h : c.toList = before ++ a :: after) :
    (∀ x ∈ before, compare (key x) (key a) = .lt) ∧
      ∀ x ∈ after, compare (key a) (key x) = .lt := by
  have hascending := c.ascending
  rw [h] at hascending
  obtain ⟨-, hafter, hbefore⟩ := List.pairwise_append.1 hascending
  exact ⟨fun x hx => hbefore x hx a List.mem_cons_self, (List.pairwise_cons.1 hafter).1⟩

@[ext] theorem ext [Std.TransOrd κ] {c d : Catalog key} (h : ∀ a, a ∈ c ↔ a ∈ d) : c = d := by
  have irrefl : ∀ y : α, compare (key y) (key y) ≠ .lt := fun y hy => by
    simp [Std.ReflCmp.compare_self] at hy
  obtain ⟨l, hl⟩ := c
  obtain ⟨m, hm⟩ := d
  replace h : ∀ a, a ∈ l ↔ a ∈ m := h
  suffices l = m by subst this; rfl
  induction l generalizing m with
  | nil =>
    cases m with
    | nil => rfl
    | cons y m => exact absurd ((h y).2 (.head _)) (by simp)
  | cons x l ih =>
    cases m with
    | nil => exact absurd ((h x).1 (.head _)) (by simp)
    | cons y m =>
      have hx := List.pairwise_cons.1 hl
      have hy := List.pairwise_cons.1 hm
      have hxy : x = y := by
        rcases List.mem_cons.1 ((h x).1 (.head _)) with e | hxm
        · exact e
        rcases List.mem_cons.1 ((h y).2 (.head _)) with e | hyl
        · exact e.symm
        exact absurd (Std.TransCmp.lt_trans (hx.1 y hyl) (hy.1 x hxm)) (irrefl x)
      subst hxy
      congr 1
      refine ih hx.2 m hy.2 fun a => ⟨fun ha => ?_, fun ha => ?_⟩
      · rcases List.mem_cons.1 ((h a).1 (.tail _ ha)) with rfl | h'
        · exact absurd (hx.1 _ ha) (irrefl _)
        · exact h'
      · rcases List.mem_cons.1 ((h a).2 (.tail _ ha)) with rfl | h'
        · exact absurd (hy.1 _ ha) (irrefl _)
        · exact h'

/-! ## One law per operation -/

@[simp] theorem not_mem_empty (a : α) : a ∉ (∅ : Catalog key) := List.not_mem_nil

@[simp] theorem mem_filter {c : Catalog key} {p : α → Bool} {a : α} :
    a ∈ c.filter p ↔ a ∈ c ∧ p a = true := List.mem_filter

@[simp] theorem mem_erase [Std.LawfulEqOrd κ] {c : Catalog key} {k : κ} {a : α} :
    a ∈ c.erase k ↔ a ∈ c ∧ key a ≠ k := by
  rw [erase, mem_filter, bne_iff_ne, ne_eq, Std.LawfulEqOrd.compare_eq_iff_eq, eq_comm]

theorem mem_insert [Std.TransOrd κ] [Std.LawfulEqOrd κ] {c : Catalog key} {a x : α} :
    x ∈ c.insert a ↔ x = a ∨ (x ∈ c ∧ key x ≠ key a) := by
  obtain ⟨l, hl⟩ := c
  show x ∈ place key a l ↔ x = a ∨ (x ∈ l ∧ key x ≠ key a)
  induction l with
  | nil => simp [place]
  | cons b rest ih =>
    have hb := List.pairwise_cons.1 hl
    have key_ne : ∀ {y}, compare (key a) (key y) ≠ .eq → key y ≠ key a := fun hy h => by
      simp [h, Std.ReflCmp.compare_self] at hy
    unfold place
    split
    · rename_i hab
      have hne : ∀ y ∈ b :: rest, key y ≠ key a := fun y hy => key_ne <| by
        rcases List.mem_cons.1 hy with rfl | hy
        · simp [hab]
        · simp [Std.TransCmp.lt_trans hab (hb.1 y hy)]
      simp only [List.mem_cons (a := x) (b := a)]
      exact or_congr_right ⟨fun h => ⟨h, hne x h⟩, And.left⟩
    · rename_i hab
      have hab := Std.LawfulEqOrd.eq_of_compare hab
      have hne : ∀ y ∈ rest, key y ≠ key a := fun y hy h => by
        have := hb.1 y hy
        simp [h, hab, Std.ReflCmp.compare_self] at this
      simp only [List.mem_cons]
      constructor
      · intro hx
        rcases hx with h | h
        · exact .inl h
        · exact .inr ⟨.inr h, hne x h⟩
      · intro hx
        rcases hx with h | ⟨rfl | h, hk⟩
        · exact .inl h
        · exact absurd hab.symm hk
        · exact .inr h
    · rename_i hab
      have hne : key b ≠ key a := key_ne (by simp [hab])
      simp only [List.mem_cons, ih hb.2]
      constructor
      · intro hx
        rcases hx with rfl | h | ⟨h, hk⟩
        · exact .inr ⟨.inl rfl, hne⟩
        · exact .inl h
        · exact .inr ⟨.inr h, hk⟩
      · intro hx
        rcases hx with h | ⟨rfl | h, hk⟩
        · exact .inr (.inl h)
        · exact .inl rfl
        · exact .inr (.inr ⟨h, hk⟩)

theorem find?_eq_some_iff [Std.LawfulEqOrd κ] {c : Catalog key} {k : κ} {a : α} :
    c.find? k = some a ↔ a ∈ c ∧ key a = k := by
  constructor
  · intro h
    refine ⟨List.mem_of_find?_eq_some h, ?_⟩
    have := List.find?_some h
    simp at this
    exact this.symm
  · intro hx
    obtain ⟨ha, rfl⟩ := hx
    cases h : c.find? (key a) with
    | none =>
      have := List.find?_eq_none.1 h a ha
      simp at this
    | some b =>
      have hb := List.find?_some h
      simp at hb
      rw [eq_of_key_eq (List.mem_of_find?_eq_some h) ha hb.symm]

theorem find?_eq_none_iff [Std.LawfulEqOrd κ] {c : Catalog key} {k : κ} :
    c.find? k = none ↔ ∀ a ∈ c, key a ≠ k := by
  unfold find?
  rw [List.find?_eq_none]
  refine forall₂_congr fun a _ => ?_
  rw [beq_iff_eq, Std.LawfulEqOrd.compare_eq_iff_eq, eq_comm]

end Catalog

namespace OrdSet

variable {α β : Type} [Ord α] [Ord β] [Std.TransOrd β]

/-- The set of the images. -/
def map (s : OrdSet α) (f : α → β) : OrdSet β := Catalog.ofList (s.toList.map f)

/-- The union of the images. -/
def flatMap (s : OrdSet α) (f : α → List β) : OrdSet β := Catalog.ofList (s.toList.flatMap f)

section Laws

variable [Std.TransOrd α] [Std.LawfulEqOrd α]

@[simp] theorem mem_insert {s : OrdSet α} {a x : α} : x ∈ s.insert a ↔ x = a ∨ x ∈ s := by
  rw [Catalog.mem_insert]
  by_cases h : x = a <;> simp [h]

theorem mem_insertAll {s : OrdSet α} {l : List α} {x : α} : x ∈ s.insertAll l ↔ x ∈ s ∨ x ∈ l := by
  induction l generalizing s with
  | nil => simp [Catalog.insertAll]
  | cons a l ih =>
    show x ∈ (s.insert a).insertAll l ↔ _
    rw [ih, mem_insert, List.mem_cons]
    constructor
    · intro hx
      rcases hx with (h | h) | h
      · exact .inr (.inl h)
      · exact .inl h
      · exact .inr (.inr h)
    · intro hx
      rcases hx with h | h | h
      · exact .inl (.inr h)
      · exact .inl (.inl h)
      · exact .inr h

@[simp] theorem mem_ofList {l : List α} {x : α} : x ∈ (Catalog.ofList l : OrdSet α) ↔ x ∈ l :=
  mem_insertAll.trans (or_iff_right List.not_mem_nil)

@[simp] theorem mem_union {s t : OrdSet α} {x : α} : x ∈ s ∪ t ↔ x ∈ s ∨ x ∈ t := mem_insertAll

omit [Std.LawfulEqOrd α] in
theorem two_le_size_iff {s : OrdSet α} : 2 ≤ s.size ↔ ∃ a ∈ s, ∃ b ∈ s, a ≠ b := by
  obtain ⟨l, hl⟩ := s
  show 2 ≤ l.length ↔ ∃ a ∈ l, ∃ b ∈ l, a ≠ b
  match l, hl with
  | [], _ => simp
  | [a], _ => simp
  | a :: b :: l, hl =>
    have hab : compare a b = .lt := (List.pairwise_cons.1 hl).1 b List.mem_cons_self
    refine iff_of_true (by simp) ⟨a, by simp, b, by simp, fun h => ?_⟩
    simp [h, Std.ReflCmp.compare_self] at hab

omit [Std.LawfulEqOrd α] in
theorem two_le_size_of_subset {s t : OrdSet α} (hs : 2 ≤ s.size) (h : ∀ a ∈ s, a ∈ t) :
    2 ≤ t.size := by
  obtain ⟨a, ha, b, hb, hne⟩ := two_le_size_iff.1 hs
  exact two_le_size_iff.2 ⟨a, h a ha, b, h b hb, hne⟩

end Laws

@[simp] theorem mem_map [Std.LawfulEqOrd β] {s : OrdSet α} {f : α → β} {y : β} :
    y ∈ s.map f ↔ ∃ x ∈ s, f x = y := by
  simp [map]

@[simp] theorem mem_flatMap [Std.LawfulEqOrd β] {s : OrdSet α} {f : α → List β} {y : β} :
    y ∈ s.flatMap f ↔ ∃ x ∈ s, y ∈ f x := by
  simp [flatMap]

end OrdSet

end GrammarSynthesis
