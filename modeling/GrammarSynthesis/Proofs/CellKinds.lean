import GrammarSynthesis.Proofs.Layers
import GrammarSynthesis.Synthesis.Cells

/-!
# The kinds of cells

Each production of a cell is classified on its own, and the kinds are noted one after the other. A
kind that was noted stays, except that a leaf turns composite when a composite production of its
sort comes up. So it does not matter in which order the productions come.

* `kind?_record_eq_none_iff`, `kind?_record_eq_composite_iff`: what one note does;
* `kind?_eq_none_iff`, `kind?_eq_composite_iff`: what the kinds of some sentences say of a sort.
-/
namespace GrammarSynthesis.CellKinds

variable {kinds : CellKinds} {s t : SortName} {kind : CellKind}

theorem kind?_insert :
    kind? (kinds.insert (s, kind)) t = if s = t then some kind else kinds.kind? t := by
  rw [kind?, Catalog.find?_insert]
  split <;> rfl

/-! ## One production -/

theorem kind?_record_eq_none_iff :
    (record kinds s kind).kind? t = none ↔ kinds.kind? t = none ∧ s ≠ t := by
  unfold record
  split
  · rw [kind?_insert]
    split <;> simp [*]
  · rw [kind?_insert]
    split <;> simp [*]
  · rename_i hnoted
    refine ⟨fun hnone => ⟨hnone, ?_⟩, And.left⟩
    rintro rfl
    rw [hnone] at hnoted
    cases hnoted

/-- Composite kinds are noted for good. -/
theorem kind?_record_eq_composite_iff :
    (record kinds s kind).kind? t = some .composite ↔
      kinds.kind? t = some .composite ∨ s = t ∧ kind = .composite := by
  unfold record
  split
  · rename_i hnone
    rw [kind?_insert]
    split
    · rename_i hst
      simp [← hst, hnone]
    · simp [*]
  · rw [kind?_insert]
    split <;> simp [*]
  · simp

/-! ## All productions -/

section Fold

variable {α : Type} {sort : α → SortName} {kindOf : α → CellKind}

theorem kind?_foldl_eq_none_iff (l : List α) :
    (l.foldl (fun kinds a => record kinds (sort a) (kindOf a)) kinds).kind? t = none ↔
      kinds.kind? t = none ∧ ∀ a ∈ l, sort a ≠ t := by
  induction l generalizing kinds with
  | nil => simp
  | cons a rest ih =>
    rw [List.foldl_cons, ih, kind?_record_eq_none_iff, List.forall_mem_cons, and_assoc]

theorem kind?_foldl_eq_composite_iff (l : List α) :
    (l.foldl (fun kinds a => record kinds (sort a) (kindOf a)) kinds).kind? t = some .composite ↔
      kinds.kind? t = some .composite ∨ ∃ a ∈ l, sort a = t ∧ kindOf a = .composite := by
  induction l generalizing kinds with
  | nil => simp
  | cons a rest ih =>
    rw [List.foldl_cons, ih, kind?_record_eq_composite_iff, or_assoc]
    simp only [List.mem_cons, exists_eq_or_imp]

end Fold

/-! ## The cells of some sentences -/

variable {cfg : Settings} {l : List Sentence} {p : Production}

/-- The class of a production among the cells of some sentences. All sorts of cells have been
numbered when the first production is classified. -/
def classOf (cfg : Settings) (l : List Sentence) (p : Production) : CellKind :=
  let (numbering, sorts) :=
    SortNumbering.empty.assignAll ((cellProductions cfg l).map Production.sort)
  let (numbering, generic) := numbering.assignAll [cfg.sorts.bag, cfg.sorts.cell]
  classify numbering (sorts ∪ generic) p

theorem ofSentences?_eq : ofSentences? cfg l =
    if (cellProductions cfg l).isEmpty then none
    else some ((cellProductions cfg l).foldl
      (fun kinds p => record kinds p.sort (classOf cfg l p)) ∅) := rfl

theorem mem_cellProductions :
    p ∈ cellProductions cfg l ↔ .production p ∈ l ∧ p.hasAttribute cfg.keys.cell = true := by
  rw [cellProductions, List.mem_filter, mem_productionsOf]

section Kinds

variable (h : ofSentences? cfg l = some kinds)
include h

theorem kinds_eq : kinds = (cellProductions cfg l).foldl
    (fun kinds p => record kinds p.sort (classOf cfg l p)) ∅ := by
  rw [ofSentences?_eq] at h
  split at h
  · cases h
  · exact (Option.some.inj h).symm

/-- A sort has a kind if it has a cell production. -/
theorem kind?_eq_none_iff : kinds.kind? s = none ↔ ∀ p ∈ cellProductions cfg l, p.sort ≠ s := by
  rw [kinds_eq h, kind?_foldl_eq_none_iff]
  exact and_iff_right rfl

/-- A sort is composite if one of its cell productions is. -/
theorem kind?_eq_composite_iff : kinds.kind? s = some .composite ↔
    ∃ p ∈ cellProductions cfg l, p.sort = s ∧ classOf cfg l p = .composite := by
  rw [kinds_eq h, kind?_foldl_eq_composite_iff]
  refine or_iff_right fun hempty => ?_
  cases hempty

/-- All cell productions of a leaf sort have one item between their brackets. -/
theorem length_content_of_leaf (hp : p ∈ cellProductions cfg l)
    (hleaf : kinds.kind? p.sort = some .leaf) : p.content.length = 1 := by
  have hclass : classOf cfg l p = .leaf := by
    cases hclass : classOf cfg l p with
    | leaf => rfl
    | composite =>
      rw [(kind?_eq_composite_iff h).2 ⟨p, hp, rfl, hclass⟩] at hleaf
      cases hleaf
  simp only [classOf, classify] at hclass
  split at hclass
  · rename_i hone
    exact of_decide_eq_true (Bool.and_eq_true_iff.1 hone).1
  · cases hclass

end Kinds

end GrammarSynthesis.CellKinds
