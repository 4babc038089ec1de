import GrammarSynthesis.Proofs.CellKinds
import GrammarSynthesis.Proofs.Numbering

/-!
# Cells told apart by their shape

Which sorts are leaves is worked out with numbered sorts and sets of indices, one production after
the other. What comes out can be read off the productions: a sort is a leaf if each of its cells has
exactly one item between its brackets, and that item is no container. All cells of the sentences
count as containers, before a production and after it, and so do bags and the sort of all cells.
This does not mention an order, so the kinds are the same in whatever order the sentences come.

* `classOf_eq_leaf_iff`: the class of one production is read off its items;
* `kind?_eq_leaf_iff`: a leaf has no other productions than leaves;
* `ofSentences?_congr`: the kinds depend on the set of sentences only;
* `kinds_by_shape`: the kinds of cells in terms of productions.
-/
namespace GrammarSynthesis.CellKinds

variable {cfg : Settings} {l : List Sentence} {p : Production} {s : SortName}

/-! ## The shape of a cell -/

/-- The sentences have the production, and it is tagged as a cell. -/
def Declares (cfg : Settings) (l : List Sentence) (p : Production) : Prop :=
  .production p ∈ l ∧ p.hasAttribute cfg.keys.cell = true

/-- What holds cells: the sorts of the cells themselves, bags, and the sort of all cells. -/
def Container (cfg : Settings) (l : List Sentence) (s : SortName) : Prop :=
  (∃ p, Declares cfg l p ∧ p.sort = s) ∨ s = cfg.sorts.bag ∨ s = cfg.sorts.cell

/-- Between its first and its last item the production has one item, and that is a terminal or a
sort that is no container. -/
def HoldsValue (cfg : Settings) (l : List Sentence) (p : Production) : Prop :=
  ∃ first item last, p.items = [first, item, last] ∧
    ∀ s, item = .nonTerminal s → ¬ Container cfg l s

theorem length_content (p : Production) : p.content.length = p.items.length - 2 := by
  rw [Production.content, List.length_dropLast, List.length_tail, Nat.sub_sub]

/-! ## The class of a production -/

/-- The sorts that are numbered before a production is classified. -/
def containerSorts (cfg : Settings) (l : List Sentence) : List SortName :=
  (cellProductions cfg l).map Production.sort ++ [cfg.sorts.bag, cfg.sorts.cell]

theorem mem_containerSorts : s ∈ containerSorts cfg l ↔ Container cfg l s := by
  simp [containerSorts, Container, Declares, mem_cellProductions]

/-- The numbering of the sorts of all cells. -/
def cellNumbering (cfg : Settings) (l : List Sentence) : SortNumbering :=
  (SortNumbering.empty.assignAll ((cellProductions cfg l).map Production.sort)).1

/-- The numbering of all containers. -/
def numbering (cfg : Settings) (l : List Sentence) : SortNumbering :=
  ((cellNumbering cfg l).assignAll [cfg.sorts.bag, cfg.sorts.cell]).1

theorem mem_cellNumbering (h : s ∈ (cellProductions cfg l).map Production.sort) :
    s ∈ (cellNumbering cfg l).sorts := SortNumbering.mem_assignAll.2 (.inr h)

theorem mem_numbering (h : s ∈ containerSorts cfg l) : s ∈ (numbering cfg l).sorts := by
  rcases List.mem_append.1 h with h | h
  · exact SortNumbering.mem_assignAll.2 (.inl (mem_cellNumbering h))
  · exact SortNumbering.mem_assignAll.2 (.inr h)

/-- The indices of cells were given out before bags were numbered, and they still hold. -/
theorem classOf_eq : classOf cfg l p =
    classify (numbering cfg l) ((numbering cfg l).indexSet (containerSorts cfg l)) p := by
  have hcells : (SortNumbering.empty.assignAll ((cellProductions cfg l).map Production.sort)).2 =
      (numbering cfg l).indexSet ((cellProductions cfg l).map Production.sort) :=
    (SortNumbering.assignAll_snd _ _).trans
      (SortNumbering.indexSet_assignAll (fun _ => mem_cellNumbering) _).symm
  have hgeneric : ((cellNumbering cfg l).assignAll [cfg.sorts.bag, cfg.sorts.cell]).2 =
      (numbering cfg l).indexSet [cfg.sorts.bag, cfg.sorts.cell] :=
    SortNumbering.assignAll_snd _ _
  rw [containerSorts, SortNumbering.indexSet_append, ← hcells, ← hgeneric]
  rfl

theorem classify_eq_leaf_iff {t : SortNumbering} {containers : IndexSet} :
    classify t containers p = .leaf ↔ p.content.length = 1 ∧
      containers.intersects (t.indexSet (p.content.filterMap Item.sort?)) = false := by
  simp [classify]

theorem length_content_eq_one_iff :
    p.content.length = 1 ↔ ∃ first item last, p.items = [first, item, last] := by
  rw [length_content, ← List.length_eq_three]
  omega

/-- An item is apart from the containers if it is a terminal or another sort. -/
theorem apart_iff {item : Item} :
    ((numbering cfg l).indexSet (containerSorts cfg l)).intersects
        ((numbering cfg l).indexSet ([item].filterMap Item.sort?)) = false ↔
      ∀ s, item = .nonTerminal s → ¬ Container cfg l s := by
  rw [← Bool.not_eq_true, SortNumbering.intersects_indexSet_iff]
  cases item with
  | terminal t => simp [Item.sort?]
  | nonTerminal s =>
    simp only [Item.nonTerminal.injEq, forall_eq', ← mem_containerSorts]
    refine not_congr ⟨fun h => ?_, fun h => ⟨s, mem_numbering h, h, List.mem_singleton_self s⟩⟩
    obtain ⟨s', -, hcontainer, hs'⟩ := h
    obtain rfl : s' = s := List.mem_singleton.1 hs'
    exact hcontainer

theorem classOf_eq_leaf_iff : classOf cfg l p = .leaf ↔ HoldsValue cfg l p := by
  rw [classOf_eq, classify_eq_leaf_iff, length_content_eq_one_iff, HoldsValue]
  simp only [← exists_and_right]
  refine exists₃_congr fun first item last => and_congr_right fun hitems => ?_
  have hcontent : p.content = [item] := by
    rw [Production.content, hitems]
    rfl
  rw [hcontent, apart_iff]

/-! ## The kinds of sorts -/

section Kinds

variable {kinds : CellKinds} (h : ofSentences? cfg l = some kinds)
include h

theorem kind?_eq_composite_iff_declares : kinds.kind? s = some .composite ↔
    ∃ p, Declares cfg l p ∧ p.sort = s ∧ ¬ HoldsValue cfg l p := by
  have hclass : ∀ p, classOf cfg l p = .composite ↔ ¬ HoldsValue cfg l p := by
    intro p
    rw [← classOf_eq_leaf_iff]
    cases classOf cfg l p <;> simp
  simp only [kind?_eq_composite_iff h, mem_cellProductions, hclass, Declares]

theorem kind?_eq_none_iff_declares :
    kinds.kind? s = none ↔ ∀ p, Declares cfg l p → p.sort ≠ s := by
  simp only [kind?_eq_none_iff h, mem_cellProductions, Declares]

/-- A sort that has cells is a leaf unless it is composite. -/
theorem kind?_eq_leaf_iff : kinds.kind? s = some .leaf ↔
    (∃ p, Declares cfg l p ∧ p.sort = s) ∧
      ∀ p, Declares cfg l p → p.sort = s → HoldsValue cfg l p := by
  have hkinds : kinds.kind? s = some .leaf ↔
      kinds.kind? s ≠ none ∧ kinds.kind? s ≠ some .composite := by
    cases kinds.kind? s with
    | none => simp
    | some kind => cases kind <;> simp
  rw [hkinds, ne_eq, ne_eq, kind?_eq_none_iff_declares h, kind?_eq_composite_iff_declares h]
  simp

end Kinds

theorem ofSentences?_eq_none_iff :
    ofSentences? cfg l = none ↔ ∀ p, ¬ Declares cfg l p := by
  have hempty : ofSentences? cfg l = none ↔ cellProductions cfg l = [] := by
    simp [ofSentences?_eq]
  rw [hempty, List.eq_nil_iff_forall_not_mem]
  simp only [mem_cellProductions, Declares]

/-! ## In any order -/

/-- What is known of each sort determines the kinds. -/
theorem ext_kind? {kinds kinds' : CellKinds} (h : ∀ s, kinds.kind? s = kinds'.kind? s) :
    kinds = kinds' := by
  apply Catalog.ext_find?
  intro s
  have hentry : ∀ kinds : CellKinds, kinds.find? s = (kinds.kind? s).map (s, ·) := by
    intro kinds
    cases hfind : kinds.find? s with
    | none => simp [kind?, hfind]
    | some entry =>
      obtain rfl : entry.1 = s := (Catalog.find?_eq_some_iff.1 hfind).2
      simp [kind?, hfind]
  rw [hentry, hentry, h]

/-- The kinds of cells depend on which sentences there are, not on their order. -/
theorem ofSentences?_congr {l' : List Sentence} (h : ∀ x, x ∈ l' ↔ x ∈ l) :
    ofSentences? cfg l' = ofSentences? cfg l := by
  have hdeclares : Declares cfg l' = Declares cfg l := by
    funext p
    simp only [Declares, h]
  have hvalue : HoldsValue cfg l' = HoldsValue cfg l := by
    funext p
    simp only [HoldsValue, Container, hdeclares]
  cases hk : ofSentences? cfg l with
  | none => rw [ofSentences?_eq_none_iff, hdeclares, ← ofSentences?_eq_none_iff, hk]
  | some kinds =>
    cases hk' : ofSentences? cfg l' with
    | none =>
      rw [ofSentences?_eq_none_iff, hdeclares, ← ofSentences?_eq_none_iff, hk] at hk'
      cases hk'
    | some kinds' =>
      refine congrArg some (ext_kind? fun s => Option.ext fun kind => ?_)
      cases kind with
      | leaf => rw [kind?_eq_leaf_iff hk', kind?_eq_leaf_iff hk, hdeclares, hvalue]
      | composite =>
        rw [kind?_eq_composite_iff_declares hk', kind?_eq_composite_iff_declares hk, hdeclares,
          hvalue]

/-- **The kinds of cells by their shape.** There are kinds if some production is tagged as a cell.
Then a sort has no kind if no such production is of the sort. It is a leaf if it has such
productions and each of them has three items, of which the second is a terminal or a sort that is no
container; if one of them has another shape, it is composite. The sentences have the same kinds in
every order. -/
theorem kinds_by_shape (cfg : Settings) (l : List Sentence) :
    (ofSentences? cfg l = none ↔ ∀ p, ¬ Declares cfg l p) ∧
    (∀ kinds, ofSentences? cfg l = some kinds → ∀ s,
      (kinds.kind? s = none ↔ ∀ p, Declares cfg l p → p.sort ≠ s) ∧
      (kinds.kind? s = some .leaf ↔ (∃ p, Declares cfg l p ∧ p.sort = s) ∧
        ∀ p, Declares cfg l p → p.sort = s → HoldsValue cfg l p) ∧
      (kinds.kind? s = some .composite ↔
        ∃ p, Declares cfg l p ∧ p.sort = s ∧ ¬ HoldsValue cfg l p)) ∧
    ∀ l' : List Sentence, l'.Perm l → ofSentences? cfg l' = ofSentences? cfg l := by
  refine ⟨ofSentences?_eq_none_iff, fun kinds h s => ⟨?_, ?_, ?_⟩, fun l' hperm => ?_⟩
  · exact kind?_eq_none_iff_declares h
  · exact kind?_eq_leaf_iff h
  · exact kind?_eq_composite_iff_declares h
  · exact ofSentences?_congr fun x => hperm.mem_iff

/-- A leaf that comes before the cell it holds, and a cell that holds itself. -/
example :
    let cell (sort : String) (inner : Item) : Sentence :=
      .production (.ofRow ⟨sort⟩ (.ofText "<") [inner, .ofText ">"] none
        (Attributes.setFlag ∅ "cell"))
    let l := [cell "EnvCell" (.nonTerminal ⟨"TCell"⟩), cell "KCell" (.nonTerminal ⟨"K"⟩),
      cell "EnvCell" (.nonTerminal ⟨"Map"⟩), cell "TCell" (.nonTerminal ⟨"TCell"⟩)]
    (ofSentences? {} l).map (fun kinds => kinds.toList.map fun (s, kind) => (s.name, kind)) =
      some [("EnvCell", .composite), ("KCell", .leaf), ("TCell", .composite)] := by
  decide +kernel

end GrammarSynthesis.CellKinds
