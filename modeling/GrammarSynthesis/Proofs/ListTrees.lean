import Mathlib.Data.List.Forall2
import Mathlib.Data.Set.Function
import GrammarSynthesis.Proofs.Terminals
import GrammarSynthesis.Sample.Lambda

/-!
# The trees of a list

A list that is written out is read through two scaffolding sorts, so its trees are not those of the
pair of productions that the user wrote. But there is exactly one tree for each length that the list
may have, and once words and plain injections are left out it is the tree of the pair: a cons for
each element, and the terminator at the end.

Both ways of reading a list are chains: a production that puts an element before the rest of the
list, used again and again, and a tree at the end.

* `Derives`: the trees that sentences make of an item, with one sort that is not looked into;
* `derives_chain_iff`: where a list is an element and a list, or an end, the trees are chains;
* `UserList.derives_form_iff`: the trees of the recursive form;
* `UserList.derives_written_iff`: the trees of the pair of productions;
* `UserList.recursive_form_unambiguous`: both together.
-/
namespace GrammarSynthesis

/-! ## Trees -/

/-- A tree of productions over words and leaves. -/
inductive SyntaxTree where
  | word (t : Terminal)
  /-- A term of a sort that is not looked into. -/
  | leaf (s : SortName)
  | node (p : Production) (row : List SyntaxTree)

/-- A tree of labels over leaves. -/
inductive LabelTree where
  | leaf (s : SortName)
  | node (label : Option String) (row : List LabelTree)

/-- The production only says that terms of one sort are terms of another. -/
def Production.isPlainInjection (p : Production) : Bool :=
  match p.label, p.items with
  | none, [.nonTerminal _] => true
  | _, _ => false

namespace SyntaxTree

mutual

/-- The words and leaves of a tree from left to right. -/
def frontier : SyntaxTree → List Item
  | .word t => [.terminal t]
  | .leaf s => [.nonTerminal s]
  | .node _ row => rowFrontier row

/-- The words and leaves of a row of trees. -/
def rowFrontier : List SyntaxTree → List Item
  | [] => []
  | t :: rest => t.frontier ++ rowFrontier rest

end

/-- How many leaves a tree has. -/
def leafCount (t : SyntaxTree) : Nat := (t.frontier.filterMap Item.sort?).length

mutual

/-- What is left of a tree without its words and its plain injections. -/
def labels : SyntaxTree → List LabelTree
  | .word _ => []
  | .leaf s => [.leaf s]
  | .node p row => if p.isPlainInjection then rowLabels row else [.node p.label (rowLabels row)]

/-- What is left of a row of trees. -/
def rowLabels : List SyntaxTree → List LabelTree
  | [] => []
  | t :: rest => t.labels ++ rowLabels rest

end

section Injection

variable (sort sub : SortName) (t : SyntaxTree)

/-! An injection on top of a tree changes neither its words nor its labels. -/

@[simp] theorem frontier_injection : (node (.injection sort sub) [t]).frontier = t.frontier := by
  simp [frontier, rowFrontier]

@[simp] theorem leafCount_injection : (node (.injection sort sub) [t]).leafCount = t.leafCount := by
  rw [leafCount, frontier_injection, leafCount]

@[simp] theorem labels_injection : (node (.injection sort sub) [t]).labels = t.labels := by
  have hplain : (Production.injection sort sub).isPlainInjection = true := rfl
  simp [labels, rowLabels, hplain]

end Injection

end SyntaxTree

/-- The sentences make the tree of the item. A term of the sort `whole` need not be looked into. -/
inductive Derives (rules : List Sentence) (whole : SortName) : Item → SyntaxTree → Prop where
  | word (t : Terminal) : Derives rules whole (.terminal t) (.word t)
  | leaf : Derives rules whole (.nonTerminal whole) (.leaf whole)
  | node {s : SortName} {p : Production} {row : List SyntaxTree} (hp : .production p ∈ rules)
      (hsort : p.sort = s) (hrow : List.Forall₂ (Derives rules whole) p.items row) :
      Derives rules whole (.nonTerminal s) (.node p row)

section Derives

variable {rules : List Sentence} {whole s : SortName} {tree : SyntaxTree}

theorem derives_terminal_iff {t : Terminal} :
    Derives rules whole (.terminal t) tree ↔ tree = .word t := by
  constructor
  · intro h
    cases h
    rfl
  · rintro rfl
    exact .word t

theorem derives_nonTerminal_iff (hs : s ≠ whole) :
    Derives rules whole (.nonTerminal s) tree ↔ ∃ p row, .production p ∈ rules ∧ p.sort = s ∧
      tree = .node p row ∧ List.Forall₂ (Derives rules whole) p.items row := by
  constructor
  · intro h
    cases h with
    | leaf => exact absurd rfl hs
    | node hp hsort hrow => exact ⟨_, _, hp, hsort, rfl, hrow⟩
  · rintro ⟨p, row, hp, hsort, rfl, hrow⟩
    exact .node hp hsort hrow

/-- A sort without productions has no trees but its leaf. -/
theorem derives_whole_iff (hnone : ∀ p, .production p ∈ rules → p.sort ≠ whole) :
    Derives rules whole (.nonTerminal whole) tree ↔ tree = .leaf whole := by
  constructor
  · intro h
    cases h with
    | leaf => rfl
    | node hp hsort hrow => exact absurd hsort (hnone _ hp)
  · rintro rfl
    exact .leaf

end Derives

/-! ## Chains -/

/-- A chain of `n` elements, each put before the rest by the same production. -/
def chain (step : Production) (element : SortName) (separator : Terminal) (last : SyntaxTree) :
    Nat → SyntaxTree
  | 0 => last
  | n + 1 => .node step [.leaf element, .word separator, chain step element separator last n]

section Chain

variable {rules : List Sentence} {whole s : SortName} {step : Production} {separator : Terminal}
  {last : SyntaxTree}

/-- If a tree of the sort is the last one, or an element and a tree of the sort, then the trees of
the sort are the chains. -/
theorem derives_chain_iff
    (h : ∀ tree, Derives rules whole (.nonTerminal s) tree ↔
      tree = last ∨ ∃ rest, tree = .node step [.leaf whole, .word separator, rest] ∧
        Derives rules whole (.nonTerminal s) rest) {tree : SyntaxTree} :
    Derives rules whole (.nonTerminal s) tree ↔ ∃ n, tree = chain step whole separator last n := by
  constructor
  · -- the rest of a list is a smaller tree
    induction hsize : sizeOf tree using Nat.strong_induction_on generalizing tree with
    | _ size ih =>
      intro htree
      rcases (h tree).1 htree with rfl | ⟨rest, rfl, hrest⟩
      · exact ⟨0, rfl⟩
      · obtain ⟨n, rfl⟩ := ih (sizeOf rest) (by simp [← hsize]; omega) rfl hrest
        exact ⟨n + 1, rfl⟩
  · rintro ⟨n, rfl⟩
    induction n with
    | zero => exact (h _).2 (.inl rfl)
    | succ n ih => exact (h _).2 (.inr ⟨_, rfl, ih⟩)

theorem frontier_chain (n : Nat) :
    (chain step whole separator last n).frontier =
      (List.replicate n [.nonTerminal whole, .terminal separator]).flatten ++ last.frontier := by
  induction n with
  | zero => rfl
  | succ n ih =>
    simp [chain, SyntaxTree.frontier, SyntaxTree.rowFrontier, ih, List.replicate_succ]

theorem leafCount_chain (n : Nat) :
    (chain step whole separator last n).leafCount = n + last.leafCount := by
  have hpairs : ∀ n : Nat, ((List.replicate n
      [Item.nonTerminal whole, .terminal separator]).flatten.filterMap Item.sort?).length = n := by
    intro n
    induction n with
    | zero => rfl
    | succ n ih =>
      rw [List.replicate_succ, List.flatten_cons, List.filterMap_append, List.length_append, ih,
        Nat.add_comm]
      rfl
  rw [SyntaxTree.leafCount, frontier_chain, List.filterMap_append, List.length_append, hpairs]
  rfl

end Chain

namespace UserList

/-! ## The shape of a list -/

/-- The elements with separators between them, and the empty word at the end. -/
def row (u : UserList) (n : Nat) : List Item :=
  (List.replicate n (.nonTerminal u.element)).intersperse (.ofText u.separator) ++ [.ofText ""]

/-- A cons for each element over a terminator. -/
def listLabels (u : UserList) : Nat → LabelTree
  | 0 => .node (some u.terminatorLabel) []
  | n + 1 => .node (some u.listLabel) [.leaf u.element, u.listLabels n]

theorem row_succ (u : UserList) (n : Nat) :
    u.row (n + 1) = (List.replicate n [.nonTerminal u.element, .ofText u.separator]).flatten ++
      [.nonTerminal u.element, .ofText ""] := by
  induction n with
  | zero => rfl
  | succ n ih =>
    rw [row] at ih ⊢
    simp only [List.replicate_succ, List.intersperse_cons_cons, List.cons_append, List.flatten_cons,
      List.nil_append] at ih ⊢
    rw [ih]

theorem labels_chain {u : UserList} {step : Production} {separator : Terminal}
    {last : SyntaxTree} {k : Nat} (hstep : step.label = some u.listLabel)
    (hlast : last.labels = [u.listLabels k]) (n : Nat) :
    (chain step u.element separator last n).labels = [u.listLabels (k + n)] := by
  have hplain : step.isPlainInjection = false := by simp [Production.isPlainInjection, hstep]
  induction n with
  | zero => exact hlast
  | succ n ih =>
    simp [chain, SyntaxTree.labels, SyntaxTree.rowLabels, hplain, hstep, ih, listLabels]

end UserList

/-! ## The recursive form -/

namespace Settings

variable (cfg : Settings) (s : SortName)

theorem length_nonEmptySort : (cfg.nonEmptySort s).name.length = s.name.length + 3 := by
  have htwo : "Ne".length = 2 := by decide
  simp only [nonEmptySort, String.length_append, htwo,
    Char.toString_eq_singleton, String.length_singleton]
  omega

theorem length_terminatorSort : (cfg.terminatorSort s).name.length = s.name.length + 11 := by
  have hten : "Terminator".length = 10 := by decide
  simp only [terminatorSort, String.length_append, hten,
    Char.toString_eq_singleton, String.length_singleton]

/-- The three sorts of a written list differ, as their names differ in length. -/
theorem nonEmptySort_ne : cfg.nonEmptySort s ≠ s := by
  intro h
  have hlength := cfg.length_nonEmptySort s
  rw [h] at hlength
  omega

theorem terminatorSort_ne : cfg.terminatorSort s ≠ s := by
  intro h
  have hlength := cfg.length_terminatorSort s
  rw [h] at hlength
  omega

theorem nonEmptySort_ne_terminatorSort : cfg.nonEmptySort s ≠ cfg.terminatorSort s := by
  intro h
  have hlength := cfg.length_nonEmptySort s
  rw [h, cfg.length_terminatorSort s] at hlength
  omega

end Settings

namespace UserList

variable {cfg : Settings} {u : UserList}

/-- The cons of the last element. -/
def lastCons (cfg : Settings) (u : UserList) : Production :=
  .ofRow (cfg.nonEmptySort u.sort) (.nonTerminal u.element)
    [.nonTerminal (cfg.terminatorSort u.sort)] (some u.listLabel)
    (u.withOrigin cfg u.listLabel u.cons)

/-- The end of a list. -/
def stop (cfg : Settings) (u : UserList) : Production :=
  .ofRow (cfg.terminatorSort u.sort) (.ofText "") [] (some u.terminatorLabel)
    (u.withOrigin cfg u.terminatorLabel u.terminator)

theorem production_mem_parseForm {p : Production} :
    .production p ∈ u.parseForm cfg ↔ p = u.stop cfg ∨ p = u.recursiveCons cfg ∨
      p = u.lastCons cfg ∨ p = .injection u.sort (cfg.nonEmptySort u.sort) ∨
      u.nonEmpty = false ∧ p = .injection u.sort (cfg.terminatorSort u.sort) := by
  have hlast : .production p ∈ (if u.nonEmpty then []
      else [Sentence.production (.injection u.sort (cfg.terminatorSort u.sort))]) ↔
      u.nonEmpty = false ∧ p = .injection u.sort (cfg.terminatorSort u.sort) := by
    cases u.nonEmpty <;> simp
  rw [parseForm, List.mem_append, hlast]
  simp only [List.mem_cons, reduceCtorEq, Sentence.production.injEq, List.not_mem_nil, or_false,
    false_or, or_assoc]
  rfl

/-- The elements of the list are of a sort that the recursive form has no productions of. -/
structure ElementApart (cfg : Settings) (u : UserList) : Prop where
  list : u.element ≠ u.sort
  nonEmpty : u.element ≠ cfg.nonEmptySort u.sort
  terminator : u.element ≠ cfg.terminatorSort u.sort

instance (cfg : Settings) (u : UserList) : Decidable (ElementApart cfg u) :=
  decidable_of_iff (u.element ≠ u.sort ∧ u.element ≠ cfg.nonEmptySort u.sort ∧
      u.element ≠ cfg.terminatorSort u.sort)
    ⟨fun h => ⟨h.1, h.2.1, h.2.2⟩, fun h => ⟨h.list, h.nonEmpty, h.terminator⟩⟩

/-- The tree of the end of a list. -/
def stopTree (cfg : Settings) (u : UserList) : SyntaxTree := .node (u.stop cfg) [.word { text := "" }]

/-- The tree of the last element and the end. -/
def lastTree (cfg : Settings) (u : UserList) : SyntaxTree :=
  .node (u.lastCons cfg) [.leaf u.element, u.stopTree cfg]

/-- The tree that the recursive form makes of a list of `n` elements. -/
def formTree (cfg : Settings) (u : UserList) : Nat → SyntaxTree
  | 0 => .node (.injection u.sort (cfg.terminatorSort u.sort)) [u.stopTree cfg]
  | n + 1 => .node (.injection u.sort (cfg.nonEmptySort u.sort))
      [chain (u.recursiveCons cfg) u.element { text := u.separator } (u.lastTree cfg) n]

/-! Each of the three sorts has productions of its own. -/

section Rules

variable {p : Production} (hp : .production p ∈ u.parseForm cfg)
include hp

theorem rule_of_terminatorSort (hsort : p.sort = cfg.terminatorSort u.sort) : p = u.stop cfg := by
  have hlist := cfg.terminatorSort_ne u.sort
  have hnonEmpty := cfg.nonEmptySort_ne_terminatorSort u.sort
  rcases production_mem_parseForm.1 hp with rfl | rfl | rfl | rfl | ⟨-, rfl⟩
  · rfl
  · exact absurd hsort hnonEmpty
  · exact absurd hsort hnonEmpty
  · exact absurd hsort.symm hlist
  · exact absurd hsort.symm hlist

theorem rule_of_nonEmptySort (hsort : p.sort = cfg.nonEmptySort u.sort) :
    p = u.recursiveCons cfg ∨ p = u.lastCons cfg := by
  have hlist := cfg.nonEmptySort_ne u.sort
  have hterminator := cfg.nonEmptySort_ne_terminatorSort u.sort
  rcases production_mem_parseForm.1 hp with rfl | rfl | rfl | rfl | ⟨-, rfl⟩
  · exact absurd hsort.symm hterminator
  · exact .inl rfl
  · exact .inr rfl
  · exact absurd hsort.symm hlist
  · exact absurd hsort.symm hlist

theorem rule_of_sort (hsort : p.sort = u.sort) :
    p = .injection u.sort (cfg.nonEmptySort u.sort) ∨
      u.nonEmpty = false ∧ p = .injection u.sort (cfg.terminatorSort u.sort) := by
  rcases production_mem_parseForm.1 hp with rfl | rfl | rfl | rfl | ⟨hempty, rfl⟩
  · exact absurd hsort (cfg.terminatorSort_ne u.sort)
  · exact absurd hsort (cfg.nonEmptySort_ne u.sort)
  · exact absurd hsort (cfg.nonEmptySort_ne u.sort)
  · exact .inl rfl
  · exact .inr ⟨hempty, rfl⟩

end Rules

section Form

variable (h : u.ElementApart cfg) {tree : SyntaxTree}
include h

theorem derives_element_iff : Derives (u.parseForm cfg) u.element (.nonTerminal u.element) tree ↔
    tree = .leaf u.element := by
  refine derives_whole_iff fun p hp hsort => ?_
  rcases production_mem_parseForm.1 hp with rfl | rfl | rfl | rfl | ⟨-, rfl⟩
  · exact h.terminator hsort.symm
  · exact h.nonEmpty hsort.symm
  · exact h.nonEmpty hsort.symm
  · exact h.list hsort.symm
  · exact h.list hsort.symm

/-- The end of a list is the empty word. -/
theorem derives_terminator_iff :
    Derives (u.parseForm cfg) u.element (.nonTerminal (cfg.terminatorSort u.sort)) tree ↔
      tree = u.stopTree cfg := by
  rw [derives_nonTerminal_iff h.terminator.symm]
  constructor
  · rintro ⟨p, row, hp, hsort, rfl, hrow⟩
    obtain rfl := rule_of_terminatorSort hp hsort
    obtain - | ⟨hword, - | -⟩ := hrow
    rw [derives_terminal_iff.1 hword]
    rfl
  · rintro rfl
    exact ⟨_, _, production_mem_parseForm.2 (.inl rfl), rfl, rfl, .cons (.word _) .nil⟩

/-- A list that is not empty is an element and a list that is not empty, or an element and the end
of the list. -/
theorem derives_nonEmpty_iff_step :
    Derives (u.parseForm cfg) u.element (.nonTerminal (cfg.nonEmptySort u.sort)) tree ↔
      tree = u.lastTree cfg ∨ ∃ rest,
        tree = .node (u.recursiveCons cfg)
          [.leaf u.element, .word { text := u.separator }, rest] ∧
        Derives (u.parseForm cfg) u.element (.nonTerminal (cfg.nonEmptySort u.sort)) rest := by
  have hcons : Sentence.production (u.recursiveCons cfg) ∈ u.parseForm cfg :=
    production_mem_parseForm.2 (.inr (.inl rfl))
  have hlast : Sentence.production (u.lastCons cfg) ∈ u.parseForm cfg :=
    production_mem_parseForm.2 (.inr (.inr (.inl rfl)))
  rw [derives_nonTerminal_iff h.nonEmpty.symm]
  constructor
  · rintro ⟨p, row, hp, hsort, rfl, hrow⟩
    rcases rule_of_nonEmptySort hp hsort with rfl | rfl
    · obtain - | ⟨helement, - | ⟨hseparator, - | ⟨hrest, - | -⟩⟩⟩ := hrow
      refine .inr ⟨_, ?_, hrest⟩
      rw [(derives_element_iff h).1 helement, derives_terminal_iff.1 hseparator]
    · obtain - | ⟨helement, - | ⟨hstop, - | -⟩⟩ := hrow
      rw [(derives_element_iff h).1 helement, (derives_terminator_iff h).1 hstop]
      exact .inl rfl
  · rintro (rfl | ⟨rest, rfl, hrest⟩)
    · have hstop := (derives_terminator_iff h).2 rfl
      exact ⟨_, _, hlast, rfl, rfl, .cons .leaf (.cons hstop .nil)⟩
    · exact ⟨_, _, hcons, rfl, rfl, .cons .leaf (.cons (.word _) (.cons hrest .nil))⟩

theorem derives_nonEmpty_iff :
    Derives (u.parseForm cfg) u.element (.nonTerminal (cfg.nonEmptySort u.sort)) tree ↔
      ∃ n, tree = chain (u.recursiveCons cfg) u.element { text := u.separator }
        (u.lastTree cfg) n :=
  derives_chain_iff fun _ => derives_nonEmpty_iff_step h

/-- The trees of the recursive form: one for each length. -/
theorem derives_form_iff : Derives (u.parseForm cfg) u.element (.nonTerminal u.sort) tree ↔
    ∃ n, (u.nonEmpty = true → 1 ≤ n) ∧ tree = u.formTree cfg n := by
  rw [derives_nonTerminal_iff h.list.symm]
  constructor
  · rintro ⟨p, row, hp, hsort, rfl, hrow⟩
    rcases rule_of_sort hp hsort with rfl | ⟨hempty, rfl⟩
    · obtain - | ⟨hlist, - | -⟩ := hrow
      obtain ⟨n, rfl⟩ := (derives_nonEmpty_iff h).1 hlist
      exact ⟨n + 1, fun _ => Nat.le_add_left 1 n, rfl⟩
    · obtain - | ⟨hstop, - | -⟩ := hrow
      rw [(derives_terminator_iff h).1 hstop]
      exact ⟨0, fun hne => absurd (hempty.symm.trans hne) Bool.false_ne_true, rfl⟩
  · rintro ⟨n, hn, rfl⟩
    cases n with
    | zero =>
      have hempty : u.nonEmpty = false := Bool.eq_false_iff.2 fun hne => absurd (hn hne) (by omega)
      have hrule : Sentence.production (.injection u.sort (cfg.terminatorSort u.sort)) ∈
          u.parseForm cfg := production_mem_parseForm.2 (.inr (.inr (.inr (.inr ⟨hempty, rfl⟩))))
      exact ⟨_, _, hrule, rfl, rfl, .cons ((derives_terminator_iff h).2 rfl) .nil⟩
    | succ n =>
      have hrule : Sentence.production (.injection u.sort (cfg.nonEmptySort u.sort)) ∈
          u.parseForm cfg := production_mem_parseForm.2 (.inr (.inr (.inr (.inl rfl))))
      exact ⟨_, _, hrule, rfl, rfl, .cons ((derives_nonEmpty_iff h).2 ⟨n, rfl⟩) .nil⟩

end Form

theorem frontier_formTree (n : Nat) : (u.formTree cfg n).frontier = u.row n := by
  cases n with
  | zero => rfl
  | succ n =>
    rw [row_succ, formTree, SyntaxTree.frontier_injection, frontier_chain]
    rfl

theorem leafCount_formTree (n : Nat) : (u.formTree cfg n).leafCount = n := by
  cases n with
  | zero => rfl
  | succ n =>
    rw [formTree, SyntaxTree.leafCount_injection, leafCount_chain]
    rfl

theorem labels_formTree (n : Nat) : (u.formTree cfg n).labels = [u.listLabels n] := by
  cases n with
  | zero => rfl
  | succ n =>
    have hlast : (u.lastTree cfg).labels = [u.listLabels 1] := rfl
    rw [formTree, SyntaxTree.labels_injection, labels_chain rfl hlast, Nat.add_comm]

/-! ## The pair of productions -/

/-- The two productions are a list as it is written: a cons and a terminator of its sort with the
labels of the list. Follow sets, attributes and locations do not matter. -/
structure WrittenBy (u : UserList) (cons terminator : Production) (separator stop : Terminal) :
    Prop where
  consSort : cons.sort = u.sort
  consItems : cons.items = [.nonTerminal u.element, .terminal separator, .nonTerminal u.sort]
  consLabel : cons.label = some u.listLabel
  separatorText : separator.text = u.separator
  stopSort : terminator.sort = u.sort
  stopItems : terminator.items = [.terminal stop]
  stopLabel : terminator.label = some u.terminatorLabel

section Written

variable {cons terminator : Production} {separator stop : Terminal}
  (h : u.WrittenBy cons terminator separator stop) (hu : u.element ≠ u.sort)
include h hu

/-- The trees of the pair: one for each length. -/
theorem derives_written_iff {tree : SyntaxTree} :
    Derives [.production cons, .production terminator] u.element (.nonTerminal u.sort) tree ↔
      ∃ n, tree = chain cons u.element separator (.node terminator [.word stop]) n := by
  have helement : ∀ tree, Derives [.production cons, .production terminator] u.element
      (.nonTerminal u.element) tree ↔ tree = .leaf u.element := by
    refine fun tree => derives_whole_iff fun p hp hsort => ?_
    simp only [List.mem_cons, Sentence.production.injEq, List.not_mem_nil, or_false] at hp
    rcases hp with rfl | rfl
    · exact hu (hsort.symm.trans h.consSort)
    · exact hu (hsort.symm.trans h.stopSort)
  refine derives_chain_iff fun tree => ?_
  rw [derives_nonTerminal_iff hu.symm]
  constructor
  · rintro ⟨p, row, hp, hsort, rfl, hrow⟩
    simp only [List.mem_cons, Sentence.production.injEq, List.not_mem_nil, or_false] at hp
    rcases hp with rfl | rfl
    · rw [h.consItems] at hrow
      obtain - | ⟨hfirst, - | ⟨hseparator, - | ⟨hrest, - | -⟩⟩⟩ := hrow
      refine .inr ⟨_, ?_, hrest⟩
      rw [(helement _).1 hfirst, derives_terminal_iff.1 hseparator]
    · rw [h.stopItems] at hrow
      obtain - | ⟨hstop, - | -⟩ := hrow
      rw [derives_terminal_iff.1 hstop]
      exact .inl rfl
  · rintro (rfl | ⟨rest, rfl, hrest⟩)
    · refine ⟨terminator, _, by simp, h.stopSort, rfl, ?_⟩
      rw [h.stopItems]
      exact .cons (.word stop) .nil
    · refine ⟨cons, _, by simp, h.consSort, rfl, ?_⟩
      rw [h.consItems]
      exact .cons .leaf (.cons (.word separator) (.cons hrest .nil))

/-- The pair makes one tree of each length. Its labels are those of the list. -/
theorem exists_written_tree (n : Nat) :
    ∃ written, (∀ tree, Derives [.production cons, .production terminator] u.element
        (.nonTerminal u.sort) tree ∧ tree.leafCount = n ↔ tree = written) ∧
      written.labels = [u.listLabels n] := by
  have hlast : (SyntaxTree.node terminator [.word stop]).labels = [u.listLabels 0] := by
    have hplain : terminator.isPlainInjection = false := by
      simp [Production.isPlainInjection, h.stopLabel]
    simp [SyntaxTree.labels, SyntaxTree.rowLabels, hplain, h.stopLabel, listLabels]
  have hcount : ∀ k, (chain cons u.element separator (.node terminator [.word stop]) k).leafCount =
      k := fun k => leafCount_chain k
  refine ⟨chain cons u.element separator (.node terminator [.word stop]) n, fun tree => ?_, ?_⟩
  · rw [derives_written_iff h hu]
    constructor
    · rintro ⟨⟨k, rfl⟩, hk⟩
      rw [hcount] at hk
      rw [hk]
    · rintro rfl
      exact ⟨⟨n, rfl⟩, hcount n⟩
  · rw [labels_chain h.consLabel hlast, Nat.zero_add]

end Written

/-- **The recursive form of a list is unambiguous and builds the trees of the list as written.**
Let the elements be of a sort that is none of the list's own three sorts, and look into no element.
Then the form has exactly one tree for each number of elements, from one on, or from none on if the
list may be empty. A tree of `n` elements reads these elements with separators between them and the
empty word at the end. Without words and plain injections it is a cons for each element over a
terminator, as is the only tree of `n` elements that the pair of productions of the list makes. -/
theorem recursive_form_unambiguous {cfg : Settings} {u : UserList} (h : u.ElementApart cfg) :
    Set.BijOn SyntaxTree.leafCount
      {tree | Derives (u.parseForm cfg) u.element (.nonTerminal u.sort) tree}
      {n | u.nonEmpty = true → 1 ≤ n} ∧
    ∀ tree, Derives (u.parseForm cfg) u.element (.nonTerminal u.sort) tree →
      tree.frontier = u.row tree.leafCount ∧ tree.labels = [u.listLabels tree.leafCount] ∧
      ∀ cons terminator separator stop, u.WrittenBy cons terminator separator stop →
        ∃ written, (∀ tree', Derives [.production cons, .production terminator] u.element
            (.nonTerminal u.sort) tree' ∧ tree'.leafCount = tree.leafCount ↔ tree' = written) ∧
          written.labels = tree.labels := by
  refine ⟨⟨fun tree htree => ?_, fun tree htree tree' htree' hcount => ?_, fun n hn => ?_⟩,
    fun tree htree => ?_⟩
  · obtain ⟨n, hn, rfl⟩ := (derives_form_iff h).1 htree
    rw [leafCount_formTree]
    exact hn
  · obtain ⟨n, -, rfl⟩ := (derives_form_iff h).1 htree
    obtain ⟨k, -, rfl⟩ := (derives_form_iff h).1 htree'
    rw [leafCount_formTree, leafCount_formTree] at hcount
    rw [hcount]
  · exact ⟨u.formTree cfg n, (derives_form_iff h).2 ⟨n, hn, rfl⟩, leafCount_formTree n⟩
  · obtain ⟨n, -, rfl⟩ := (derives_form_iff h).1 htree
    rw [leafCount_formTree, frontier_formTree, labels_formTree]
    refine ⟨rfl, rfl, fun cons terminator separator stop hpair => ?_⟩
    exact exists_written_tree hpair h.list n

/-- The sample's list of expressions: three expressions are read in one way, and what is read has
the labels of the list as it is written. -/
theorem recursive_form_unambiguous_lambda :
    ∃ cons terminator, .production cons ∈ Sample.lambdaModule.sentences ∧
      .production terminator ∈ Sample.lambdaModule.sentences ∧
      ∃ u ∈ ofSentences {} Sample.lambdaModule.sentences.toList, u.ElementApart {} ∧
      ∃ tree, Derives (u.parseForm {}) ⟨"Exp"⟩ (.nonTerminal ⟨"Exps"⟩) tree ∧
        tree.frontier = [Sample.sort "Exp", Sample.word ",", Sample.sort "Exp", Sample.word ",",
          Sample.sort "Exp", Sample.word ""] ∧
        (∀ tree', Derives (u.parseForm {}) ⟨"Exp"⟩ (.nonTerminal ⟨"Exps"⟩) tree' →
          tree'.leafCount = 3 → tree' = tree) ∧
        ∃ written, Derives [.production cons, .production terminator] ⟨"Exp"⟩
          (.nonTerminal ⟨"Exps"⟩) written ∧ written.labels = tree.labels := by
  have run : ∃ u ∈ ofSentences {} Sample.lambdaModule.sentences.toList, u.ElementApart {} ∧
      u.sort = ⟨"Exps"⟩ ∧ u.element = ⟨"Exp"⟩ ∧ u.nonEmpty = false ∧
      (u.listLabel = "_,_" ∧ u.separator = "," ∧ u.terminatorLabel = ".Exps") ∧
      u.row 3 = [Sample.sort "Exp", Sample.word ",", Sample.sort "Exp", Sample.word ",",
        Sample.sort "Exp", Sample.word ""] := by
    decide +kernel
  obtain ⟨u, hu, hapart, hsort, helement, hempty, ⟨hlist, hseparator, hstop⟩, hrow⟩ := run
  have hpair : u.WrittenBy
      (.ofRow ⟨"Exps"⟩ (Sample.sort "Exp") [Sample.word ",", Sample.sort "Exps"] (some "_,_")
        Sample.listTag)
      (.ofRow ⟨"Exps"⟩ (Sample.word ".Exps") [] (some ".Exps") Sample.listTag)
      { text := "," } { text := ".Exps" } := by
    constructor <;> simp [Production.ofRow, Sample.sort, Sample.word, Item.ofText, *]
  have hthree : (3 : Nat) ∈ {n | u.nonEmpty = true → 1 ≤ n} := fun _ => by omega
  obtain ⟨⟨-, hinj, hsurj⟩, hall⟩ := recursive_form_unambiguous hapart
  obtain ⟨tree, htree, hcount⟩ := hsurj hthree
  obtain ⟨hfrontier, -, hwritten⟩ := hall tree htree
  obtain ⟨written, hiff, hlabels⟩ := hwritten _ _ _ _ hpair
  rw [hsort, helement] at hiff hinj htree
  refine ⟨_, _, by decide +kernel, by decide +kernel, u, hu, hapart, tree, htree, ?_,
    fun tree' htree' hcount' => ?_, written, ((hiff written).2 rfl).1, hlabels⟩
  · rw [hfrontier, hcount, hrow]
  · exact hinj htree' htree (hcount'.trans hcount.symm)

end UserList

end GrammarSynthesis
