import GrammarSynthesis.Grammar.Attributes
import GrammarSynthesis.Grammar.Fault
import GrammarSynthesis.Grammar.SortName
import GrammarSynthesis.Text.Quoted

/-!
# Productions

A production derives a nonempty row of terminals and sorts from its sort. A terminal may carry a
follow set: texts that must not come right after it.

Results: productions, terminals and items are totally ordered, and only equal ones compare equal
(the instances of `Std.TransOrd` and `Std.LawfulEqOrd`).
-/
namespace GrammarSynthesis

/-! ## Locations -/

/-- Where a production was written. -/
@[ext] structure Location where
  source : String
  line : Nat
  column : Nat
  deriving DecidableEq, Repr

namespace Location

instance : Ord Location :=
  ⟨compareLex (compareOn source) (compareLex (compareOn line) (compareOn column))⟩

instance : Std.TransOrd Location := inferInstanceAs <|
  Std.TransCmp (compareLex (compareOn source) (compareLex (compareOn line) (compareOn column)))

instance : Std.LawfulEqOrd Location where
  compare_self {a} := by simp [compare, compareLex_eq_eq, compareOn_eq_iff]
  eq_of_compare {a b} h := by
    simp only [compare, compareLex_eq_eq, compareOn_eq_iff] at h
    exact Location.ext_iff.2 h

def render (l : Location) : String :=
  l.source ++ ":" ++ toString l.line ++ ":" ++ toString l.column

end Location

/-! ## Items -/

/-- A text in the input, with the texts that must not follow it. -/
@[ext] structure Terminal where
  text : String
  follow : OrdSet String := ∅
  deriving DecidableEq, Repr

namespace Terminal

instance : Ord Terminal := ⟨compareLex (compareOn text) (compareOn follow)⟩

instance : Std.TransOrd Terminal :=
  inferInstanceAs (Std.TransCmp (compareLex (compareOn text) (compareOn follow)))

instance : Std.LawfulEqOrd Terminal where
  compare_self {a} := by simp [compare, compareLex_eq_eq, compareOn_eq_iff]
  eq_of_compare {a b} h := by
    simp only [compare, compareLex_eq_eq, compareOn_eq_iff] at h
    exact Terminal.ext_iff.2 h

/-- The quoted text, followed by the quoted follow set if there is one. -/
def render (t : Terminal) : String :=
  Text.quoted t.text ++
    if t.follow.isEmpty then ""
    else "(?!" ++ Text.joined "|" (t.follow.toList.map Text.quoted) ++ ")"

end Terminal

inductive Item where
  | terminal (t : Terminal)
  | nonTerminal (sort : SortName)
  deriving DecidableEq, Repr

namespace Item

/-- Terminals and nonterminals as the two sides of a sum: a terminal is less than a nonterminal. -/
def toSum : Item → Terminal ⊕ SortName
  | terminal t => .inl t
  | nonTerminal s => .inr s

theorem toSum_inj {a b : Item} : a.toSum = b.toSum ↔ a = b := by
  cases a <;> cases b <;> simp [toSum]

instance : Ord Item := ⟨compareOn toSum⟩

instance : Std.TransOrd Item := inferInstanceAs (Std.TransCmp (compareOn toSum))

instance : Std.LawfulEqOrd Item where
  compare_self := compareOn_self
  eq_of_compare h := toSum_inj.1 (compareOn_eq_iff.1 h)

/-- A terminal without follow set. -/
def ofText (text : String) : Item := terminal { text }

def isTerminal : Item → Bool
  | terminal _ => true
  | nonTerminal _ => false

def sort? : Item → Option SortName
  | terminal _ => none
  | nonTerminal s => some s

def terminal? : Item → Option Terminal
  | terminal t => some t
  | nonTerminal _ => none

def render : Item → String
  | terminal t => t.render
  | nonTerminal s => s.name

end Item

/-! ## Productions -/

@[ext] structure Production where
  sort : SortName
  items : List Item
  label : Option String := none
  attributes : Attributes := ∅
  location : Option Location := none
  items_ne_nil : items ≠ []
  deriving DecidableEq, Repr

namespace Production

/-- The fields in the order in which they are compared. -/
def compareFields : Production → Production → Ordering :=
  compareLex (compareOn sort) <| compareLex (compareOn items) <| compareLex (compareOn label) <|
    compareLex (compareOn attributes) (compareOn location)

instance : Ord Production := ⟨compareFields⟩

instance : Std.TransOrd Production := inferInstanceAs <| Std.TransCmp <|
  compareLex (compareOn sort) <| compareLex (compareOn items) <| compareLex (compareOn label) <|
    compareLex (compareOn attributes) (compareOn location)

instance : Std.LawfulEqOrd Production where
  compare_self {a} := by simp [compare, compareFields, compareLex_eq_eq, compareOn_eq_iff]
  eq_of_compare {a b} h := by
    simp only [compare, compareFields, compareLex_eq_eq, compareOn_eq_iff] at h
    exact Production.ext_iff.2 h

/-- The production with these items; a row without items is refused. -/
def ofItems (sort : SortName) (items : List Item) : Except Fault Production :=
  if h : items = [] then .error .emptyProduction
  else .ok { sort, items, items_ne_nil := h }

/-- The production of a row with a first item. -/
def ofRow (sort : SortName) (first : Item) (rest : List Item) (label : Option String := none)
    (attributes : Attributes := ∅) : Production :=
  { sort, items := first :: rest, label, attributes, items_ne_nil := List.cons_ne_nil first rest }

/-- The production that makes every `sub` a `sort`. -/
def injection (sort sub : SortName) : Production := ofRow sort (.nonTerminal sub) []

/-- The sorts among the items, in item order. -/
def nonTerminals (p : Production) : List SortName := p.items.filterMap Item.sort?

/-- The terminals among the items, in item order. -/
def terminals (p : Production) : List Terminal := p.items.filterMap Item.terminal?

def hasAttribute (p : Production) (key : String) : Bool := p.attributes.hasKey key

/-- The annotations after the items: the label, then the attributes. -/
def annotations (p : Production) : List String :=
  (p.label.toList.map fun l => "label(" ++ l ++ ")") ++
    if p.attributes.isEmpty then [] else [p.attributes.render]

def render (p : Production) : String :=
  p.sort.name ++ " ::= " ++ Text.joined " " (p.items.map Item.render) ++
    if p.annotations.isEmpty then "" else " [" ++ Text.joined ", " p.annotations ++ "]"

instance : ToString Production := ⟨render⟩

end Production

end GrammarSynthesis
