import GrammarSynthesis.Grammar.SortNumbering
import GrammarSynthesis.Journal
import GrammarSynthesis.Settings.Basic

/-!
# Cells

A rule may leave out parts of a cell, as in `<k> X => Y ...</k>`. To allow this, a cell production

`KCell ::= "<k>" K "</k>"`

is loosened to

`KCell ::= "<k>" #OptionalDots K #OptionalDots "</k>"` and `Cell ::= KCell`.

Between the dots stands the one item of a *leaf* cell, or a bag for a *composite* cell, which holds
other cells. Productions tagged as fragments stay and get the injection into `Cell` only. A cell
must begin and end with terminals, its brackets.
-/
namespace GrammarSynthesis

inductive CellKind where
  /-- Holds a single value that is no cell. -/
  | leaf
  /-- Holds a bag of cells. -/
  | composite
  deriving DecidableEq, Repr

def CellKind.name : CellKind → String
  | leaf => "leaf"
  | composite => "composite"

/-- The kinds of the sorts that have cell productions. -/
abbrev CellKinds := Catalog (Prod.fst : SortName × CellKind → SortName)

/-- The items between the first and the last. -/
def Production.content (p : Production) : List Item := p.items.tail.dropLast

/-- The first and the last item, if there are two and they are terminals. -/
def Production.brackets? (p : Production) : Option (Terminal × Terminal) :=
  match p.items.head?, p.items.tail.getLast? with
  | some (.terminal first), some (.terminal last) => some (first, last)
  | _, _ => none

namespace CellKinds

/-- The cell productions among sentences. -/
def cellProductions (cfg : Settings) (l : List Sentence) : List Production :=
  (productionsOf l).filter fun p => p.hasAttribute cfg.keys.cell

/-- A cell is a leaf if it has one item that is no container. -/
def classify (numbering : SortNumbering) (containers : IndexSet) (p : Production) : CellKind :=
  let contentSorts := numbering.indexSet (p.content.filterMap Item.sort?)
  if p.content.length = 1 && !containers.intersects contentSorts then .leaf else .composite

def kind? (kinds : CellKinds) (s : SortName) : Option CellKind := (kinds.find? s).map Prod.snd

def isLeaf (kinds : CellKinds) (s : SortName) : Bool := kinds.kind? s == some .leaf

/-- Note the kind of one cell production. A sort with several is composite if one of them is. -/
def record (kinds : CellKinds) (s : SortName) (kind : CellKind) : CellKinds :=
  match kinds.kind? s, kind with
  | none, _ => kinds.insert (s, kind)
  | some _, .composite => kinds.insert (s, .composite)
  | some _, .leaf => kinds

/-- The kinds of the cells that the sentences declare; there are none if no production is a cell.
The sorts of cells, bags and the sort `Cell` are containers. -/
def ofSentences? (cfg : Settings) (l : List Sentence) : Option CellKinds :=
  let cells := cellProductions cfg l
  if cells.isEmpty then none
  else
    let (numbering, sorts) := SortNumbering.empty.assignAll (cells.map Production.sort)
    let (numbering, generic) := numbering.assignAll [cfg.sorts.bag, cfg.sorts.cell]
    let containers := sorts ∪ generic
    some (cells.foldl (fun kinds p => record kinds p.sort (classify numbering containers p)) ∅)

/-! ## Loosening -/

/-- The injection into the sort of all cells. -/
def bridge (cfg : Settings) (s : SortName) : Sentence := .production (.injection cfg.sorts.cell s)

/-- What stands between the dots of a cell. -/
def body (cfg : Settings) (kinds : CellKinds) (p : Production) : Item :=
  match kinds.kind? p.sort, p.content with
  | some .leaf, [item] => item
  | _, _ => .nonTerminal cfg.sorts.bag

/-- The cell production with optional dots inside its brackets. -/
def loosen (cfg : Settings) (kinds : CellKinds) (p : Production) :
    Except SynthesisError Production :=
  match p.brackets? with
  | none => .error (.malformedCell p.sort p.render p.location)
  | some (first, last) =>
    let dots := Item.nonTerminal cfg.sorts.dots
    .ok { p with
      items := [.terminal first, dots, body cfg kinds p, dots, .terminal last]
      items_ne_nil := by simp }

/-- The sentences that take the place of a sentence. -/
def replacements (cfg : Settings) (kinds : CellKinds) :
    Sentence → Except SynthesisError (List Sentence)
  | .declaration s => .ok [.declaration s]
  | .production p =>
    if p.hasAttribute cfg.keys.cell then
      (loosen cfg kinds p).map fun q => [.production q, bridge cfg p.sort]
    else if p.hasAttribute cfg.keys.cellFragment then
      .ok [.production p, bridge cfg p.sort]
    else .ok [.production p]

/-- Loosen every cell production. The first malformed cell is the error. -/
def loosenAll (cfg : Settings) (kinds : CellKinds) (set : SentenceSet) :
    Except SynthesisError SentenceSet :=
  (set.toList.mapM (replacements cfg kinds)).map fun groups => Catalog.ofList groups.flatten

/-! ## The journal -/

/-- What `replacements` tells. -/
def loosenEvents (cfg : Settings) (kinds : CellKinds) : Sentence → List Event
  | .declaration _ => []
  | .production p =>
    if p.hasAttribute cfg.keys.cell then
      match loosen cfg kinds p with
      | .error e => [.error 0 e.message]
      | .ok q => [.trace 4 ("rewrote cell " ++ p.sort.name ++ " to " ++ q.render)]
    else []

/-- What `loosenAll` tells: nothing after the first malformed cell. -/
def loosenAllEvents (cfg : Settings) (kinds : CellKinds) : List Sentence → List Event
  | [] => []
  | s :: rest =>
    loosenEvents cfg kinds s ++
      match replacements cfg kinds s with
      | .error _ => []
      | .ok _ => loosenAllEvents cfg kinds rest

end CellKinds

end GrammarSynthesis
