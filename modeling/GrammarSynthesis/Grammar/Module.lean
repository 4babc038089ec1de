import GrammarSynthesis.Grammar.Sentence

/-!
# Modules

A module has a name, imports other modules by name, and holds a set of sentences.
-/
namespace GrammarSynthesis

structure Module where
  name : String
  /-- Names in the order of declaration. -/
  imports : List String := []
  sentences : SentenceSet := ∅
  attributes : Attributes := ∅
  deriving DecidableEq, Repr

namespace Module

/-- Import `name`, unless it is imported already. -/
def addImport (m : Module) (name : String) : Module :=
  if name ∈ m.imports then m else { m with imports := m.imports ++ [name] }

/-- Add sentences. -/
def extend (m : Module) (l : List Sentence) : Module :=
  { m with sentences := m.sentences.insertAll l }

/-- The productions in the order of the sentences. -/
def productions (m : Module) : List Production := productionsOf m.sentences.toList

/-- The sorts that the module's own sentences define. -/
def localSorts (m : Module) : OrdSet SortName := definedSorts m.sentences.toList

/-! ## Text -/

/-- The module as it is declared. -/
def render (m : Module) : String :=
  Text.lines (("module " ++ m.name) :: m.imports.map ("  imports " ++ ·) ++
    m.sentences.toList.map ("  " ++ ·.render)) ++ "endmodule"

/-- A summary line, left out if there is nothing to list. -/
def summary (title : String) (items : List String) : List String :=
  if items.isEmpty then [] else ["  " ++ title ++ ": [" ++ Text.joined ", " items ++ "]"]

/-- The module's contents under headings; a heading with nothing under it is left out. -/
def outline (m : Module) : String :=
  let productions := m.productions.map ("    " ++ ·.render)
  Text.lines <|
    ["Module \x7b", "  name: " ++ m.name] ++
    summary "imports" m.imports ++
    summary "attributes" (m.attributes.toList.map Attribute.render) ++
    summary "sorts" (m.localSorts.toList.map SortName.name) ++
    (if productions.isEmpty then [] else "  productions: [" :: productions ++ ["  ]"]) ++
    ["\x7d"]

end Module

end GrammarSynthesis
