import GrammarSynthesis.Settings.Basic

/-!
# The base modules

A small base definition: the sorts and productions that every grammar of the framework builds upon,
and one marker module for each capability. The markers of rules and of configurations import the
markers of the capabilities that these grammars need.
-/
namespace GrammarSynthesis.Settings

/-- A production with a label. -/
def labelled (sort : SortName) (first : Item) (rest : List Item) (label : String) : Sentence :=
  .production (.ofRow sort first rest (some label))

/-- The sorts of terms and their syntax. -/
def basicModuleBody (cfg : Settings) : Module :=
  let r := cfg.sorts
  { name := cfg.basicModule
    sentences := Catalog.ofList [
      .declaration r.top,
      .declaration r.item,
      .declaration r.bottom,
      .declaration r.label,
      .declaration r.list,
      .production (.injection r.top r.item),
      labelled r.item (.nonTerminal r.label) [.ofText "(", .nonTerminal r.list, .ofText ")"]
        "#KApply",
      .production (.injection r.list r.top),
      labelled r.list (.ofText ".KList") [] "#EmptyKList",
      labelled r.list (.nonTerminal r.list) [.ofText ",", .nonTerminal r.list] "#KList"] }

/-- Sequences, arrows and the syntax of cells. -/
def coreModuleBody (cfg : Settings) : Module :=
  let r := cfg.sorts
  { name := cfg.coreModule
    imports := [cfg.basicModule]
    sentences := Catalog.ofList [
      .declaration r.cell,
      .declaration r.bag,
      .declaration r.dots,
      labelled r.top (.nonTerminal r.top) [.ofText "~>", .nonTerminal r.top] "#KSequence",
      labelled r.top (.ofText ".K") [] "#EmptyK",
      labelled r.top (.nonTerminal r.top) [.ofText "=>", .nonTerminal r.top] "#KRewrite",
      labelled r.bag (.nonTerminal r.bag) [.nonTerminal r.bag] "#cells",
      labelled r.bag (.ofText ".Bag") [] "#cells",
      .production (.injection r.bag r.cell),
      labelled r.dots (.ofText "...") [] "#dots",
      labelled r.dots (.ofText "") [] "#noDots"] }

/-- The name of a marker module; a capability without a marker has the empty name. -/
def markerOrEmpty (cfg : Settings) (c : Capability) : String := (cfg.marker? c).getD ""

/-- What the marker module of a capability imports. -/
def markerImports (cfg : Settings) : Capability → List String
  | .ruleCells =>
    cfg.coreModule ::
      [Capability.autoCasts, .topSort, .bottomSort, .autoFollow, .ruleLists].map cfg.markerOrEmpty
  | .configCells =>
    cfg.coreModule :: [Capability.autoCasts, .topSort, .bottomSort].map cfg.markerOrEmpty
  | _ => []

def markerModules (cfg : Settings) : List Module :=
  cfg.markers.map fun (c, name) => { name, imports := cfg.markerImports c }

/-- The base definition. Where names repeat, the later module counts. -/
def standardBase (cfg : Settings) : Definition :=
  { own := Catalog.ofList (cfg.basicModuleBody :: cfg.coreModuleBody :: cfg.markerModules) }

end GrammarSynthesis.Settings
