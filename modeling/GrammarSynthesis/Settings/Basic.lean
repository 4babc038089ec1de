import GrammarSynthesis.Grammar.ImportClosure
import GrammarSynthesis.Settings.Capability

/-!
# Settings

The names that the transforms go by: sorts and attributes with a role, the modules of the base that
every grammar needs, and the marker modules that switch capabilities on.
-/
namespace GrammarSynthesis

/-- Sorts that the transforms refer to by role. -/
structure SortRoles where
  /-- The universal top sort. -/
  top : SortName := ⟨"K"⟩
  /-- The universal bottom sort. -/
  bottom : SortName := ⟨"KBott"⟩
  /-- A single step of a computation. -/
  item : SortName := ⟨"KItem"⟩
  label : SortName := ⟨"KLabel"⟩
  list : SortName := ⟨"KList"⟩
  /-- The sort into which every cell is injected. -/
  cell : SortName := ⟨"Cell"⟩
  /-- What a cell of cells holds. -/
  bag : SortName := ⟨"Bag"⟩
  /-- Three dots, or nothing, inside a cell of a rule. -/
  dots : SortName := ⟨"#OptionalDots"⟩
  deriving DecidableEq, Repr

/-- Attributes that the transforms read or write. -/
structure AttributeKeys where
  /-- Marks the production of a cell. -/
  cell : String := "cell"
  /-- Marks a production that stands where cells stand. -/
  cellFragment : String := "cellFragment"
  /-- Marks the two productions of a user list. -/
  userList : String := "userList"
  /-- Names the sort of a cast. -/
  sortKey : String := "sortKey"
  /-- Keeps the label that a production of a user list had. -/
  label : String := "klabel"
  /-- Keeps the text that a production of a user list had. -/
  writtenForm : String := "originalPrd"
  deriving DecidableEq, Repr

structure Settings where
  /-- The base module that every extended module imports. -/
  coreModule : String := "K"
  /-- The base module that receives casts for the builtin sorts. -/
  basicModule : String := "BASIC-K"
  /-- Marker modules of capabilities; for a capability the first entry names its marker. -/
  markers : List (Capability × String) :=
    [(.ruleCells, "RULE-CELLS"), (.configCells, "CONFIG-CELLS"), (.autoCasts, "AUTO-CASTS"),
     (.topSort, "K-TOP-SORT"), (.bottomSort, "K-BOTTOM-SORT"), (.autoFollow, "AUTO-FOLLOW"),
     (.programLists, "PROGRAM-LISTS"), (.ruleLists, "RULE-LISTS")]
  /-- Sorts that no transform extends. -/
  builtinSorts : OrdSet SortName :=
    Catalog.ofList [⟨"KBott"⟩, ⟨"K"⟩, ⟨"KLabel"⟩, ⟨"KList"⟩, ⟨"KItem"⟩, ⟨"RuleContent"⟩,
      ⟨"KConfigVar"⟩, ⟨"KString"⟩]
  /-- The first character of the name of a sort that is internal to the parser. -/
  internalMarker : Char := '#'
  sorts : SortRoles := {}
  keys : AttributeKeys := {}
  deriving DecidableEq, Repr

namespace Settings

instance : Inhabited Settings := ⟨{}⟩

/-- The marker module of a capability. -/
def marker? (cfg : Settings) (c : Capability) : Option String :=
  (cfg.markers.find? fun entry => entry.1 == c).map Prod.snd

/-- The sort is internal to the parser. -/
def isInternal (cfg : Settings) (s : SortName) : Bool := s.startsWith cfg.internalMarker

/-- The sort is builtin or internal: it gets no casts, and it is no user list. -/
def isReserved (cfg : Settings) (s : SortName) : Bool :=
  decide (s ∈ cfg.builtinSorts) || cfg.isInternal s

theorem isInternal_of_isReserved {cfg : Settings} {s : SortName} (h : cfg.isReserved s = false) :
    cfg.isInternal s = false :=
  (Bool.or_eq_false_iff.1 h).2

/-- The scaffolding sort of the nonempty lists of a list sort. -/
def nonEmptySort (cfg : Settings) (s : SortName) : SortName :=
  ⟨"Ne" ++ cfg.internalMarker.toString ++ s.name⟩

/-- The scaffolding sort of the end of a list. -/
def terminatorSort (cfg : Settings) (s : SortName) : SortName :=
  ⟨s.name ++ cfg.internalMarker.toString ++ "Terminator"⟩

/-- The capabilities of a module: those whose marker is a base module of its import closure. -/
def capabilities (cfg : Settings) (d : Definition) (m : Module) :
    Except SynthesisError Capabilities :=
  (d.importedNames m).map fun names =>
    Catalog.ofList <|
      (cfg.markers.filter fun (_, name) => decide (name ∈ names) && d.isBase name).map Prod.fst

end Settings

end GrammarSynthesis
