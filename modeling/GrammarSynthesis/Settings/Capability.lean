import GrammarSynthesis.Order
import GrammarSynthesis.Text.Joined

/-!
# Capabilities

A capability is one of the things that may be done to a grammar. A module switches a capability on
by importing, directly or not, the marker module of that capability.
-/
namespace GrammarSynthesis

inductive Capability where
  /-- The grammar is one for rules: its cells may be left incomplete. -/
  | ruleCells
  /-- The grammar is one for configurations. -/
  | configCells
  /-- Four cast productions for every sort of the user. -/
  | autoCasts
  /-- Every sort of the user is injected into the top sort. -/
  | topSort
  /-- The bottom sort is injected into every sort of the user. -/
  | bottomSort
  /-- Terminals that begin other terminals must not be followed by the rest of them. -/
  | autoFollow
  /-- User lists become recursive productions. -/
  | programLists
  /-- The element sort of a user list is injected into the list sort. -/
  | ruleLists
  deriving DecidableEq, Repr

namespace Capability

/-- All capabilities in their order. -/
def all : List Capability :=
  [ruleCells, configCells, autoCasts, topSort, bottomSort, autoFollow, programLists, ruleLists]

/-- The position of a capability in the order. -/
def index : Capability → Nat
  | ruleCells => 0
  | configCells => 1
  | autoCasts => 2
  | topSort => 3
  | bottomSort => 4
  | autoFollow => 5
  | programLists => 6
  | ruleLists => 7

def name : Capability → String
  | ruleCells => "RuleCells"
  | configCells => "ConfigCells"
  | autoCasts => "AutoCasts"
  | topSort => "KTopSort"
  | bottomSort => "KBottomSort"
  | autoFollow => "AutoFollow"
  | programLists => "ProgramLists"
  | ruleLists => "RuleLists"

theorem index_inj {a b : Capability} : a.index = b.index ↔ a = b := by
  cases a <;> cases b <;> decide

theorem mem_all (c : Capability) : c ∈ all := by cases c <;> decide

instance : Ord Capability := ⟨compareOn index⟩

instance : Std.TransOrd Capability := inferInstanceAs (Std.TransCmp (compareOn index))

instance : Std.LawfulEqOrd Capability where
  compare_self := compareOn_self
  eq_of_compare h := index_inj.1 (compareOn_eq_iff.1 h)

end Capability

abbrev Capabilities := OrdSet Capability

namespace Capabilities

/-- The set as a number that has bit `i` for the capability at position `i`. -/
def bits (cs : Capabilities) : Nat := cs.toList.foldr (fun c n => 1 <<< c.index + n) 0

/-- The set in binary, followed by the names of the capabilities. -/
def render (cs : Capabilities) : String :=
  "BitFlags<Capability>(0b" ++ String.ofList (Nat.toDigits 2 cs.bits) ++
    (if cs.isEmpty then "" else ", " ++ Text.joined " | " (cs.toList.map Capability.name)) ++ ")"

end Capabilities

end GrammarSynthesis
