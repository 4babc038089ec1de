import GrammarSynthesis.Order
import GrammarSynthesis.Text.Joined

/-!
# Attributes

Productions and modules carry attributes: a bare flag such as `cell`, or a key with a text such as
`sortKey(Exp)`. A key occurs at most once, and attributes are listed in the order of their keys.
-/
namespace GrammarSynthesis

@[ext] structure Attribute where
  key : String
  /-- The text of the attribute; a flag has none. -/
  text : Option String
  deriving DecidableEq, Repr

namespace Attribute

instance : Ord Attribute := ⟨compareLex (compareOn key) (compareOn text)⟩

instance : Std.TransOrd Attribute :=
  inferInstanceAs (Std.TransCmp (compareLex (compareOn key) (compareOn text)))

instance : Std.LawfulEqOrd Attribute where
  compare_self {a} := by simp [compare, compareLex_eq_eq, compareOn_eq_iff]
  eq_of_compare {a b} h := by
    simp only [compare, compareLex_eq_eq, compareOn_eq_iff] at h
    exact Attribute.ext_iff.2 h

/-- The key, followed by the text in parentheses if there is one. -/
def render (a : Attribute) : String :=
  match a.text with
  | none => a.key
  | some text => a.key ++ "(" ++ text ++ ")"

end Attribute

/-- At most one attribute for a key, in the order of the keys. -/
abbrev Attributes := Catalog Attribute.key

namespace Attributes

def setFlag (as : Attributes) (key : String) : Attributes := as.insert ⟨key, none⟩

def setText (as : Attributes) (key text : String) : Attributes := as.insert ⟨key, some text⟩

/-- The text of an attribute; there is none for a flag or a missing key. -/
def text? (as : Attributes) (key : String) : Option String := (as.find? key).bind Attribute.text

def render (as : Attributes) : String := Text.joined ", " (as.toList.map Attribute.render)

end Attributes

end GrammarSynthesis
