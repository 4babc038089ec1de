/-!
# Rows and lines

A row is written with a separator before every item but the first; the separator may depend on the
item that follows it. Lines are written with a line break after every item, the last one as well.
-/
namespace GrammarSynthesis.Text

/-- Put `sep b` before every item `b` but the first. -/
def interleave {α : Type} (sep : α → α) : List α → List α
  | [] => []
  | a :: rest => a :: rest.flatMap fun b => [sep b, b]

/-- The items in a row, with `sep` between neighbours. -/
def joined (sep : String) (items : List String) : String :=
  String.join (interleave (fun _ => sep) items)

/-- Every item with a line break after it. -/
def lines (items : List String) : String := String.join (items.map (· ++ "\n"))

theorem toList_joined_cons (sep a : String) (l : List String) :
    (joined sep (a :: l)).toList = a.toList ++ l.flatMap fun b => sep.toList ++ b.toList := by
  simp [joined, interleave, String.join_cons, String.toList_join, List.flatMap_assoc]

end GrammarSynthesis.Text
