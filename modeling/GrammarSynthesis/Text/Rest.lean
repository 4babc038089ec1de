/-!
# What is left of a text after its beginning

Result: `restAfter?_eq_some_iff` — the rest is the text that makes up the whole when put after the
beginning.
-/
namespace GrammarSynthesis.Text

/-- What is left of a list after another with which it begins. -/
def listAfter? : List Char → List Char → Option (List Char)
  | text, [] => some text
  | [], _ :: _ => none
  | a :: text, b :: start => if a = b then listAfter? text start else none

/-- What is left of a text after another with which it begins. -/
def restAfter? (text start : String) : Option String :=
  (listAfter? text.toList start.toList).map String.ofList

theorem listAfter?_eq_some_iff {text start rest : List Char} :
    listAfter? text start = some rest ↔ text = start ++ rest := by
  fun_induction listAfter? text start with
  | case1 text => simp
  | case2 => simp
  | case3 text b start ih => simp [ih]
  | case4 a text b start h => simp [h]

theorem restAfter?_eq_some_iff {text start rest : String} :
    restAfter? text start = some rest ↔ text = start ++ rest := by
  simp only [restAfter?, Option.map_eq_some_iff, listAfter?_eq_some_iff]
  constructor
  · intro hrest
    obtain ⟨l, h, rfl⟩ := hrest
    apply String.toList_injective
    simp [h]
  · rintro rfl
    exact ⟨rest.toList, by simp, by simp⟩

end GrammarSynthesis.Text
