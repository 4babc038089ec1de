/-!
# Blank text

A text is blank if it holds nothing but white space. White space is the property `White_Space`,
which has 25 code points and is wider than the class `Char.isWhitespace`.

Results: `isWhiteSpace_of_isWhitespace` — every character of that class is white space.
-/
namespace GrammarSynthesis.Text

/-- Ranges of the code points with the property `White_Space`. -/
def whiteSpaceRanges : List (Nat × Nat) :=
  [(0x9, 0xd), (0x20, 0x20), (0x85, 0x85), (0xa0, 0xa0), (0x1680, 0x1680), (0x2000, 0x200a),
   (0x2028, 0x2029), (0x202f, 0x202f), (0x205f, 0x205f), (0x3000, 0x3000)]

def isWhiteSpace (c : Char) : Bool :=
  whiteSpaceRanges.any fun (lo, hi) => lo ≤ c.toNat && c.toNat ≤ hi

/-- The text holds nothing but white space. -/
def isBlank (s : String) : Bool := s.toList.all isWhiteSpace

theorem isWhiteSpace_of_isWhitespace {c : Char} (h : c.isWhitespace = true) :
    isWhiteSpace c = true := by
  simp only [Char.isWhitespace, Bool.or_eq_true, decide_eq_true_eq] at h
  rcases h with ((rfl | rfl) | rfl) | rfl <;> decide

@[simp] theorem isBlank_empty : isBlank "" = true := by simp [isBlank]

end GrammarSynthesis.Text
