import GrammarSynthesis.Text.ExtendingMark
import GrammarSynthesis.Text.Unprintable

/-!
# Quoted text

A quoted text stands between double quotes on one line. Quotes and backslashes are escaped with a
backslash; NUL, tab, line feed and carriage return have short escapes; a character that would not
show by itself is written by its code point in hexadecimal. Everything else stands for itself.
-/
namespace GrammarSynthesis.Text

/-- The character is shown by its code point. Printable ASCII never is. -/
def showsAsCode (c : Char) : Bool :=
  if 0x20 ≤ c.toNat && c.toNat < 0x7f then false else isExtendingMark c || isUnprintable c

/-- A character inside quotes. -/
def escaped (c : Char) : List Char :=
  if c = '"' then ['\\', '"']
  else if c = '\\' then ['\\', '\\']
  else if c = '\x00' then ['\\', '0']
  else if c = '\t' then ['\\', 't']
  else if c = '\n' then ['\\', 'n']
  else if c = '\r' then ['\\', 'r']
  else if showsAsCode c then ['\\', 'u', '{'] ++ Nat.toDigits 16 c.toNat ++ ['}']
  else [c]

/-- The text between double quotes, its characters escaped. -/
def quoted (s : String) : String :=
  String.ofList ('"' :: s.toList.flatMap escaped ++ ['"'])

theorem toList_quoted (s : String) :
    (quoted s).toList = '"' :: s.toList.flatMap escaped ++ ['"'] := by
  simp [quoted]

/-- No character is written with a quote in front, so the text ends at the first quote without a
backslash. -/
theorem head?_escaped_append_ne (c : Char) (r : List Char) :
    (escaped c ++ r).head? ≠ some '"' := by
  unfold escaped
  repeat' split
  all_goals simp_all

end GrammarSynthesis.Text
