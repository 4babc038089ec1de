/-!
# Broken preconditions

Building a production without items and asking for the sort of an index that was never given out are
mistakes of the caller. They are kept apart from the errors in a user's grammar.
-/
namespace GrammarSynthesis

inductive Fault where
  | emptyProduction
  | indexOutOfBounds (size index : Nat)
  deriving DecidableEq, Repr

def Fault.message : Fault → String
  | emptyProduction => "a production must have at least one item"
  | indexOutOfBounds size index =>
    "index out of bounds: the len is " ++ toString size ++ " but the index is " ++ toString index

end GrammarSynthesis
