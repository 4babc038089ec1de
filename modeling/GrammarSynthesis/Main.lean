import GrammarSynthesis.Sample.Lambda

/-!
# The command

Prints the sample report to standard output and its journal to standard error.
-/

def main : IO UInt32 := do
  let outcome := GrammarSynthesis.Sample.run
  for line in outcome.notes do
    IO.eprintln line
  IO.print outcome.output
  return outcome.status.toUInt32
