import GrammarSynthesis.Grammar.Production

/-!
# Errors

What can be wrong with the modules from which a grammar is built.
-/
namespace GrammarSynthesis

inductive SynthesisError where
  /-- A cell production does not begin and end with terminals. -/
  | malformedCell (sort : SortName) (production : String) (location : Option Location)
  /-- No module has the name. The importer is missing if the module was asked for directly. -/
  | unknownModule (name : String) (importer : Option String)
  /-- The base lacks a module without which no grammar can be built. -/
  | missingBaseModule (name : String)
  deriving DecidableEq, Repr

def SynthesisError.message : SynthesisError → String
  | malformedCell sort production location =>
    (location.elim "" fun l => l.render ++ ": ") ++ "malformed cell production for sort " ++
      sort.name ++ ": a cell must begin and end with terminal brackets, found `" ++
      production ++ "`"
  | unknownModule name (some importer) =>
    "module " ++ importer ++ " imports unknown module " ++ name
  | unknownModule name none => "unknown module " ++ name
  | missingBaseModule name =>
    "the base definition does not contain the required module " ++ name

end GrammarSynthesis
