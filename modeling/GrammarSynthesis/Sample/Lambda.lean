import GrammarSynthesis.Settings.BaseModules
import GrammarSynthesis.Synthesis.Synthesizer

/-!
# A sample: the grammars of a lambda calculus

A small language with a user list, terminals that begin other terminals (`=` and `==`), and a
configuration of three cells. The report shows its grammars for rules, configurations and programs.
-/
namespace GrammarSynthesis.Sample

def word (text : String) : Item := .ofText text

def sort (name : String) : Item := .nonTerminal ⟨name⟩

/-- A labelled production with attributes. -/
def rule (name : String) (first : Item) (rest : List Item) (label : String)
    (attributes : Attributes := ∅) : Sentence :=
  .production (.ofRow ⟨name⟩ first rest (some label) attributes)

def listTag : Attributes := Attributes.setText ∅ "userList" "*"

def cellTag : Attributes := Attributes.setFlag ∅ "cell"

/-- The syntax of the language. -/
def lambdaModule : Module where
  name := "LAMBDA"
  imports := ["K"]
  sentences := Catalog.ofList [
    .declaration ⟨"Exp"⟩,
    .declaration ⟨"Id"⟩,
    .production (.injection ⟨"Exp"⟩ ⟨"Id"⟩),
    rule "Exp" (word "lambda") [sort "Id", word ".", sort "Exp"] "lambda",
    rule "Exp" (sort "Exp") [sort "Exp"] "app",
    rule "Exp" (word "(") [sort "Exp", word ")"] "brackets",
    rule "Exp" (word "let") [sort "Id", word "=", sort "Exp", word "in", sort "Exp"] "let",
    rule "Exp" (sort "Exp") [word "==", sort "Exp"] "_==_",
    rule "Exp" (word "tuple") [word "(", sort "Exps", word ")"] "tuple",
    rule "Exps" (sort "Exp") [word ",", sort "Exps"] "_,_" listTag,
    rule "Exps" (word ".Exps") [] ".Exps" listTag,
    rule "TCell" (word "<T>") [sort "KCell", sort "EnvCell", word "</T>"] "<T>" cellTag,
    rule "KCell" (word "<k>") [sort "K", word "</k>"] "<k>" cellTag,
    rule "EnvCell" (word "<env>") [sort "Map", word "</env>"] "<env>" cellTag]

/-- What a run of the sample leaves behind. -/
structure Outcome where
  status : Nat := 0
  output : String := ""
  /-- Lines for the reader of the journal. -/
  notes : List String := []
  deriving DecidableEq, Repr

/-- The detail that the sample shows of the journal: one line for each stage. -/
def detail : Nat := 2

/-- The grammar of one kind as text. -/
def describe (mode : Mode) (b : Bundle) (visible : Nat) : String :=
  Text.lines <| ["== " ++ mode.name ++ " grammar ==", b.disambiguation.render] ++
    b.desugared.toList.map Module.render ++
    [toString visible ++ " sentences visible to the parser", ""]

/-- The failure that ends a run. -/
def failed (e : SynthesisError) : Outcome := { status := 1, notes := ["Error: " ++ e.message] }

/-- Report on the grammars of some kinds, up to the first failure. -/
def report (a : Synthesizer) (d : Definition) (name : String) : List Mode → Outcome
  | [] => {}
  | mode :: rest =>
    let notes := journalLines detail (a.buildEvents d name mode)
    let result := do
      let b ← a.build d name mode
      return (b, (← b.parseSentences).size)
    let next := match result with
      | .error e => failed e
      | .ok (b, visible) =>
        let later := report a d name rest
        { later with output := describe mode b visible ++ later.output }
    { next with notes := notes ++ next.notes }

/-- Report on all grammars of the language. -/
def run : Outcome :=
  let settings : Settings := {}
  match Synthesizer.create settings settings.standardBase false with
  | .error e => failed e
  | .ok a =>
    report a (a.emptyDefinition.insert lambdaModule) "LAMBDA" [.rule, .configuration, .program]

end GrammarSynthesis.Sample
