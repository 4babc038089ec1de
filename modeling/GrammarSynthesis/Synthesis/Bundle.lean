import GrammarSynthesis.Settings.Basic

/-!
# Bundles

A bundle is what the parser gets for one module of the user:

* the *seed*, which imports the user's module and the marker module of the kind of grammar;
* the *extension*, the seed with its casts;
* the *disambiguation* module, the user's side of the extension in one module, with cells, follow
  restrictions and lists in place;
* the *parse* module, the disambiguation module with lists written out and its sorts injected into
  the top sort.

Stages that the grammar does not ask for leave no module of their own.
-/
namespace GrammarSynthesis

/-- The kinds of grammars. -/
inductive Mode where
  /-- Bodies of rules. -/
  | rule
  /-- Declarations of configurations. -/
  | configuration
  /-- Programs of the object language. -/
  | program
  deriving DecidableEq, Repr

namespace Mode

/-- The capability whose marker module a seed imports. -/
def capability : Mode → Capability
  | rule => .ruleCells
  | configuration => .configCells
  | program => .programLists

def name : Mode → String
  | rule => "rule"
  | configuration => "configuration"
  | program => "program"

end Mode

structure Bundle where
  seed : Module
  /-- The seed with its casts, if it needed any. -/
  extended : Option Module
  disambiguation : Module
  /-- The disambiguation module with its lists written out, if the grammar is one for programs. -/
  desugared : Option Module
  /-- Inferred sorts of variables are to be kept as explicit requirements. -/
  strict : Bool
  /-- The definition of the user. -/
  user : Definition
  /-- Restricted copies of base modules, which hide the modules they copy. -/
  shadows : Layer
  deriving DecidableEq, Repr

namespace Bundle

def extension (b : Bundle) : Module := b.extended.getD b.seed

def parse (b : Bundle) : Module := b.desugared.getD b.disambiguation

/-- What the imports of the four modules refer to: the definition of the user, under the restricted
copies of base modules if there are any. -/
def definition (b : Bundle) : Definition :=
  if b.shadows.isEmpty then b.user else b.user.push b.shadows

/-- The modules in the order in which they were made. -/
def modules (b : Bundle) : List Module := [b.seed, b.extension, b.disambiguation, b.parse]

/-- All that a parser is built from. -/
def parseSentences (b : Bundle) : Except SynthesisError SentenceSet :=
  b.definition.visibleSentences b.parse

/-- All that the disambiguation of trees looks at. -/
def disambiguationSentences (b : Bundle) : Except SynthesisError SentenceSet :=
  b.definition.visibleSentences b.disambiguation

end Bundle

end GrammarSynthesis
