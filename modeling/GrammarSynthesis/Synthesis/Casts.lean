import GrammarSynthesis.Grammar.SortNumbering
import GrammarSynthesis.Journal
import GrammarSynthesis.Settings.Basic

/-!
# Casts

Casts connect a sort of the user to the lattice between the bottom and the top sort. For a sort `S`
they are, as far as the capabilities of the module ask for them,

* `S ::= S "::S"`, `S ::= S ":S"`, `KBott ::= S "<:S"` and `S ::= K ":>S"` (`autoCasts`);
* `K ::= S` (`topSort`);
* `S ::= KBott` (`bottomSort`).

Reserved sorts get none. A module that already sees all of them stays as it is.
-/
namespace GrammarSynthesis.Casts

/-- The cast of `operand` to `sort` that is written as an operator and the name of `s`. -/
def cast (cfg : Settings) (s sort operand : SortName) (operator label : String) : Production :=
  .ofRow sort (.nonTerminal operand) [.ofText (operator ++ s.name)] (some label)
    (Attributes.setText ∅ cfg.keys.sortKey s.name)

/-- The four casts of `s`. The inner cast makes an `outer`; the outer cast takes an `inner`. -/
def fourCasts (cfg : Settings) (outer inner s : SortName) : List Production :=
  [cast cfg s s s "::" "#SyntacticCast",
   cast cfg s s s ":" ("#SemanticCastTo" ++ s.name),
   cast cfg s outer s "<:" "#InnerCast",
   cast cfg s s inner ":>" "#OuterCast"]

/-- The casts of the builtin sorts. -/
def builtin (cfg : Settings) : List Production :=
  let r := cfg.sorts
  fourCasts cfg r.label r.label r.label ++ fourCasts cfg r.list r.list r.list ++
    fourCasts cfg r.bottom r.top r.item ++ fourCasts cfg r.bottom r.top r.top

/-- What a sort of the user gets under the capabilities. -/
def ofSort (cfg : Settings) (cs : Capabilities) (s : SortName) : List Production :=
  (if .autoCasts ∈ cs then fourCasts cfg cfg.sorts.bottom cfg.sorts.top s else []) ++
  (if .topSort ∈ cs then [.injection cfg.sorts.top s] else []) ++
  (if .bottomSort ∈ cs then [.injection s cfg.sorts.bottom] else [])

/-- What sorts get under the capabilities, each sort counted once and reserved sorts left out. -/
def candidates (cfg : Settings) (sorts : List SortName) (cs : Capabilities) : OrdSet Production :=
  let eligible := SortNumbering.empty.assignAll (sorts.filter fun s => !cfg.isReserved s)
  let distinct := eligible.1.sortsOf eligible.2 (SortNumbering.assignAll_lt _ _)
  Catalog.ofList (distinct.flatMap (ofSort cfg cs))

/-- The candidates for the sorts that the user defined, less those that the module sees. -/
def additions (cfg : Settings) (d : Definition) (m : Module) (cs : Capabilities) :
    Except SynthesisError (List Sentence) := do
  let user ← d.userSentences m
  let visible ← d.visibleSentences m
  let sorts := (definedSorts user.toList).toList
  return ((candidates cfg sorts cs).toList.map Sentence.production).filter (· ∉ visible)

/-- The module with its casts and an import of the core module, or nothing if it sees all casts. -/
def extend? (cfg : Settings) (d : Definition) (m : Module) (cs : Capabilities) :
    Except SynthesisError (Option Module) :=
  (additions cfg d m cs).map fun new =>
    if new.isEmpty then none else some ((m.addImport cfg.coreModule).extend new)

/-- What `extend?` tells. -/
def events (cfg : Settings) (d : Definition) (m : Module) (cs : Capabilities) : List Event :=
  match additions cfg d m cs with
  | .error _ => []
  | .ok [] => [.debug 3 ("module " ++ m.name ++ " already has every cast production")]
  | .ok new =>
    [.debug 3 ("adding " ++ toString new.length ++ " cast productions to module " ++ m.name)]

end GrammarSynthesis.Casts
