import GrammarSynthesis.Synthesis.Bundle
import GrammarSynthesis.Synthesis.Casts
import GrammarSynthesis.Synthesis.Cells
import GrammarSynthesis.Synthesis.FollowRestriction
import GrammarSynthesis.Synthesis.UserList

/-!
# The synthesizer

The synthesizer makes bundles from modules of the user. It holds the base definition, which must
have the core module, and the settings. Which stages run depends on the capabilities of the seed
alone; a stage whose capability is missing passes on what it got.

The stages are functions of their own: `loosenCells`, `vocabulary?`, `shadowLayer`, `addRuleLists`
and `desugar?`. `combine` chains them, and `combineEvents` tells what the chain tells.
-/
namespace GrammarSynthesis

structure Synthesizer where
  settings : Settings
  base : Definition
  strict : Bool := false
  deriving DecidableEq, Repr

namespace Synthesizer

/-- A synthesizer over a base definition. The module of the builtin sorts gets their casts. -/
def create (settings : Settings) (base : Definition) (strict : Bool) :
    Except SynthesisError Synthesizer :=
  if base.contains settings.coreModule then
    match base.get? settings.basicModule with
    | none => .ok { settings, base, strict }
    | some basic =>
      let casts := (Casts.builtin settings).map Sentence.production
      .ok { settings, base := base.insert (basic.extend casts), strict }
  else .error (.missingBaseModule settings.coreModule)

/-- What `create` tells. -/
def createEvents (settings : Settings) (base : Definition) : List Event :=
  if base.contains settings.coreModule then
    (base.get? settings.basicModule).toList.map fun basic =>
      .debug 3 ("added builtin casts to " ++ basic.name)
  else []

/-- An empty definition for the user over the base. -/
def emptyDefinition (a : Synthesizer) : Definition := a.base.push

/-! ## Seeds -/

/-- The marker module of a kind of grammar, if the base has it. -/
def seedMarker? (a : Synthesizer) (d : Definition) (mode : Mode) : Option String :=
  (a.settings.marker? mode.capability).filter d.isBase

/-- The seed of a module of the user: it imports the module and the marker of the kind of grammar,
or the module alone if the base has no such marker. -/
def seed (a : Synthesizer) (d : Definition) (name : String) (mode : Mode) :
    Except SynthesisError Module :=
  (d.lookup name).map fun user =>
    match a.seedMarker? d mode with
    | some marker => { name := user.name ++ "-" ++ marker, imports := [user.name, marker] }
    | none => { name := user.name ++ "-" ++ mode.name, imports := [user.name] }

/-- What `seed` tells. -/
def seedEvents (a : Synthesizer) (d : Definition) (name : String) (mode : Mode) : List Event :=
  match d.lookup name, a.seedMarker? d mode with
  | .ok user, none =>
    [.debug 3 ("no marker module for " ++ mode.name ++ " grammars; seeding " ++ user.name ++
      " without one")]
  | _, _ => []

/-! ## Stages -/

/-- The sentences with loosened cells. -/
def loosenCells (cfg : Settings) (cs : Capabilities) (set : SentenceSet) :
    Except SynthesisError SentenceSet :=
  if .ruleCells ∈ cs then
    match CellKinds.ofSentences? cfg set.toList with
    | some kinds => CellKinds.loosenAll cfg kinds set
    | none => .ok set
  else .ok set

/-- What `loosenCells` tells. -/
def loosenCellsEvents (cfg : Settings) (cs : Capabilities) (name : String) (set : SentenceSet) :
    List Event :=
  if .ruleCells ∈ cs then
    match CellKinds.ofSentences? cfg set.toList with
    | some kinds => CellKinds.loosenAllEvents cfg kinds set.toList
    | none => [.debug 3 (name ++ ": no cells to rewrite")]
  else []

/-- The vocabulary of all that the extension sees, if there are to be follow restrictions. -/
def vocabulary? (cfg : Settings) (cs : Capabilities) (d : Definition) (extension : Module) :
    Except SynthesisError (Option Vocabulary) :=
  if .autoFollow ∈ cs then
    (d.visibleSentences extension).map fun visible =>
      some (.ofProductions cfg (productionsOf visible.toList))
  else .ok none

/-- The base modules of an import closure. -/
def baseModules (d : Definition) (closure : List Module) : List Module :=
  closure.filter fun m => d.isBase m.name

/-- Restricted copies of those base modules of the closure that gain a restriction. -/
def shadowLayer (cfg : Settings) (d : Definition) (v : Vocabulary) (closure : List Module) :
    Layer :=
  Catalog.ofList ((baseModules d closure).filterMap (v.restrictModule? cfg))

/-- What the follow restrictions tell. -/
def restrictionEvents (cfg : Settings) (d : Definition) (v : Vocabulary) (name : String)
    (set : SentenceSet) (closure : List Module) : List Event :=
  .debug 3 (name ++ ": follow restrictions over " ++ toString v.size ++ " terminals") ::
    v.restrictAllEvents cfg set ++
    (baseModules d closure).flatMap fun m =>
      v.restrictAllEvents cfg m.sentences ++
        (v.restrictModule? cfg m).toList.map fun copy =>
          .debug 4 (name ++ ": restricted terminals of " ++ copy.name)

/-- The sentences with the disambiguation forms of their lists. -/
def addRuleLists (cfg : Settings) (cs : Capabilities) (set : SentenceSet) : SentenceSet :=
  if .ruleLists ∈ cs then UserList.addDisambiguationForms (UserList.ofSentences cfg set.toList) set
  else set

/-- What `addRuleLists` tells. -/
def ruleListEvents (cfg : Settings) (cs : Capabilities) (set : SentenceSet) : List Event :=
  if .ruleLists ∈ cs then
    UserList.skipEvents cfg set.toList ++
      UserList.disambiguationEvents (UserList.ofSentences cfg set.toList)
  else []

/-- The injections into the top sort of those sorts of a module that are neither reserved nor sorts
of lists. -/
def topSortInjections (cfg : Settings) (m : Module) : List Sentence :=
  let tagged := m.productions.filter fun p => p.hasAttribute cfg.keys.userList
  let listSorts := tagged.map Production.sort
  (m.localSorts.toList.filter fun s => !cfg.isReserved s && !listSorts.contains s).map fun s =>
    .production (.injection cfg.sorts.top s)

/-- The module with its lists written out and its sorts injected into the top sort, if it is to be
one for programs. -/
def desugar? (cfg : Settings) (cs : Capabilities) (m : Module) : Option Module :=
  if .programLists ∈ cs then
    let lists := UserList.ofSentences cfg m.sentences.toList
    let injected := m.sentences.insertAll (topSortInjections cfg m)
    some { m with sentences := UserList.replaceByParseForms cfg lists injected }
  else none

/-- What `desugar?` tells. -/
def desugarEvents (cfg : Settings) (cs : Capabilities) (seedName : String) (m : Module) :
    List Event :=
  if .programLists ∈ cs then
    .info 2 (seedName ++ ": parse") :: UserList.skipEvents cfg m.sentences.toList ++
      UserList.parseEvents (UserList.ofSentences cfg m.sentences.toList)
  else []

/-! ## Bundles -/

/-- The bundle of a seed. -/
def combine (a : Synthesizer) (d : Definition) (seed : Module) : Except SynthesisError Bundle := do
  let cfg := a.settings
  let cs ← cfg.capabilities d seed
  let extended ← Casts.extend? cfg d seed cs
  let extension := extended.getD seed
  let flat ← d.flatten extension
  let loosened ← loosenCells cfg cs flat.sentences
  let vocabulary ← vocabulary? cfg cs d extension
  let closure ← d.importClosure extension
  let restricted := vocabulary.elim loosened fun v => v.restrictAll cfg loosened
  let disambiguation := { flat with sentences := addRuleLists cfg cs restricted }
  return {
    seed, extended, disambiguation
    desugared := desugar? cfg cs disambiguation
    strict := a.strict
    user := d
    shadows := vocabulary.elim ∅ fun v => shadowLayer cfg d v closure }

/-- What the stages from the vocabulary on tell. -/
def lateEvents (cfg : Settings) (cs : Capabilities) (d : Definition) (seedName : String)
    (extension flat : Module) (loosened : SentenceSet) : List Event :=
  match vocabulary? cfg cs d extension, d.importClosure extension with
  | .ok vocabulary, .ok closure =>
    let restricted := vocabulary.elim loosened fun v => v.restrictAll cfg loosened
    let disambiguation := { flat with sentences := addRuleLists cfg cs restricted }
    let parse := (desugar? cfg cs disambiguation).getD disambiguation
    (vocabulary.elim [] fun v => restrictionEvents cfg d v flat.name loosened closure) ++
      ruleListEvents cfg cs restricted ++ desugarEvents cfg cs seedName disambiguation ++
      [.debug 3 (seedName ++ ": " ++ toString extension.sentences.size ++ " extension, " ++
        toString disambiguation.sentences.size ++ " disambiguation, " ++
        toString parse.sentences.size ++ " parse sentences")]
  | _, _ => []

/-- What `combine` tells, up to the stage that fails if one does. -/
def combineEvents (a : Synthesizer) (d : Definition) (seed : Module) : List Event :=
  let cfg := a.settings
  match cfg.capabilities d seed with
  | .error _ => []
  | .ok cs =>
    [.debug 3 (seed.name ++ ": capabilities " ++ cs.render),
      .info 2 (seed.name ++ ": extension")] ++
      Casts.events cfg d seed cs ++
      match Casts.extend? cfg d seed cs with
      | .error _ => []
      | .ok extended =>
        let extension := extended.getD seed
        .info 2 (seed.name ++ ": disambiguation") ::
          match d.flatten extension with
          | .error _ => []
          | .ok flat =>
            loosenCellsEvents cfg cs flat.name flat.sentences ++
              match loosenCells cfg cs flat.sentences with
              | .error _ => []
              | .ok loosened => lateEvents cfg cs d seed.name extension flat loosened

/-- The bundle of a module of the user. -/
def build (a : Synthesizer) (d : Definition) (name : String) (mode : Mode) :
    Except SynthesisError Bundle := do
  a.combine d (← a.seed d name mode)

/-- What `build` tells. -/
def buildEvents (a : Synthesizer) (d : Definition) (name : String) (mode : Mode) : List Event :=
  a.seedEvents d name mode ++
    match a.seed d name mode with
    | .error _ => []
    | .ok seed =>
      .info 2 ("building the " ++ mode.name ++ " grammar of " ++ name) :: a.combineEvents d seed

end Synthesizer

end GrammarSynthesis
