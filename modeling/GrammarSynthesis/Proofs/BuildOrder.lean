import GrammarSynthesis.Proofs.Layers
import GrammarSynthesis.Proofs.Outcome
import GrammarSynthesis.Synthesis.Synthesizer
import Mathlib.Data.List.Forall2

/-!
# The order of construction

A definition is built by inserting modules and by putting new layers on top. What a construction
leaves behind is, layer by layer and name by name, the module that was inserted last. So neither the
order of the insertions matters, nor the modules that were replaced, nor the order in which the
sentences of a module were written down: constructions that agree on what came last give the same
definition, and with it the same grammars.

* `Draft.Alike.module`: drafts with the same sentences, in whatever order, make the same module;
* `Definition.ofSteps_eq`: a definition is what its construction left behind;
* `Definition.ofSteps_congr`: constructions that agree on what came last give one definition;
* `Definition.construction_determines_lookup`: what is found after a construction, and what depends
  on it.
-/
namespace GrammarSynthesis

/-! ## Drafts -/

/-- A module as it was written down, its sentences one after the other. -/
structure Draft where
  name : String
  imports : List String := []
  sentences : List Sentence := []
  attributes : Attributes := ∅
  deriving DecidableEq, Repr

namespace Draft

def module (w : Draft) : Module :=
  { name := w.name
    imports := w.imports
    sentences := Catalog.ofList w.sentences
    attributes := w.attributes }

/-- The drafts differ at most in the order of their sentences and in how often each was written. -/
structure Alike (w w' : Draft) : Prop where
  name : w'.name = w.name
  imports : w'.imports = w.imports
  sentences : ∀ s, s ∈ w'.sentences ↔ s ∈ w.sentences
  attributes : w'.attributes = w.attributes

theorem Alike.module {w w' : Draft} (h : w.Alike w') : w'.module = w.module := by
  have hsentences : (Catalog.ofList w'.sentences : SentenceSet) = Catalog.ofList w.sentences := by
    apply Catalog.ext
    intro s
    rw [OrdSet.mem_ofList, OrdSet.mem_ofList, h.sentences]
  simp [Draft.module, h.name, h.imports, h.attributes, hsentences]

end Draft

/-! ## Constructions -/

/-- One step in the construction of a definition. -/
inductive BuildStep where
  /-- Put a module into the top layer. -/
  | insert (w : Draft)
  /-- Put an empty layer on top. -/
  | push
  deriving DecidableEq, Repr

def BuildStep.apply (d : Definition) : BuildStep → Definition
  | insert w => d.insert w.module
  | push => d.push

/-- The definition at the end of a construction that begins with the empty definition. -/
def Definition.ofSteps (steps : List BuildStep) : Definition := steps.foldl BuildStep.apply {}

/-- What was inserted into each layer so far, the latest draft first. -/
structure History where
  top : List Draft := []
  /-- The layers below the top one, from the top down. -/
  below : List (List Draft) := []
  deriving DecidableEq, Repr

namespace History

def record (h : History) : BuildStep → History
  | .insert w => { h with top := w :: h.top }
  | .push => { top := [], below := h.top :: h.below }

def ofSteps (steps : List BuildStep) : History := steps.foldl record {}

def layers (h : History) : List (List Draft) := h.top :: h.below

/-- The latest draft with a name. -/
def latest (name : String) (layer : List Draft) : Option Draft := layer.find? (·.name = name)

/-- In each layer and for each name, the latest drafts of the two histories are alike. -/
def Agree (h h' : History) : Prop :=
  List.Forall₂ (fun layer layer' =>
    ∀ name, Option.Rel Draft.Alike (latest name layer) (latest name layer')) h.layers h'.layers

/-- The layer that insertions leave behind. -/
def layerOf (layer : List Draft) : Layer := Catalog.ofList (layer.reverse.map Draft.module)

/-- The definition that a history leaves behind. -/
def definition (h : History) : Definition := { own := layerOf h.top, below := h.below.map layerOf }

variable {h h' : History} {layer layer' : List Draft} {name : String}

theorem find?_layerOf : (layerOf layer).find? name = (latest name layer).map Draft.module := by
  rw [layerOf, Catalog.find?_ofList, ← List.map_reverse, List.reverse_reverse, List.find?_map]
  rfl

theorem hasKey_layerOf : (layerOf layer).hasKey name = true ↔ ∃ w ∈ layer, w.name = name := by
  rw [Catalog.hasKey, find?_layerOf, Option.isSome_map]
  simp [latest]

/-- Layers with the same last insertions are the same. -/
theorem layerOf_congr
    (h : ∀ name, Option.Rel Draft.Alike (latest name layer) (latest name layer')) :
    layerOf layer' = layerOf layer := by
  apply Catalog.ext_find?
  intro name
  rw [find?_layerOf, find?_layerOf]
  have hname := h name
  generalize latest name layer = found at hname
  generalize latest name layer' = found' at hname
  cases hname with
  | none => rfl
  | some halike => exact congrArg some halike.module

theorem definition_congr (hagree : h.Agree h') : h'.definition = h.definition := by
  have hlayers : h'.layers.map layerOf = h.layers.map layerOf := by
    unfold Agree at hagree
    generalize h.layers = layers, h'.layers = layers' at hagree
    induction hagree with
    | nil => rfl
    | cons hlayer _ ih => rw [List.map_cons, List.map_cons, layerOf_congr hlayer, ih]
  obtain ⟨htop, hbelow⟩ := List.cons_eq_cons.1 hlayers
  rw [definition, definition, htop, hbelow]

theorem apply_definition (h : History) (step : BuildStep) :
    step.apply h.definition = (h.record step).definition := by
  cases step with
  | insert w =>
    -- the latest draft is the last one of the list of which the layer is made
    have hlayer : layerOf (w :: h.top) = (layerOf h.top).insert w.module := by
      simp [layerOf, Catalog.ofList, Catalog.insertAll]
    simp [BuildStep.apply, record, definition, Definition.insert, hlayer]
  | push => rfl

end History

namespace Definition

open History (latest layerOf)

variable {steps : List BuildStep} {name : String}

/-- A definition is what its construction left behind. -/
theorem ofSteps_eq (steps : List BuildStep) : ofSteps steps = (History.ofSteps steps).definition := by
  have hfrom : ∀ h : History, steps.foldl BuildStep.apply h.definition =
      (steps.foldl History.record h).definition := by
    induction steps with
    | nil => exact fun h => rfl
    | cons step steps ih =>
      intro h
      rw [List.foldl_cons, List.foldl_cons, History.apply_definition, ih]
  exact hfrom {}

theorem ofSteps_append (steps : List BuildStep) (step : BuildStep) :
    ofSteps (steps ++ [step]) = step.apply (ofSteps steps) := by
  rw [ofSteps, List.foldl_append]
  rfl

/-- Constructions that agree on what came last give one definition. -/
theorem ofSteps_congr {steps' : List BuildStep}
    (h : (History.ofSteps steps).Agree (History.ofSteps steps')) :
    ofSteps steps' = ofSteps steps := by
  rw [ofSteps_eq, ofSteps_eq, History.definition_congr h]

/-! ## Lookup after a construction -/

theorem get?_ofSteps (steps : List BuildStep) (name : String) :
    (ofSteps steps).get? name =
      ((History.ofSteps steps).layers.findSome? (latest name)).map Draft.module := by
  rw [ofSteps_eq]
  show (((History.ofSteps steps).layers.map layerOf).findSome? fun layer => layer.find? name) = _
  generalize (History.ofSteps steps).layers = layers
  induction layers with
  | nil => rfl
  | cons layer layers ih =>
    rw [List.map_cons, List.findSome?_cons, List.findSome?_cons, ih, History.find?_layerOf]
    cases latest name layer <;> rfl

theorem isBase_ofSteps_iff :
    (ofSteps steps).isBase name = true ↔
      (∀ w ∈ (History.ofSteps steps).top, w.name ≠ name) ∧
        ∃ layer ∈ (History.ofSteps steps).below, ∃ w ∈ layer, w.name = name := by
  rw [ofSteps_eq]
  simp [isBase, History.definition, ← Bool.not_eq_true, History.hasKey_layerOf]

theorem mem_ownNames_ofSteps_iff :
    name ∈ (ofSteps steps).ownNames ↔ ∃ w ∈ (History.ofSteps steps).top, w.name = name := by
  rw [mem_ownNames_iff, ofSteps_eq]
  exact History.hasKey_layerOf

theorem ownNames_ascending (d : Definition) : d.ownNames.Pairwise (· < ·) := by
  unfold ownNames Catalog.keys
  rw [List.pairwise_map]
  exact d.own.ascending.imp fun h => compareOfLessAndEq_eq_lt.1 h

end Definition

/-- The four modules of a bundle, and what a parser is built from. -/
def Bundle.shown (b : Bundle) : List Module × Except SynthesisError SentenceSet :=
  (b.modules, b.parseSentences)

namespace Definition

open History (latest)

/-- **A definition is known by what was inserted last.** A name is looked up from the top layer down
and gives the module that was inserted last under it in the first layer that has it. It is that of a
base module if the top layer does not have it and one below has. The names of the top layer are
listed in ascending order. An insertion changes nothing but the lookup of its own name, and nothing
in the base. Hence two constructions that agree, layer by layer and name by name, on the draft that
was inserted last, give the same import closures, flat modules, capabilities and grammars, or the
same errors. -/
theorem construction_determines_lookup (steps : List BuildStep) :
    (∀ name, (ofSteps steps).get? name =
        ((History.ofSteps steps).layers.findSome? (latest name)).map Draft.module) ∧
    (∀ name m, (ofSteps steps).get? name = some m → m.name = name) ∧
    (∀ name, (ofSteps steps).isBase name = true ↔
        (∀ w ∈ (History.ofSteps steps).top, w.name ≠ name) ∧
          ∃ layer ∈ (History.ofSteps steps).below, ∃ w ∈ layer, w.name = name) ∧
    ((ofSteps steps).ownNames.Pairwise (· < ·) ∧
      ∀ name, name ∈ (ofSteps steps).ownNames ↔
        ∃ w ∈ (History.ofSteps steps).top, w.name = name) ∧
    (∀ w : Draft, (ofSteps (steps ++ [.insert w])).base? = (ofSteps steps).base? ∧
      ∀ name, w.name ≠ name →
        (ofSteps (steps ++ [.insert w])).get? name = (ofSteps steps).get? name) ∧
    ∀ steps', (History.ofSteps steps).Agree (History.ofSteps steps') →
      ∀ w w' : Draft, w.Alike w' →
        (ofSteps steps').importClosure w'.module = (ofSteps steps).importClosure w.module ∧
        (ofSteps steps').flatten w'.module = (ofSteps steps).flatten w.module ∧
        (∀ cfg : Settings, cfg.capabilities (ofSteps steps') w'.module =
          cfg.capabilities (ofSteps steps) w.module) ∧
        ∀ a : Synthesizer,
          (a.combine (ofSteps steps') w'.module).map Bundle.shown =
            (a.combine (ofSteps steps) w.module).map Bundle.shown ∧
          ∀ name mode, (a.build (ofSteps steps') name mode).map Bundle.shown =
            (a.build (ofSteps steps) name mode).map Bundle.shown := by
  refine ⟨get?_ofSteps steps, fun _ _ h => name_of_get? h, fun _ => isBase_ofSteps_iff,
    ⟨ownNames_ascending _, fun _ => mem_ownNames_ofSteps_iff⟩, fun w => ⟨?_, fun name hne => ?_⟩,
    ?_⟩
  · rw [ofSteps_append]
    rfl
  · rw [ofSteps_append, BuildStep.apply, get?_insert]
    exact if_neg hne
  · intro steps' hagree w w' halike
    rw [ofSteps_congr hagree, halike.module]
    exact ⟨rfl, rfl, fun _ => rfl, fun _ => ⟨rfl, fun _ _ => rfl⟩⟩

/-- The equals sign of the example, with the texts that must not follow it. -/
def equalsSign (follow : List String) : Sentence :=
  .production (.ofRow ⟨"Op"⟩ (.terminal { text := "=", follow := Catalog.ofList follow }) [])

/-- A longer operator, which begins with the equals sign. -/
def doubleEqualsSign : Sentence := .production (.ofRow ⟨"Op"⟩ (.ofText "==") [])

/-- A construction in which a module is replaced. -/
def replacingSteps : List BuildStep :=
  [.insert { name := "K", sentences := [.declaration ⟨"K"⟩, .declaration ⟨"KItem"⟩] },
   .insert { name := "AUTO-FOLLOW" }, .push, .insert { name := "EXP" },
   .insert { name := "EXP", imports := ["K"], sentences := [equalsSign [], doubleEqualsSign] }]

/-- A construction in another order, with sentences in another order and repeated. -/
def reorderedSteps : List BuildStep :=
  [.insert { name := "AUTO-FOLLOW" },
   .insert { name := "K", sentences := [.declaration ⟨"KItem"⟩, .declaration ⟨"K"⟩] }, .push,
   .insert { name := "EXP", imports := ["K"],
             sentences := [doubleEqualsSign, equalsSign [], doubleEqualsSign] }]

theorem agree_reordered :
    (History.ofSteps replacingSteps).Agree (History.ofSteps reorderedSteps) := by
  refine .cons (fun name => ?_) (.cons (fun name => ?_) .nil)
  · by_cases hexp : name = "EXP"
    · subst hexp
      exact .some ⟨rfl, rfl, by simp [or_comm], rfl⟩
    · simp [latest, History.ofSteps, History.record, replacingSteps, reorderedSteps, Ne.symm hexp]
  · by_cases hcore : name = "K"
    · subst hcore
      exact .some ⟨rfl, rfl, by simp [or_comm], rfl⟩
    · by_cases hfollow : name = "AUTO-FOLLOW"
      · subst hfollow
        exact .some ⟨rfl, rfl, by simp, rfl⟩
      · simp [latest, History.record, Ne.symm hcore, Ne.symm hfollow]

/-- A seed for the example that asks for follow restrictions. -/
def followSeed : Draft := { name := "SEED", imports := ["EXP", "AUTO-FOLLOW"] }

/-- The replaced module, the order of insertions and that of sentences leave no trace: neither in
the import closure of a seed, its flat module and its capabilities, nor in its bundle, where the
equals sign is restricted. -/
theorem construction_determines_lookup_reordered :
    ∃ closure flat cs modules parsed,
      closure.map Module.name = ["EXP", "K", "AUTO-FOLLOW"] ∧
      flat.imports = ["AUTO-FOLLOW", "K"] ∧ .autoFollow ∈ cs ∧ equalsSign ["="] ∈ parsed ∧
      ∀ steps ∈ [replacingSteps, reorderedSteps],
        (ofSteps steps).importClosure followSeed.module = .ok closure ∧
        (ofSteps steps).flatten followSeed.module = .ok flat ∧
        ({} : Settings).capabilities (ofSteps steps) followSeed.module = .ok cs ∧
        ((⟨{}, {}, false⟩ : Synthesizer).combine (ofSteps steps) followSeed.module).map
          Bundle.shown = .ok (modules, .ok parsed) := by
  have run : (∃ closure, (ofSteps replacingSteps).importClosure followSeed.module = .ok closure ∧
        closure.map Module.name = ["EXP", "K", "AUTO-FOLLOW"]) ∧
      (∃ flat, (ofSteps replacingSteps).flatten followSeed.module = .ok flat ∧
        flat.imports = ["AUTO-FOLLOW", "K"]) ∧
      (∃ cs, ({} : Settings).capabilities (ofSteps replacingSteps) followSeed.module = .ok cs ∧
        .autoFollow ∈ cs) ∧
      ∃ b, (⟨{}, {}, false⟩ : Synthesizer).combine (ofSteps replacingSteps) followSeed.module =
          .ok b ∧
        ∃ parsed, b.parseSentences = .ok parsed ∧ equalsSign ["="] ∈ parsed := by
    decide +kernel
  obtain ⟨⟨closure, hclosure, hnames⟩, ⟨flat, hflat, himports⟩, ⟨cs, hcs, hfollow⟩, b, hb, parsed,
    hparsed, hequals⟩ := run
  have hbundle : ((⟨{}, {}, false⟩ : Synthesizer).combine (ofSteps replacingSteps)
      followSeed.module).map Bundle.shown = .ok (b.modules, .ok parsed) := by
    rw [hb, ← hparsed]
    rfl
  obtain ⟨-, -, -, -, -, hsame⟩ := construction_determines_lookup replacingSteps
  have hseed : followSeed.Alike followSeed := ⟨rfl, rfl, fun _ => Iff.rfl, rfl⟩
  obtain ⟨hclosure', hflat', hcs', hbundle'⟩ := hsame reorderedSteps agree_reordered _ _ hseed
  refine ⟨closure, flat, cs, b.modules, parsed, hnames, himports, hfollow, hequals,
    fun steps hsteps => ?_⟩
  rcases List.mem_pair.1 hsteps with rfl | rfl
  · exact ⟨hclosure, hflat, hcs, hbundle⟩
  · exact ⟨hclosure'.trans hclosure, hflat'.trans hflat, (hcs' {}).trans hcs,
      (hbundle' ⟨{}, {}, false⟩).1.trans hbundle⟩

end Definition

end GrammarSynthesis
