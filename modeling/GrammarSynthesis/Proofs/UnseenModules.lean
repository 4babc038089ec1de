import GrammarSynthesis.Proofs.SyntaxKept

/-!
# Unseen modules

A grammar is made of the modules that its extension reaches. On the way a definition is asked for
modules by name and whether a name is one of the base, and each name that it is asked for can be
reached from the extension: the names of the closures, the markers, what the flat module imports and
what the restricted copies hide. A definition that answers alike for these names gives the same
grammar. So a module with another name may be added, replaced or hidden.

* `AgreeFrom`: two definitions answer alike for all names that can be reached;
* `AgreeFrom.importClosure`, `AgreeFrom.flatten`, `AgreeFrom.capabilities`, `AgreeFrom.extend?`:
  what is made of their answers;
* `Made.of_agreeFrom`: the stages give the same in both;
* `agreeFrom_insert`: a new module changes the answers for its own name only;
* `combine_insert`: a module that the extension does not reach changes nothing.
-/
namespace GrammarSynthesis

namespace Definition

/-- For each name that can be reached from `start`, both definitions find the same module and say
the same about whether it is one of the base. -/
structure AgreeFrom (d d' : Definition) (start : List String) : Prop where
  get? : ∀ name, d.Reaches start name → d'.get? name = d.get? name
  isBase : ∀ name, d.Reaches start name → d'.isBase name = d.isBase name

variable {d d' : Definition} {m : Module} {start start' : List String}

theorem AgreeFrom.narrow (h : d.AgreeFrom d' start)
    (hsub : ∀ n, d.Reaches start' n → d.Reaches start n) : d.AgreeFrom d' start' where
  get? n hn := h.get? n (hsub n hn)
  isBase n hn := h.isBase n (hsub n hn)

/-! ## Walks -/

/-- A walk takes the same turns in both definitions, as long as it stays with these names. -/
theorem AgreeFrom.reach (h : d.AgreeFrom d' start) {visited : List String}
    {pending : List (String × String)} (hp : ∀ p ∈ pending, d.Reaches start p.2) :
    d'.reach visited pending = d.reach visited pending := by
  fun_induction Definition.reach d visited pending with
  | case1 => rw [Definition.reach]
  | case2 visited importer name pending hv ih =>
    rw [reach_of_mem hv, ih fun p hm => hp p (List.mem_cons_of_mem _ hm)]
  | case3 visited importer name pending hv hget =>
    exact reach_of_none hv ((h.get? name (hp _ List.mem_cons_self)).trans hget)
  | case4 visited importer name pending hv x hget ih =>
    have hsome := (h.get? name (hp _ List.mem_cons_self)).trans hget
    have hkeep := visit_keeps (fun _ _ hn hx _ hi => hn.step hx hi) hget hp
    rw [reach_of_some hv hsome, ih hkeep]

section Modules

variable (h : d.AgreeFrom d' m.imports)
include h

theorem AgreeFrom.importClosure : d'.importClosure m = d.importClosure m := by
  refine h.reach fun p hp => ?_
  obtain ⟨n, hi, rfl⟩ := List.mem_map.1 hp
  exact .direct hi

theorem AgreeFrom.userSide {closure : List Module} (hc : d.importClosure m = .ok closure) :
    d'.userSide m closure = d.userSide m closure := by
  refine congrArg (List.cons m) (List.filter_congr fun x hx => ?_)
  rw [h.isBase _ ((mem_importClosure_iff hc).1 hx).1]

theorem AgreeFrom.userSentences : d'.userSentences m = d.userSentences m := by
  rw [Definition.userSentences, Definition.userSentences, h.importClosure]
  exact Outcome.map_congr fun closure hc => by rw [h.userSide hc]

theorem AgreeFrom.visibleSentences : d'.visibleSentences m = d.visibleSentences m := by
  rw [Definition.visibleSentences, h.importClosure]
  rfl

theorem AgreeFrom.flatten : d'.flatten m = d.flatten m := by
  rw [Definition.flatten, Definition.flatten, h.importClosure]
  refine Outcome.map_congr fun closure hc => ?_
  -- what a module of the user's side imports can be reached
  have himports : ((d.userSide m closure).flatMap Module.imports).filter d'.isBase =
      ((d.userSide m closure).flatMap Module.imports).filter d.isBase := by
    refine List.filter_congr fun n hn => h.isBase n ?_
    obtain ⟨x, hx, hi⟩ := List.mem_flatMap.1 hn
    rcases mem_userSide_iff.1 hx with rfl | ⟨hx, -⟩
    · exact .direct hi
    · obtain ⟨hr, hget⟩ := (mem_importClosure_iff hc).1 hx
      exact hr.step hget hi
  simp only [h.userSide hc, himports]

theorem AgreeFrom.capabilities (cfg : Settings) :
    cfg.capabilities d' m = cfg.capabilities d m := by
  have hnames : d'.importedNames m = d.importedNames m := by
    rw [importedNames, importedNames, h.importClosure]
  rw [Settings.capabilities, Settings.capabilities, hnames]
  refine Outcome.map_congr fun names hn => ?_
  congr 2
  refine List.filter_congr fun entry _ => ?_
  by_cases hmem : entry.2 ∈ names
  · simp only [h.isBase _ ((mem_importedNames_iff hn).1 hmem)]
  · simp only [hmem, decide_false, Bool.false_and]

theorem AgreeFrom.extend? (cfg : Settings) (cs : Capabilities) :
    Casts.extend? cfg d' m cs = Casts.extend? cfg d m cs := by
  rw [Casts.extend?, Casts.extend?, Casts.additions, Casts.additions, h.userSentences,
    h.visibleSentences]

end Modules

/-! ## A new module -/

/-- A new module changes the answers for its own name only. -/
theorem agreeFrom_insert {n : Module} (hn : ¬ d.Reaches start n.name) :
    d.AgreeFrom (d.insert n) start := by
  have hne : ∀ name, d.Reaches start name → n.name ≠ name := by
    rintro _ hr rfl
    exact hn hr
  exact ⟨fun name hr => by rw [get?_insert, if_neg (hne name hr)],
    fun name hr => isBase_insert (hne name hr)⟩

end Definition

namespace Synthesizer

open Definition

variable {a : Synthesizer} {d d' : Definition} {seed : Module}

/-! ## Stages -/

theorem vocabulary?_congr {extension : Module} (h : d.AgreeFrom d' extension.imports)
    (cfg : Settings) (cs : Capabilities) :
    vocabulary? cfg cs d' extension = vocabulary? cfg cs d extension := by
  rw [vocabulary?, vocabulary?, h.visibleSentences]

theorem shadowLayer_congr {extension : Module} (h : d.AgreeFrom d' extension.imports)
    {closure : List Module} (hc : d.importClosure extension = .ok closure) (cfg : Settings)
    (v : Vocabulary) : shadowLayer cfg d' v closure = shadowLayer cfg d v closure := by
  have hbase : baseModules d' closure = baseModules d closure :=
    List.filter_congr fun x hx => h.isBase _ ((mem_importClosure_iff hc).1 hx).1
  rw [shadowLayer, shadowLayer, hbase]

namespace Stages.Made

variable {st : Stages} (h : st.Made a d seed)
  (hagree : d.AgreeFrom d' (st.extended.getD seed).imports)
include h hagree

/-- The stages give the same in both definitions. -/
theorem of_agreeFrom : st.Made a d' seed := by
  have hseed : d.AgreeFrom d' seed.imports :=
    hagree.narrow fun _ => Casts.reaches_of_extend? h.extended
  exact
    { capabilities := (hseed.capabilities _).trans h.capabilities
      extended := (hseed.extend? _ _).trans h.extended
      flat := hagree.flatten.trans h.flat
      loosened := h.loosened
      vocabulary := (vocabulary?_congr hagree _ _).trans h.vocabulary
      closure := hagree.importClosure.trans h.closure }

/-- The two bundles differ in the definition of the user alone. -/
theorem bundle_of_agreeFrom : st.bundle a d' seed = { st.bundle a d seed with user := d' } := by
  have hshadows : (fun v => shadowLayer a.settings d' v st.closure) =
      fun v => shadowLayer a.settings d v st.closure :=
    funext fun v => shadowLayer_congr hagree h.closure a.settings v
  rw [bundle, bundle, hshadows]

/-- A parser and a disambiguation of trees see the same in both. -/
theorem visible_of_agreeFrom {m : Module}
    (hm : m = (st.bundle a d seed).disambiguation ∨ m = (st.bundle a d seed).parse) :
    ∃ visible, (st.bundle a d' seed).definition.visibleSentences m = .ok visible ∧
      (st.bundle a d seed).definition.visibleSentences m = .ok visible := by
  have hsame := h.bundle_of_agreeFrom hagree
  obtain ⟨flatClosure, hf, hclosures⟩ := h.importClosure_bundle
  obtain ⟨flatClosure', hf', hclosures'⟩ := (h.of_agreeFrom hagree).importClosure_bundle
  have hflat : d.AgreeFrom d' st.flat.imports :=
    hagree.narrow fun _ => reaches_of_reaches_flat h.flat
  obtain rfl : flatClosure' = flatClosure :=
    Except.ok.inj (hf'.symm.trans (hflat.importClosure.trans hf))
  have hm' : m = (st.bundle a d' seed).disambiguation ∨ m = (st.bundle a d' seed).parse := by
    rw [hsame]
    exact hm
  have hshadows : (st.bundle a d' seed).shadows = (st.bundle a d seed).shadows := by rw [hsame]
  refine ⟨_, Outcome.map_eq_ok_iff.2 ⟨_, hclosures' m hm', rfl⟩,
    Outcome.map_eq_ok_iff.2 ⟨_, hclosures m hm, ?_⟩⟩
  rw [hshadows]

end Stages.Made

/-! ## Bundles -/

/-- **A grammar depends on its import closure only.** Put a module into the definition, be it new,
or in the place of another, or hiding one of a lower layer. If the extension does not reach its
name, the seed is assembled to the same modules as before, and a parser and a disambiguation of
trees see the same. -/
theorem combine_insert {b : Bundle} {closure : List Module} {n : Module}
    (h : a.combine d seed = .ok b) (hclosure : d.importClosure b.extension = .ok closure)
    (hn : n.name ∉ closure.map Module.name) :
    ∃ again, a.combine (d.insert n) seed = .ok again ∧ again.seed = b.seed ∧
      again.extension = b.extension ∧ again.disambiguation = b.disambiguation ∧
      again.parse = b.parse ∧
      (∃ visible, again.parseSentences = .ok visible ∧ b.parseSentences = .ok visible) ∧
      ∃ visible, again.disambiguationSentences = .ok visible ∧
        b.disambiguationSentences = .ok visible := by
  obtain ⟨st, made, rfl⟩ := combine_eq_ok_iff.1 h
  have hagree : d.AgreeFrom (d.insert n) (st.extended.getD seed).imports := by
    refine agreeFrom_insert fun hr => hn ?_
    obtain ⟨x, hx, hget⟩ := found_of_reaches hclosure hr
    exact List.mem_map.2 ⟨x, hx, name_of_get? hget⟩
  have hsame := made.bundle_of_agreeFrom hagree
  have hdisambiguation : (st.bundle a (d.insert n) seed).disambiguation =
      (st.bundle a d seed).disambiguation := by rw [hsame]
  have hparse : (st.bundle a (d.insert n) seed).parse = (st.bundle a d seed).parse := by
    rw [hsame]; rfl
  refine ⟨_, combine_eq_ok_iff.2 ⟨st, made.of_agreeFrom hagree, rfl⟩, rfl, rfl, hdisambiguation,
    hparse, ?_, ?_⟩
  · rw [Bundle.parseSentences, hparse]
    exact made.visible_of_agreeFrom hagree (.inr rfl)
  · rw [Bundle.disambiguationSentences, hdisambiguation]
    exact made.visible_of_agreeFrom hagree (.inl rfl)

/-- The sample's grammar for rules does not reach the marker of configurations, so the user may hide
that marker with a module that imports an unknown one. -/
theorem combine_insert_lambda :
    ∃ a, create {} (Settings.standardBase {}) false = .ok a ∧
      ∃ seed, a.seed (a.emptyDefinition.insert Sample.lambdaModule) "LAMBDA" .rule = .ok seed ∧
      ∃ b, a.combine (a.emptyDefinition.insert Sample.lambdaModule) seed = .ok b ∧
      (a.emptyDefinition.insert Sample.lambdaModule).isBase "CONFIG-CELLS" = true ∧
      ∃ again, a.combine ((a.emptyDefinition.insert Sample.lambdaModule).insert
          { name := "CONFIG-CELLS", imports := ["UNKNOWN"] }) seed = .ok again ∧
        again.parse = b.parse ∧
        ∃ visible, again.parseSentences = .ok visible ∧ b.parseSentences = .ok visible := by
  have run : ∃ a, create {} (Settings.standardBase {}) false = .ok a ∧
      (a.emptyDefinition.insert Sample.lambdaModule).isBase "CONFIG-CELLS" = true ∧
      ∃ seed, a.seed (a.emptyDefinition.insert Sample.lambdaModule) "LAMBDA" .rule = .ok seed ∧
      ∃ b, a.combine (a.emptyDefinition.insert Sample.lambdaModule) seed = .ok b ∧
      ∃ closure, (a.emptyDefinition.insert Sample.lambdaModule).importClosure b.extension =
          .ok closure ∧ "CONFIG-CELLS" ∉ closure.map Module.name := by
    decide +kernel
  obtain ⟨a, ha, hbase, seed, hseed, b, hb, closure, hclosure, hn⟩ := run
  obtain ⟨again, hagain, -, -, -, hparse, hvisible, -⟩ := combine_insert
    (n := { name := "CONFIG-CELLS", imports := ["UNKNOWN"] }) hb hclosure hn
  exact ⟨a, ha, seed, hseed, b, hb, hbase, again, hagain, hparse, hvisible⟩

end Synthesizer

end GrammarSynthesis
