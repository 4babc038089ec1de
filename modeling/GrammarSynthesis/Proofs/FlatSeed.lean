import GrammarSynthesis.Proofs.Assembly
import GrammarSynthesis.Proofs.Extension
import GrammarSynthesis.Sample.Lambda

/-!
# Flat seeds

A seed may be flattened before it is assembled. The stages look at a seed through its flat module
only: what it sees, what the user wrote, which base modules it reaches and which capabilities it has
are known from there, and the flat module of the extension from that of the seed. So two seeds whose
flat modules agree, be it with imports in another order, give bundles that agree.

* `FlatAlike`: the flat modules of two modules agree;
* `FlatAlike.visible`, `FlatAlike.capabilities`, `FlatAlike.extend?`: so does what is made of them;
* `Made.of_flatAlike`: the stages give for one seed what they give for the other;
* `combine_flatten`: assembling a flat seed.
-/
namespace GrammarSynthesis

namespace Definition

/-- Both modules can be flattened, to modules with the same sentences and the same imports. -/
def FlatAlike (d : Definition) (m m' : Module) : Prop :=
  ∃ flat flat', d.flatten m = .ok flat ∧ d.flatten m' = .ok flat' ∧
    flat.sentences = flat'.sentences ∧ ∀ n, n ∈ flat.imports ↔ n ∈ flat'.imports

variable {d : Definition} {m m' flat flat' : Module}

theorem FlatAlike.symm (h : d.FlatAlike m m') : d.FlatAlike m' m := by
  obtain ⟨flat, flat', hf, hf', hs, hi⟩ := h
  exact ⟨flat', flat, hf', hf, hs.symm, fun n => (hi n).symm⟩

/-- A flat module is its own flat module. -/
theorem flatAlike_flat (h : d.flatten m = .ok flat) : d.FlatAlike m flat := by
  obtain ⟨flatter, hf⟩ := exists_flatten_iff.2 (importClosure_flat h)
  have own : ∀ {x}, d.ReachesOwn flat.imports x → d.ReachesOwn m.imports x := fun hx =>
    ⟨reaches_of_reaches_flat h hx.1, hx.2⟩
  refine ⟨flat, flatter, h, hf, ?_, fun n => ?_⟩
  · ext s
    rw [mem_flat_sentences_iff hf]
    refine ⟨.inl, fun hs => hs.elim id fun ⟨x, hx, hs⟩ => ?_⟩
    exact (mem_flat_sentences_iff h).2 (.inr ⟨x, own hx, hs⟩)
  · rw [mem_flat_imports_iff hf]
    constructor
    · exact fun hn => ⟨((mem_flat_imports_iff h).1 hn).1, .inl hn⟩
    · rintro ⟨hb, hn | ⟨x, hx, hn⟩⟩
      · exact hn
      · exact (mem_flat_imports_iff h).2 ⟨hb, .inr ⟨x, own hx, hn⟩⟩

/-! ## What alike modules have in common -/

/-- Modules with the same imports, in whatever order, have the same modules in their closures. -/
theorem mem_importClosure_congr {closure closure' : List Module}
    (himports : ∀ n, n ∈ m.imports ↔ n ∈ m'.imports) (h : d.importClosure m = .ok closure)
    (h' : d.importClosure m' = .ok closure') {x : Module} : x ∈ closure ↔ x ∈ closure' := by
  rw [mem_importClosure_iff h, mem_importClosure_iff h', reaches_congr himports]

theorem FlatAlike.reaches_iff (h : d.FlatAlike m m') {n : String} (hb : d.isBase n = true) :
    d.Reaches m.imports n ↔ d.Reaches m'.imports n := by
  obtain ⟨flat, flat', hf, hf', -, hi⟩ := h
  rw [← reaches_flat_iff_of_base hf hb, ← reaches_flat_iff_of_base hf' hb, reaches_congr hi]

theorem FlatAlike.user (h : d.FlatAlike m m') : d.userSentences m = d.userSentences m' := by
  obtain ⟨flat, flat', hf, hf', hs, -⟩ := h
  rw [userSentences_of_flatten hf, userSentences_of_flatten hf', hs]

theorem FlatAlike.visible (h : d.FlatAlike m m') :
    d.visibleSentences m = d.visibleSentences m' := by
  obtain ⟨flat, flat', hf, hf', hs, hi⟩ := h
  obtain ⟨closure, hc⟩ := exists_flatten_iff.1 ⟨flat, hf⟩
  obtain ⟨closure', hc'⟩ := exists_flatten_iff.1 ⟨flat', hf'⟩
  obtain ⟨flatClosure, hfc⟩ := importClosure_flat hf
  obtain ⟨flatClosure', hfc'⟩ := importClosure_flat hf'
  suffices sentencesOf (m :: closure) = sentencesOf (m' :: closure') by
    rw [visibleSentences, visibleSentences, hc, hc']
    exact congrArg Except.ok this
  rw [← visible_flat hf hc hfc, ← visible_flat hf' hc' hfc']
  ext s
  simp only [mem_sentencesOf, List.mem_cons, exists_eq_or_imp, hs,
    mem_importClosure_congr hi hfc hfc']

theorem FlatAlike.capabilities (h : d.FlatAlike m m') {cfg : Settings} {cs : Capabilities}
    (hcs : cfg.capabilities d m = .ok cs) : cfg.capabilities d m' = .ok cs := by
  obtain ⟨flat, flat', hf, hf', -, -⟩ := id h
  obtain ⟨closure, hc⟩ := exists_flatten_iff.1 ⟨flat, hf⟩
  obtain ⟨closure', hc'⟩ := exists_flatten_iff.1 ⟨flat', hf'⟩
  obtain ⟨cs', hm, hm'⟩ := capabilities_congr hc hc' (fun _ => h.reaches_iff) cfg
  rw [hcs] at hm
  cases hm
  exact hm'

/-- Alike modules stay alike when both are extended. -/
theorem FlatAlike.extension (h : d.FlatAlike m m') {core : String} {new : List Sentence}
    (hflat : ∃ flat, d.flatten ((m.addImport core).extend new) = .ok flat) :
    d.FlatAlike ((m.addImport core).extend new) ((m'.addImport core).extend new) := by
  obtain ⟨flat, flat', hf, hf', hs, hi⟩ := h
  have hcore := (exists_flatten_extension_iff.1 hflat).2
  obtain ⟨grown, hg⟩ := hflat
  obtain ⟨grown', hg'⟩ := exists_flatten_extension_iff.2 ⟨⟨flat', hf'⟩, hcore⟩
  refine ⟨grown, grown', hg, hg', ?_, fun n => ?_⟩
  · ext s
    rw [mem_flat_extension_sentences hf hg, mem_flat_extension_sentences hf' hg', hs]
  · rw [mem_flat_extension_imports hf hg, mem_flat_extension_imports hf' hg', hi]

theorem FlatAlike.extend? (h : d.FlatAlike m m') {cfg : Settings} {cs : Capabilities}
    {extended : Option Module} (he : Casts.extend? cfg d m cs = .ok extended)
    (hflat : ∃ flat, d.flatten (extended.getD m) = .ok flat) :
    ∃ extended', Casts.extend? cfg d m' cs = .ok extended' ∧
      d.FlatAlike (extended.getD m) (extended'.getD m') := by
  have hsame : Casts.additions cfg d m cs = Casts.additions cfg d m' cs := by
    rw [Casts.additions, Casts.additions, h.user, h.visible]
  obtain ⟨new, hnew, ⟨hnil, rfl⟩ | ⟨hne, rfl⟩⟩ := Casts.extend?_eq_ok_iff.1 he
  · exact ⟨none, Casts.extend?_eq_ok_iff.2 ⟨new, hsame ▸ hnew, .inl ⟨hnil, rfl⟩⟩, h⟩
  · exact ⟨_, Casts.extend?_eq_ok_iff.2 ⟨new, hsame ▸ hnew, .inr ⟨hne, rfl⟩⟩, h.extension hflat⟩

end Definition

namespace Synthesizer

open Definition

/-! ## Stages of alike seeds -/

/-- The stages gave the same, but for names and the order of imports. -/
structure Stages.Agree (st st' : Stages) : Prop where
  capabilities : st.capabilities = st'.capabilities
  sentences : st.flat.sentences = st'.flat.sentences
  imports : ∀ n, n ∈ st.flat.imports ↔ n ∈ st'.flat.imports
  loosened : st.loosened = st'.loosened
  vocabulary : st.vocabulary = st'.vocabulary

variable {a : Synthesizer} {d : Definition} {seed seed' : Module} {st st' : Stages}

theorem Stages.Made.of_flatAlike (h : st.Made a d seed) (hs : d.FlatAlike seed seed') :
    ∃ st' : Stages, st'.Made a d seed' ∧ st.Agree st' := by
  obtain ⟨extended', he', hext⟩ := hs.extend? h.extended ⟨_, h.flat⟩
  obtain ⟨flat, flat', hf, hf', hsentences, himports⟩ := id hext
  obtain rfl : flat = st.flat := Except.ok.inj (hf.symm.trans h.flat)
  obtain ⟨closure', hc'⟩ := exists_flatten_iff.1 ⟨flat', hf'⟩
  have hloosened := h.loosened
  have hvocabulary := h.vocabulary
  rw [hsentences] at hloosened
  rw [vocabulary?, hext.visible] at hvocabulary
  exact ⟨⟨st.capabilities, extended', flat', st.loosened, st.vocabulary, closure'⟩,
    ⟨hs.capabilities h.capabilities, he', hf', hloosened, hvocabulary, hc'⟩,
    ⟨rfl, hsentences, himports, rfl, rfl⟩⟩

section Bundles

variable (hst : st.Agree st')
include hst

theorem Stages.Agree.disambiguation :
    (st.bundle a d seed).disambiguation.sentences =
      (st'.bundle a d seed').disambiguation.sentences := by
  simp only [bundle, Stages.disambiguation, restricted, hst.capabilities, hst.loosened,
    hst.vocabulary]

theorem Stages.Agree.parse :
    (st.bundle a d seed).parse.sentences = (st'.bundle a d seed').parse.sentences := by
  have hdis : (st.bundle a d seed).disambiguation.sentences =
      (st'.bundle a d seed').disambiguation.sentences := hst.disambiguation
  simp only [bundle] at hdis
  simp only [Bundle.parse, bundle, desugar?, hst.capabilities, topSortInjections,
    Module.productions, Module.localSorts, hdis]
  split <;> simp [hdis]

/-- The modules of the closures of the two flat modules look the same through the layers of the two
bundles. -/
theorem Stages.Agree.seen (h : st.Made a d seed) (h' : st'.Made a d seed') {m m' : Module}
    (hm : m = (st.bundle a d seed).disambiguation ∨ m = (st.bundle a d seed).parse)
    (hm' : m' = (st'.bundle a d seed').disambiguation ∨ m' = (st'.bundle a d seed').parse)
    (hsentences : m.sentences = m'.sentences) :
    ∃ visible, (st.bundle a d seed).definition.visibleSentences m = .ok visible ∧
      (st'.bundle a d seed').definition.visibleSentences m' = .ok visible := by
  obtain ⟨flatClosure, hf, hclosures⟩ := h.importClosure_bundle
  obtain ⟨flatClosure', hf', hclosures'⟩ := h'.importClosure_bundle
  have himported : ∀ x, x ∈ flatClosure ↔ x ∈ flatClosure' := fun x =>
    mem_importClosure_congr hst.imports hf hf'
  have hlook : ∀ x ∈ flatClosure, seenThrough (st.bundle a d seed).shadows x =
      seenThrough (st'.bundle a d seed').shadows x := by
    intro x hx
    have hclosure := flatClosure_subset h.flat h.closure hf hx
    have hclosure' := flatClosure_subset h'.flat h'.closure hf' ((himported x).1 hx)
    rw [h.seenThrough_shadows hclosure, h'.seenThrough_shadows hclosure', restricted, restricted,
      hst.vocabulary]
  refine ⟨_, Outcome.map_eq_ok_iff.2 ⟨_, hclosures m hm, rfl⟩,
    Outcome.map_eq_ok_iff.2 ⟨_, hclosures' m' hm', ?_⟩⟩
  ext s
  simp only [mem_sentencesOf, List.mem_cons, exists_eq_or_imp, hsentences, List.mem_map,
    exists_exists_and_eq_and]
  refine or_congr_right (exists_congr fun x => ?_)
  rw [← himported]
  exact and_congr_right fun hx => by rw [hlook x hx]

end Bundles

/-- **Assembling commutes with flattening.** A seed is assembled if and only if its flat module is,
and the two bundles agree: their flat modules have the same sentences and import the same modules,
and a parser and a disambiguation of trees see the same through either. -/
theorem combine_flatten {flat : Module} (h : d.flatten seed = .ok flat) :
    ((∃ b, a.combine d flat = .ok b) ↔ ∃ b, a.combine d seed = .ok b) ∧
    ∀ b b', a.combine d flat = .ok b → a.combine d seed = .ok b' →
      b.disambiguation.sentences = b'.disambiguation.sentences ∧
      b.parse.sentences = b'.parse.sentences ∧
      (∀ n, n ∈ b.disambiguation.imports ↔ n ∈ b'.disambiguation.imports) ∧
      (∀ n, n ∈ b.parse.imports ↔ n ∈ b'.parse.imports) ∧
      (∃ visible, b.parseSentences = .ok visible ∧ b'.parseSentences = .ok visible) ∧
      ∃ visible, b.disambiguationSentences = .ok visible ∧
        b'.disambiguationSentences = .ok visible := by
  have halike := flatAlike_flat h
  have transfer : ∀ {m m'}, d.FlatAlike m m' → (∃ b, a.combine d m = .ok b) →
      ∃ b, a.combine d m' = .ok b := by
    intro m m' hm hb
    obtain ⟨b, hb⟩ := hb
    obtain ⟨st, made, rfl⟩ := combine_eq_ok_iff.1 hb
    obtain ⟨st', made', -⟩ := made.of_flatAlike hm
    exact ⟨_, combine_eq_ok_iff.2 ⟨st', made', rfl⟩⟩
  refine ⟨⟨transfer halike.symm, transfer halike⟩, fun b b' hb hb' => ?_⟩
  obtain ⟨st, made, rfl⟩ := combine_eq_ok_iff.1 hb
  obtain ⟨st', made', hst⟩ := made.of_flatAlike halike.symm
  obtain rfl := Except.ok.inj (hb'.symm.trans (combine_eq_ok_iff.2 ⟨st', made', rfl⟩))
  have hparse := Stages.Made.parse_name_imports st a d flat
  have hparse' := Stages.Made.parse_name_imports st' a d seed
  refine ⟨hst.disambiguation, hst.parse, hst.imports, fun n => ?_, ?_, ?_⟩
  · rw [hparse.2, hparse'.2]
    exact hst.imports n
  · exact hst.seen made made' (.inr rfl) (.inr rfl) hst.parse
  · exact hst.seen made made' (.inl rfl) (.inl rfl) hst.disambiguation

/-- The sample's grammar for rules: its seed imports a module of the user, the flat seed does not. -/
theorem combine_flatten_lambda :
    ∃ a, create {} (Settings.standardBase {}) false = .ok a ∧
      ∃ seed, a.seed (a.emptyDefinition.insert Sample.lambdaModule) "LAMBDA" .rule = .ok seed ∧
      ∃ flat, (a.emptyDefinition.insert Sample.lambdaModule).flatten seed = .ok flat ∧
      "LAMBDA" ∈ seed.imports ∧ "LAMBDA" ∉ flat.imports ∧
      ∃ b b', a.combine (a.emptyDefinition.insert Sample.lambdaModule) flat = .ok b ∧
        a.combine (a.emptyDefinition.insert Sample.lambdaModule) seed = .ok b' ∧
        b.parse.sentences = b'.parse.sentences ∧
        ∃ visible, b.parseSentences = .ok visible ∧ b'.parseSentences = .ok visible := by
  have run : ∃ a, create {} (Settings.standardBase {}) false = .ok a ∧
      ∃ seed, a.seed (a.emptyDefinition.insert Sample.lambdaModule) "LAMBDA" .rule = .ok seed ∧
      (∃ flat, (a.emptyDefinition.insert Sample.lambdaModule).flatten seed = .ok flat ∧
        "LAMBDA" ∈ seed.imports ∧ "LAMBDA" ∉ flat.imports) ∧
      ∃ b', a.combine (a.emptyDefinition.insert Sample.lambdaModule) seed = .ok b' ∧
        b'.extended ≠ none := by
    decide +kernel
  obtain ⟨a, ha, seed, hseed, ⟨flat, hflat, hin, hout⟩, b', hb', -⟩ := run
  obtain ⟨hiff, hagree⟩ := combine_flatten (a := a) hflat
  obtain ⟨b, hb⟩ := hiff.2 ⟨b', hb'⟩
  obtain ⟨-, hparse, -, -, hvisible, -⟩ := hagree b b' hb hb'
  exact ⟨a, ha, seed, hseed, flat, hflat, hin, hout, b, b', hb, hb', hparse, hvisible⟩

end Synthesizer

end GrammarSynthesis
