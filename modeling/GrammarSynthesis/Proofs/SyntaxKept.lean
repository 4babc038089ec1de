import GrammarSynthesis.Proofs.Restriction
import GrammarSynthesis.Proofs.SortsKept
import GrammarSynthesis.Sample.Lambda

/-!
# Which syntax reaches the parser

Two stages put something else in the place of a production: loosened cells, and lists that are
written out. All other syntax reaches the parser, with follow sets that have perhaps grown. What
the user wrote is carried from stage to stage into the parse module. A base module is reached
through the flat module, and the parser sees it, or its restricted copy.

* `Stages.Made.exists_stricter_of_flat`: the way through the stages;
* `Stages.Made.exists_stricter_of_base`: the way through the imports of the parse module;
* `visible_syntax_survives`: what a seed sees reaches the parser.
-/
namespace GrammarSynthesis

namespace Definition

variable {d : Definition} {m : Module}

/-- What a module sees was written by the user, or stands in a base module of its closure. -/
theorem mem_user_or_base {closure : List Module} {s : Sentence}
    (hs : s ∈ sentencesOf (m :: closure)) :
    s ∈ sentencesOf (d.userSide m closure) ∨
      ∃ x ∈ closure, d.isBase x.name = true ∧ s ∈ x.sentences := by
  obtain ⟨x, hx, hs⟩ := mem_sentencesOf.1 hs
  have user : x ∈ d.userSide m closure → s ∈ sentencesOf (d.userSide m closure) := fun hx =>
    mem_sentencesOf.2 ⟨x, hx, hs⟩
  rcases List.mem_cons.1 hx with rfl | hx
  · exact .inl (user (mem_userSide_iff.2 (.inl rfl)))
  · cases hb : d.isBase x.name with
    | true => exact .inr ⟨x, hx, hb, hs⟩
    | false => exact .inl (user (mem_userSide_iff.2 (.inr ⟨hx, hb⟩)))

end Definition

/-- An extension reaches all that the module reached. -/
theorem Casts.reaches_of_extend? {cfg : Settings} {d : Definition} {m : Module}
    {cs : Capabilities} {extended : Option Module} (h : extend? cfg d m cs = .ok extended)
    {n : String} (hn : d.Reaches m.imports n) : d.Reaches (extended.getD m).imports n := by
  obtain ⟨new, -, ⟨-, rfl⟩ | ⟨-, rfl⟩⟩ := extend?_eq_ok_iff.1 h
  · exact hn
  · exact Definition.reaches_extension_iff.2 (.inl hn)

namespace Synthesizer

open Definition

variable {cfg : Settings} {cs : Capabilities}

/-- No stage puts something else in the place of the production: it is no cell in a grammar for
rules, and no part of a list where lists are written out. -/
structure Passes (cfg : Settings) (cs : Capabilities) (p : Production) : Prop where
  cell : p.hasAttribute cfg.keys.cell = true → .ruleCells ∉ cs
  list : p.hasAttribute cfg.keys.userList = true → .programLists ∉ cs

namespace Stages

variable {st : Stages} {a : Synthesizer} {d : Definition} {seed : Module}

theorem exists_stricter_restricted (st : Stages) (cfg : Settings) {set : SentenceSet}
    {x : Sentence} (hx : x ∈ set) :
    ∃ y ∈ st.restricted cfg set, x.SameBut Terminal.Stricter y := by
  unfold restricted
  cases st.vocabulary with
  | none => exact ⟨x, hx, .refl Terminal.Stricter.refl x⟩
  | some v => exact ⟨_, OrdSet.mem_map.2 ⟨x, hx, rfl⟩, v.sameBut_restrictSentence cfg x⟩

theorem exists_of_mem_restricted (st : Stages) (cfg : Settings) {set : SentenceSet} {t : Sentence}
    (ht : t ∈ st.restricted cfg set) : ∃ s ∈ set, s.SameBut Terminal.Stricter t := by
  unfold restricted at ht
  cases hv : st.vocabulary with
  | none =>
    rw [hv] at ht
    exact ⟨t, ht, .refl Terminal.Stricter.refl t⟩
  | some v =>
    rw [hv] at ht
    obtain ⟨s, hs, rfl⟩ := OrdSet.mem_map.1 ht
    exact ⟨s, hs, v.sameBut_restrictSentence cfg s⟩

/-- What is not tagged goes from the disambiguation module into the parse module. -/
theorem mem_parse_of_kept {s : Sentence} (hs : s ∈ (st.disambiguation a.settings).sentences)
    (hkept : UserList.isSugar a.settings s = true → .programLists ∉ st.capabilities) :
    s ∈ (st.bundle a d seed).parse.sentences := by
  by_cases hcs : .programLists ∈ st.capabilities
  · have hsugar : UserList.isSugar a.settings s = false :=
      Bool.eq_false_iff.2 fun hsugar => hkept hsugar hcs
    exact (mem_parse_iff hcs).2 ⟨hsugar, .inl hs⟩
  · have hsame : (st.bundle a d seed).parse = st.disambiguation a.settings := by
      simp only [Bundle.parse, Stages.bundle, desugar?, if_neg hcs, Option.getD_none]
    rw [hsame]
    exact hs

namespace Made

variable (h : st.Made a d seed) {x : Sentence}
include h

/-- A sentence of the user stands in the parse module, with wider follow sets perhaps. -/
theorem exists_stricter_of_flat (hx : x ∈ st.flat.sentences)
    (hpass : ∀ p, x = .production p → Passes a.settings st.capabilities p) :
    ∃ y ∈ (st.bundle a d seed).parse.sentences, x.SameBut Terminal.Stricter y := by
  have hloosened : x ∈ st.loosened :=
    mem_loosenCells_of_kept h.loosened hx fun p e => (hpass p e).cell
  obtain ⟨y, hy, hxy⟩ := st.exists_stricter_restricted a.settings hloosened
  have hdis : y ∈ (st.disambiguation a.settings).sentences := mem_disambiguation_iff.2 (.inl hy)
  refine ⟨y, mem_parse_of_kept hdis fun hsugar => ?_, hxy⟩
  rw [hxy.isSugar_eq] at hsugar
  cases x with
  | declaration s => cases hsugar
  | production p => exact (hpass p rfl).list hsugar

/-- A sentence of a base module of the extension's closure is seen through the flat module, in the
base module itself or in its copy. -/
theorem exists_stricter_of_base {flatClosure : List Module}
    (hf : d.importClosure st.flat = .ok flatClosure) {m : Module} (hm : m ∈ st.closure)
    (hb : d.isBase m.name = true) (hx : x ∈ m.sentences) :
    ∃ m' ∈ flatClosure.map (seenThrough (st.bundle a d seed).shadows),
      ∃ y ∈ m'.sentences, x.SameBut Terminal.Stricter y := by
  have hflat := (mem_flatClosure_iff_of_base h.flat h.closure hf hb).2 hm
  obtain ⟨y, hy, hxy⟩ := st.exists_stricter_restricted a.settings hx
  refine ⟨_, List.mem_map.2 ⟨m, hflat, rfl⟩, y, ?_, hxy⟩
  rw [h.seenThrough_shadows hm, if_pos hb]
  exact hy

/-- The sentences of the seed that no stage takes apart are seen by the parser. -/
theorem exists_stricter_seen {flatClosure closure : List Module} {user : SentenceSet}
    (hf : d.importClosure st.flat = .ok flatClosure) (hc : d.importClosure seed = .ok closure)
    (huser : d.userSentences seed = .ok user) (hx : x ∈ sentencesOf (seed :: closure))
    (hpass : ∀ p, x = .production p → x ∈ user → Passes a.settings st.capabilities p) :
    ∃ y ∈ sentencesOf ((st.bundle a d seed).parse ::
      flatClosure.map (seenThrough (st.bundle a d seed).shadows)),
      x.SameBut Terminal.Stricter y := by
  obtain ⟨before, hbefore, hsub⟩ := exists_userSentences h.extended h.flat
  obtain rfl : before = user := Except.ok.inj (hbefore.symm.trans huser)
  rw [userSentences, hc] at huser
  obtain rfl := Except.ok.inj huser
  rcases mem_user_or_base hx with hx | ⟨m, hm, hb, hx⟩
  · obtain ⟨y, hy, hxy⟩ := h.exists_stricter_of_flat (hsub x hx) fun p e => hpass p e hx
    exact ⟨y, mem_sentencesOf.2 ⟨_, List.mem_cons_self, hy⟩, hxy⟩
  · obtain ⟨hreach, hget⟩ := (mem_importClosure_iff hc).1 hm
    have hm' : m ∈ st.closure :=
      (mem_importClosure_iff h.closure).2 ⟨Casts.reaches_of_extend? h.extended hreach, hget⟩
    obtain ⟨m', hm', y, hy, hxy⟩ := h.exists_stricter_of_base hf hm' hb hx
    exact ⟨y, mem_sentencesOf.2 ⟨m', List.mem_cons_of_mem _ hm', hy⟩, hxy⟩

end Made

end Stages

/-- **All syntax that no stage takes apart reaches the parser.** Of what the seed sees, each sort
declaration is seen by the parser. So is each production, with follow sets that include those it
had, unless the user wrote it and it is a cell of a grammar for rules, or a part of a list that is
written out. -/
theorem visible_syntax_survives {a : Synthesizer} {d : Definition} {seed : Module} {b : Bundle}
    (h : a.combine d seed = .ok b) :
    ∃ cs user visible parsed, a.settings.capabilities d seed = .ok cs ∧
      d.userSentences seed = .ok user ∧ d.visibleSentences seed = .ok visible ∧
      b.parseSentences = .ok parsed ∧
      (∀ s, .declaration s ∈ visible → .declaration s ∈ parsed) ∧
      ∀ p, .production p ∈ visible → (.production p ∈ user → Passes a.settings cs p) →
        ∃ q, .production q ∈ parsed ∧ p.SameBut Terminal.Stricter q := by
  obtain ⟨st, made, rfl⟩ := combine_eq_ok_iff.1 h
  obtain ⟨flatClosure, hf, hclosures⟩ := made.importClosure_bundle
  obtain ⟨names, hnames, -⟩ := Outcome.map_eq_ok_iff.1 made.capabilities
  obtain ⟨closure, hc, -⟩ := Outcome.map_eq_ok_iff.1 hnames
  obtain ⟨user, huser, -⟩ := exists_userSentences made.extended made.flat
  refine ⟨st.capabilities, user, sentencesOf (seed :: closure), _, made.capabilities, huser,
    Outcome.map_eq_ok_iff.2 ⟨closure, hc, rfl⟩,
    Outcome.map_eq_ok_iff.2 ⟨_, hclosures _ (.inr rfl), rfl⟩, fun s hs => ?_, fun p hp hpass => ?_⟩
  · obtain ⟨y, hy, hxy⟩ := made.exists_stricter_seen hf hc huser hs fun p e => by cases e
    cases hxy
    exact hy
  · obtain ⟨y, hy, hxy⟩ := made.exists_stricter_seen hf hc huser hp fun q e hq => by
      cases e
      exact hpass hq
    cases hxy with
    | @production _ q hpq => exact ⟨q, hy, hpq⟩

/-- The sample's grammar for rules: all of its productions but the cells reach the parser, lists in
their written form among them. -/
theorem visible_syntax_survives_lambda :
    ∃ a, create {} (Settings.standardBase {}) false = .ok a ∧
      ∃ seed, a.seed (a.emptyDefinition.insert Sample.lambdaModule) "LAMBDA" .rule = .ok seed ∧
      ∃ b, a.combine (a.emptyDefinition.insert Sample.lambdaModule) seed = .ok b ∧
      ∃ parsed, b.parseSentences = .ok parsed ∧
        ∀ p ∈ productionsOf Sample.lambdaModule.sentences.toList,
          p.hasAttribute a.settings.keys.cell = false →
          ∃ q, .production q ∈ parsed ∧ p.SameBut Terminal.Stricter q := by
  have run : ∃ a, create {} (Settings.standardBase {}) false = .ok a ∧
      ∃ seed, a.seed (a.emptyDefinition.insert Sample.lambdaModule) "LAMBDA" .rule = .ok seed ∧
      (∃ cs, a.settings.capabilities (a.emptyDefinition.insert Sample.lambdaModule) seed =
        .ok cs ∧ .programLists ∉ cs) ∧
      (∃ visible, (a.emptyDefinition.insert Sample.lambdaModule).visibleSentences seed =
        .ok visible ∧ ∀ s ∈ Sample.lambdaModule.sentences.toList, s ∈ visible) ∧
      ∃ b, a.combine (a.emptyDefinition.insert Sample.lambdaModule) seed = .ok b ∧
        b.extended ≠ none := by
    decide +kernel
  obtain ⟨a, ha, seed, hseed, ⟨cs, hcs, hlists⟩, ⟨visible, hvisible, hall⟩, b, hb, -⟩ := run
  obtain ⟨cs', user, visible', parsed, hcs', -, hvisible', hparsed, -, hreach⟩ :=
    visible_syntax_survives hb
  obtain rfl : cs = cs' := Except.ok.inj (hcs.symm.trans hcs')
  obtain rfl : visible = visible' := Except.ok.inj (hvisible.symm.trans hvisible')
  refine ⟨a, ha, seed, hseed, b, hb, parsed, hparsed, fun p hp hcell => ?_⟩
  refine hreach p (hall _ (mem_productionsOf.1 hp)) fun _ => ⟨fun h => ?_, fun _ => hlists⟩
  rw [hcell] at h
  cases h

end Synthesizer

end GrammarSynthesis
