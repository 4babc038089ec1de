import GrammarSynthesis.Proofs.CellForms
import GrammarSynthesis.Proofs.ListElements
import GrammarSynthesis.Proofs.PrefixLaw
import GrammarSynthesis.Proofs.Reentry
import GrammarSynthesis.Proofs.Restriction
import GrammarSynthesis.Sample.Lambda

/-!
# The restrictions of the disambiguation grammar

Follow restrictions reach a sentence on one of two ways. The sentences of the user are restricted
in the flat module. Base modules are restricted in a layer of copies that hides them. Both ways use
one vocabulary, the words of all that the extension sees, so what a bundle disambiguates with is
what it would be without restrictions, each sentence restricted by these words. That is said of the
sentences as the user and the base wrote them: `CellKinds.ReplacedBy` tells which of them give way
to loosened cells, `UserList.DeclaresList` which lists get an injection.

Lists are recovered after the restrictions, but this makes no difference: their injections have no
terminals, and the elements of lists do not depend on follow sets.

* `Stages.mem_disambiguation_iff_restricted`: the way of the user's sentences;
* `Stages.Made.mem_imported_iff_restricted`: the way of the base modules;
* `disambiguation_restrictions_exact`: both together.
-/
namespace GrammarSynthesis

variable {cfg : Settings} {set : SentenceSet}

namespace Vocabulary

/-- A restriction by the vocabulary of a set is a restriction by the words of the set. -/
theorem restrictSentence_ofProductions_eq_iff {x s : Sentence} :
    (ofProductions cfg (productionsOf set.toList)).restrictSentence cfg x = s ↔
      x.RestrictedBy cfg (Words cfg set) s :=
  restrictSentence_eq_iff fun _ => mem_ofProductions

/-- Each sentence has a form that is restricted by the words of a set. -/
theorem exists_restrictedBy (cfg : Settings) (set : SentenceSet) (x : Sentence) :
    ∃ s, x.RestrictedBy cfg (Words cfg set) s :=
  ⟨_, restrictSentence_ofProductions_eq_iff.1 rfl⟩

/-- An injection has no terminals to restrict. -/
theorem restrictSentence_injection (v : Vocabulary) (cfg : Settings) (sort sub : SortName) :
    v.restrictSentence cfg (.production (.injection sort sub)) =
      .production (.injection sort sub) := by
  rw [restrictSentence, restrict]
  split <;> rfl

end Vocabulary

namespace Synthesizer

open Definition

/-- In a grammar for rules, the elements of each declared list are lists. -/
theorem mem_addRuleLists_iff_declares {cs : Capabilities} {s : Sentence} :
    s ∈ addRuleLists cfg cs set ↔ s ∈ set ∨ .ruleLists ∈ cs ∧
      ∃ list element, UserList.DeclaresList cfg set list element ∧
        s = .production (.injection list element) := by
  simp only [mem_addRuleLists, ← UserList.exists_list_iff]
  refine or_congr_right (and_congr_right fun _ => ?_)
  constructor
  · rintro ⟨u, hu, rfl⟩
    exact ⟨u.sort, u.element, ⟨u, hu, rfl, rfl⟩, rfl⟩
  · rintro ⟨list, element, ⟨u, hu, rfl, rfl⟩, rfl⟩
    exact ⟨u, hu, rfl⟩

namespace Stages

variable {st : Stages} {v : Vocabulary}

theorem restricted_eq (hv : st.vocabulary = some v) :
    st.restricted cfg set = v.restrictAll cfg set := by
  rw [restricted, hv]
  rfl

/-- Restricted sentences declare the lists that they declared before, of the same elements. -/
theorem declaresList_restricted_iff {list element : SortName} :
    UserList.DeclaresList cfg (st.restricted cfg set) list element ↔
      UserList.DeclaresList cfg set list element := by
  refine UserList.declaresList_congr (fun s hs => ?_) fun x => bare_mem_restricted
  obtain ⟨x, hx, h⟩ := bare_of_mem_restricted hs
  exact ⟨x, hx, h.symm⟩

/-- The disambiguation module has what it would have without restrictions, but restricted. -/
theorem mem_disambiguation_iff_restricted (hv : st.vocabulary = some v) {s : Sentence} :
    s ∈ (st.disambiguation cfg).sentences ↔ ∃ x,
      (x ∈ st.loosened ∨ .ruleLists ∈ st.capabilities ∧
        ∃ list element, UserList.DeclaresList cfg st.loosened list element ∧
          x = .production (.injection list element)) ∧
      v.restrictSentence cfg x = s := by
  have hmap : s ∈ st.restricted cfg st.loosened ↔
      ∃ x ∈ st.loosened, v.restrictSentence cfg x = s := by
    rw [restricted_eq hv]
    exact OrdSet.mem_map
  rw [disambiguation, mem_addRuleLists_iff_declares, hmap]
  simp only [declaresList_restricted_iff]
  constructor
  · intro hs
    rcases hs with ⟨x, hx, hs⟩ | ⟨hcs, list, element, hlist, rfl⟩
    · exact ⟨x, .inl hx, hs⟩
    · exact ⟨_, .inr ⟨hcs, list, element, hlist, rfl⟩, v.restrictSentence_injection cfg _ _⟩
  · intro hs
    obtain ⟨x, hx | ⟨hcs, list, element, hlist, rfl⟩, rfl⟩ := hs
    · exact .inl ⟨x, hx, rfl⟩
    · exact .inr ⟨hcs, list, element, hlist, v.restrictSentence_injection cfg _ _⟩

namespace Made

variable {a : Synthesizer} {d : Definition} {seed : Module} (h : st.Made a d seed)
include h

/-- The flat module has the sentences of the extension and of the user's modules in its closure. -/
theorem mem_flat_iff {x : Sentence} :
    x ∈ st.flat.sentences ↔ x ∈ (st.bundle a d seed).extension.sentences ∨
      ∃ m ∈ st.closure, d.isBase m.name = false ∧ x ∈ m.sentences := by
  obtain ⟨closure, hclosure, hsentences, -⟩ := flatten_spec h.flat
  obtain rfl : closure = st.closure := Except.ok.inj (hclosure.symm.trans h.closure)
  simp only [hsentences, mem_sentencesOf, mem_userSide_iff, or_and_right, exists_or,
    exists_eq_left, and_assoc]
  rfl

/-- Behind the flat module stand the base modules of the extension's closure, each restricted,
unless one of them leads back to the user. -/
theorem mem_imported_iff_restricted (hv : st.vocabulary = some v) (hr : ¬ d.Reenters st.closure)
    {flatClosure : List Module} (hf : d.importClosure st.flat = .ok flatClosure) {s : Sentence} :
    (∃ m ∈ flatClosure.map (seenThrough (st.bundle a d seed).shadows), s ∈ m.sentences) ↔
      ∃ m ∈ st.closure, d.isBase m.name = true ∧
        ∃ x ∈ m.sentences, v.restrictSentence a.settings x = s := by
  have hseen : ∀ {m : Module}, m ∈ st.closure → d.isBase m.name = true →
      (s ∈ (seenThrough (st.bundle a d seed).shadows m).sentences ↔
        ∃ x ∈ m.sentences, v.restrictSentence a.settings x = s) := fun {m} hm hb => by
    rw [h.seenThrough_shadows hm, if_pos hb]
    dsimp only
    rw [restricted_eq hv]
    exact OrdSet.mem_map
  have hbase : ∀ m ∈ flatClosure, d.isBase m.name = true := fun m hm =>
    isBase_of_reaches_flat h.flat h.closure hr ((mem_importClosure_iff hf).1 hm).1
  constructor
  · intro hs
    obtain ⟨m', hm', hs⟩ := hs
    obtain ⟨m, hm, rfl⟩ := List.mem_map.1 hm'
    have hclosure := flatClosure_subset h.flat h.closure hf hm
    exact ⟨m, hclosure, hbase m hm, (hseen hclosure (hbase m hm)).1 hs⟩
  · intro hs
    obtain ⟨m, hm, hb, hs⟩ := hs
    exact ⟨_, List.mem_map_of_mem ((mem_flatClosure_iff_of_base h.flat h.closure hf hb).2 hm),
      (hseen hm hb).2 hs⟩

/-- All that a bundle disambiguates with keeps the prefix law. -/
theorem prefixLaw_disambiguation (hfollow : .autoFollow ∈ st.capabilities)
    (hr : ¬ d.Reenters st.closure) {flatClosure : List Module}
    (hf : d.importClosure st.flat = .ok flatClosure) :
    PrefixLaw a.settings (sentencesOf ((st.bundle a d seed).disambiguation ::
      flatClosure.map (seenThrough (st.bundle a d seed).shadows))) := by
  obtain ⟨v, hv⟩ : ∃ v, st.vocabulary = some v := ⟨_, h.vocabulary_eq hfollow⟩
  have hall : AllTerminals a.settings (fun t => v.Covers t ∧ v.Restricts t)
      (sentencesOf ((st.bundle a d seed).disambiguation ::
        flatClosure.map (seenThrough (st.bundle a d seed).shadows))) := by
    intro p hp hint t ht
    obtain ⟨x, hx, hp⟩ := mem_sentencesOf.1 hp
    rcases List.mem_cons.1 hx with rfl | hx
    · exact h.disambiguation_terminals hfollow hv p hp hint t ht
    · obtain ⟨m, hm, rfl⟩ := List.mem_map.1 hx
      obtain ⟨hcovers, hrestricts⟩ :=
        h.imported_terminals hfollow hv (flatClosure_subset h.flat h.closure hf hm)
      have hb := isBase_of_reaches_flat h.flat h.closure hr ((mem_importClosure_iff hf).1 hm).1
      exact ⟨hcovers p hp hint t ht, hrestricts hb p hp hint t ht⟩
  exact hall.mono fun t ht => keepsClear_of_restricted (hall.mono fun _ ht => ht.1) ht.2

end Made

end Stages

/-- **The restrictions of the disambiguation grammar are exact.** Unless a base module leads back
to the user, a bundle disambiguates with the sentences it would have without follow restrictions.
These are the sentences of the extension and of the user's modules in its closure, with loosened
cells in a grammar for rules, the injection of each list that they declare, and the sentences of the
base modules of the closure. Each is restricted by the words of all that the extension sees, and by
no others. So the prefix law holds. -/
theorem disambiguation_restrictions_exact {a : Synthesizer} {d : Definition} {seed : Module}
    {b : Bundle} {cs : Capabilities} {closure : List Module} (h : a.combine d seed = .ok b)
    (hcs : a.settings.capabilities d seed = .ok cs) (hfollow : .autoFollow ∈ cs)
    (hclosure : d.importClosure b.extension = .ok closure) (hr : ¬ d.Reenters closure) :
    ∃ visible flat loosened sentences, d.visibleSentences b.extension = .ok visible ∧
      d.flatten b.extension = .ok flat ∧
      (∀ x, x ∈ flat.sentences ↔ x ∈ b.extension.sentences ∨
        ∃ m ∈ closure, d.isBase m.name = false ∧ x ∈ m.sentences) ∧
      (∀ x, x ∈ loosened ↔
        if .ruleCells ∈ cs then
          ∃ y ∈ flat.sentences, CellKinds.ReplacedBy a.settings flat.sentences.toList y x
        else x ∈ flat.sentences) ∧
      b.disambiguationSentences = .ok sentences ∧
      (∀ s, s ∈ sentences ↔ ∃ x,
        (x ∈ loosened ∨
          (.ruleLists ∈ cs ∧
            ∃ list element, UserList.DeclaresList a.settings loosened list element ∧
              x = .production (.injection list element)) ∨
          ∃ m ∈ closure, d.isBase m.name = true ∧ x ∈ m.sentences) ∧
        x.RestrictedBy a.settings (Words a.settings visible) s) ∧
      PrefixLaw a.settings sentences := by
  obtain ⟨st, made, rfl⟩ := combine_eq_ok_iff.1 h
  obtain rfl : st.capabilities = cs := Except.ok.inj (made.capabilities.symm.trans hcs)
  obtain rfl : st.closure = closure := Except.ok.inj (made.closure.symm.trans hclosure)
  obtain ⟨flatClosure, hf, hclosures⟩ := made.importClosure_bundle
  have hdis := hclosures _ (.inl rfl)
  refine ⟨_, st.flat, st.loosened, _, Outcome.map_eq_ok_iff.2 ⟨_, made.closure, rfl⟩, made.flat,
    fun x => made.mem_flat_iff, fun x => mem_loosenCells_iff made.loosened,
    Outcome.map_eq_ok_iff.2 ⟨_, hdis, rfl⟩, fun s => ?_, made.prefixLaw_disambiguation hfollow hr hf⟩
  have hv := made.vocabulary_eq hfollow
  simp only [← Vocabulary.restrictSentence_ofProductions_eq_iff, mem_sentencesOf,
    List.exists_mem_cons_iff, made.mem_imported_iff_restricted hv hr hf]
  rw [show (st.bundle a d seed).disambiguation = st.disambiguation a.settings from rfl,
    Stages.mem_disambiguation_iff_restricted hv]
  constructor
  · intro hs
    rcases hs with ⟨x, hx | hlist, hs⟩ | ⟨m, hm, hb, x, hx, hs⟩
    · exact ⟨x, .inl hx, hs⟩
    · exact ⟨x, .inr (.inl hlist), hs⟩
    · exact ⟨x, .inr (.inr ⟨m, hm, hb, hx⟩), hs⟩
  · intro hs
    obtain ⟨x, hx | hlist | ⟨m, hm, hb, hx⟩, hs⟩ := hs
    · exact .inl ⟨x, .inl hx, hs⟩
    · exact .inl ⟨x, .inr hlist, hs⟩
    · exact .inr ⟨m, hm, hb, x, hx, hs⟩

/-- A binding of the sample, with the texts that must not follow its equals sign. -/
def binding (follow : List String) : Sentence :=
  Sample.rule "Exp" (Sample.word "let")
    [Sample.sort "Id", .terminal { text := "=", follow := Catalog.ofList follow },
     Sample.sort "Exp", Sample.word "in", Sample.sort "Exp"] "let"

/-- A cell of the sample in its loosened form, with what stands between its dots. -/
def looseCell (name opening body closing : String) : Sentence :=
  Sample.rule name (Sample.word opening)
    [Sample.sort "#OptionalDots", Sample.sort body, Sample.sort "#OptionalDots",
     Sample.word closing] opening Sample.cellTag

/-- Sentences of the user's side in the sample's grammar for rules, each before and after it is
restricted: a production, a cell with a value and one with cells, their bridges, and the injection
of the list of expressions. -/
def lambdaForms : List (Sentence × Sentence) :=
  [(binding [], binding ["=", ">"]),
   (looseCell "KCell" "<k>" "K" "</k>", looseCell "KCell" "<k>" "K" "</k>"),
   (looseCell "TCell" "<T>" "Bag" "</T>", looseCell "TCell" "<T>" "Bag" "</T>"),
   (.production (.injection ⟨"Cell"⟩ ⟨"KCell"⟩), .production (.injection ⟨"Cell"⟩ ⟨"KCell"⟩)),
   (.production (.injection ⟨"Cell"⟩ ⟨"TCell"⟩), .production (.injection ⟨"Cell"⟩ ⟨"TCell"⟩)),
   (.production (.injection ⟨"Exps"⟩ ⟨"Exp"⟩), .production (.injection ⟨"Exps"⟩ ⟨"Exp"⟩))]

/-- The empty term of the core module, with the texts that must not follow it. -/
def emptyTerm (follow : List String) : Sentence :=
  Sample.rule "K" (.terminal { text := ".K", follow := Catalog.ofList follow }) [] "#EmptyK"

/-- The sample's grammar for rules: it keeps the prefix law, and each production that is no cell
stands in it, restricted by the words that the extension sees. It has the forms of the user's side
as well, and from the base the empty term `.K`, which must not go on as `.KList`. -/
theorem disambiguation_restrictions_exact_lambda :
    ∃ a, create {} (Settings.standardBase {}) false = .ok a ∧
      ∃ seed, a.seed (a.emptyDefinition.insert Sample.lambdaModule) "LAMBDA" .rule = .ok seed ∧
      ∃ b, a.combine (a.emptyDefinition.insert Sample.lambdaModule) seed = .ok b ∧
      ∃ visible, (a.emptyDefinition.insert Sample.lambdaModule).visibleSentences b.extension =
        .ok visible ∧
      ∃ sentences, b.disambiguationSentences = .ok sentences ∧ PrefixLaw a.settings sentences ∧
        (∀ p ∈ productionsOf Sample.lambdaModule.sentences.toList,
          p.hasAttribute a.settings.keys.cell = false →
          ∃ s ∈ sentences,
            (Sentence.production p).RestrictedBy a.settings (Words a.settings visible) s) ∧
        (∀ e ∈ lambdaForms, e.2 ∈ sentences) ∧ emptyTerm ["List"] ∈ sentences := by
  have run : ∃ a, create {} (Settings.standardBase {}) false = .ok a ∧
      ∃ seed, a.seed (a.emptyDefinition.insert Sample.lambdaModule) "LAMBDA" .rule = .ok seed ∧
      ∃ cs, a.settings.capabilities (a.emptyDefinition.insert Sample.lambdaModule) seed = .ok cs ∧
        .autoFollow ∈ cs ∧
      ∃ b, a.combine (a.emptyDefinition.insert Sample.lambdaModule) seed = .ok b ∧
      ∃ closure, (a.emptyDefinition.insert Sample.lambdaModule).importClosure b.extension =
          .ok closure ∧
        ¬ (a.emptyDefinition.insert Sample.lambdaModule).Reenters closure ∧
        emptyTerm [] ∈ sentencesOf
          (baseModules (a.emptyDefinition.insert Sample.lambdaModule) closure) ∧
        (Vocabulary.ofProductions a.settings (productionsOf
          (sentencesOf (b.extension :: closure)).toList)).restrictSentence a.settings
            (emptyTerm []) = emptyTerm ["List"] ∧
      ∃ flat, (a.emptyDefinition.insert Sample.lambdaModule).flatten b.extension = .ok flat ∧
        (∀ x ∈ Sample.lambdaModule.sentences.toList, x ∈ flat.sentences) ∧
      ∃ loosened, loosenCells a.settings cs flat.sentences = .ok loosened ∧
        ∀ e ∈ lambdaForms, e.1 ∈ addRuleLists a.settings cs loosened ∧
          (Vocabulary.ofProductions a.settings (productionsOf
            (sentencesOf (b.extension :: closure)).toList)).restrictSentence a.settings e.1 =
              e.2 := by
    decide +kernel
  obtain ⟨a, ha, seed, hseed, cs, hcs, hfollow, b, hb, closure, hclosure, hr, hempty, hlonger,
    flat, hflat, hown, loosened, hloosened, hforms⟩ := run
  obtain ⟨visible, flat', loosened', sentences, hvisible, hflat', -, hloosened', hsentences,
    hexact, law⟩ := disambiguation_restrictions_exact hb hcs hfollow hclosure hr
  obtain rfl : sentencesOf (b.extension :: closure) = visible :=
    Except.ok.inj ((Outcome.map_eq_ok_iff.2 ⟨closure, hclosure, rfl⟩).symm.trans hvisible)
  obtain rfl : flat = flat' := Except.ok.inj (hflat.symm.trans hflat')
  obtain rfl : loosened = loosened' := Catalog.ext fun x =>
    (mem_loosenCells_iff hloosened).trans (hloosened' x).symm
  refine ⟨a, ha, seed, hseed, b, hb, _, hvisible, sentences, hsentences, law,
    fun p hp hcell => ?_, fun e he => ?_, ?_⟩
  · have hkept : .production p ∈ loosened :=
      mem_loosenCells_of_kept hloosened (hown _ (mem_productionsOf.1 hp)) fun q e htag => by
        cases e
        rw [hcell] at htag
        cases htag
    obtain ⟨s, hs⟩ := Vocabulary.exists_restrictedBy a.settings
      (sentencesOf (b.extension :: closure)) (.production p)
    exact ⟨s, (hexact s).2 ⟨_, .inl hkept, hs⟩, hs⟩
  · obtain ⟨hx, hs⟩ := hforms e he
    have hrestricted := Vocabulary.restrictSentence_ofProductions_eq_iff.1 hs
    rcases mem_addRuleLists_iff_declares.1 hx with hx | hlist
    · exact (hexact _).2 ⟨e.1, .inl hx, hrestricted⟩
    · exact (hexact _).2 ⟨e.1, .inr (.inl hlist), hrestricted⟩
  · obtain ⟨m, hm, hmem⟩ := mem_sentencesOf.1 hempty
    obtain ⟨hm, hbase⟩ := List.mem_filter.1 hm
    exact (hexact _).2 ⟨_, .inr (.inr ⟨m, hm, hbase, hmem⟩),
      Vocabulary.restrictSentence_ofProductions_eq_iff.1 hlonger⟩

end Synthesizer

end GrammarSynthesis
