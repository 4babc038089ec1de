import GrammarSynthesis.Proofs.Layers
import GrammarSynthesis.Proofs.SortsKept
import GrammarSynthesis.Sample.Lambda

/-!
# Lists in grammars for programs

The parse module of a grammar for programs is put together from three families: the sentences of the
disambiguation module, the recursive forms of its lists, and injections into the top sort. Then all
that is tagged is taken out. This must not hit the recursive forms, whose productions inherit the
attributes of the cons. They inherit them without the tag, and get it back only if the tag is one of
the two keys that keep their origin.

Which sorts are injected into the top sort is settled before the scaffolding sorts of lists are
declared.

* `UserList.isSugar_parseForm`: no recursive form is tagged;
* `mem_topSortInjections`: which sorts are injected into the top sort;
* `program_lists_exact`: what a parse module consists of.
-/
namespace GrammarSynthesis

variable {cfg : Settings}

/-! ## Tags -/

namespace Attributes

theorem hasKey_erase_self (as : Attributes) (k : String) :
    Catalog.hasKey (as.erase k) k = false := by
  rw [Bool.eq_false_iff, ne_eq, Catalog.hasKey_iff]
  rintro ⟨x, hx, hk⟩
  exact (Catalog.mem_erase.1 hx).2 hk

theorem hasKey_setText_of_ne {as : Attributes} {k key text : String} (h : key ≠ k) :
    Catalog.hasKey (as.setText key text) k = Catalog.hasKey as k := by
  rw [Catalog.hasKey, setText, Catalog.find?_insert, if_neg h]
  rfl

end Attributes

namespace UserList

/-- The tag is none of the keys that keep the origin of a production. -/
structure TagApart (cfg : Settings) : Prop where
  label : cfg.keys.userList ≠ cfg.keys.label
  writtenForm : cfg.keys.userList ≠ cfg.keys.writtenForm

instance (cfg : Settings) : Decidable (TagApart cfg) :=
  decidable_of_iff
    (cfg.keys.userList ≠ cfg.keys.label ∧ cfg.keys.userList ≠ cfg.keys.writtenForm)
    ⟨fun h => ⟨h.1, h.2⟩, fun h => ⟨h.label, h.writtenForm⟩⟩

variable {l : List Sentence} {u : UserList}

/-- A list has the attributes of its cons, but for the tag. -/
theorem hasKey_attributes (h : u ∈ ofSentences cfg l) :
    Catalog.hasKey u.attributes cfg.keys.userList = false := by
  obtain ⟨cons, -, -, hattributes⟩ := exists_cons h
  rw [hattributes]
  exact Attributes.hasKey_erase_self _ _

theorem hasKey_withOrigin (htag : TagApart cfg) (u : UserList) (label text : String) :
    Catalog.hasKey (u.withOrigin cfg label text) cfg.keys.userList =
      Catalog.hasKey u.attributes cfg.keys.userList := by
  rw [withOrigin, Attributes.hasKey_setText_of_ne htag.writtenForm.symm,
    Attributes.hasKey_setText_of_ne htag.label.symm]

/-- No sentence of a recursive form is tagged. -/
theorem isSugar_parseForm (htag : TagApart cfg) (h : u ∈ ofSentences cfg l) {x : Sentence}
    (hx : x ∈ u.parseForm cfg) : isSugar cfg x = false := by
  have origin : ∀ label text,
      Catalog.hasKey (u.withOrigin cfg label text) cfg.keys.userList = false :=
    fun label text => (hasKey_withOrigin htag u label text).trans (hasKey_attributes h)
  rw [parseForm, List.mem_append] at hx
  rcases hx with hx | hx
  · simp only [List.mem_cons, List.not_mem_nil, or_false] at hx
    rcases hx with rfl | rfl | rfl | rfl | rfl | rfl
    · rfl
    · rfl
    · exact origin _ _
    · exact origin _ _
    · exact origin _ _
    · rfl
  · rw [List.mem_ite_nil_left, List.mem_singleton] at hx
    obtain ⟨-, rfl⟩ := hx
    rfl

end UserList

namespace Synthesizer

/-! ## Injections into the top sort -/

/-- A program may be any term of the sort: the module defines the sort, which is not reserved and
not the sort of a list, complete or not. -/
structure StartsPrograms (cfg : Settings) (m : Module) (s : SortName) : Prop where
  defined : s ∈ m.localSorts
  notReserved : cfg.isReserved s = false
  noList : ∀ p, .production p ∈ m.sentences → p.hasAttribute cfg.keys.userList = true → p.sort ≠ s

instance (cfg : Settings) (m : Module) (s : SortName) : Decidable (StartsPrograms cfg m s) :=
  decidable_of_iff (s ∈ m.localSorts ∧ cfg.isReserved s = false ∧
      ∀ p ∈ m.productions, p.hasAttribute cfg.keys.userList = true → p.sort ≠ s)
    ⟨fun h => ⟨h.1, h.2.1, fun p hp => h.2.2 p (mem_productionsOf.2 hp)⟩,
      fun h => ⟨h.defined, h.notReserved, fun p hp => h.noList p (mem_productionsOf.1 hp)⟩⟩

theorem mem_topSortInjections {m : Module} {x : Sentence} :
    x ∈ topSortInjections cfg m ↔
      ∃ s, StartsPrograms cfg m s ∧ x = .production (.injection cfg.sorts.top s) := by
  have hlist : ∀ s, ((m.productions.filter fun p => p.hasAttribute cfg.keys.userList).map
      Production.sort).contains s = false ↔
      ∀ p, .production p ∈ m.sentences → p.hasAttribute cfg.keys.userList = true → p.sort ≠ s := by
    intro s
    rw [← Bool.not_eq_true, List.contains_iff_mem, List.mem_map]
    simp only [List.mem_filter, Module.productions, mem_productionsOf, Catalog.mem_toList]
    constructor
    · intro h p hp htag hs
      exact h ⟨p, ⟨hp, htag⟩, hs⟩
    · intro h hs
      obtain ⟨p, ⟨hp, htag⟩, hs⟩ := hs
      exact h p hp htag hs
  simp only [topSortInjections, List.mem_map, List.mem_filter, Catalog.mem_toList,
    Bool.and_eq_true, Bool.not_eq_true']
  constructor
  · intro h
    obtain ⟨s, ⟨hdefined, hfree, hno⟩, hx⟩ := h
    exact ⟨s, ⟨hdefined, hfree, (hlist s).1 hno⟩, hx.symm⟩
  · intro h
    obtain ⟨s, hs, hx⟩ := h
    exact ⟨s, ⟨hs.defined, hs.notReserved, (hlist s).2 hs.noList⟩, hx.symm⟩

/-! ## The parse module -/

namespace Stages

variable {st : Stages} {a : Synthesizer} {d : Definition} {seed : Module}

/-- Taking out what is tagged takes nothing from the recursive forms and the injections. -/
theorem mem_parse_iff_of_tagApart (hcs : .programLists ∈ st.capabilities)
    (htag : UserList.TagApart a.settings) {s : Sentence} :
    s ∈ (st.bundle a d seed).parse.sentences ↔
      (s ∈ (st.disambiguation a.settings).sentences ∧ UserList.isSugar a.settings s = false) ∨
      (∃ u ∈ UserList.ofSentences a.settings (st.disambiguation a.settings).sentences.toList,
        s ∈ u.parseForm a.settings) ∨
      s ∈ topSortInjections a.settings (st.disambiguation a.settings) := by
  rw [mem_parse_iff hcs]
  constructor
  · intro hs
    obtain ⟨hsugar, hs | hs | hs⟩ := hs
    · exact .inl ⟨hs, hsugar⟩
    · exact .inr (.inr hs)
    · exact .inr (.inl hs)
  · intro hs
    rcases hs with ⟨hs, hsugar⟩ | ⟨u, hu, hs⟩ | hs
    · exact ⟨hsugar, .inl hs⟩
    · exact ⟨UserList.isSugar_parseForm htag hu hs, .inr (.inr ⟨u, hu, hs⟩)⟩
    · exact ⟨isSugar_topSortInjections hs, .inr (.inl hs)⟩

end Stages

/-- **What a grammar for programs consists of.** Its parse module has

* the sentences of the disambiguation module that are not tagged,
* the recursive forms of the lists of the disambiguation module, and
* the injections of those of its sorts in which a program may start,

and nothing else. So no production of it is tagged. A sort that the disambiguation module does not
define, such as a scaffolding sort, is not among those in which a program may start: it is injected
into the top sort only where the disambiguation module or a list of the top sort says so. -/
theorem program_lists_exact {a : Synthesizer} {d : Definition} {seed : Module} {b : Bundle}
    {cs : Capabilities} (h : a.combine d seed = .ok b)
    (hcs : a.settings.capabilities d seed = .ok cs) (hlists : .programLists ∈ cs)
    (htag : UserList.TagApart a.settings) :
    (∀ s, s ∈ b.parse.sentences ↔
      (s ∈ b.disambiguation.sentences ∧ UserList.isSugar a.settings s = false) ∨
      (∃ u ∈ UserList.ofSentences a.settings b.disambiguation.sentences.toList,
        s ∈ u.parseForm a.settings) ∨
      ∃ sort, StartsPrograms a.settings b.disambiguation sort ∧
        s = .production (.injection a.settings.sorts.top sort)) ∧
    (∀ p, .production p ∈ b.parse.sentences → p.hasAttribute a.settings.keys.userList = false) ∧
    ∀ sort, sort ∉ b.disambiguation.localSorts →
      .production (.injection a.settings.sorts.top sort) ∉
          topSortInjections a.settings b.disambiguation ∧
        (.production (.injection a.settings.sorts.top sort) ∈ b.parse.sentences ↔
          .production (.injection a.settings.sorts.top sort) ∈ b.disambiguation.sentences ∨
          ∃ u ∈ UserList.ofSentences a.settings b.disambiguation.sentences.toList,
            .production (.injection a.settings.sorts.top sort) ∈ u.parseForm a.settings) := by
  obtain ⟨st, made, rfl⟩ := combine_eq_ok_iff.1 h
  obtain rfl : st.capabilities = cs := Except.ok.inj (made.capabilities.symm.trans hcs)
  refine ⟨fun s => ?_, fun p hp => ?_, fun sort hsort => ?_⟩
  · rw [Stages.mem_parse_iff_of_tagApart hlists htag, mem_topSortInjections]
    rfl
  · exact ((Stages.mem_parse_iff hlists).1 hp).1
  · have hno : .production (.injection a.settings.sorts.top sort) ∉
        topSortInjections a.settings (st.disambiguation a.settings) := fun hin => by
      obtain ⟨s, hs, e⟩ := mem_topSortInjections.1 hin
      cases e
      exact hsort hs.defined
    refine ⟨hno, ?_⟩
    rw [Stages.mem_parse_iff_of_tagApart hlists htag, or_iff_left hno]
    exact or_congr_left (and_iff_left rfl)

/-- The sample's grammar for programs: a program may be an expression, but not a term of the
scaffolding sort of lists of expressions. -/
theorem program_lists_exact_lambda :
    ∃ a, create {} (Settings.standardBase {}) false = .ok a ∧
      ∃ seed, a.seed (a.emptyDefinition.insert Sample.lambdaModule) "LAMBDA" .program = .ok seed ∧
      ∃ b, a.combine (a.emptyDefinition.insert Sample.lambdaModule) seed = .ok b ∧
        (∀ p, .production p ∈ b.parse.sentences →
          p.hasAttribute a.settings.keys.userList = false) ∧
        .production (.injection a.settings.sorts.top ⟨"Exp"⟩) ∈ b.parse.sentences ∧
        .production (.injection a.settings.sorts.top (a.settings.nonEmptySort ⟨"Exps"⟩)) ∉
          b.parse.sentences := by
  have run : ∃ a, create {} (Settings.standardBase {}) false = .ok a ∧
      ∃ seed, a.seed (a.emptyDefinition.insert Sample.lambdaModule) "LAMBDA" .program = .ok seed ∧
      ∃ cs, a.settings.capabilities (a.emptyDefinition.insert Sample.lambdaModule) seed = .ok cs ∧
        .programLists ∈ cs ∧ UserList.TagApart a.settings ∧
      ∃ b, a.combine (a.emptyDefinition.insert Sample.lambdaModule) seed = .ok b ∧
        StartsPrograms a.settings b.disambiguation ⟨"Exp"⟩ ∧
        a.settings.nonEmptySort ⟨"Exps"⟩ ∉ b.disambiguation.localSorts ∧
        .production (.injection a.settings.sorts.top (a.settings.nonEmptySort ⟨"Exps"⟩)) ∉
          b.disambiguation.sentences.toList ++
            (UserList.ofSentences a.settings b.disambiguation.sentences.toList).flatMap
              (UserList.parseForm a.settings) := by
    decide +kernel
  obtain ⟨a, ha, seed, hseed, cs, hcs, hlists, htag, b, hb, hstarts, hfresh, hnone⟩ := run
  obtain ⟨hparse, huntagged, hscaffold⟩ := program_lists_exact hb hcs hlists htag
  refine ⟨a, ha, seed, hseed, b, hb, huntagged, ?_, fun hin => ?_⟩
  · exact (hparse _).2 (.inr (.inr ⟨_, hstarts, rfl⟩))
  · rcases (hscaffold _ hfresh).2.1 hin with hin | ⟨u, hu, hin⟩
    · exact hnone (List.mem_append_left _ hin)
    · exact hnone (List.mem_append_right _ (List.mem_flatMap.2 ⟨u, hu, hin⟩))

end Synthesizer

end GrammarSynthesis
