import GrammarSynthesis.Proofs.Assembly
import GrammarSynthesis.Proofs.FollowSet
import GrammarSynthesis.Proofs.Terminals
import GrammarSynthesis.Sample.Lambda

/-!
# The prefix law

A scanner takes the longest terminal if each terminal refuses to be followed by what would make it
a longer one. Follow restrictions establish this law with a vocabulary that is collected once, from
all that the extension sees. Later stages may leave terminals out, but bring in no text that the
vocabulary lacks, so a terminal that was restricted keeps the law.

Two kinds of terminals were not restricted: the separator in the recursive cons of a list, which is
written anew without a follow set, and the terminals of a user's module that comes back through the
base. The law holds if and only if these keep it by chance.

* `keepsClear_of_restricted`: a restricted terminal keeps the law within its vocabulary;
* `Made.parse_terminals`, `Made.bundle_terminals`: the vocabulary covers a bundle;
* `prefixLaw_iff`: what the law of a bundle comes down to;
* `recursive_cons_breaks_law`: a list whose separator begins another terminal breaks it.
-/
namespace GrammarSynthesis

/-! ## The law -/

/-- The text is a terminal of a production whose sort is not internal. -/
def Says (cfg : Settings) (set : SentenceSet) (text : String) : Prop :=
  ∃ p, .production p ∈ set ∧ cfg.isInternal p.sort = false ∧ ∃ t ∈ p.terminals, t.text = text

/-- The text is not blank, and it is a terminal of a sort that is not internal. -/
def Words (cfg : Settings) (set : SentenceSet) (text : String) : Prop :=
  Text.isBlank text = false ∧ Says cfg set text

/-- What makes a longer terminal of this one must not follow it. -/
def KeepsClear (cfg : Settings) (set : SentenceSet) (t : Terminal) : Prop :=
  Text.isBlank t.text = false → ∀ u, u ≠ "" → Says cfg set (t.text ++ u) → u ∈ t.follow

/-- All terminals keep clear of each other, those of internal sorts left aside. -/
def PrefixLaw (cfg : Settings) (set : SentenceSet) : Prop :=
  AllTerminals cfg (KeepsClear cfg set) set

section Decidable

variable {cfg : Settings} {set : SentenceSet}

theorem allTerminals_iff {P : Terminal → Prop} :
    AllTerminals cfg P set ↔
      ∀ p ∈ productionsOf set.toList, cfg.isInternal p.sort = false → ∀ t ∈ p.terminals, P t := by
  simp only [AllTerminals, mem_productionsOf, Catalog.mem_toList]

theorem keepsClear_iff {t : Terminal} :
    KeepsClear cfg set t ↔ (Text.isBlank t.text = false →
      AllTerminals cfg (fun longer => ∀ u ∈ Text.restAfter? longer.text t.text,
        u ≠ "" → u ∈ t.follow) set) := by
  refine imp_congr_right fun _ => ?_
  simp only [AllTerminals, Option.mem_def, Text.restAfter?_eq_some_iff]
  constructor
  · intro h p hp hint longer hl u hu hne
    exact h u hne ⟨p, hp, hint, longer, hl, hu⟩
  · intro h u hne hsays
    obtain ⟨p, hp, hint, longer, hl, hu⟩ := hsays
    exact h p hp hint longer hl u hu hne

instance (P : Terminal → Prop) [DecidablePred P] : Decidable (AllTerminals cfg P set) :=
  decidable_of_iff _ allTerminals_iff.symm

instance (t : Terminal) : Decidable (KeepsClear cfg set t) :=
  decidable_of_iff _ keepsClear_iff.symm

instance : Decidable (PrefixLaw cfg set) :=
  inferInstanceAs (Decidable (AllTerminals cfg (KeepsClear cfg set) set))

end Decidable

/-! ## Terminals under a vocabulary -/

/-- The vocabulary has the text, unless it is blank. -/
def Vocabulary.Covers (v : Vocabulary) (t : Terminal) : Prop :=
  Text.isBlank t.text = false → t.text ∈ v.terminals.toList

/-- What the vocabulary says must not follow the terminal does not. -/
def Vocabulary.Restricts (v : Vocabulary) (t : Terminal) : Prop :=
  ∀ u ∈ v.followSet t.text, u ∈ t.follow

variable {cfg : Settings} {set : SentenceSet} {v : Vocabulary}

theorem Text.isBlank_append {s t : String} (h : Text.isBlank s = false) :
    Text.isBlank (s ++ t) = false := by
  unfold Text.isBlank at h ⊢
  rw [String.toList_append, List.all_append, h, Bool.false_and]

theorem keepsClear_of_restricted (hv : AllTerminals cfg v.Covers set) {t : Terminal}
    (ht : v.Restricts t) : KeepsClear cfg set t := by
  intro hblank u hne hsays
  obtain ⟨p, hp, hint, longer, hl, htext⟩ := hsays
  have hlonger : Text.isBlank longer.text = false := htext ▸ Text.isBlank_append hblank
  have hmem := hv p hp hint longer hl hlonger
  exact ht u (Vocabulary.mem_followSet_iff.2 ⟨hblank, hne, htext ▸ hmem⟩)

theorem Vocabulary.covers_of_blank {t : Terminal} (h : Text.isBlank t.text = true) :
    v.Covers t := by
  intro ht
  rw [h] at ht
  cases ht

/-- Nothing is asked of blank terminals. -/
theorem Vocabulary.restricts_of_blank {t : Terminal} (h : Text.isBlank t.text = true) :
    v.Restricts t := by
  intro u hu
  have hblank := (mem_followSet_iff.1 hu).1
  rw [h] at hblank
  cases hblank

/-- A terminal that may be followed by anything keeps clear only if no terminal extends it. -/
theorem keepsClear_bare_iff {text : String} :
    KeepsClear cfg set { text } ↔
      (Text.isBlank text = false → ∀ u, u ≠ "" → ¬ Says cfg set (text ++ u)) := by
  refine imp_congr_right fun _ => forall₂_congr fun u _ => ?_
  simp

/-- The vocabulary of productions has their words and no others. -/
theorem Vocabulary.mem_ofProductions {text : String} :
    text ∈ (ofProductions cfg (productionsOf set.toList)).terminals.toList ↔
      Words cfg set text := by
  rw [ofProductions, mem_ofTexts]
  simp only [List.mem_flatMap, List.mem_map, List.mem_filter, mem_productionsOf,
    Bool.not_eq_true', Words, Says, and_assoc]
  exact and_comm

theorem Vocabulary.covers_ofProductions :
    AllTerminals cfg (Vocabulary.ofProductions cfg (productionsOf set.toList)).Covers set :=
  fun p hp hint t ht hblank => mem_ofProductions.2 ⟨hblank, p, hp, hint, t, ht, rfl⟩

/-- Follow restrictions leave covered terminals covered and make them restricted. -/
theorem Vocabulary.restrictAll_terminals (h : AllTerminals cfg v.Covers set) :
    AllTerminals cfg (fun t => v.Covers t ∧ v.Restricts t) (v.restrictAll cfg set) :=
  allTerminals_restrictAll (fun _ ht => ⟨ht, fun _ hu => OrdSet.mem_union.2 (.inr hu)⟩) h

/-! ## Terminals of a bundle -/

namespace Synthesizer

open Definition

namespace Stages.Made

variable {st : Stages} {a : Synthesizer} {d : Definition} {seed : Module}
  (h : st.Made a d seed)
include h

theorem vocabulary_eq (hfollow : .autoFollow ∈ st.capabilities) :
    st.vocabulary = some (.ofProductions a.settings
      (productionsOf (sentencesOf (st.extended.getD seed :: st.closure)).toList)) := by
  have hv := h.vocabulary
  rw [vocabulary?, if_pos hfollow, visibleSentences, h.closure] at hv
  exact (Except.ok.inj hv).symm

/-- All that the extension sees is covered by the vocabulary. -/
theorem covered_visible (hfollow : .autoFollow ∈ st.capabilities) (hv : st.vocabulary = some v)
    (hset : ∀ s ∈ set, s ∈ sentencesOf (st.extended.getD seed :: st.closure)) :
    AllTerminals a.settings v.Covers set := by
  obtain rfl := Option.some.inj (hv.symm.trans (h.vocabulary_eq hfollow))
  exact fun p hp => Vocabulary.covers_ofProductions p (hset _ hp)

/-- The terminals of the disambiguation module are covered and restricted. -/
theorem disambiguation_terminals (hfollow : .autoFollow ∈ st.capabilities)
    (hv : st.vocabulary = some v) :
    AllTerminals a.settings (fun t => v.Covers t ∧ v.Restricts t)
      (st.disambiguation a.settings).sentences := by
  obtain ⟨flatClosure, hf⟩ := importClosure_flat h.flat
  have hflat : AllTerminals a.settings v.Covers st.flat.sentences := by
    refine h.covered_visible hfollow hv fun s hs => ?_
    rw [← visible_flat h.flat h.closure hf]
    exact mem_sentencesOf.2 ⟨st.flat, List.mem_cons_self, hs⟩
  have hloosened := (terminalsFrom_loosenCells h.loosened).allTerminals hflat
  have hrestricted := Vocabulary.restrictAll_terminals hloosened
  rw [disambiguation, restricted, hv]
  exact (terminalsFrom_addRuleLists _ _ _).allTerminals hrestricted

/-- The terminals of the modules that a bundle imports are covered, and those of base modules are
restricted. -/
theorem imported_terminals (hfollow : .autoFollow ∈ st.capabilities) (hv : st.vocabulary = some v)
    {x : Module} (hx : x ∈ st.closure) :
    AllTerminals a.settings v.Covers (seenThrough (st.bundle a d seed).shadows x).sentences ∧
      (d.isBase x.name = true → AllTerminals a.settings v.Restricts
        (seenThrough (st.bundle a d seed).shadows x).sentences) := by
  have hcovered : AllTerminals a.settings v.Covers x.sentences := by
    refine h.covered_visible hfollow hv fun s hs => ?_
    exact mem_sentencesOf.2 ⟨x, List.mem_cons_of_mem _ hx, hs⟩
  have hrestricted := Vocabulary.restrictAll_terminals hcovered
  rw [h.seenThrough_shadows hx]
  cases hb : d.isBase x.name with
  | true =>
    rw [if_pos rfl, restricted, hv]
    exact ⟨hrestricted.mono fun _ ht => ht.1, fun _ => hrestricted.mono fun _ ht => ht.2⟩
  | false => exact ⟨hcovered, fun hb' => by cases hb'⟩

/-- The terminals of the parse module are covered. They are restricted, but for the separators that
recursive conses write anew. -/
theorem parse_terminals (hfollow : .autoFollow ∈ st.capabilities) (hv : st.vocabulary = some v)
    {p : Production} (hp : .production p ∈ (st.bundle a d seed).parse.sentences)
    (hint : a.settings.isInternal p.sort = false) {t : Terminal} (ht : t ∈ p.terminals) :
    v.Covers t ∧ (v.Restricts t ∨
      ∃ l ∈ writtenLists a.settings st.capabilities (st.disambiguation a.settings),
        p = l.recursiveCons a.settings ∧ t = { text := l.separator }) := by
  have hdis := h.disambiguation_terminals hfollow hv
  rcases mem_desugar hp with hp | hblank | ⟨l, hl, rfl⟩
  · have hboth := hdis p hp hint t ht
    exact ⟨hboth.1, .inl hboth.2⟩
  · have ht' := hblank t ht
    exact ⟨Vocabulary.covers_of_blank ht', .inl (Vocabulary.restricts_of_blank ht')⟩
  · rw [UserList.terminals_recursiveCons] at ht
    obtain rfl := List.mem_singleton.1 ht
    refine ⟨?_, .inr ⟨l, hl, rfl, rfl⟩⟩
    obtain ⟨q, hq, hqint, s, hs, htext⟩ := separator_mem_of_written hl
    have hcovers := (hdis q hq hqint s hs).1
    rwa [Vocabulary.Covers, htext] at hcovers

/-- The vocabulary covers all that the parser sees. -/
theorem bundle_terminals (hfollow : .autoFollow ∈ st.capabilities) (hv : st.vocabulary = some v)
    {flatClosure : List Module} (hf : d.importClosure st.flat = .ok flatClosure) :
    AllTerminals a.settings v.Covers (sentencesOf ((st.bundle a d seed).parse ::
      flatClosure.map (seenThrough (st.bundle a d seed).shadows))) := by
  intro p hp hint t ht
  obtain ⟨x, hx, hp⟩ := mem_sentencesOf.1 hp
  rcases List.mem_cons.1 hx with rfl | hx
  · exact (h.parse_terminals hfollow hv hp hint ht).1
  · obtain ⟨y, hy, rfl⟩ := List.mem_map.1 hx
    have hclosure := flatClosure_subset h.flat h.closure hf hy
    exact (h.imported_terminals hfollow hv hclosure).1 p hp hint t ht

end Stages.Made

/-- **What the prefix law comes down to.** With follow restrictions on, the sentences that the
parser sees keep the prefix law if and only if

* no terminal extends the separator of a list whose recursive cons stands in the parse module, and
* the terminals of the user's modules that come back through the base keep clear of all others. -/
theorem prefixLaw_iff {a : Synthesizer} {d : Definition} {seed : Module} {b : Bundle}
    {cs : Capabilities} (h : a.combine d seed = .ok b)
    (hcs : a.settings.capabilities d seed = .ok cs) (hfollow : .autoFollow ∈ cs) :
    ∃ visible imported, b.parseSentences = .ok visible ∧
      b.definition.importClosure b.parse = .ok imported ∧
      (PrefixLaw a.settings visible ↔
        (∀ l ∈ writtenLists a.settings cs b.disambiguation,
          .production (l.recursiveCons a.settings) ∈ b.parse.sentences →
          a.settings.isInternal (a.settings.nonEmptySort l.sort) = false →
          Text.isBlank l.separator = false →
          ∀ u, u ≠ "" → ¬ Says a.settings visible (l.separator ++ u)) ∧
        ∀ x ∈ imported, x.name ∈ d.ownNames →
          AllTerminals a.settings (KeepsClear a.settings visible) x.sentences) := by
  obtain ⟨st, made, rfl⟩ := combine_eq_ok_iff.1 h
  obtain rfl : st.capabilities = cs := Except.ok.inj (made.capabilities.symm.trans hcs)
  obtain ⟨flatClosure, hf, hclosures⟩ := made.importClosure_bundle
  have hparse := hclosures _ (.inr rfl)
  have hv := made.vocabulary_eq hfollow
  have hcovered := made.bundle_terminals hfollow hv hf
  refine ⟨_, _, Outcome.map_eq_ok_iff.2 ⟨_, hparse, rfl⟩, hparse, ?_⟩
  constructor
  · refine fun law => ⟨fun l _ hp hint => ?_, fun x hx _ p hp => ?_⟩
    · refine keepsClear_bare_iff.1
        (law _ (mem_sentencesOf.2 ⟨_, List.mem_cons_self, hp⟩) hint _ ?_)
      rw [UserList.terminals_recursiveCons]
      exact List.mem_singleton_self _
    · exact law p (mem_sentencesOf.2 ⟨x, List.mem_cons_of_mem _ hx, hp⟩)
  · intro hkeep p hp hint t ht
    obtain ⟨hlists, hown⟩ := hkeep
    obtain ⟨x, hx, hp⟩ := mem_sentencesOf.1 hp
    rcases List.mem_cons.1 hx with rfl | hx
    · obtain ⟨-, hr | ⟨l, hl, rfl, rfl⟩⟩ := made.parse_terminals hfollow hv hp hint ht
      · exact keepsClear_of_restricted hcovered hr
      · exact keepsClear_bare_iff.2 (hlists l hl hp hint)
    · obtain ⟨y, hy, rfl⟩ := List.mem_map.1 hx
      have hclosure := flatClosure_subset made.flat made.closure hf hy
      cases hb : d.isBase y.name with
      | true =>
        have hr := (made.imported_terminals hfollow hv hclosure).2 hb p hp hint t ht
        exact keepsClear_of_restricted hcovered hr
      | false =>
        have hget := ((mem_importClosure_iff made.closure).1 hclosure).2
        have hname := mem_ownNames_of_get? hget hb
        exact hown _ hx (by rw [seenThrough_name]; exact hname) p hp hint t ht

/-- A list of expressions between commas, next to binary operators. -/
def listsAndOperators (operators : List String) : Module where
  name := "LISTS"
  imports := ["AUTO-FOLLOW"]
  sentences := Catalog.ofList <|
    [Sample.rule "Exps" (Sample.sort "Exp") [Sample.word ",", Sample.sort "Exps"] "_,_"
        Sample.listTag,
      Sample.rule "Exps" (Sample.word ".Exps") [] ".Exps" Sample.listTag] ++
    operators.map fun text =>
      Sample.rule "Exp" (Sample.sort "Exp") [Sample.word text, Sample.sort "Exp"] text

/-- The seed of the grammar for programs. -/
def listsSeed : Module where
  name := "LISTS-PROGRAM-LISTS"
  imports := ["LISTS", "PROGRAM-LISTS"]

/-- Operators that begin each other, but not with the separator: the law holds. -/
theorem prefixLaw_iff_operators :
    ∃ a, create {} (Settings.standardBase {}) false = .ok a ∧
      ∃ b, a.combine (a.emptyDefinition.insert (listsAndOperators ["=", "=="])) listsSeed = .ok b ∧
      ∃ visible, b.parseSentences = .ok visible ∧ PrefixLaw a.settings visible := by
  have run : ∃ a, create {} (Settings.standardBase {}) false = .ok a ∧
      ∃ cs, a.settings.capabilities (a.emptyDefinition.insert (listsAndOperators ["=", "=="]))
        listsSeed = .ok cs ∧ .autoFollow ∈ cs ∧
      ∃ b, a.combine (a.emptyDefinition.insert (listsAndOperators ["=", "=="])) listsSeed = .ok b ∧
      (∃ visible, b.parseSentences = .ok visible ∧
        ∀ l ∈ writtenLists a.settings cs b.disambiguation,
          KeepsClear a.settings visible { text := l.separator }) ∧
      ∃ imported, b.definition.importClosure b.parse = .ok imported ∧ ∀ x ∈ imported,
        x.name ∉ (a.emptyDefinition.insert (listsAndOperators ["=", "=="])).ownNames := by
    decide +kernel
  obtain ⟨a, ha, cs, hcs, hfollow, b, hb, ⟨visible, hvisible, hlists⟩, imported, himported,
    hown⟩ := run
  obtain ⟨visible', imported', hvisible', himported', law⟩ := prefixLaw_iff hb hcs hfollow
  rw [hvisible] at hvisible'
  cases hvisible'
  rw [himported] at himported'
  cases himported'
  exact ⟨a, ha, b, hb, visible, hvisible, law.2
    ⟨fun l hl _ _ => keepsClear_bare_iff.1 (hlists l hl), fun x hx h => absurd h (hown x hx)⟩⟩

/-- A separator that begins an operator: the recursive cons does not refuse the rest of it. -/
theorem recursive_cons_breaks_law :
    ∃ a, create {} (Settings.standardBase {}) false = .ok a ∧
      (∃ cs, a.settings.capabilities (a.emptyDefinition.insert (listsAndOperators [",,"]))
        listsSeed = .ok cs ∧ .autoFollow ∈ cs) ∧
      ∃ b, a.combine (a.emptyDefinition.insert (listsAndOperators [",,"])) listsSeed = .ok b ∧
      ∃ visible, b.parseSentences = .ok visible ∧ ¬ PrefixLaw a.settings visible := by
  decide +kernel

end Synthesizer

end GrammarSynthesis
