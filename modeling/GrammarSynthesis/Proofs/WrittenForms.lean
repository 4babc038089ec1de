import Mathlib.Data.List.Sort
import GrammarSynthesis.Proofs.CastCount
import GrammarSynthesis.Proofs.ExactRestriction
import GrammarSynthesis.Proofs.RepeatedRestriction
import GrammarSynthesis.Proofs.ScaffoldingSorts

/-!
# The written forms of lists

A list keeps the texts of its cons and of its terminator, so that the productions of its recursive
form can tell what the user wrote in their place. The texts are taken from the disambiguation
module, and what stands there has been through the other stages. Cells that are loosened are neither
conses nor terminators, but follow restrictions reach both, and a follow set is a part of the text.

So the texts are those of what the user wrote as long as nothing is restricted. A restriction that
adds to a follow set makes a text longer, and the written production is lost from it.

* `Production.SameBut.eq_or_length_render_lt`: stricter productions have longer texts;
* `Stages.Made.recalls`: what the text of a tagged production tells of the written one;
* `list_texts_exact`: when the texts of a list are those of what the user wrote;
* `restricted_text_not_written`: a list whose text no written production has.
-/
namespace GrammarSynthesis

/-! ## Longer texts -/

theorem Text.length_joined (sep : String) (l : List String) :
    (joined sep l).length = (String.join l).length + (l.length - 1) * sep.length := by
  have rest : ∀ l : List String, (String.join (l.flatMap fun b => [sep, b])).length =
      (String.join l).length + l.length * sep.length := by
    intro l
    induction l with
    | nil => simp
    | cons b l ih =>
      rw [List.flatMap_cons, String.join_append, String.length_append, ih]
      simp only [String.join_cons, String.join_nil, String.length_append, String.length_empty,
        List.length_cons, Nat.succ_mul]
      omega
  cases l with
  | nil => simp [joined, interleave]
  | cons a l =>
    simp only [joined, interleave, String.join_cons, String.length_append, rest, List.length_cons,
      Nat.add_sub_cancel, Nat.add_assoc]

theorem Text.length_join_le {l l' : List String} (h : l.Sublist l') :
    (String.join l).length ≤ (String.join l').length := by
  induction h with
  | slnil => exact Nat.le_refl _
  | cons a _ ih =>
    rw [String.join_cons, String.length_append]
    omega
  | cons_cons a _ ih =>
    rw [String.join_cons, String.join_cons, String.length_append, String.length_append]
    omega

/-- A set lists what a part of it lists in the same order. -/
theorem OrdSet.sublist_of_subset {α : Type} [Ord α] [Std.TransOrd α] {s t : OrdSet α}
    (h : ∀ a ∈ s, a ∈ t) : s.toList.Sublist t.toList := by
  have hanti : Std.Antisymm fun a b : α => compare (id a) (id b) = .lt := ⟨fun a b hab hba => by
    have hself := Std.TransCmp.lt_trans hab hba
    rw [Std.ReflOrd.compare_self] at hself
    cases hself⟩
  exact List.sublist_of_subperm_of_pairwise
    (List.subperm_of_subset (nodup_of_ascending s.ascending) h) s.ascending t.ascending

/-- More texts in a row, with a separator, make a longer row. -/
theorem Text.length_joined_lt {l l' : List String} (h : l.Sublist l') (hne : l ≠ [])
    (hlt : l.length < l'.length) {sep : String} (hsep : sep ≠ "") :
    (joined sep l).length < (joined sep l').length := by
  have htexts := length_join_le h
  have hpos : 0 < sep.length := Nat.pos_of_ne_zero fun h0 => hsep (String.length_eq_zero_iff.1 h0)
  have hlen : l.length - 1 < l'.length - 1 := by
    have := List.length_pos_of_ne_nil hne
    omega
  have hseps := Nat.mul_lt_mul_of_pos_right hlen hpos
  rw [length_joined, length_joined]
  omega

namespace Terminal

theorem length_render (t : Terminal) :
    t.render.length = (Text.quoted t.text).length + if t.follow.isEmpty then 0
      else (Text.joined "|" (t.follow.toList.map Text.quoted)).length + 4 := by
  rw [render, String.length_append]
  congr 1
  split
  · rfl
  · rw [String.length_append, String.length_append]
    show 3 + _ + 1 = _
    omega

/-- A terminal that refuses more has a longer text. -/
theorem Stricter.eq_or_length_render_lt {t t' : Terminal} (h : t.Stricter t') :
    t = t' ∨ t.render.length < t'.render.length := by
  have hsub : t.follow.toList.Sublist t'.follow.toList := OrdSet.sublist_of_subset h.follow
  rcases hsub.length_le.eq_or_lt with hlen | hlen
  · have hfollow : t.follow = t'.follow := Catalog.toList_inj.1 (hsub.eq_of_length hlen)
    exact .inl (Terminal.ext h.text.symm hfollow)
  · right
    rw [length_render, length_render, h.text]
    have hfull : t'.follow.isEmpty = false := by
      rw [Catalog.isEmpty, List.isEmpty_eq_false_iff]
      exact List.ne_nil_of_length_pos (Nat.zero_lt_of_lt hlen)
    simp only [hfull, Bool.false_eq_true, if_false]
    split
    · omega
    · rename_i hnone
      rw [Catalog.isEmpty, List.isEmpty_iff] at hnone
      have hrows : (Text.joined "|" (t.follow.toList.map Text.quoted)).length <
          (Text.joined "|" (t'.follow.toList.map Text.quoted)).length :=
        Text.length_joined_lt (hsub.map _) (by simpa using hnone) (by simpa using hlen) (by decide)
      omega

end Terminal

theorem Item.SameBut.eq_or_length_render_lt {item item' : Item}
    (h : SameBut Terminal.Stricter item item') :
    item = item' ∨ item.render.length < item'.render.length := by
  cases h with
  | terminal h => exact h.eq_or_length_render_lt.imp_left (congrArg Item.terminal)
  | nonTerminal s => exact .inl rfl

/-- Rows that differ in follow sets, item by item: either no set has grown, or the second row has
more to write. -/
theorem Item.eq_or_length_join_lt {l l' : List Item}
    (h : List.Forall₂ (SameBut Terminal.Stricter) l l') :
    l = l' ∨ (String.join (l.map render)).length < (String.join (l'.map render)).length := by
  induction h with
  | nil => exact .inl rfl
  | cons hitem _ ih =>
    simp only [List.map_cons, String.join_cons, String.length_append]
    rcases hitem.eq_or_length_render_lt with rfl | hlt
    · rcases ih with rfl | hlt
      · exact .inl rfl
      · exact .inr (by omega)
    · rcases ih with rfl | hrest
      · exact .inr (by omega)
      · exact .inr (by omega)

/-- A production that refuses more has a longer text. -/
theorem Production.SameBut.eq_or_length_render_lt {p q : Production}
    (h : p.SameBut Terminal.Stricter q) : p = q ∨ p.render.length < q.render.length := by
  have hlength : p.items.length = q.items.length := h.items.length_eq
  rcases Item.eq_or_length_join_lt h.items with hitems | hlt
  · exact .inl (Production.ext h.sort.symm hitems h.label.symm h.attributes.symm h.location.symm)
  · right
    have hannotations : q.annotations = p.annotations := by
      rw [annotations, annotations, h.label, h.attributes]
    rw [render, render, h.sort, hannotations]
    simp only [String.length_append, Text.length_joined, List.length_map, hlength]
    omega

/-! ## Restricted productions -/

namespace Vocabulary

variable {cfg : Settings} {visible : SentenceSet}

/-- A production gains nothing from the words of a set if its terminals keep clear of them. -/
theorem restrict_ofProductions_eq_self_iff {p : Production} (hint : cfg.isInternal p.sort = false) :
    (ofProductions cfg (productionsOf visible.toList)).restrict cfg p = p ↔
      ∀ t ∈ p.terminals, KeepsClear cfg visible t := by
  have hclear : ∀ t, (∃ u ∈ (ofProductions cfg (productionsOf visible.toList)).followSet t.text,
      u ∉ t.follow) ↔ ¬ KeepsClear cfg visible t := by
    intro t
    simp only [mem_followSet_iff, mem_ofProductions, Words, KeepsClear, not_forall]
    constructor
    · rintro ⟨u, ⟨hblank, hne, -, hsays⟩, hu⟩
      exact ⟨hblank, u, hne, hsays, hu⟩
    · rintro ⟨hblank, u, hne, hsays, hu⟩
      exact ⟨u, ⟨hblank, hne, Text.isBlank_append hblank, hsays⟩, hu⟩
  simp only [restrict_eq_self_iff, Gains, hint, true_and, hclear, not_exists, not_and, not_not]

theorem render_restrict_eq_iff (v : Vocabulary) (cfg : Settings) (p : Production) :
    (v.restrict cfg p).render = p.render ↔ v.restrict cfg p = p := by
  refine ⟨fun h => ?_, fun h => by rw [h]⟩
  rcases (sameBut_restrict v cfg p).eq_or_length_render_lt with heq | hlt
  · exact heq.symm
  · rw [h] at hlt
    exact absurd hlt (Nat.lt_irrefl _)

end Vocabulary

namespace UserList

variable {cfg : Settings} {l : List Sentence} {u : UserList}

/-! ## Texts of lists -/

/-- The text belongs to a production that the user wrote and tagged for the list of the sort. With
follow restrictions it is the text of the production whose terminals are restricted by the words of
the extension. It is that of the written production as long as this changes nothing. -/
structure Recalls (cfg : Settings) (cs : Capabilities) (user visible : SentenceSet) (s : SortName)
    (p : Production) (text : String) : Prop where
  written : .production p ∈ user
  tagged : p.hasAttribute cfg.keys.userList = true
  sort : p.sort = s
  restricted : .autoFollow ∈ cs →
    ∃ q, p.SameBut (Terminal.RestrictedBy (Words cfg visible)) q ∧ text = q.render
  eq_render_iff : text = p.render ↔
    (.autoFollow ∈ cs → ∀ t ∈ p.terminals, KeepsClear cfg visible t)

namespace Recalls

variable {cs : Capabilities} {user visible : SentenceSet} {s : SortName} {w : Production}
  (hw : .production w ∈ user) (htag : w.hasAttribute cfg.keys.userList = true) (hsort : w.sort = s)
include hw htag hsort

theorem of_written (hfollow : .autoFollow ∉ cs) : Recalls cfg cs user visible s w w.render where
  written := hw
  tagged := htag
  sort := hsort
  restricted h := absurd h hfollow
  eq_render_iff := iff_of_true rfl fun h => absurd h hfollow

theorem of_restrict (hfollow : .autoFollow ∈ cs) (hint : cfg.isInternal w.sort = false) :
    Recalls cfg cs user visible s w
      ((Vocabulary.ofProductions cfg (productionsOf visible.toList)).restrict cfg w).render where
  written := hw
  tagged := htag
  sort := hsort
  restricted _ :=
    ⟨_, (Vocabulary.restrict_eq_iff (fun _ => Vocabulary.mem_ofProductions) hint).1 rfl, rfl⟩
  eq_render_iff := by
    rw [Vocabulary.render_restrict_eq_iff, Vocabulary.restrict_ofProductions_eq_self_iff hint]
    exact ⟨fun hclear _ => hclear, fun hclear => hclear hfollow⟩

end Recalls

/-- A list has the texts of two productions that were declared for it. -/
theorem exists_pair (h : u ∈ ofSentences cfg l) :
    ∃ cons ∈ declared cfg l u.sort, ∃ terminator ∈ declared cfg l u.sort,
      consParts? u.sort cons = some (u.element, u.separator) ∧ u.cons = cons.render ∧
      isTerminator terminator = true ∧ u.terminator = terminator.render := by
  have hu := mem_ofSentences h
  simp only [ofProductions?, Option.bind_eq_bind, Option.bind_eq_some_iff] at hu
  obtain ⟨cons, hcons, ⟨element, separator⟩, hparts, terminator, hterminator, hfields⟩ := hu
  have hfields := Option.some.inj hfields
  have helement : element = u.element := congrArg UserList.element hfields
  have hseparator : separator = u.separator := congrArg UserList.separator hfields
  rw [helement, hseparator] at hparts
  exact ⟨cons, List.mem_of_find?_eq_some hcons, terminator, List.mem_of_find?_eq_some hterminator,
    hparts, (congrArg UserList.cons hfields).symm, List.find?_some hterminator,
    (congrArg UserList.terminator hfields).symm⟩

/-- Each production of a recursive form keeps the text of the production in whose place it stands. -/
theorem text?_writtenForm_encoding {q : Production} (hq : q ∈ encoding cfg u) :
    q.attributes.text? cfg.keys.writtenForm =
      some (if q.sort = cfg.terminatorSort u.sort then u.terminator else u.cons) := by
  have hne := cfg.nonEmptySort_ne_terminatorSort u.sort
  simp only [encoding, List.mem_cons, List.not_mem_nil, or_false] at hq
  rcases hq with rfl | rfl | rfl
  · exact (Attributes.text?_setText _ _ _).trans (congrArg some (if_neg hne).symm)
  · exact (Attributes.text?_setText _ _ _).trans (congrArg some (if_neg hne).symm)
  · exact (Attributes.text?_setText _ _ _).trans (congrArg some (if_pos rfl).symm)

end UserList

namespace Synthesizer

open Definition

namespace Stages.Made

variable {st : Stages} {a : Synthesizer} {d : Definition} {seed : Module} {p : Production}
  (h : st.Made a d seed)
include h

/-- A tagged production was written as it is, unless it is as long as a loosened cell. -/
theorem written_of_loosened (hp : .production p ∈ st.loosened)
    (htag : p.hasAttribute a.settings.keys.userList = true) (hlength : p.items.length ≠ 5) :
    .production p ∈ st.flat.sentences := by
  rcases origin_of_loosenCells h.loosened hp with hp | hp | ⟨w, q, -, hl, e⟩
  · exact hp
  · have hsugar : UserList.isSugar a.settings (.production p) = false := isSugar_bridges hp
    exact absurd htag (Bool.eq_false_iff.1 hsugar)
  · cases e
    exact absurd hl.length hlength

/-- A tagged production of the disambiguation module is what the follow restrictions, if there are
any, made of one that the user wrote. -/
theorem written_of_tagged
    (hp : .production p ∈ (st.disambiguation a.settings).sentences)
    (htag : p.hasAttribute a.settings.keys.userList = true) (hlength : p.items.length ≠ 5) :
    ∃ w, .production w ∈ st.flat.sentences ∧
      st.vocabulary.elim w (fun v => v.restrict a.settings w) = p := by
  have hrestricted : .production p ∈ st.restricted a.settings st.loosened := by
    rcases mem_disambiguation_iff.1 hp with hp | ⟨-, u, -, e⟩
    · exact hp
    · cases e
      cases htag
  rw [restricted] at hrestricted
  cases hv : st.vocabulary with
  | none =>
    rw [hv] at hrestricted
    exact ⟨p, h.written_of_loosened hrestricted htag hlength, rfl⟩
  | some v =>
    rw [hv] at hrestricted
    obtain ⟨w, hw, rfl⟩ := Vocabulary.mem_restrictAll hrestricted
    have hsame := Vocabulary.sameBut_restrict v a.settings w
    have hwtag : w.hasAttribute a.settings.keys.userList = true := by
      rw [Production.hasAttribute, ← hsame.attributes]
      exact htag
    exact ⟨w, h.written_of_loosened hw hwtag (hsame.items.length_eq.symm ▸ hlength), rfl⟩

/-- The text of a tagged production of the disambiguation module belongs to a written production of
the same shape. -/
theorem recalls {s : SortName}
    (hp : p ∈ UserList.declared a.settings (st.disambiguation a.settings).sentences.toList s)
    (hlength : p.items.length ≠ 5) :
    ∃ w, w.bare = p.bare ∧ UserList.Recalls a.settings st.capabilities st.flat.sentences
      (sentencesOf (st.extended.getD seed :: st.closure)) s w p.render := by
  obtain ⟨hfree, hmem, hsort, htag⟩ := UserList.mem_declared.1 hp
  obtain ⟨w, hw, hwp⟩ := h.written_of_tagged hmem htag hlength
  have hsame : p.sort = w.sort ∧ p.attributes = w.attributes ∧ w.bare = p.bare := by
    rw [← hwp]
    cases st.vocabulary with
    | none => exact ⟨rfl, rfl, rfl⟩
    | some v =>
      have hsame := Vocabulary.sameBut_restrict v a.settings w
      exact ⟨hsame.sort, hsame.attributes, (Vocabulary.bare_restrict v a.settings w).symm⟩
  obtain ⟨hsorts, hattributes, hbare⟩ := hsame
  rw [hsorts] at hsort
  rw [Production.hasAttribute, hattributes] at htag
  refine ⟨w, hbare, ?_⟩
  by_cases hfollow : .autoFollow ∈ st.capabilities
  · rw [h.vocabulary_eq hfollow] at hwp
    have hint : a.settings.isInternal w.sort = false :=
      hsort ▸ Settings.isInternal_of_isReserved hfree
    exact hwp ▸ .of_restrict hw htag hsort hfollow hint
  · have hv := h.vocabulary
    rw [vocabulary?, if_neg hfollow] at hv
    rw [← Except.ok.inj hv] at hwp
    exact hwp ▸ .of_written hw htag hsort hfollow

end Stages.Made

/-- **What the texts of a list tell.** Each list of a disambiguation module has the texts of a cons
and of a terminator that the user wrote and tagged for it, restricted by the words of the extension
if there are follow restrictions. So it is the text of the written production itself if and only if
there are none, or the terminals of that production keep clear of all words already.

In a grammar for programs the productions of the recursive form stand in the parse module, each with
the text of the production in whose place it stands. -/
theorem list_texts_exact {a : Synthesizer} {d : Definition} {seed : Module} {b : Bundle}
    {cs : Capabilities} (h : a.combine d seed = .ok b)
    (hcs : a.settings.capabilities d seed = .ok cs) :
    ∃ user visible, d.userSentences b.extension = .ok user ∧
      d.visibleSentences b.extension = .ok visible ∧
      ∀ u ∈ UserList.ofSentences a.settings b.disambiguation.sentences.toList,
        (∃ w, UserList.consParts? u.sort w = some (u.element, u.separator) ∧
          UserList.Recalls a.settings cs user visible u.sort w u.cons) ∧
        (∃ w, UserList.isTerminator w = true ∧
          UserList.Recalls a.settings cs user visible u.sort w u.terminator) ∧
        (.programLists ∈ cs → UserList.TagApart a.settings →
          ∀ q ∈ UserList.encoding a.settings u, .production q ∈ b.parse.sentences ∧
            q.attributes.text? a.settings.keys.writtenForm =
              some (if q.sort = a.settings.terminatorSort u.sort then u.terminator
                else u.cons)) := by
  obtain ⟨st, made, rfl⟩ := combine_eq_ok_iff.1 h
  obtain rfl : st.capabilities = cs := Except.ok.inj (made.capabilities.symm.trans hcs)
  refine ⟨_, _, userSentences_of_flatten made.flat, Outcome.map_eq_ok_iff.2 ⟨_, made.closure, rfl⟩,
    fun u hu => ?_⟩
  obtain ⟨cons, hcons, terminator, hterminator, hparts, hconsText, hends, hendText⟩ :=
    UserList.exists_pair hu
  refine ⟨?_, ?_, fun hlists htag q hq => ⟨?_, UserList.text?_writtenForm_encoding hq⟩⟩
  · obtain ⟨separator, -, hitems⟩ := UserList.consParts?_eq_some_iff.1 hparts
    obtain ⟨w, hbare, hrecalls⟩ := made.recalls hcons (by simp [hitems])
    refine ⟨w, ?_, hconsText ▸ hrecalls⟩
    rw [← Production.consParts?_bare, hbare, Production.consParts?_bare, hparts]
  · have hone : terminator.items.length = 1 := eq_of_beq hends
    obtain ⟨w, hbare, hrecalls⟩ := made.recalls hterminator (by omega)
    refine ⟨w, ?_, hendText ▸ hrecalls⟩
    rw [UserList.isTerminator, ← Production.length_items_bare, hbare, Production.length_items_bare]
    exact hends
  · refine (Stages.mem_parse_iff_of_tagApart hlists htag).2 (.inr (.inl ⟨u, hu, ?_⟩))
    exact UserList.encoding_mem_parseForm hq

/-- Operators that begin each other, but not with the separator: the texts of the list are those
that the user wrote. -/
theorem list_texts_exact_operators :
    ∃ a, create {} (Settings.standardBase {}) false = .ok a ∧
      ∃ b, a.combine (a.emptyDefinition.insert (listsAndOperators ["=", "=="])) listsSeed = .ok b ∧
      ∃ user, (a.emptyDefinition.insert (listsAndOperators ["=", "=="])).userSentences b.extension =
        .ok user ∧
      ∃ u ∈ UserList.ofSentences a.settings b.disambiguation.sentences.toList,
        (∃ w, .production w ∈ user ∧ u.cons = w.render) ∧
        ∃ w, .production w ∈ user ∧ u.terminator = w.render := by
  have run : ∃ a, create {} (Settings.standardBase {}) false = .ok a ∧
      ∃ cs, a.settings.capabilities (a.emptyDefinition.insert (listsAndOperators ["=", "=="]))
        listsSeed = .ok cs ∧
      ∃ b, a.combine (a.emptyDefinition.insert (listsAndOperators ["=", "=="])) listsSeed = .ok b ∧
      (∃ user, (a.emptyDefinition.insert (listsAndOperators ["=", "=="])).userSentences
          b.extension = .ok user ∧
        ∃ visible, (a.emptyDefinition.insert (listsAndOperators ["=", "=="])).visibleSentences
          b.extension = .ok visible ∧
          ∀ w ∈ productionsOf user.toList, w.hasAttribute a.settings.keys.userList = true →
            ∀ t ∈ w.terminals, KeepsClear a.settings visible t) ∧
      UserList.ofSentences a.settings b.disambiguation.sentences.toList ≠ [] := by
    decide +kernel
  obtain ⟨a, ha, cs, hcs, b, hb, ⟨user, huser, visible, hvisible, hclear⟩, hlist⟩ := run
  obtain ⟨u, hu⟩ := List.exists_mem_of_ne_nil _ hlist
  obtain ⟨user', visible', huser', hvisible', hlists⟩ := list_texts_exact hb hcs
  obtain rfl : user = user' := Except.ok.inj (huser.symm.trans huser')
  obtain rfl : visible = visible' := Except.ok.inj (hvisible.symm.trans hvisible')
  have hwritten : ∀ {s w text}, UserList.Recalls a.settings cs user visible s w text →
      .production w ∈ user ∧ text = w.render := fun {s w text} h =>
    ⟨h.written, h.eq_render_iff.2 fun _ => hclear w (mem_productionsOf.2 h.written) h.tagged⟩
  obtain ⟨⟨cons, -, hcons⟩, ⟨terminator, -, hterminator⟩, -⟩ := hlists u hu
  exact ⟨a, ha, b, hb, user, huser, u, hu, ⟨cons, hwritten hcons⟩, terminator,
    hwritten hterminator⟩

/-- A separator that begins an operator: the parse module has a cons whose text is that of no
production that the user wrote. -/
theorem restricted_text_not_written :
    ∃ a, create {} (Settings.standardBase {}) false = .ok a ∧
      (∃ cs, a.settings.capabilities (a.emptyDefinition.insert (listsAndOperators [",,"]))
        listsSeed = .ok cs ∧ .programLists ∈ cs) ∧
      ∃ b, a.combine (a.emptyDefinition.insert (listsAndOperators [",,"])) listsSeed = .ok b ∧
      ∃ user, (a.emptyDefinition.insert (listsAndOperators [",,"])).userSentences b.extension =
        .ok user ∧
      ∃ u ∈ UserList.ofSentences a.settings b.disambiguation.sentences.toList,
        .production (u.recursiveCons a.settings) ∈ b.parse.sentences ∧
        (u.recursiveCons a.settings).attributes.text? a.settings.keys.writtenForm = some u.cons ∧
        ∀ w ∈ productionsOf user.toList, u.cons ≠ w.render := by
  decide +kernel

end Synthesizer

end GrammarSynthesis
