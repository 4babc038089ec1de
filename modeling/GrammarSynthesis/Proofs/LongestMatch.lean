import GrammarSynthesis.Proofs.FollowSet

/-!
# The longest match

A scanner is at a terminal of the vocabulary. If it may not stop where a member of the follow set
comes next, it cannot stop too early: where no member comes next, the terminal is the longest one
with which the rest of the input begins. The other way round, a follow set forbids no stop at the
longest terminal.

* `Text.Begins.of_length_le`: of two beginnings of a text, the longer begins with the shorter;
* `Vocabulary.clear_iff_isLongest`: no member of the follow set comes next at the longest match only;
* `Vocabulary.ofTexts_longest_match`: what the search finds, and what it is good for.
-/
namespace GrammarSynthesis

namespace Text

/-- The text begins with another. -/
def Begins (text start : String) : Prop := ∃ rest, text = start ++ rest

variable {text s t u : String}

theorem begins_iff_toList : Begins text s ↔ s.toList <+: text.toList := by
  constructor
  · intro h
    obtain ⟨rest, rfl⟩ := h
    exact ⟨rest.toList, by simp⟩
  · intro h
    obtain ⟨rest, hrest⟩ := h
    refine ⟨String.ofList rest, ?_⟩
    apply String.toList_injective
    simp [hrest]

/-- Of two beginnings of a text, the longer begins with the shorter. -/
theorem Begins.of_length_le (hs : Begins text s) (ht : Begins text t) (hle : t.length ≤ s.length) :
    Begins s t := by
  rw [begins_iff_toList] at hs ht ⊢
  exact List.prefix_of_prefix_length_le ht hs hle

/-- What a text begins with stays so when both are put after the same text. -/
theorem begins_append_append : Begins (t ++ text) (t ++ u) ↔ Begins text u := by
  simp [begins_iff_toList, List.prefix_append_right_inj]

theorem length_lt_append (hu : u ≠ "") : t.length < (t ++ u).length := by
  have hpos : 0 < u.length := by
    apply Nat.pos_of_ne_zero
    simpa using hu
  rw [String.length_append]
  omega

end Text

namespace Vocabulary

open Text (Begins)

variable {v : Vocabulary} {t : String}

/-- The terminal is the longest of the vocabulary with which the text begins. -/
structure IsLongest (v : Vocabulary) (text t : String) : Prop where
  mem : t ∈ v.terminals.toList
  begins : Begins text t
  longest : ∀ s ∈ v.terminals.toList, Begins text s → s.length ≤ t.length

/-- **A follow set enforces the longest match, and forbids no other.** -/
theorem clear_iff_isLongest (ht : t ∈ v.terminals.toList) (rest : String) :
    (∀ u ∈ v.followSet t, ¬ Begins rest u) ↔ v.IsLongest (t ++ rest) t := by
  constructor
  · intro hclear
    refine ⟨ht, ⟨rest, rfl⟩, fun s hs hbegins => ?_⟩
    apply Nat.le_of_not_lt
    intro hlonger
    -- a longer terminal goes on after this one with a member of the follow set
    obtain ⟨u, rfl⟩ := hbegins.of_length_le ⟨rest, rfl⟩ (Nat.le_of_lt hlonger)
    have hu : u ≠ "" := by
      intro hempty
      simp [hempty] at hlonger
    exact hclear u (mem_followSet_iff.2 ⟨v.notBlank t ht, hu, hs⟩)
      (Text.begins_append_append.1 hbegins)
  · intro hlongest u hu hbegins
    obtain ⟨-, hne, hmem⟩ := mem_followSet_iff.1 hu
    have hle := hlongest.longest (t ++ u) hmem (Text.begins_append_append.2 hbegins)
    have hlt := Text.length_lt_append (t := t) hne
    omega

/-- The longer terminals that begin with a text, told by what follows the text in them. -/
theorem mem_extensions_iff_append {i : Nat} :
    i ∈ v.extensions t ↔ ∃ u, u ≠ "" ∧ v.terminals[i]? = some (t ++ u) := by
  rw [mem_extensions_iff]
  constructor
  · intro h
    obtain ⟨s, hs, hne, rest, hrest⟩ := h
    obtain ⟨u, rfl⟩ := Text.begins_iff_toList.2 ⟨rest, hrest.symm⟩
    refine ⟨u, fun hu => hne ?_, hs⟩
    simp [hu]
  · intro h
    obtain ⟨u, hu, hs⟩ := h
    refine ⟨t ++ u, hs, fun he => hu ?_, u.toList, by simp⟩
    simpa using he

/-- **The search finds all longer terminals, and the follow sets enforce the longest match.** The
vocabulary of any texts lists those that are not blank in ascending order. The search finds the
indices of the terminals that begin with a text and go on. A follow set holds the rests of these, a
blank text has an empty one. And after a terminal, no member of its follow set comes next if and
only if it is the longest terminal with which the input goes on there. -/
theorem ofTexts_longest_match (l : List String) :
    (ofTexts l).terminals.toList.Pairwise (· < ·) ∧
    (∀ t, t ∈ (ofTexts l).terminals.toList ↔ t ∈ l ∧ Text.isBlank t = false) ∧
    ∀ t,
      (∀ i, i ∈ (ofTexts l).extensions t ↔
        ∃ u, u ≠ "" ∧ (ofTexts l).terminals[i]? = some (t ++ u)) ∧
      (Text.isBlank t = true → (ofTexts l).followSet t = ∅) ∧
      (Text.isBlank t = false → ∀ u, u ∈ (ofTexts l).followSet t ↔
        u ≠ "" ∧ t ++ u ∈ l ∧ Text.isBlank (t ++ u) = false) ∧
      (t ∈ l → Text.isBlank t = false → ∀ rest,
        (∀ u ∈ (ofTexts l).followSet t, ¬ Begins rest u) ↔
          (ofTexts l).IsLongest (t ++ rest) t) := by
  refine ⟨?_, fun t => mem_ofTexts, fun t => ⟨fun i => mem_extensions_iff_append, ?_, ?_, ?_⟩⟩
  · exact (ofTexts l).ascending.imp fun h => compareOfLessAndEq_eq_lt.1 h
  · intro hblank
    simp [followSet, hblank]
  · intro hblank u
    rw [mem_followSet_iff, mem_ofTexts]
    simp [hblank]
  · intro ht hblank rest
    exact clear_iff_isLongest (mem_ofTexts.2 ⟨ht, hblank⟩) rest

/-- A blank text and a repeated one do no harm. -/
example : ((ofTexts ["==", "==K", "=/=", "=", "==", " ", "<"]).followSet "=").toList =
    ["/=", "=", "=K"] := by
  decide +kernel

end Vocabulary

end GrammarSynthesis
