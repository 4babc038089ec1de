import GrammarSynthesis.Synthesis.Vocabulary

/-!
# Follow sets

The terminals that begin with a text form one run of the vocabulary, since a text between two others
that begin alike begins as they do. A binary search finds where the run starts, and the run ends at
the first terminal that begins otherwise. So the search misses none of them.

* `firstIndex_spec`: the search splits the indices at which its test holds from the others;
* `Text.begins_of_between`: a text between `text` and an extension of `text` begins with `text`;
* `Vocabulary.mem_extensions_iff`: the indices that are found are those of the longer terminals;
* `Vocabulary.mem_followSet_iff`: a follow set holds what is left of the longer terminals.
-/
namespace GrammarSynthesis

/-! ## Binary search -/

theorem le_firstIndex (p : Nat → Bool) {lo hi : Nat} (h : lo ≤ hi) : lo ≤ firstIndex p lo hi := by
  fun_induction firstIndex p lo hi with
  | case1 lo hi hlt mid hp ih => have := ih (by omega); omega
  | case2 lo hi hlt mid hp ih => exact ih (by omega)
  | case3 lo hi hlt => exact Nat.le_refl lo

theorem firstIndex_spec {p : Nat → Bool} {lo hi : Nat}
    (hp : ∀ i j, lo ≤ i → i ≤ j → j < hi → p j = true → p i = true) {i : Nat} (hlo : lo ≤ i)
    (hhi : i < hi) : p i = true ↔ i < firstIndex p lo hi := by
  fun_induction firstIndex p lo hi with
  | case1 lo hi hlt mid hmid ih =>
    by_cases hi' : mid + 1 ≤ i
    · exact ih (fun i j h₁ h₂ h₃ h₄ => hp i j (by omega) h₂ h₃ h₄) hi' hhi
    · have hpi : p i = true := hp i mid hlo (by omega) (by omega) hmid
      have hle : mid + 1 ≤ firstIndex p (mid + 1) hi := le_firstIndex p (by omega)
      exact iff_of_true hpi (by omega)
  | case2 lo hi hlt mid hmid ih =>
    by_cases hi' : i < mid
    · exact ih (fun i j h₁ h₂ h₃ h₄ => hp i j h₁ h₂ (by omega) h₄) hlo hi'
    · have hle : firstIndex p lo mid ≤ mid := firstIndex_le p (by omega)
      refine iff_of_false (fun hpi => hmid ?_) (by omega)
      exact hp mid i (by omega) (by omega) hhi hpi
  | case3 lo hi hlt => omega

/-! ## Texts in order -/

namespace Text

theorem compare_lt_iff {s t : String} : compare s t = .lt ↔ s.toList < t.toList :=
  compareOfLessAndEq_eq_lt.trans String.lt_iff

theorem not_append_lt (start rest : List Char) : ¬ start ++ rest < start := by
  induction start with
  | nil => exact List.not_lt_nil _
  | cons a start ih => simpa [List.cons_lt_cons_iff] using ih

/-- A list that lies between another and an extension of it begins with it. -/
theorem begins_of_between {start rest l : List Char} (hlo : ¬ l < start)
    (hhi : ¬ start ++ rest < l) : ∃ more, l = start ++ more := by
  induction start generalizing l with
  | nil => exact ⟨l, rfl⟩
  | cons a start ih =>
    cases l with
    | nil => exact absurd (List.nil_lt_cons a start) hlo
    | cons b l =>
      simp only [List.cons_append, List.cons_lt_cons_iff, not_or, not_and] at hlo hhi
      obtain rfl : a = b := Char.le_antisymm (Char.not_lt.1 hlo.1) (Char.not_lt.1 hhi.1)
      obtain ⟨more, rfl⟩ := ih (hlo.2 rfl) (hhi.2 rfl)
      exact ⟨more, rfl⟩

theorem isSome_restAfter?_iff {text start : String} :
    (restAfter? text start).isSome = true ↔ ∃ rest, text.toList = start.toList ++ rest := by
  simp [restAfter?, Option.isSome_iff_exists, listAfter?_eq_some_iff]

end Text

namespace Vocabulary

/-- The vocabulary of texts has those that are not blank. -/
theorem mem_ofTexts {l : List String} {text : String} :
    text ∈ (ofTexts l).terminals.toList ↔ text ∈ l ∧ Text.isBlank text = false := by
  simp [ofTexts]

/-! ## The run of a text -/

/-- If a test that fails once fails from there on, what comes before is all that passes it. -/
theorem mem_takeWhile_iff {α : Type} {q : α → Bool} {l : List α}
    (h : l.Pairwise fun a b => q b = true → q a = true) {x : α} :
    x ∈ l.takeWhile q ↔ x ∈ l ∧ q x = true := by
  induction l with
  | nil => simp
  | cons a l ih =>
    obtain ⟨ha, hl⟩ := List.pairwise_cons.1 h
    cases hqa : q a with
    | true =>
      rw [List.takeWhile_cons_of_pos hqa, List.mem_cons, List.mem_cons, ih hl]
      constructor
      · intro hx
        rcases hx with rfl | ⟨hx, hq⟩
        · exact ⟨.inl rfl, hqa⟩
        · exact ⟨.inr hx, hq⟩
      · intro hx
        rcases hx with ⟨rfl | hx, hq⟩
        · exact .inl rfl
        · exact .inr ⟨hx, hq⟩
    | false =>
      rw [List.takeWhile_cons_of_neg (by simp [hqa])]
      refine iff_of_false List.not_mem_nil ?_
      intro hxq
      obtain ⟨hx, hq⟩ := hxq
      rcases List.mem_cons.1 hx with rfl | hx
      · rw [hqa] at hq; cases hq
      · rw [ha x hx hq] at hqa; cases hqa

/-- Where the run of a text starts. -/
def start (v : Vocabulary) (text : String) : Nat :=
  firstIndex (fun i => v.terminals[i]?.any fun t => compare t text == .lt) 0 v.size

/-- The terminals that begin with a text, as the search finds them. -/
def run (v : Vocabulary) (text : String) : List String :=
  (v.terminals.toList.drop (v.start text)).takeWhile fun t => (Text.restAfter? t text).isSome

variable {v : Vocabulary} {text : String}

/-- Before the start of the run are the terminals that are less than the text. -/
theorem lt_start_iff {i : Nat} (hi : i < v.terminals.toList.length) :
    i < v.start text ↔ v.terminals.toList[i].toList < text.toList := by
  have entry : ∀ {j} (hj : j < v.terminals.toList.length),
      (v.terminals[j]?.any fun t => compare t text == .lt) = true ↔
        compare v.terminals.toList[j] text = .lt := by
    intro j hj
    rw [← Array.getElem?_toList, List.getElem?_eq_getElem hj]
    simp
  rw [← Text.compare_lt_iff, ← entry hi]
  refine (firstIndex_spec ?_ (Nat.zero_le i) (by simpa [size] using hi)).symm
  intro i j _ hij hj h
  have hj' : j < v.terminals.toList.length := by simpa [size] using hj
  have hi' : i < v.terminals.toList.length := by omega
  rw [entry hj'] at h
  rw [entry hi']
  rcases Nat.eq_or_lt_of_le hij with rfl | hlt
  · exact h
  · exact Std.TransCmp.lt_trans (List.pairwise_iff_getElem.1 v.ascending i j hi' hj' hlt) h

theorem mem_run_iff {t : String} :
    t ∈ v.run text ↔ t ∈ v.terminals.toList ∧ ∃ rest, t.toList = text.toList ++ rest := by
  have above : ∀ x ∈ v.terminals.toList.drop (v.start text), ¬ x.toList < text.toList := by
    intro x hx
    obtain ⟨i, hi, rfl⟩ := List.mem_drop_iff_getElem.1 hx
    rw [← lt_start_iff]
    omega
  have hsorted : (v.terminals.toList.drop (v.start text)).Pairwise fun a b =>
      (Text.restAfter? b text).isSome = true → (Text.restAfter? a text).isSome = true := by
    refine (v.ascending.sublist (List.drop_sublist _ _)).imp_of_mem fun {a b} ha _ hab hb => ?_
    obtain ⟨rest, hrest⟩ := Text.isSome_restAfter?_iff.1 hb
    have hlt := Text.compare_lt_iff.1 hab
    exact Text.isSome_restAfter?_iff.2
      (Text.begins_of_between (above a ha) (hrest ▸ List.not_lt.2 (List.le_of_lt hlt)))
  rw [run, mem_takeWhile_iff hsorted, Text.isSome_restAfter?_iff]
  refine and_congr_left fun ⟨rest, hrest⟩ => ⟨List.mem_of_mem_drop, fun ht => ?_⟩
  -- a terminal that begins with the text is not less than it, so it is not before the start
  obtain ⟨i, hi, rfl⟩ := List.mem_iff_getElem.1 ht
  have hge : ¬ i < v.start text := by
    rw [lt_start_iff hi, hrest]
    exact Text.not_append_lt _ _
  have hsplit : v.start text + (i - v.start text) = i := by omega
  exact List.mem_drop_iff_getElem.2 ⟨i - v.start text, by omega, by simp [hsplit]⟩

/-! ## What the search finds -/

theorem getElem?_of_run {k : Nat} {t : String} (h : (v.run text)[k]? = some t) :
    v.terminals.toList[v.start text + k]? = some t := by
  obtain ⟨hk, rfl⟩ := List.getElem?_eq_some_iff.1 h
  rw [← List.getElem?_drop]
  exact List.prefix_iff_getElem?.1 (List.takeWhile_prefix _) k hk

/-- The indices that are found are those of the terminals that begin with the text and go on. -/
theorem mem_extensions_iff {i : Nat} :
    i ∈ v.extensions text ↔
      ∃ t, v.terminals[i]? = some t ∧ t ≠ text ∧ ∃ rest, t.toList = text.toList ++ rest := by
  have hext : v.extensions text =
      IndexSet.ofList ((((v.run text).zipIdx (v.start text)).filter (·.1 != text)).map
        Prod.snd) := rfl
  simp only [hext, IndexSet.mem_ofList, List.mem_map, List.mem_filter, Prod.exists,
    exists_eq_right, bne_iff_ne, List.mk_mem_zipIdx_iff_le_and_getElem?_sub,
    ← Array.getElem?_toList]
  refine exists_congr fun t => ?_
  constructor
  · intro h
    obtain ⟨⟨hle, hrun⟩, hne⟩ := h
    have hentry := getElem?_of_run hrun
    rw [Nat.add_sub_cancel' hle] at hentry
    exact ⟨hentry, hne, (mem_run_iff.1 (List.mem_of_getElem? hrun)).2⟩
  · intro h
    obtain ⟨hentry, hne, hrest⟩ := h
    obtain ⟨k, hk⟩ := List.getElem?_of_mem (mem_run_iff.2 ⟨List.mem_of_getElem? hentry, hrest⟩)
    -- no terminal stands at two indices
    have hnodup : v.terminals.toList.Nodup := nodup_of_ascending v.ascending
    have hi := (List.getElem?_eq_some_iff.1 hentry).1
    have hsame := (List.getElem?_inj hi hnodup).1 (hentry.trans (getElem?_of_run hk).symm)
    subst hsame
    exact ⟨⟨Nat.le_add_right _ _, by rwa [Nat.add_sub_cancel_left]⟩, hne⟩

/-- **A follow set holds what is left of the longer terminals.** -/
theorem mem_followSet_iff {u : String} :
    u ∈ v.followSet text ↔ Text.isBlank text = false ∧ u ≠ "" ∧ text ++ u ∈ v.terminals.toList := by
  unfold followSet
  split
  · rename_i hb
    simp [hb]
  · rename_i hb
    simp only [OrdSet.mem_ofList, List.mem_filterMap, IndexSet.mem_members, mem_extensions_iff,
      Option.bind_eq_bind, Option.bind_eq_some_iff, Text.restAfter?_eq_some_iff]
    have hblank : Text.isBlank text = false := by simpa using hb
    constructor
    · intro h
      obtain ⟨i, ⟨t, ht, hne, -⟩, t', ht', rfl⟩ := h
      rw [ht] at ht'
      cases ht'
      refine ⟨hblank, fun hu => hne (by simp [hu]), ?_⟩
      rw [← Array.getElem?_toList] at ht
      exact List.mem_of_getElem? ht
    · intro h
      obtain ⟨-, hu, hmem⟩ := h
      obtain ⟨i, hi⟩ := List.getElem?_of_mem hmem
      rw [Array.getElem?_toList] at hi
      refine ⟨i, ⟨text ++ u, hi, fun e => hu ?_, u.toList, by simp⟩, text ++ u, hi, rfl⟩
      simpa using e

end Vocabulary

end GrammarSynthesis
