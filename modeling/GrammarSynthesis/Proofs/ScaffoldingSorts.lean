import GrammarSynthesis.Proofs.ListTrees
import GrammarSynthesis.Proofs.ProgramLists

/-!
# The scaffolding sorts of different lists

The recursive form of a list has two sorts of its own. One is named by putting something before the
name of the list, the other by putting something after it. Names with the same beginning differ in
the rest, and names with the same ending in what comes before, so two lists can share a sort only if
it is made from the beginning of one and the ending of the other. There are just two ways for this
to happen, and one of them needs nothing but plain names: the lists `Ne` and `Terminator` share the
sort `Ne#Terminator`.

Lists that share a sort share its productions. The conses of one and the terminator of the other go
to the same sort, and then a list that must not be empty may be.

* `Settings.nonEmptySort_eq_terminatorSort_iff`: when two names meet in one sort;
* `UserList.nodup_scaffolding_iff`: when the four sorts of two lists are distinct;
* `UserList.scaffolding_apart_iff`: when the productions of two lists are kept apart;
* `UserList.scaffolding_shared`: two lists with plain names that share a sort.
-/
namespace GrammarSynthesis

/-! ## Names -/

theorem SortName.toList_name_inj {s t : SortName} : s.name.toList = t.name.toList ↔ s = t := by
  cases s
  cases t
  rw [String.toList_inj, mk.injEq]

namespace Settings

variable {cfg : Settings} {s t : SortName}

/-- A name after the beginning of nonempty lists is the other name before the ending of terminators:
either the two names are that ending and that beginning, or they overlap in the name of a third
sort, of which they are the two scaffolding sorts. -/
inductive Overlap (cfg : Settings) : SortName → SortName → Prop where
  | plain : Overlap cfg ⟨"Terminator"⟩ ⟨"Ne"⟩
  | around (shared : SortName) :
      Overlap cfg (cfg.terminatorSort shared) (cfg.nonEmptySort shared)

theorem toList_nonEmptySort (cfg : Settings) (s : SortName) :
    (cfg.nonEmptySort s).name.toList = 'N' :: 'e' :: cfg.internalMarker :: s.name.toList := by
  simp [nonEmptySort]

theorem toList_terminatorSort (cfg : Settings) (s : SortName) :
    (cfg.terminatorSort s).name.toList = s.name.toList ++
      [cfg.internalMarker, 'T', 'e', 'r', 'm', 'i', 'n', 'a', 't', 'o', 'r'] := by
  simp [terminatorSort]

theorem nonEmptySort_inj : cfg.nonEmptySort s = cfg.nonEmptySort t ↔ s = t := by
  rw [← SortName.toList_name_inj, toList_nonEmptySort, toList_nonEmptySort]
  simp only [List.cons.injEq, true_and, SortName.toList_name_inj]

theorem terminatorSort_inj : cfg.terminatorSort s = cfg.terminatorSort t ↔ s = t := by
  rw [← SortName.toList_name_inj, toList_terminatorSort, toList_terminatorSort,
    List.append_left_inj, SortName.toList_name_inj]

/-- The sort for nonempty lists of one name is the sort for terminators of another only where the
names overlap. -/
theorem nonEmptySort_eq_terminatorSort_iff :
    cfg.nonEmptySort s = cfg.terminatorSort t ↔ cfg.Overlap s t := by
  constructor
  · intro h
    have hchars := SortName.toList_name_inj.2 h
    rw [toList_nonEmptySort, toList_terminatorSort] at hchars
    -- how much of the beginning `Ne#` stands in the second name
    match ht : t.name.toList with
    | [] => simp [ht] at hchars
    | [c] =>
      simp only [ht, List.cons_append, List.nil_append, List.cons.injEq] at hchars
      obtain ⟨-, hmarker, hnext, -⟩ := hchars
      exact absurd (hmarker.trans hnext) (by decide)
    | [c, c'] =>
      simp only [ht, List.cons_append, List.nil_append, List.cons.injEq, true_and] at hchars
      obtain ⟨rfl, rfl, hs⟩ := hchars
      obtain rfl : s = ⟨"Terminator"⟩ := SortName.toList_name_inj.1 hs
      obtain rfl : t = ⟨"Ne"⟩ := SortName.toList_name_inj.1 (ht.trans (by decide))
      exact .plain
    | c :: c' :: c'' :: rest =>
      simp only [ht, List.cons_append, List.cons.injEq] at hchars
      obtain ⟨rfl, rfl, rfl, hs⟩ := hchars
      have hshared : (SortName.mk (String.ofList rest)).name.toList = rest := by simp
      obtain rfl : s = cfg.terminatorSort ⟨String.ofList rest⟩ := by
        rw [← SortName.toList_name_inj, toList_terminatorSort, hshared, hs]
      obtain rfl : t = cfg.nonEmptySort ⟨String.ofList rest⟩ := by
        rw [← SortName.toList_name_inj, toList_nonEmptySort, hshared, ht]
      exact .around _
  · intro h
    rw [← SortName.toList_name_inj, toList_nonEmptySort, toList_terminatorSort]
    cases h with
    | plain => rfl
    | around shared => simp [toList_nonEmptySort, toList_terminatorSort]

end Settings

/-! ## Two lists -/

namespace UserList

variable {cfg : Settings} {l : List Sentence} {s t : SortName} {u w : UserList}

/-- The sorts that the recursive form of a list adds. -/
def scaffolding (cfg : Settings) (s : SortName) : List SortName :=
  [cfg.nonEmptySort s, cfg.terminatorSort s]

/-- The productions of the recursive form for the sorts that it adds. -/
def encoding (cfg : Settings) (u : UserList) : List Production :=
  [u.recursiveCons cfg, u.lastCons cfg, u.stop cfg]

/-- The names of two lists overlap, in one order or the other. -/
def Clash (cfg : Settings) (s t : SortName) : Prop := cfg.Overlap s t ∨ cfg.Overlap t s

/-- The sentences have productions of one sort that were written for different lists. -/
def Merged (cfg : Settings) (set : SentenceSet) (u w : UserList) : Prop :=
  ∃ p ∈ encoding cfg u, ∃ q ∈ encoding cfg w,
    .production p ∈ set ∧ .production q ∈ set ∧ p.sort = q.sort

/-- Different lists have a scaffolding sort in common if and only if their names overlap. -/
theorem exists_mem_scaffolding_iff (h : s ≠ t) :
    (∃ x ∈ scaffolding cfg s, x ∈ scaffolding cfg t) ↔ Clash cfg s t := by
  simp [scaffolding, Clash, Settings.nonEmptySort_inj, Settings.terminatorSort_inj,
    Settings.nonEmptySort_eq_terminatorSort_iff, h, h.symm,
    eq_comm (a := cfg.terminatorSort s)]

theorem nodup_scaffolding (cfg : Settings) (s : SortName) : (scaffolding cfg s).Nodup := by
  simp [scaffolding, cfg.nonEmptySort_ne_terminatorSort s]

theorem nodup_scaffolding_iff (h : s ≠ t) :
    (scaffolding cfg s ++ scaffolding cfg t).Nodup ↔ ¬ Clash cfg s t := by
  rw [List.nodup_append', ← exists_mem_scaffolding_iff h]
  simp [nodup_scaffolding, List.Disjoint]

theorem exists_mem_encoding_iff {x : SortName} :
    (∃ p ∈ encoding cfg u, p.sort = x) ↔ x ∈ scaffolding cfg u.sort := by
  simp [encoding, scaffolding, recursiveCons, lastCons, stop, Production.ofRow, eq_comm]

theorem encoding_mem_parseForm {p : Production} (hp : p ∈ encoding cfg u) :
    .production p ∈ u.parseForm cfg := by
  refine production_mem_parseForm.2 ?_
  simp only [encoding, List.mem_cons, List.not_mem_nil, or_false] at hp
  rcases hp with rfl | rfl | rfl
  · exact .inr (.inl rfl)
  · exact .inr (.inr (.inl rfl))
  · exact .inl rfl

section Written

variable (htag : TagApart cfg) (set : SentenceSet)
include htag

/-- No production of a recursive form goes when the tagged productions are taken out. -/
theorem parseForm_mem_replaceByParseForms (h : u ∈ ofSentences cfg l) {x : Sentence}
    (hx : x ∈ u.parseForm cfg) : x ∈ replaceByParseForms cfg (ofSentences cfg l) set := by
  rw [replaceByParseForms, mem_withoutSugar, OrdSet.mem_insertAll]
  exact ⟨.inr (List.mem_flatMap.2 ⟨u, h, hx⟩), isSugar_parseForm htag h hx⟩

theorem encoding_mem_replaceByParseForms (h : u ∈ ofSentences cfg l) {p : Production}
    (hp : p ∈ encoding cfg u) :
    .production p ∈ replaceByParseForms cfg (ofSentences cfg l) set :=
  parseForm_mem_replaceByParseForms htag set h (encoding_mem_parseForm hp)

theorem merged_iff (hu : u ∈ ofSentences cfg l) (hw : w ∈ ofSentences cfg l) :
    Merged cfg (replaceByParseForms cfg (ofSentences cfg l) set) u w ↔
      ∃ x ∈ scaffolding cfg u.sort, x ∈ scaffolding cfg w.sort := by
  simp only [← exists_mem_encoding_iff]
  constructor
  · intro h
    obtain ⟨p, hp, q, hq, -, -, hsort⟩ := h
    exact ⟨p.sort, ⟨p, hp, rfl⟩, q, hq, hsort.symm⟩
  · intro h
    obtain ⟨x, ⟨p, hp, rfl⟩, q, hq, hsort⟩ := h
    exact ⟨p, hp, q, hq, encoding_mem_replaceByParseForms htag set hu hp,
      encoding_mem_replaceByParseForms htag set hw hq, hsort.symm⟩

/-- Where the names of two lists overlap, the end of the second is a list of the first, which may
be one that must not be empty. -/
theorem derives_empty_of_overlap (hu : u ∈ ofSentences cfg l) (hw : w ∈ ofSentences cfg l)
    (h : cfg.Overlap u.sort w.sort) (whole : SortName) :
    ∃ tree, Derives (replaceByParseForms cfg (ofSentences cfg l) set).toList whole
      (.nonTerminal u.sort) tree ∧ tree.frontier = [.ofText ""] := by
  have hshared : cfg.nonEmptySort u.sort = cfg.terminatorSort w.sort :=
    Settings.nonEmptySort_eq_terminatorSort_iff.2 h
  have hcollapse : Sentence.production (.injection u.sort (cfg.nonEmptySort u.sort)) ∈
      replaceByParseForms cfg (ofSentences cfg l) set :=
    parseForm_mem_replaceByParseForms htag set hu
      (production_mem_parseForm.2 (.inr (.inr (.inr (.inl rfl)))))
  have hstop : Sentence.production (w.stop cfg) ∈
      replaceByParseForms cfg (ofSentences cfg l) set :=
    encoding_mem_replaceByParseForms htag set hw (by simp [encoding])
  have hempty : Derives (replaceByParseForms cfg (ofSentences cfg l) set).toList whole
      (.nonTerminal (cfg.nonEmptySort u.sort)) (w.stopTree cfg) := by
    rw [hshared]
    exact .node hstop rfl (.cons (.word _) .nil)
  refine ⟨_, .node hcollapse rfl (.cons hempty .nil), ?_⟩
  rw [SyntaxTree.frontier_injection]
  rfl

end Written

/-- **When the recursive forms of two lists are kept apart.** The four scaffolding sorts of two
lists of different sorts are distinct if and only if the names of the lists do not overlap. If they
do, the productions of both lists are merged in one sort. -/
theorem scaffolding_apart_iff (hu : u ∈ ofSentences cfg l) (hw : w ∈ ofSentences cfg l)
    (hne : u.sort ≠ w.sort) :
    ((scaffolding cfg u.sort ++ scaffolding cfg w.sort).Nodup ↔ ¬ Clash cfg u.sort w.sort) ∧
    (TagApart cfg → ∀ set,
      (Merged cfg (replaceByParseForms cfg (ofSentences cfg l) set) u w ↔
        Clash cfg u.sort w.sort)) := by
  refine ⟨nodup_scaffolding_iff hne, fun htag set => ?_⟩
  rw [merged_iff htag set hu hw, exists_mem_scaffolding_iff hne]

/-- A list of expressions between commas. -/
def expressionList (name kind : String) : List Sentence :=
  let tag := Attributes.setText ∅ "userList" kind
  [Sample.rule name (Sample.sort "Exp") [Sample.word ",", Sample.sort name] "_,_" tag,
    Sample.rule name (Sample.word ("." ++ name)) [] ("." ++ name) tag]

/-- The sorts `Ids#Terminator` and `Ne#Ids` overlap in `Ids`, so two lists of these sorts are
merged. -/
theorem scaffolding_apart_iff_ids :
    let l := expressionList "Ids#Terminator" "*" ++ expressionList "Ne#Ids" "*"
    ∃ u ∈ ofSentences {} l, ∃ w ∈ ofSentences {} l, u.sort ≠ w.sort ∧
      ¬ (scaffolding {} u.sort ++ scaffolding {} w.sort).Nodup ∧
      ∀ set, Merged {} (replaceByParseForms {} (ofSentences {} l) set) u w := by
  intro l
  have run : ∃ u ∈ ofSentences {} l, ∃ w ∈ ofSentences {} l,
      u.sort = ⟨"Ids#Terminator"⟩ ∧ w.sort = ⟨"Ne#Ids"⟩ := by
    decide +kernel
  obtain ⟨u, hu, w, hw, husort, hwsort⟩ := run
  have hne : u.sort ≠ w.sort := by
    rw [husort, hwsort]
    decide
  have hclash : Clash {} u.sort w.sort := by
    rw [husort, hwsort]
    exact .inl (.around ⟨"Ids"⟩)
  obtain ⟨hdistinct, hmerged⟩ := scaffolding_apart_iff hu hw hne
  exact ⟨u, hu, w, hw, hne, fun h => hdistinct.1 h hclash,
    fun set => (hmerged (by decide) set).2 hclash⟩

/-- Two lists with plain names: a list `Terminator` must not be empty, and once both lists are
written out it may be, as its conses share the sort `Ne#Terminator` with the end of a list `Ne`. -/
theorem scaffolding_shared :
    let l := expressionList "Ne" "*" ++ expressionList "Terminator" "+"
    let written := replaceByParseForms {} (ofSentences {} l) (Catalog.ofList l)
    ∃ u ∈ ofSentences {} l, ∃ w ∈ ofSentences {} l, u.sort ≠ w.sort ∧
      ¬ (scaffolding {} u.sort ++ scaffolding {} w.sort).Nodup ∧
      u.nonEmpty = true ∧
      .production (.injection u.sort ⟨"Ne#Terminator"⟩) ∈ written ∧
      (u.recursiveCons {}).sort = ⟨"Ne#Terminator"⟩ ∧
      .production (u.recursiveCons {}) ∈ written ∧
      (w.stop {}).sort = ⟨"Ne#Terminator"⟩ ∧ .production (w.stop {}) ∈ written := by
  decide +kernel

end UserList

end GrammarSynthesis
