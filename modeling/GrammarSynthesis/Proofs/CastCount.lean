import Mathlib.Data.Finset.Card
import Mathlib.Data.List.Nodup
import Mathlib.Tactic.SplitIfs
import GrammarSynthesis.Proofs.Extension
import GrammarSynthesis.Proofs.Layers

/-!
# Counting casts

The texts of casts are an operator before the name of a sort, and both may hold colons: the `:` cast
of the sort `:S` is written as the `::` cast of `S`. The casts are different productions all the
same, since a cast names its sort in an attribute and an injection can be read off its two sorts.

* `Casts.nodup_ofSort`: the casts of one sort differ;
* `Casts.subject?_of_mem_ofSort`: the sort of a cast can be read off it, so that different sorts
  have no cast in common;
* `Casts.size_candidates`: how many candidates there are;
* `Casts.candidates_are_distinct_casts`: the candidates are the casts of the sorts, and none is
  counted twice.
-/
namespace GrammarSynthesis

namespace OrdSet

variable {α : Type} [Ord α] [Std.TransOrd α] [Std.LawfulEqOrd α]

omit [Std.TransOrd α] in
theorem nodup_toList (s : OrdSet α) : s.toList.Nodup := nodup_of_ascending s.ascending

/-- No element is lost if none occurs twice. -/
theorem size_ofList {l : List α} (h : l.Nodup) : (Catalog.ofList l : OrdSet α).size = l.length :=
  ((List.perm_ext_iff_of_nodup (nodup_toList _) h).2 fun _ => mem_ofList).length_eq

end OrdSet

theorem Attributes.text?_setText (as : Attributes) (key text : String) :
    (as.setText key text).text? key = some text := by
  rw [text?, setText, Catalog.find?_insert, if_pos rfl]
  rfl

namespace Casts

variable {cfg : Settings} {cs : Capabilities} {s s' : SortName}

/-! ## The casts of one sort -/

theorem ofSort_sublist :
    (ofSort cfg cs s).Sublist (fourCasts cfg cfg.sorts.bottom cfg.sorts.top s ++
      [.injection cfg.sorts.top s] ++ [.injection s cfg.sorts.bottom]) := by
  unfold ofSort
  refine (List.Sublist.append ?_ ?_).append ?_
  all_goals
    split
    · exact List.Sublist.refl _
    · exact List.nil_sublist _

theorem length_ofSort :
    (ofSort cfg cs s).length = 4 * (if .autoCasts ∈ cs then 1 else 0) +
      (if .topSort ∈ cs then 1 else 0) + (if .bottomSort ∈ cs then 1 else 0) := by
  unfold ofSort
  split_ifs <;> rfl

/-- The rows differ: four by their operators, two by their sorts. -/
theorem nodup_ofSort (h : s ≠ cfg.sorts.bottom) : (ofSort cfg cs s).Nodup := by
  refine List.Nodup.sublist ofSort_sublist (List.Nodup.of_map Production.items ?_)
  simp [fourCasts, cast, Production.injection, Production.ofRow, Item.ofText, h]

/-! ## The casts of different sorts -/

/-- The sort that a cast names; else the sort below the top sort, or above the bottom sort. -/
def subject? (cfg : Settings) (p : Production) : Option SortName :=
  match p.attributes.text? cfg.keys.sortKey with
  | some name => some ⟨name⟩
  | none => if p.sort = cfg.sorts.top then p.nonTerminals.head? else some p.sort

theorem subject?_of_mem_ofSort (h : s ≠ cfg.sorts.top) {p : Production}
    (hp : p ∈ ofSort cfg cs s) : subject? cfg p = some s := by
  rcases mem_ofSort.1 hp with ⟨-, hp⟩ | ⟨-, rfl⟩ | ⟨-, rfl⟩
  · have htext : p.attributes = Attributes.setText ∅ cfg.keys.sortKey s.name := by
      simp only [fourCasts, List.mem_cons, List.not_mem_nil, or_false] at hp
      rcases hp with rfl | rfl | rfl | rfl <;> rfl
    rw [subject?, htext, Attributes.text?_setText]
  · show (if cfg.sorts.top = cfg.sorts.top then _ else _) = _
    rw [if_pos rfl]
    rfl
  · exact if_neg h

theorem eq_of_mem_ofSort (h : s ≠ cfg.sorts.top) (h' : s' ≠ cfg.sorts.top) {p : Production}
    (hp : p ∈ ofSort cfg cs s) (hp' : p ∈ ofSort cfg cs s') : s = s' := by
  have hsubject := subject?_of_mem_ofSort h hp
  rw [subject?_of_mem_ofSort h' hp'] at hsubject
  exact (Option.some.inj hsubject).symm

theorem nodup_flatMap_ofSort {l : List SortName} (hl : l.Nodup)
    (h : ∀ s ∈ l, s ≠ cfg.sorts.top ∧ s ≠ cfg.sorts.bottom) :
    (l.flatMap (ofSort cfg cs)).Nodup := by
  refine List.nodup_flatMap.2 ⟨fun s hs => nodup_ofSort (h s hs).2, ?_⟩
  refine hl.imp_of_mem fun {s s'} hs hs' hne p hp hp' => hne ?_
  exact eq_of_mem_ofSort (h s hs).1 (h s' hs').1 hp hp'

/-! ## The candidates -/

theorem ne_of_isReserved {reserved : SortName} (hs : cfg.isReserved s = false)
    (h : cfg.isReserved reserved = true) : s ≠ reserved := by
  rintro rfl
  rw [h] at hs
  cases hs

/-- The sorts that are not reserved, each once, as they are found by their numbers. -/
structure Eligible (cfg : Settings) (sorts distinct : List SortName) : Prop where
  nodup : distinct.Nodup
  mem : ∀ s, s ∈ distinct ↔ s ∈ sorts ∧ cfg.isReserved s = false
  found :
    let numbered := SortNumbering.empty.assignAll (sorts.filter fun s => !cfg.isReserved s)
    numbered.1.lookupAll numbered.2 = .ok distinct

theorem exists_eligible (cfg : Settings) (sorts : List SortName) (cs : Capabilities) :
    ∃ distinct, Eligible cfg sorts distinct ∧
      candidates cfg sorts cs = Catalog.ofList (distinct.flatMap (ofSort cfg cs)) := by
  have hlt := SortNumbering.assignAll_lt .empty (sorts.filter fun s => !cfg.isReserved s)
  refine ⟨_, ⟨SortNumbering.nodup_sortsOf hlt, fun s => ?_, SortNumbering.lookupAll_eq hlt⟩, rfl⟩
  rw [SortNumbering.mem_sortsOf_assignAll, List.mem_filter, Bool.not_eq_true']

theorem candidates_congr {sorts others : List SortName} (h : ∀ s, s ∈ others ↔ s ∈ sorts) :
    candidates cfg others cs = candidates cfg sorts cs := by
  ext p
  simp only [mem_candidates, h]

theorem size_candidates (htop : cfg.isReserved cfg.sorts.top = true)
    (hbottom : cfg.isReserved cfg.sorts.bottom = true) (sorts : List SortName) :
    (candidates cfg sorts cs).size =
      (4 * (if .autoCasts ∈ cs then 1 else 0) + (if .topSort ∈ cs then 1 else 0) +
        (if .bottomSort ∈ cs then 1 else 0)) *
      (sorts.toFinset.filter fun s => cfg.isReserved s = false).card := by
  obtain ⟨distinct, heligible, hcandidates⟩ := exists_eligible cfg sorts cs
  have hset : distinct.toFinset = sorts.toFinset.filter fun s => cfg.isReserved s = false := by
    ext s
    simp [heligible.mem]
  have hcasts : (distinct.flatMap (ofSort cfg cs)).Nodup := by
    refine nodup_flatMap_ofSort heligible.nodup fun s hs => ?_
    obtain ⟨-, hfree⟩ := (heligible.mem s).1 hs
    exact ⟨ne_of_isReserved hfree htop, ne_of_isReserved hfree hbottom⟩
  rw [hcandidates, OrdSet.size_ofList hcasts, ← hset, List.toFinset_card_of_nodup heligible.nodup]
  simp only [List.length_flatMap, length_ofSort, List.map_const', List.sum_replicate_nat]
  exact Nat.mul_comm _ _

/-- **The candidates are the casts of the sorts, and none is counted twice.** The sorts that are
numbered are found again, without a failure and each once, and the candidates are all their casts.
Which casts these are depends on which sorts there are, not on their order or number. If the top and
the bottom sort are reserved, no two of the casts coincide. -/
theorem candidates_are_distinct_casts (cfg : Settings) (sorts : List SortName)
    (cs : Capabilities) :
    (∃ distinct, Eligible cfg sorts distinct ∧
      candidates cfg sorts cs = Catalog.ofList (distinct.flatMap (ofSort cfg cs))) ∧
    (∀ p, p ∈ candidates cfg sorts cs ↔ ∃ s ∈ sorts, cfg.isReserved s = false ∧
      (.autoCasts ∈ cs ∧ p ∈ fourCasts cfg cfg.sorts.bottom cfg.sorts.top s ∨
       .topSort ∈ cs ∧ p = .injection cfg.sorts.top s ∨
       .bottomSort ∈ cs ∧ p = .injection s cfg.sorts.bottom)) ∧
    (∀ others : List SortName, (∀ s, s ∈ others ↔ s ∈ sorts) →
      candidates cfg others cs = candidates cfg sorts cs) ∧
    (cfg.isReserved cfg.sorts.top = true → cfg.isReserved cfg.sorts.bottom = true →
      (candidates cfg sorts cs).size =
        (4 * (if .autoCasts ∈ cs then 1 else 0) + (if .topSort ∈ cs then 1 else 0) +
          (if .bottomSort ∈ cs then 1 else 0)) *
        (sorts.toFinset.filter fun s => cfg.isReserved s = false).card ∧
      (∀ s, cfg.isReserved s = false → (ofSort cfg cs s).Nodup) ∧
      ∀ s s', cfg.isReserved s = false → cfg.isReserved s' = false → s ≠ s' →
        (ofSort cfg cs s).Disjoint (ofSort cfg cs s')) := by
  refine ⟨exists_eligible cfg sorts cs, fun p => ?_, fun _ => candidates_congr,
    fun htop hbottom => ⟨size_candidates htop hbottom sorts, fun s hs => ?_, ?_⟩⟩
  · simp only [mem_candidates, mem_ofSort]
  · exact nodup_ofSort (ne_of_isReserved hs hbottom)
  · intro s s' hs hs' hne p hp hp'
    exact hne (eq_of_mem_ofSort (ne_of_isReserved hs htop) (ne_of_isReserved hs' htop) hp hp')

/-- The `::` cast of one of the sorts and the `:` cast of the other are written alike. -/
theorem candidates_are_distinct_casts_colons :
    let sorts : List SortName := [⟨":S"⟩, ⟨"S"⟩, ⟨"K"⟩, ⟨":S"⟩, ⟨"#S"⟩]
    let cs : Capabilities := Catalog.ofList [.autoCasts, .topSort, .bottomSort]
    "::" ++ "S" = ":" ++ ":S" ∧ (candidates {} sorts cs).size = 6 * 2 := by
  intro sorts cs
  obtain ⟨-, -, -, hreserved⟩ := candidates_are_distinct_casts {} sorts cs
  obtain ⟨hsize, -⟩ := hreserved (by decide +kernel) (by decide +kernel)
  refine ⟨rfl, hsize.trans ?_⟩
  decide +kernel

end Casts

end GrammarSynthesis
