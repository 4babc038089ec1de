import Mathlib.Data.List.Induction
import Mathlib.Data.List.Nodup

/-!
# First occurrences

`List.eraseDups` keeps the first occurrence of each entry. So whatever comes later changes nothing
in what was kept before, and an entry stands where the number of different entries before its first
occurrence says.

* `eraseDups_concat`: one more entry is kept if it is new;
* `nodup_eraseDups`, `eraseDups_of_nodup`: what is kept has no repetition, and is kept again;
* `eraseDups_append_of_subset`: what comes after and is known already leaves no trace;
* `eraseDups_prefix`: what was kept stays at the beginning;
* `eraseDups_map_idxOf`: entries replaced by their places count up from 0.
-/
namespace GrammarSynthesis

variable {α β : Type} [DecidableEq α] [DecidableEq β]

theorem eraseDups_concat (l : List α) (a : α) :
    (l ++ [a]).eraseDups = if a ∈ l then l.eraseDups else l.eraseDups ++ [a] := by
  rw [List.eraseDups_append]
  by_cases h : a ∈ l <;> simp [List.removeAll, List.eraseDups_cons, h]

/-- The induction is on the end of the list: there an entry is new, or it is dropped. -/
theorem nodup_eraseDups (l : List α) : l.eraseDups.Nodup := by
  induction l using List.reverseRecOn with
  | nil => simp
  | append_singleton l a ih =>
    rw [eraseDups_concat]
    split
    · exact ih
    · rename_i hnew
      rw [List.nodup_append_comm]
      exact List.nodup_cons.2 ⟨mt List.mem_eraseDups.1 hnew, ih⟩

theorem eraseDups_of_nodup {l : List α} (h : l.Nodup) : l.eraseDups = l := by
  induction l using List.reverseRecOn with
  | nil => rfl
  | append_singleton l a ih =>
    have hcons : (a :: l).Nodup := List.nodup_append_comm.1 h
    obtain ⟨hnew, hl⟩ := List.nodup_cons.1 hcons
    rw [eraseDups_concat, if_neg hnew, ih hl]

/-- Entries that come later and are there already are dropped. -/
theorem eraseDups_append_of_subset {l later : List α} (h : ∀ a ∈ later, a ∈ l) :
    (l ++ later).eraseDups = l.eraseDups := by
  have hnone : later.removeAll l = [] := by simpa [List.removeAll] using h
  rw [List.eraseDups_append, hnone, List.eraseDups_nil, List.append_nil]

theorem eraseDups_prefix (l later : List α) : l.eraseDups <+: (l ++ later).eraseDups := by
  rw [List.eraseDups_append]
  exact List.prefix_append _ _

/-- Only the first occurrences of the beginning matter for what is kept of the rest. -/
theorem eraseDups_eraseDups_append (l later : List α) :
    (l.eraseDups ++ later).eraseDups = (l ++ later).eraseDups := by
  have hrest : later.removeAll l.eraseDups = later.removeAll l := by
    simp only [List.removeAll, List.elem_eq_mem, List.mem_eraseDups]
  rw [List.eraseDups_append, List.eraseDups_append, eraseDups_of_nodup (nodup_eraseDups l), hrest]

/-- A map that keeps entries apart keeps their first occurrences. -/
theorem eraseDups_map {f : α → β} {l : List α} (hf : ∀ a ∈ l, ∀ b ∈ l, f a = f b → a = b) :
    (l.map f).eraseDups = l.eraseDups.map f := by
  induction l using List.reverseRecOn with
  | nil => simp
  | append_singleton l a ih =>
    have hmem : f a ∈ l.map f ↔ a ∈ l := by
      rw [List.mem_map]
      constructor
      · intro h
        obtain ⟨b, hb, heq⟩ := h
        exact hf b (by simp [hb]) a (by simp) heq ▸ hb
      · exact fun h => ⟨a, h, rfl⟩
    have hl := ih fun b hb c hc => hf b (by simp [hb]) c (by simp [hc])
    rw [List.map_append, List.map_singleton, eraseDups_concat, eraseDups_concat, hl]
    by_cases ha : a ∈ l
    · rw [if_pos ha, if_pos (hmem.2 ha)]
    · rw [if_neg ha, if_neg (mt hmem.1 ha), List.map_append, List.map_singleton]

/-- Each entry replaced by its place among the first occurrences: the places count up from 0. -/
theorem eraseDups_map_idxOf (l : List α) :
    (l.map l.eraseDups.idxOf).eraseDups = List.range l.eraseDups.length := by
  have hinj : ∀ a ∈ l, ∀ b ∈ l, l.eraseDups.idxOf a = l.eraseDups.idxOf b → a = b :=
    fun a ha b _ h => (List.idxOf_inj (List.mem_eraseDups.2 ha)).1 h
  rw [eraseDups_map hinj]
  refine List.ext_getElem (by simp) fun i hi _ => ?_
  rw [List.getElem_map, List.getElem_range, (nodup_eraseDups l).idxOf_getElem]

end GrammarSynthesis
