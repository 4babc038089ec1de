import GrammarSynthesis.Proofs.CastCount
import GrammarSynthesis.Proofs.FirstOccurrences
import GrammarSynthesis.Proofs.Restriction

/-!
# The order of sentences

Sets of sentences are listed in the order of sentences, and the stages go through these lists. Which
faults are found first and which cons of a list counts is settled by the order alone. So the order
must be linear, and it must see in a sentence what the sentence says and nothing else: neither the
way in which its attributes came about, nor the order in which follow sets were put together.

* `compare_justOne`: of any two values one is less, or they are equal;
* `Attributes.find?_changed`: what is found after a run of changes is what the last of them left;
* `Sentence.alike_iff_eq`: sentences that say the same are equal;
* `OrdSet.toList_ofList_perm`, `OrdSet.ofList_eq_iff`: a list collected as a set;
* `sentence_order_canonical`: all of this for sentences.
-/
namespace GrammarSynthesis

/-! ## Linear orders -/

/-- One of the three holds and the other two do not. -/
def JustOne (p q r : Prop) : Prop := p ∧ ¬ q ∧ ¬ r ∨ ¬ p ∧ q ∧ ¬ r ∨ ¬ p ∧ ¬ q ∧ r

section Linear

variable {α : Type} [Ord α] [Std.TransOrd α] [Std.LawfulEqOrd α]

theorem compare_justOne (a b : α) : JustOne (compare a b = .lt) (a = b) (compare b a = .lt) := by
  have hswap : compare b a = (compare a b).swap := Std.OrientedCmp.eq_swap
  rw [JustOne, hswap, ← Std.LawfulEqOrd.compare_eq_iff_eq (a := a)]
  cases compare a b <;> simp

end Linear

/-! ## Attributes after changes -/

namespace Attributes

/-- A change to attributes. -/
inductive Change where
  | flag (key : String)
  | text (key value : String)
  | drop (key : String)
  deriving DecidableEq, Repr

namespace Change

def key : Change → String
  | flag key => key
  | text key _ => key
  | drop key => key

/-- What stands under the key after the change. -/
def entry? : Change → Option Attribute
  | flag key => some ⟨key, none⟩
  | text key value => some ⟨key, some value⟩
  | drop _ => none

def apply (as : Attributes) : Change → Attributes
  | flag key => as.setFlag key
  | text key value => as.setText key value
  | drop key => as.erase key

theorem find?_apply (as : Attributes) (c : Change) (k : String) :
    (c.apply as).find? k = if c.key = k then c.entry? else as.find? k := by
  cases c with
  | flag key => exact Catalog.find?_insert
  | text key value => exact Catalog.find?_insert
  | drop key => exact Catalog.find?_erase

end Change

/-- The attributes after changes, made one after the other. -/
def changed (as : Attributes) (changes : List Change) : Attributes := changes.foldl Change.apply as

/-- What changes leave under a key: the last change of this key says, and without one it is what was
there before. -/
def left (as : Attributes) (changes : List Change) (k : String) : Option Attribute :=
  match changes.reverse.find? fun c => c.key = k with
  | some c => c.entry?
  | none => as.find? k

/-- The induction is on the last change: it decides, or it is of another key. -/
theorem find?_changed (as : Attributes) (changes : List Change) (k : String) :
    (as.changed changes).find? k = as.left changes k := by
  induction changes using List.reverseRecOn with
  | nil => rfl
  | append_singleton changes c ih =>
    rw [changed, List.foldl_append, List.foldl_cons, List.foldl_nil, Change.find?_apply, left,
      List.reverse_concat, List.find?_cons]
    by_cases hkey : c.key = k
    · simp [hkey]
    · simp only [hkey, if_false, decide_false]
      exact ih

/-- Runs of changes lead to the same attributes if they leave the same under each key. -/
theorem changed_eq_iff {as as' : Attributes} {changes changes' : List Change} :
    as.changed changes = as'.changed changes' ↔ ∀ k, as.left changes k = as'.left changes' k := by
  simp only [← find?_changed]
  exact ⟨fun h k => by rw [h], Catalog.ext_find?⟩

end Attributes

/-! ## Sentences that say the same -/

/-- The terminals have the same text, and the same must not follow them. -/
structure Terminal.Alike (t t' : Terminal) : Prop where
  text : t.text = t'.text
  follow : ∀ u, u ∈ t.follow ↔ u ∈ t'.follow

/-- The productions have the same parts, the items place by place and the attributes key by key. -/
structure Production.Alike (p q : Production) : Prop where
  sort : p.sort = q.sort
  items : List.Forall₂ (Item.SameBut Terminal.Alike) p.items q.items
  label : p.label = q.label
  attributes : ∀ k, p.attributes.find? k = q.attributes.find? k
  location : p.location = q.location

inductive Sentence.Alike : Sentence → Sentence → Prop where
  | production {p q : Production} (h : p.Alike q) : Alike (.production p) (.production q)
  | declaration (s : SortName) : Alike (.declaration s) (.declaration s)

theorem Terminal.alike_iff_eq {t t' : Terminal} : t.Alike t' ↔ t = t' := by
  constructor
  · intro h
    exact Terminal.ext h.text (Catalog.ext h.follow)
  · rintro rfl
    exact ⟨rfl, fun _ => Iff.rfl⟩

theorem Item.sameBut_alike_iff_eq {i i' : Item} : SameBut Terminal.Alike i i' ↔ i = i' := by
  constructor
  · intro h
    cases h with
    | terminal h => exact congrArg terminal (Terminal.alike_iff_eq.1 h)
    | nonTerminal s => rfl
  · rintro rfl
    exact .refl (fun _ => Terminal.alike_iff_eq.2 rfl) i

theorem Production.alike_iff_eq {p q : Production} : p.Alike q ↔ p = q := by
  have hrelation : Item.SameBut Terminal.Alike = Eq := by
    funext i i'
    exact propext Item.sameBut_alike_iff_eq
  have hitems : List.Forall₂ (Item.SameBut Terminal.Alike) p.items q.items ↔ p.items = q.items := by
    rw [hrelation, List.forall₂_eq_eq_eq]
  constructor
  · intro h
    exact Production.ext h.sort (hitems.1 h.items) h.label (Catalog.ext_find? h.attributes)
      h.location
  · rintro rfl
    exact ⟨rfl, hitems.2 rfl, rfl, fun _ => rfl, rfl⟩

/-- Sentences that say the same are the same. -/
theorem Sentence.alike_iff_eq {a b : Sentence} : a.Alike b ↔ a = b := by
  constructor
  · intro h
    cases h with
    | production h => exact congrArg production (Production.alike_iff_eq.1 h)
    | declaration s => rfl
  · rintro rfl
    cases a with
    | production p => exact .production (Production.alike_iff_eq.2 rfl)
    | declaration s => exact .declaration s

/-! ## Lists collected as sets -/

namespace OrdSet

variable {α : Type} [Ord α] [Std.TransOrd α] [Std.LawfulEqOrd α]

/-- A set lists the entries of the list that it was made of, each once. -/
theorem toList_ofList_perm [DecidableEq α] (l : List α) :
    (Catalog.ofList l : OrdSet α).toList.Perm l.eraseDups := by
  refine (List.perm_ext_iff_of_nodup (nodup_toList _) (nodup_eraseDups l)).2 fun a => ?_
  rw [Catalog.mem_toList, mem_ofList, List.mem_eraseDups]

/-- A set does not tell in which order it was put together, and how often each entry came. -/
theorem ofList_eq_iff {l l' : List α} :
    (Catalog.ofList l : OrdSet α) = Catalog.ofList l' ↔ ∀ a, a ∈ l ↔ a ∈ l' := by
  constructor
  · intro h a
    rw [← mem_ofList, h, mem_ofList]
  · intro h
    ext a
    rw [mem_ofList, mem_ofList, h]

/-- There is one ascending list with the entries of a list. -/
theorem eq_toList_ofList {l sorted : List α}
    (hsorted : sorted.Pairwise fun a b => compare a b = .lt) (hmem : ∀ a, a ∈ sorted ↔ a ∈ l) :
    sorted = (Catalog.ofList l : OrdSet α).toList := by
  have hset : (⟨sorted, hsorted⟩ : OrdSet α) = Catalog.ofList l := by
    ext a
    rw [mem_ofList]
    exact hmem a
  exact congrArg Catalog.toList hset

end OrdSet

/-- **Sentences are linearly ordered, and sets of them have one form.**

* Of two sentences one is less than the other or they are equal, the comparison says equal of equal
  sentences only, and what is less than a lesser sentence is less.
* The comparison sees in a sentence what it says: it says equal of sentences with the same parts,
  whose follow sets have the same members and whose attributes are the same under each key.
* Attributes after any runs of changes are equal, and compare equal, if and only if the last changes
  of each key leave the same.
* Any sentences collected as a set are listed in ascending order, each once. This is the only such
  list, and it is the same for all lists with these members. -/
theorem sentence_order_canonical :
    (∀ a b : Sentence, JustOne (compare a b = .lt) (a = b) (compare b a = .lt) ∧
      (compare a b = .eq ↔ a = b) ∧ (compare a b = .eq ↔ a.Alike b)) ∧
    (∀ a b c : Sentence, compare a b = .lt → compare b c = .lt → compare a c = .lt) ∧
    (∀ (as as' : Attributes) (changes changes' : List Attributes.Change),
      (as.changed changes = as'.changed changes' ↔
        ∀ k, as.left changes k = as'.left changes' k) ∧
      (compare (as.changed changes) (as'.changed changes') = .eq ↔
        ∀ k, as.left changes k = as'.left changes' k)) ∧
    ∀ l : List Sentence,
      (Catalog.ofList l : SentenceSet).toList.Pairwise (fun a b => compare a b = .lt) ∧
      (Catalog.ofList l : SentenceSet).toList.Perm l.eraseDups ∧
      (∀ sorted : List Sentence, sorted.Pairwise (fun a b => compare a b = .lt) →
        (∀ s, s ∈ sorted ↔ s ∈ l) → sorted = (Catalog.ofList l : SentenceSet).toList) ∧
      ∀ l' : List Sentence, (Catalog.ofList l : SentenceSet) = Catalog.ofList l' ↔
        ∀ s, s ∈ l ↔ s ∈ l' := by
  refine ⟨fun a b => ⟨?_, ?_, ?_⟩, fun a b c hab hbc => ?_, fun as as' changes changes' => ⟨?_, ?_⟩,
    fun l => ⟨?_, ?_, fun sorted hsorted hmem => ?_, fun l' => ?_⟩⟩
  · exact compare_justOne a b
  · exact Std.LawfulEqOrd.compare_eq_iff_eq
  · exact Std.LawfulEqOrd.compare_eq_iff_eq.trans Sentence.alike_iff_eq.symm
  · exact Std.TransCmp.lt_trans hab hbc
  · exact Attributes.changed_eq_iff
  · exact Std.LawfulEqOrd.compare_eq_iff_eq.trans Attributes.changed_eq_iff
  · exact (Catalog.ofList l : SentenceSet).ascending
  · exact OrdSet.toList_ofList_perm l
  · exact OrdSet.eq_toList_ofList hsorted hmem
  · exact OrdSet.ofList_eq_iff

end GrammarSynthesis
