import GrammarSynthesis.Proofs.CastCount
import GrammarSynthesis.Proofs.ProgramLists

/-!
# Declared lists are recovered

A user declares a list by its two sorts, its separator and whether it may be empty. The declaration
is expanded into a cons and a terminator with a tag, and the two are put among the sentences of a
module, in any order and with other sentences between them. `UserList.ofSentences` finds them by
their sort and their shape. What it makes of them is what was declared.

The tag may also stand on productions that are no list: half of the pair is missing, or the sort is
reserved. They yield nothing, and they do not stand in the way of a list of another sort.

* `ListDeclaration`: what is declared, how it is expanded, and the list to recover;
* `ofProductions?_of_pair`: a list is recovered from its pair;
* `ofProductions?_eq_none_of_spoiled`: no list is recovered from what is not a pair;
* `UserList.declared_lists_recovered`: from a module come the lists that are declared in it.
-/
namespace GrammarSynthesis

/-! ## Declarations -/

/-- What a user declares of a list. -/
structure ListDeclaration where
  sort : SortName
  element : SortName
  separator : Terminal
  listLabel : String
  terminatorLabel : String
  /-- The kind of the list is `+`, not `*`. -/
  nonEmpty : Bool
  /-- The attributes of the cons, besides the tag. -/
  attributes : Attributes
  /-- How the empty list is written. -/
  terminator : Terminal
  deriving DecidableEq, Repr

namespace ListDeclaration

/-- The text of the tag. -/
def kind (x : ListDeclaration) : String := if x.nonEmpty then "+" else "*"

/-- The production `Exps ::= Exp "," Exps`. -/
def cons (cfg : Settings) (x : ListDeclaration) : Production :=
  .ofRow x.sort (.nonTerminal x.element) [.terminal x.separator, .nonTerminal x.sort]
    (some x.listLabel) (x.attributes.setText cfg.keys.userList x.kind)

/-- The production `Exps ::= ".Exps"`. -/
def ending (cfg : Settings) (x : ListDeclaration) : Production :=
  .ofRow x.sort (.terminal x.terminator) [] (some x.terminatorLabel)
    (Attributes.setText ∅ cfg.keys.userList x.kind)

/-- The list that was declared. -/
def list (cfg : Settings) (x : ListDeclaration) : UserList where
  sort := x.sort
  element := x.element
  separator := x.separator.text
  listLabel := x.listLabel
  terminatorLabel := x.terminatorLabel
  nonEmpty := x.nonEmpty
  attributes := x.attributes.erase cfg.keys.userList
  cons := (x.cons cfg).render
  terminator := (x.ending cfg).render

end ListDeclaration

/-! ## The tag -/

namespace Attributes

theorem hasKey_setText_self (as : Attributes) (key text : String) :
    Catalog.hasKey (as.setText key text) key = true :=
  Catalog.hasKey_iff.2 ⟨_, Catalog.mem_insert.2 (.inl rfl), rfl⟩

/-- An attribute that is set and erased leaves no trace, and it took an older one with it. -/
theorem erase_setText (as : Attributes) (key text : String) :
    (as.setText key text).erase key = as.erase key := by
  ext x
  simp only [setText, Catalog.mem_erase, Catalog.mem_insert]
  constructor
  · intro h
    obtain ⟨rfl | ⟨hx, -⟩, hkey⟩ := h
    · exact absurd rfl hkey
    · exact ⟨hx, hkey⟩
  · intro h
    obtain ⟨hx, hkey⟩ := h
    exact ⟨.inr ⟨hx, hkey⟩, hkey⟩

end Attributes

namespace ListDeclaration

variable (cfg : Settings) (x : ListDeclaration)

theorem hasAttribute_cons : (x.cons cfg).hasAttribute cfg.keys.userList = true :=
  Attributes.hasKey_setText_self _ _ _

theorem hasAttribute_ending : (x.ending cfg).hasAttribute cfg.keys.userList = true :=
  Attributes.hasKey_setText_self _ _ _

theorem consParts?_cons :
    UserList.consParts? x.sort (x.cons cfg) = some (x.element, x.separator.text) :=
  UserList.consParts?_eq_some_iff.2 ⟨x.separator, rfl, rfl⟩

theorem erase_attributes_cons :
    (x.cons cfg).attributes.erase cfg.keys.userList = x.attributes.erase cfg.keys.userList :=
  Attributes.erase_setText _ _ _

/-- The kind is read off the tag of the cons. -/
theorem text?_attributes_cons :
    ((x.cons cfg).attributes.text? cfg.keys.userList == some "+") = x.nonEmpty := by
  rw [cons, Production.ofRow, Attributes.text?_setText, kind]
  cases x.nonEmpty <;> rfl

end ListDeclaration

/-! ## Sentences that hold declarations -/

namespace UserList

variable {cfg : Settings} {l : List Sentence} {s : SortName}

/-- The sentences have the production, it is tagged, and it is of the sort. -/
def DeclaredAt (cfg : Settings) (l : List Sentence) (s : SortName) (p : Production) : Prop :=
  .production p ∈ l ∧ p.hasAttribute cfg.keys.userList = true ∧ p.sort = s

/-- The items are those of a cons: an element, a terminal and the rest of the list. -/
def ConsShaped (s : SortName) (p : Production) : Prop :=
  ∃ element separator, p.items = [.nonTerminal element, .terminal separator, .nonTerminal s]

/-- What is tagged of the sort is no list: the sort is reserved, or there is no cons, or there is
no terminator. -/
def Spoiled (cfg : Settings) (l : List Sentence) (s : SortName) : Prop :=
  cfg.isReserved s = true ∨
  (∀ p, DeclaredAt cfg l s p → ¬ ConsShaped s p) ∨
  ∀ p, DeclaredAt cfg l s p → p.items.length ≠ 1

/-- The sentences have the productions of all declarations. What else they have is not tagged, or it
is of a further sort that has no list. -/
structure Holds (cfg : Settings) (family : List ListDeclaration) (l : List Sentence) : Prop where
  cons : ∀ x ∈ family, .production (x.cons cfg) ∈ l
  ending : ∀ x ∈ family, .production (x.ending cfg) ∈ l
  rest : ∀ p, .production p ∈ l → p.hasAttribute cfg.keys.userList = true →
    (∃ x ∈ family, p = x.cons cfg ∨ p = x.ending cfg) ∨
      (∀ x ∈ family, x.sort ≠ p.sort) ∧ Spoiled cfg l p.sort

/-! ## Shapes -/

theorem consParts?_isSome_iff {p : Production} :
    (consParts? s p).isSome = true ↔ ConsShaped s p := by
  simp only [Option.isSome_iff_exists, Prod.exists, consParts?_eq_some_iff]
  constructor
  · intro h
    obtain ⟨element, text, separator, -, hitems⟩ := h
    exact ⟨element, separator, hitems⟩
  · intro h
    obtain ⟨element, separator, hitems⟩ := h
    exact ⟨element, separator.text, separator, rfl, hitems⟩

instance (s : SortName) (p : Production) : Decidable (ConsShaped s p) :=
  decidable_of_iff _ consParts?_isSome_iff

theorem isTerminator_iff {p : Production} : isTerminator p = true ↔ p.items.length = 1 :=
  beq_iff_eq

instance (cfg : Settings) (l : List Sentence) (s : SortName) : Decidable (Spoiled cfg l s) :=
  decidable_of_iff
    (cfg.isReserved s = true ∨
      (∀ p ∈ productionsOf l, p.hasAttribute cfg.keys.userList = true → p.sort = s →
        ¬ ConsShaped s p) ∨
      ∀ p ∈ productionsOf l, p.hasAttribute cfg.keys.userList = true → p.sort = s →
        p.items.length ≠ 1)
    (by simp only [Spoiled, DeclaredAt, mem_productionsOf, and_imp])

instance (cfg : Settings) (family : List ListDeclaration) (l : List Sentence) :
    Decidable (Holds cfg family l) :=
  decidable_of_iff
    ((∀ x ∈ family, .production (x.cons cfg) ∈ l) ∧
      (∀ x ∈ family, .production (x.ending cfg) ∈ l) ∧
      ∀ p ∈ productionsOf l, p.hasAttribute cfg.keys.userList = true →
        (∃ x ∈ family, p = x.cons cfg ∨ p = x.ending cfg) ∨
          (∀ x ∈ family, x.sort ≠ p.sort) ∧ Spoiled cfg l p.sort)
    ⟨fun h => ⟨h.1, h.2.1, fun p hp => h.2.2 p (mem_productionsOf.2 hp)⟩,
      fun h => ⟨h.cons, h.ending, fun p hp => h.rest p (mem_productionsOf.1 hp)⟩⟩

/-! ## One sort -/

/-- It does not matter where the only match stands. -/
theorem find?_eq_some_of_unique {α : Type} {l : List α} {f : α → Bool} {a : α} (ha : a ∈ l)
    (hf : f a = true) (honly : ∀ b ∈ l, f b = true → b = a) : l.find? f = some a := by
  cases hfind : l.find? f with
  | none => exact absurd hf (List.find?_eq_none.1 hfind a ha)
  | some b => rw [honly b (List.mem_of_find?_eq_some hfind) (List.find?_some hfind)]

/-- The cons is told from the terminator by its length, whichever comes first. -/
theorem ofProductions?_of_pair (x : ListDeclaration) {pair : List Production}
    (h : ∀ p, p ∈ pair ↔ p = x.cons cfg ∨ p = x.ending cfg) :
    ofProductions? cfg x.sort pair = some (x.list cfg) := by
  have hparts := x.consParts?_cons cfg
  have hcons : pair.find? (fun p => (consParts? x.sort p).isSome) = some (x.cons cfg) := by
    refine find?_eq_some_of_unique ((h _).2 (.inl rfl)) (by rw [hparts]; rfl) fun p hp hshape => ?_
    rcases (h p).1 hp with rfl | rfl
    · rfl
    · cases hshape
  have hending : pair.find? isTerminator = some (x.ending cfg) := by
    refine find?_eq_some_of_unique ((h _).2 (.inr rfl)) rfl fun p hp hshape => ?_
    rcases (h p).1 hp with rfl | rfl
    · cases hshape
    · rfl
  simp only [ofProductions?, hcons, hparts, hending, x.text?_attributes_cons,
    x.erase_attributes_cons, Option.bind_eq_bind, Option.bind_some]
  rfl

theorem ofProductions?_eq_none_of_spoiled (h : Spoiled cfg l s) :
    ofProductions? cfg s (declared cfg l s) = none := by
  rw [← Option.not_isSome_iff_eq_none, Option.isSome_iff_exists, exists_ofProductions?_iff]
  intro hpair
  obtain ⟨⟨p, hp, hcons⟩, q, hq, hends⟩ := hpair
  obtain ⟨hfree, hpl, hps, hpt⟩ := mem_declared.1 hp
  obtain ⟨-, hql, hqs, hqt⟩ := mem_declared.1 hq
  rcases h with hres | hnone | hnone
  · rw [hfree] at hres
    cases hres
  · exact hnone p ⟨hpl, hpt, hps⟩ (consParts?_isSome_iff.1 hcons)
  · exact hnone q ⟨hql, hqt, hqs⟩ (isTerminator_iff.1 hends)

/-! ## All sorts -/

section Family

variable {family : List ListDeclaration} (hsorts : (family.map ListDeclaration.sort).Nodup)
  (hfree : ∀ x ∈ family, cfg.isReserved x.sort = false) (h : Holds cfg family l)
include hsorts hfree h

/-- No other declaration and no spoiled list is of the sort. -/
theorem mem_declared_iff {x : ListDeclaration} (hx : x ∈ family) {p : Production} :
    p ∈ declared cfg l x.sort ↔ p = x.cons cfg ∨ p = x.ending cfg := by
  rw [mem_declared]
  constructor
  · intro hdeclared
    obtain ⟨-, hp, hsort, htag⟩ := hdeclared
    rcases h.rest p hp htag with ⟨y, hy, hpy⟩ | ⟨hother, -⟩
    · have hyx : y.sort = x.sort := by
        rcases hpy with rfl | rfl
        · exact hsort
        · exact hsort
      rwa [← List.inj_on_of_nodup_map hsorts hy hx hyx]
    · exact absurd hsort.symm (hother x hx)
  · intro hp
    rcases hp with rfl | rfl
    · exact ⟨hfree x hx, h.cons x hx, rfl, x.hasAttribute_cons cfg⟩
    · exact ⟨hfree x hx, h.ending x hx, rfl, x.hasAttribute_ending cfg⟩

theorem ofProductions?_of_mem {x : ListDeclaration} (hx : x ∈ family) :
    ofProductions? cfg x.sort (declared cfg l x.sort) = some (x.list cfg) :=
  ofProductions?_of_pair x fun _ => mem_declared_iff hsorts hfree h hx

/-- Every sort with a list is the sort of a declaration. -/
theorem mem_ofSentences_iff {u : UserList} :
    u ∈ ofSentences cfg l ↔ ∃ x ∈ family, x.list cfg = u := by
  constructor
  · intro hu
    obtain ⟨s, hs, hlist⟩ := List.mem_filterMap.1 hu
    obtain ⟨p, hp, rfl⟩ := List.mem_map.1 (OrdSet.mem_ofList.1 hs)
    obtain ⟨hpl, htag, -⟩ := mem_tagged.1 hp
    rcases h.rest p hpl htag with ⟨x, hx, hpx⟩ | ⟨-, hspoiled⟩
    · have hsort : p.sort = x.sort := by
        rcases hpx with rfl | rfl
        · rfl
        · rfl
      rw [hsort, ofProductions?_of_mem hsorts hfree h hx] at hlist
      exact ⟨x, hx, Option.some.inj hlist⟩
    · rw [ofProductions?_eq_none_of_spoiled hspoiled] at hlist
      cases hlist
  · intro hu
    obtain ⟨x, hx, rfl⟩ := hu
    have htagged : x.cons cfg ∈ tagged cfg l :=
      mem_tagged.2 ⟨h.cons x hx, x.hasAttribute_cons cfg, hfree x hx⟩
    have hs : x.sort ∈ taggedSorts cfg l :=
      OrdSet.mem_ofList.2 (List.mem_map.2 ⟨_, htagged, rfl⟩)
    exact List.mem_filterMap.2 ⟨x.sort, hs, ofProductions?_of_mem hsorts hfree h hx⟩

end Family

/-- The sorts are gone through in order, and each has its own list. -/
theorem ofSentences_ascending (cfg : Settings) (l : List Sentence) :
    (ofSentences cfg l).Pairwise fun u w => compare u.sort w.sort = .lt := by
  refine List.pairwise_filterMap.2 ((taggedSorts cfg l).ascending.imp ?_)
  intro s t hst u hu w hw
  rwa [sort_of_ofProductions? hu, sort_of_ofProductions? hw]

/-- **Declared lists are recovered.** Let the sentences hold the productions of a family of list
declarations, whose sorts differ and are not reserved, in any order and among any sentences that are
not tagged. Then the lists recovered from the sentences are those of the family: each once, with all
that was declared of it, and in ascending order of the sorts. What is tagged of other sorts, where
the cons or the terminator is missing or the sort is reserved, adds no list and disturbs none. -/
theorem declared_lists_recovered {family : List ListDeclaration}
    (hsorts : (family.map ListDeclaration.sort).Nodup)
    (hfree : ∀ x ∈ family, cfg.isReserved x.sort = false) (h : Holds cfg family l) :
    (ofSentences cfg l).Perm (family.map fun x => x.list cfg) ∧
      (ofSentences cfg l).Pairwise fun u w => compare u.sort w.sort = .lt := by
  have hascending := ofSentences_ascending cfg l
  have hrecovered : (ofSentences cfg l).Nodup := nodup_of_ascending hascending
  have hdeclared : (family.map fun x => x.list cfg).Nodup := by
    refine List.Nodup.of_map UserList.sort ?_
    rw [List.map_map]
    exact hsorts
  refine ⟨(List.perm_ext_iff_of_nodup hrecovered hdeclared).2 fun u => ?_, hascending⟩
  rw [List.mem_map]
  exact mem_ofSentences_iff hsorts hfree h

/-- Blocks are lists of lists, and their terminator comes before everything else. Half a list and a
list of a reserved sort stand between them. -/
theorem declared_lists_recovered_blocks :
    let exps : ListDeclaration := {
      sort := ⟨"Exps"⟩, element := ⟨"Exp"⟩, separator := ⟨",", ∅⟩, listLabel := "_,_"
      terminatorLabel := ".Exps", nonEmpty := false, attributes := ∅, terminator := ⟨".Exps", ∅⟩ }
    let blocks : ListDeclaration := {
      sort := ⟨"Blocks"⟩, element := ⟨"Exps"⟩, separator := ⟨";", ∅⟩, listLabel := "_;_"
      terminatorLabel := "skip", nonEmpty := true
      attributes := Attributes.setFlag ∅ "strict", terminator := ⟨"skip", ∅⟩ }
    let half := { exps with sort := ⟨"Half"⟩ }
    let reserved := { exps with sort := ⟨"#Exps"⟩ }
    let sentences : List Sentence := [
      .production (blocks.ending {}), .production (half.cons {}), .production (exps.cons {}),
      .declaration ⟨"Exp"⟩, .production (reserved.cons {}), .production (reserved.ending {}),
      .production (.injection ⟨"Exps"⟩ ⟨"Exp"⟩), .production (exps.ending {}),
      .production (blocks.cons {})]
    (ofSentences {} sentences).Perm [exps.list {}, blocks.list {}] ∧
      (ofSentences {} sentences).Pairwise fun u w => compare u.sort w.sort = .lt := by
  intro exps blocks half reserved sentences
  have hholds : Holds {} [exps, blocks] sentences := by decide +kernel
  exact declared_lists_recovered (by decide) (by decide) hholds

end UserList

end GrammarSynthesis
