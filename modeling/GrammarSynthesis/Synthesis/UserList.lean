import GrammarSynthesis.Journal
import GrammarSynthesis.Settings.Basic

/-!
# User lists

A list of the user comes as a pair of productions with a tag, the *cons* and the *terminator*:

`Exps ::= Exp "," Exps` and `Exps ::= ".Exps"`.

A program is parsed with the list written out as recursive productions over two scaffolding sorts:

* `Exps#Terminator ::= ""`
* `Ne#Exps ::= Exp "," Ne#Exps`
* `Ne#Exps ::= Exp Exps#Terminator`
* `Exps ::= Ne#Exps`
* `Exps ::= Exps#Terminator`, if the list may be empty.

For disambiguation it is enough that an element is a list, `Exps ::= Exp`. A module that holds the
recursive productions must not hold the pair, or every list would be parsed in two ways.
-/
namespace GrammarSynthesis

/-- A list recovered from its two productions. -/
structure UserList where
  sort : SortName
  element : SortName
  separator : String
  listLabel : String
  terminatorLabel : String
  nonEmpty : Bool
  /-- The attributes of the cons, without the tag. -/
  attributes : Attributes
  /-- The text of the cons. -/
  cons : String
  /-- The text of the terminator. -/
  terminator : String
  deriving DecidableEq, Repr

namespace UserList

/-! ## Recovering lists -/

/-- The element sort and the separator, if the production is a cons of the list sort. -/
def consParts? (sort : SortName) (p : Production) : Option (SortName × String) :=
  match p.items with
  | [.nonTerminal element, .terminal separator, .nonTerminal tail] =>
    if tail = sort then some (element, separator.text) else none
  | _ => none

/-- A production of one item may end a list. -/
def isTerminator (p : Production) : Bool := p.items.length == 1

/-- The tagged productions of sorts that are not reserved. -/
def tagged (cfg : Settings) (l : List Sentence) : List Production :=
  (productionsOf l).filter fun p => p.hasAttribute cfg.keys.userList && !cfg.isReserved p.sort

/-- The sorts with tagged productions in order. -/
def taggedSorts (cfg : Settings) (l : List Sentence) : OrdSet SortName :=
  Catalog.ofList ((tagged cfg l).map Production.sort)

/-- The tagged productions of one sort. -/
def declared (cfg : Settings) (l : List Sentence) (sort : SortName) : List Production :=
  (tagged cfg l).filter fun p => p.sort == sort

/-- The list of a sort: of its productions the first cons and the first terminator count. -/
def ofProductions? (cfg : Settings) (sort : SortName) (l : List Production) : Option UserList := do
  let cons ← l.find? fun p => (consParts? sort p).isSome
  let (element, separator) ← consParts? sort cons
  let terminator ← l.find? isTerminator
  return {
    sort, element, separator
    listLabel := cons.label.getD ("_" ++ separator ++ "_")
    terminatorLabel := terminator.label.getD ("." ++ sort.name)
    nonEmpty := cons.attributes.text? cfg.keys.userList == some "+"
    attributes := cons.attributes.erase cfg.keys.userList
    cons := cons.render
    terminator := terminator.render }

/-- The lists that sentences declare, in the order of their sorts. A sort that lacks one of the two
productions is no list. -/
def ofSentences (cfg : Settings) (l : List Sentence) : List UserList :=
  (taggedSorts cfg l).toList.filterMap fun s => ofProductions? cfg s (declared cfg l s)

/-! ## The forms of a list -/

/-- An element is a list. -/
def disambiguationForm (u : UserList) : List Sentence := [.production (.injection u.sort u.element)]

/-- The attributes of a generated production: its origin is kept as a label and a text. -/
def withOrigin (cfg : Settings) (u : UserList) (label text : String) : Attributes :=
  let labelled := Attributes.setText u.attributes cfg.keys.label label
  Attributes.setText labelled cfg.keys.writtenForm text

/-- The recursive productions, after declarations of the scaffolding sorts. -/
def parseForm (cfg : Settings) (u : UserList) : List Sentence :=
  let nonEmpty := cfg.nonEmptySort u.sort
  let terminator := cfg.terminatorSort u.sort
  let consAttributes := u.withOrigin cfg u.listLabel u.cons
  [.declaration terminator,
   .declaration nonEmpty,
   .production <| .ofRow terminator (.ofText "") []
     (some u.terminatorLabel) (u.withOrigin cfg u.terminatorLabel u.terminator),
   .production <| .ofRow nonEmpty (.nonTerminal u.element)
     [.ofText u.separator, .nonTerminal nonEmpty] (some u.listLabel) consAttributes,
   .production <| .ofRow nonEmpty (.nonTerminal u.element) [.nonTerminal terminator]
     (some u.listLabel) consAttributes,
   .production (.injection u.sort nonEmpty)] ++
  if u.nonEmpty then [] else [.production (.injection u.sort terminator)]

/-- The sentence is a production with the tag of lists. -/
def isSugar (cfg : Settings) (s : Sentence) : Bool :=
  s.production?.any fun p => p.hasAttribute cfg.keys.userList

/-- Leave out all productions with the tag. -/
def withoutSugar (cfg : Settings) (set : SentenceSet) : SentenceSet :=
  set.filter fun s => !isSugar cfg s

theorem mem_withoutSugar {cfg : Settings} {set : SentenceSet} {s : Sentence} :
    s ∈ withoutSugar cfg set ↔ s ∈ set ∧ isSugar cfg s = false := by
  simp [withoutSugar]

/-- Add the disambiguation forms. -/
def addDisambiguationForms (lists : List UserList) (set : SentenceSet) : SentenceSet :=
  set.insertAll (lists.flatMap disambiguationForm)

/-- Put the parse forms in the place of the tagged productions. -/
def replaceByParseForms (cfg : Settings) (lists : List UserList) (set : SentenceSet) :
    SentenceSet :=
  withoutSugar cfg (set.insertAll (lists.flatMap (parseForm cfg)))

/-! ## The journal -/

/-- What `ofSentences` tells: one warning for every sort that lacks a cons or a terminator. -/
def skipEvents (cfg : Settings) (l : List Sentence) : List Event :=
  (taggedSorts cfg l).toList.filterMap fun s =>
    let found := declared cfg l s
    if (ofProductions? cfg s found).isSome then none
    else some (.warning 1 ("skipping user list " ++ s.name ++
      ": expected a cons and a terminator production, found " ++ toString found.length))

/-- What `addDisambiguationForms` tells. -/
def disambiguationEvents (lists : List UserList) : List Event :=
  lists.map fun u => .debug 3 ("user list " ++ u.sort.name ++ " of " ++ u.element.name ++
    ": adding " ++ u.sort.name ++ " ::= " ++ u.element.name)

/-- What `replaceByParseForms` tells. -/
def parseEvents (lists : List UserList) : List Event :=
  lists.map fun u => .debug 3 ("user list " ++ u.sort.name ++ " of " ++ u.element.name ++
    " separated by " ++ Text.quoted u.separator ++ ": desugared to recursive form")

end UserList

end GrammarSynthesis
