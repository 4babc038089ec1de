import GrammarSynthesis.Journal
import GrammarSynthesis.Synthesis.Vocabulary

/-!
# Follow restrictions

Every terminal of a production gets what must not follow it, on top of what its follow set already
holds. Productions of internal sorts stay as they are. Modules of the base are copied only if one of
their terminals gains a restriction.
-/
namespace GrammarSynthesis.Vocabulary

def restrictTerminal (v : Vocabulary) (t : Terminal) : Terminal :=
  { t with follow := t.follow ∪ v.followSet t.text }

def restrictItem (v : Vocabulary) : Item → Item
  | .terminal t => .terminal (v.restrictTerminal t)
  | .nonTerminal s => .nonTerminal s

def restrict (v : Vocabulary) (cfg : Settings) (p : Production) : Production :=
  if cfg.isInternal p.sort then p
  else { p with
    items := p.items.map v.restrictItem
    items_ne_nil := by simp [p.items_ne_nil] }

def restrictSentence (v : Vocabulary) (cfg : Settings) : Sentence → Sentence
  | .production p => .production (v.restrict cfg p)
  | .declaration s => .declaration s

def restrictAll (v : Vocabulary) (cfg : Settings) (set : SentenceSet) : SentenceSet :=
  set.map (v.restrictSentence cfg)

/-- The module with its productions restricted, or nothing if that changes no sentence. -/
def restrictModule? (v : Vocabulary) (cfg : Settings) (m : Module) : Option Module :=
  let sentences := v.restrictAll cfg m.sentences
  if sentences = m.sentences then none else some { m with sentences }

/-! ## The journal -/

/-- An atom is a text of up to seven bytes that is stored in place, or a longer one. -/
def describeAtom (text : String) : String :=
  let storage := if text.utf8ByteSize ≤ 7 then "inline" else "dynamic"
  "Atom('" ++ text ++ "' type=" ++ storage ++ ")"

/-- Texts as a set of atoms. -/
def describeAtoms (texts : List String) : String :=
  "\x7b" ++ Text.joined ", " (texts.map describeAtom) ++ "\x7d"

/-- What `restrict` tells: one event for every terminal that must not be followed by something. -/
def restrictEvents (v : Vocabulary) (cfg : Settings) (p : Production) : List Event :=
  if cfg.isInternal p.sort then []
  else p.terminals.filterMap fun t =>
    let follow := v.followSet t.text
    if follow.isEmpty then none
    else some (.trace 4 ("terminal " ++ Text.quoted t.text ++ " may not be followed by " ++
      describeAtoms follow.toList))

/-- What `restrictAll` and `restrictModule?` tell. -/
def restrictAllEvents (v : Vocabulary) (cfg : Settings) (set : SentenceSet) : List Event :=
  (productionsOf set.toList).flatMap (v.restrictEvents cfg)

end GrammarSynthesis.Vocabulary
