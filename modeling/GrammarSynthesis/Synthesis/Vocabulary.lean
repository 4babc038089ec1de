import GrammarSynthesis.IndexSet
import GrammarSynthesis.Settings.Basic
import GrammarSynthesis.Text.Blank
import GrammarSynthesis.Text.Rest

/-!
# The vocabulary of a grammar

The vocabulary lists the terminals of a grammar that are not blank, in order and each once. In this
order all terminals that begin with a given text stand next to each other, so they are found by a
binary search for the first of them. What is left of a longer terminal after the text is a text that
must not follow it: a scanner that obeys takes the longest terminal that fits.

Results:
* `Vocabulary.not_blank_of_mem` — no terminal of a vocabulary is blank;
* `firstIndex_le` — a binary search stays within its bounds.
-/
namespace GrammarSynthesis

/-- The least index from `lo` on, but before `hi`, at which `p` fails; `hi` if there is none. The
indices at which `p` holds must come before the others. -/
def firstIndex (p : Nat → Bool) (lo hi : Nat) : Nat :=
  if lo < hi then
    let mid := (lo + hi) / 2
    if p mid then firstIndex p (mid + 1) hi else firstIndex p lo mid
  else lo
termination_by hi - lo

theorem firstIndex_le (p : Nat → Bool) {lo hi : Nat} (h : lo ≤ hi) : firstIndex p lo hi ≤ hi := by
  fun_induction firstIndex p lo hi with
  | case1 lo hi hlt mid hp ih => exact ih (by omega)
  | case2 lo hi hlt mid hp ih => have := ih (by omega); omega
  | case3 lo hi hlt => exact h

/-- Terminals in ascending order, none of them blank. -/
structure Vocabulary where
  terminals : Array String
  ascending : terminals.toList.Pairwise fun a b => compare a b = .lt
  notBlank : ∀ t ∈ terminals.toList, Text.isBlank t = false

namespace Vocabulary

/-- The texts that are not blank, in order and each once. -/
def ofTexts (l : List String) : Vocabulary :=
  let set : OrdSet String := Catalog.ofList (l.filter fun t => !Text.isBlank t)
  { terminals := set.toList.toArray
    ascending := by simpa using set.ascending
    notBlank := by
      intro t ht
      have : t ∈ set := by simpa using ht
      simp only [set, OrdSet.mem_ofList, List.mem_filter] at this
      simpa using this.2 }

/-- The terminals of productions; those of internal sorts are left out. -/
def ofProductions (cfg : Settings) (l : List Production) : Vocabulary :=
  ofTexts <| (l.filter fun p => !cfg.isInternal p.sort).flatMap fun p =>
    p.terminals.map Terminal.text

def size (v : Vocabulary) : Nat := v.terminals.size

/-- The indices of the terminals that begin with a text and are longer. -/
def extensions (v : Vocabulary) (text : String) : IndexSet :=
  let start := firstIndex (fun i => v.terminals[i]?.any fun t => compare t text == .lt) 0 v.size
  let run := (v.terminals.toList.drop start).takeWhile fun t => (Text.restAfter? t text).isSome
  IndexSet.ofList (((run.zipIdx start).filter fun (t, _) => t != text).map Prod.snd)

/-- What must not follow a terminal: the rests of the longer terminals that begin with it. -/
def followSet (v : Vocabulary) (text : String) : OrdSet String :=
  if Text.isBlank text then ∅
  else Catalog.ofList <|
    (v.extensions text).members.filterMap fun i => v.terminals[i]? >>= (Text.restAfter? · text)

theorem not_blank_of_mem {v : Vocabulary} {t : String} (h : t ∈ v.terminals.toList) :
    Text.isBlank t = false := v.notBlank t h

end Vocabulary

end GrammarSynthesis
