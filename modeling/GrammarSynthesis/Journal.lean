import GrammarSynthesis.Text.Quoted

/-!
# The journal

Every transform can tell what it did as a list of events. An event has a level, which says what kind
of message it is, and a threshold, which says how much detail it is: it is shown if its threshold is
at most that of the reader. Transforms use threshold 0 for errors, 1 for oddities in the input, 2
for the stages of a bundle, 3 for the summary of a transform and 4 for single productions.
-/
namespace GrammarSynthesis

inductive Level where
  | error
  | warn
  | info
  | debug
  | trace
  deriving DecidableEq, Repr

/-- The level in five columns, aligned to the right. -/
def Level.tag : Level → String
  | error => "ERROR"
  | warn => " WARN"
  | info => " INFO"
  | debug => "DEBUG"
  | trace => "TRACE"

/-- What a named field of an event holds. -/
inductive FieldValue where
  | int (value : Int)
  | bool (value : Bool)
  | text (value : String)
  deriving DecidableEq, Repr

def FieldValue.render : FieldValue → String
  | int value => toString value
  | bool value => if value then "true" else "false"
  | text value => Text.quoted value

structure Event where
  level : Level
  /-- An event without threshold is always shown. -/
  threshold : Option Int
  message : String
  critical : Bool := false
  fields : List (String × FieldValue) := []
  deriving DecidableEq, Repr

namespace Event

def error (threshold : Int) (message : String) : Event :=
  ⟨.error, some threshold, message, false, []⟩

def warning (threshold : Int) (message : String) : Event :=
  ⟨.warn, some threshold, message, false, []⟩

def info (threshold : Int) (message : String) : Event :=
  ⟨.info, some threshold, message, false, []⟩

def debug (threshold : Int) (message : String) : Event :=
  ⟨.debug, some threshold, message, false, []⟩

def trace (threshold : Int) (message : String) : Event :=
  ⟨.trace, some threshold, message, false, []⟩

/-- Thresholds are kept within 0 and 255. -/
def clamp (threshold : Int) : Nat := min threshold.toNat 255

/-- A reader with this threshold sees the event. -/
def visible (reader : Nat) (e : Event) : Bool := e.threshold.all fun t => clamp t ≤ reader

/-- The level, the mark of a critical event, the fields and the message. -/
def render (e : Event) : String :=
  e.level.tag ++ " " ++ (if e.critical then "[CRITICAL] " else "") ++
    String.join (e.fields.map fun (name, value) => name ++ "=" ++ value.render ++ " ") ++ e.message

end Event

/-- The lines that a reader with this threshold sees. A message may have several lines. -/
def journalLines (reader : Nat) (events : List Event) : List String :=
  (events.filter (Event.visible reader)).flatMap fun e => e.render.splitOn "\n"

/-- A reader with a higher threshold sees no less. -/
theorem Event.visible_mono {e : Event} {m n : Nat} (h : m ≤ n) (hv : e.visible m = true) :
    e.visible n = true := by
  unfold visible at *
  cases ht : e.threshold with
  | none => rfl
  | some t =>
    simp only [ht, Option.all_some, decide_eq_true_eq] at hv ⊢
    exact Nat.le_trans hv h

end GrammarSynthesis
