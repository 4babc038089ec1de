import Mathlib.Data.List.Basic
import GrammarSynthesis.Grammar.Production

/-!
# Legible texts

Written productions are kept in attributes and shown in errors, and their terminals may hold any
character, those with which a row of terminals is written as well. A row is written on three levels:
escaped characters in a quoted text, quoted texts in a follow set, terminals in a row. On each level
the text is read from left to right, and one character ahead is enough to see where a part ends. A
terminal is the one part that does not show its end by itself: a follow set may come after it, so
whatever else comes next must not begin like one.

Which characters are written by their code plays no part in this.

* `Text.LegibleBefore`: what is written, and where it ends, can be told from the text;
* `Text.LegibleBefore.flatMap`, `Text.LegibleBefore.joined`: rows of legible parts are legible;
* `Text.legible_quoted`: a quoted text is legible whatever comes next;
* `Terminal.legible_render`: a terminal is legible before anything but an opening bracket;
* `Item.terminals_uniquely_readable`: two rows of terminals with one text are one row.
-/
namespace GrammarSynthesis

namespace Text

/-! ## Codes and rows of them -/

section Codes

variable {α : Type} {next stop : Option Char → Prop} {code : α → List Char}

/-- In every text that begins with a code and has such a character next (`none` at the end of the
text), one value can have been written, and its code ends in one place. -/
def LegibleBefore (next : Option Char → Prop) (code : α → List Char) : Prop :=
  ∀ ⦃a b : α⦄ ⦃r s : List Char⦄, next r.head? → next s.head? → code a ++ r = code b ++ s →
    a = b ∧ r = s

theorem LegibleBefore.injective (h : LegibleBefore next code) (hnext : next none) :
    Function.Injective code := fun a b heq =>
  (@h a b [] [] hnext hnext (congrArg (· ++ []) heq)).1

theorem LegibleBefore.prepend (h : LegibleBefore next code) (start : List Char) :
    LegibleBefore next fun a => start ++ code a := by
  intro a b r s hr hs heq
  rw [List.append_assoc, List.append_assoc] at heq
  exact h hr hs (List.append_cancel_left heq)

theorem head?_flatMap_append {l : List α} {r : List Char}
    (hcode : ∀ a r, next (code a ++ r).head?) (hr : next r.head?) :
    next (l.flatMap code ++ r).head? := by
  cases l with
  | nil => exact hr
  | cons a l =>
    rw [List.flatMap_cons, List.append_assoc]
    exact hcode a _

/-- Codes one after the other: a code may come next to a code, and what stops the row does not begin
like one. -/
theorem LegibleBefore.flatMap (h : LegibleBefore next code)
    (hcode : ∀ a r, next (code a ++ r).head?) (hstop : ∀ o, stop o → next o)
    (hmore : ∀ a r, ¬ stop (code a ++ r).head?) :
    LegibleBefore stop (List.flatMap code) := by
  have hended : ∀ {b m r s}, stop r.head? → r ≠ List.flatMap code (b :: m) ++ s := by
    rintro b m r s hr rfl
    rw [List.flatMap_cons, List.append_assoc] at hr
    exact hmore b _ hr
  intro l m r s hr hs heq
  induction l generalizing m with
  | nil =>
    cases m with
    | nil => exact ⟨rfl, heq⟩
    | cons b m => exact absurd heq (hended hr)
  | cons a l ih =>
    cases m with
    | nil => exact absurd heq.symm (hended hs)
    | cons b m =>
      rw [List.flatMap_cons, List.flatMap_cons, List.append_assoc, List.append_assoc] at heq
      obtain ⟨rfl, hrest⟩ := h (head?_flatMap_append hcode (hstop _ hr))
        (head?_flatMap_append hcode (hstop _ hs)) heq
      obtain ⟨rfl, rfl⟩ := ih hrest
      exact ⟨rfl, rfl⟩

/-- Texts with a separator between them: the separator may come next to a text, and what stops the
row begins neither like the separator nor like a text. -/
theorem LegibleBefore.joined {text : α → String} {sep : String}
    (h : LegibleBefore next fun a => (text a).toList)
    (hsep : ∀ r, next (sep.toList ++ r).head?) (hstop : ∀ o, stop o → next o)
    (hmore : ∀ r, ¬ stop (sep.toList ++ r).head?)
    (hsome : ∀ a r, ¬ stop ((text a).toList ++ r).head?) :
    LegibleBefore stop fun l : List α => (Text.joined sep (l.map text)).toList := by
  have hwords : LegibleBefore stop (List.flatMap fun a => sep.toList ++ (text a).toList) :=
    (h.prepend sep.toList).flatMap
      (fun a r => by rw [List.append_assoc]; exact hsep _) hstop
      (fun a r => by rw [List.append_assoc]; exact hmore _)
  -- With one more separator in front, all texts of a row are written alike.
  have hrow : ∀ a l, sep.toList ++ (Text.joined sep (List.map text (a :: l))).toList =
      (a :: l).flatMap fun a => sep.toList ++ (text a).toList := by
    intro a l
    rw [List.map_cons, toList_joined_cons, List.flatMap_map, List.flatMap_cons, List.append_assoc]
  have hended : ∀ {b m r s}, stop r.head? →
      r ≠ (Text.joined sep (List.map text (b :: m))).toList ++ s := by
    rintro b m r s hr rfl
    rw [List.map_cons, toList_joined_cons, List.append_assoc] at hr
    exact hsome b _ hr
  intro l m r s hr hs heq
  cases l with
  | nil =>
    cases m with
    | nil => exact ⟨rfl, heq⟩
    | cons b m => exact absurd heq (hended hr)
  | cons a l =>
    cases m with
    | nil => exact absurd heq.symm (hended hs)
    | cons b m =>
      refine hwords hr hs ?_
      rw [← hrow, ← hrow, List.append_assoc, List.append_assoc]
      exact congrArg (sep.toList ++ ·) heq

end Codes

/-! ## Codes of characters -/

/-- The first `x` is where both lists before it end. -/
theorem append_cons_cancel {x : Char} {l m r s : List Char} (hl : x ∉ l) (hm : x ∉ m)
    (h : l ++ x :: r = m ++ x :: s) : l = m ∧ r = s := by
  have hlen : l.length = m.length := by
    simpa [List.idxOf_append_of_notMem, hl, hm] using congrArg (List.idxOf x) h
  obtain ⟨rfl, hrest⟩ := List.append_inj h hlen
  exact ⟨rfl, (List.cons.inj hrest).2⟩

theorem toDigits_hex_injective : Function.Injective (Nat.toDigits 16) := by
  have hdigit : ∀ a < 16, ∀ b < 16, Nat.digitChar a = Nat.digitChar b → a = b := by decide
  intro m n h
  induction m using Nat.strongRecOn generalizing n with
  | ind m ih =>
    rw [Nat.toDigits_eq_if (by decide), Nat.toDigits_eq_if (n := n) (by decide)] at h
    split at h <;> split at h
    · rename_i hm hn
      exact hdigit m hm n hn (List.singleton_inj.1 h)
    · exact absurd (congrArg List.length h) (by simp)
    · exact absurd (congrArg List.length h) (by simp)
    · obtain ⟨hinit, hlast⟩ := List.append_inj' h rfl
      have hdiv := ih (m / 16) (by omega) hinit
      have hmod := hdigit (m % 16) (Nat.mod_lt _ (by decide)) (n % 16) (Nat.mod_lt _ (by decide))
        (List.singleton_inj.1 hlast)
      omega

theorem brace_notMem_toDigits (n : Nat) : '}' ∉ Nat.toDigits 16 n := by
  have hdigit : ∀ a < 16, '}' ≠ Nat.digitChar a := by decide
  induction n using Nat.strongRecOn with
  | ind n ih =>
    rw [Nat.toDigits_eq_if (by decide)]
    split
    · rename_i hn
      exact List.mem_singleton.not.2 (hdigit n hn)
    · rw [List.mem_append, List.mem_singleton, not_or]
      exact ⟨ih _ (by omega), hdigit _ (Nat.mod_lt _ (by decide))⟩

theorem legible_hex : LegibleBefore (· = some '}') (Nat.toDigits 16) := by
  intro m n r s hr hs heq
  obtain ⟨r, rfl⟩ := List.head?_eq_some_iff.1 hr
  obtain ⟨s, rfl⟩ := List.head?_eq_some_iff.1 hs
  obtain ⟨hdigits, rfl⟩ :=
    append_cons_cancel (brace_notMem_toDigits m) (brace_notMem_toDigits n) heq
  exact ⟨toDigits_hex_injective hdigits, rfl⟩

/-! ## Escapes -/

/-- The characters with a short escape, each with what stands for it after the backslash. -/
def shortEscapes : List (Char × Char) :=
  [('"', '"'), ('\\', '\\'), ('\x00', '0'), ('\t', 't'), ('\n', 'n'), ('\r', 'r')]

/-- The three ways in which a character is written inside quotes. -/
inductive EscapeForm (c : Char) : List Char → Prop
  | short {x : Char} (h : (c, x) ∈ shortEscapes) : EscapeForm c ['\\', x]
  | code : EscapeForm c ('\\' :: 'u' :: '{' :: Nat.toDigits 16 c.toNat ++ ['}'])
  | itself (h : c ≠ '\\') : EscapeForm c [c]

theorem escapeForm_escaped (c : Char) : EscapeForm c (escaped c) := by
  unfold escaped
  repeat' split
  all_goals first
    | exact .short (by subst_vars; decide)
    | exact .code
    | exact .itself ‹_›

/-- An escape is told from a character that stands for itself by the backslash, and from other
escapes by what comes after it: `u` is no short escape. -/
theorem legible_escaped (next : Option Char → Prop) : LegibleBefore next escaped := by
  have hshort : ∀ p ∈ shortEscapes, ∀ q ∈ shortEscapes, p.2 = q.2 → p.1 = q.1 := by decide
  have hcode : ∀ p ∈ shortEscapes, p.2 ≠ 'u' := by decide
  intro c d r s _ _ heq
  have hc := escapeForm_escaped c
  have hd := escapeForm_escaped d
  generalize escaped c = v at hc heq
  generalize escaped d = w at hd heq
  cases hc with
  | short hx =>
    cases hd with
    | short hy =>
      simp only [List.cons_append, List.nil_append, List.cons.injEq, true_and] at heq
      exact ⟨hshort _ hx _ hy heq.1, heq.2⟩
    | code => exact absurd (List.cons.inj (List.cons.inj heq).2).1 (hcode _ hx)
    | itself hd => exact absurd (List.cons.inj heq).1.symm hd
  | code =>
    cases hd with
    | short hy => exact absurd (List.cons.inj (List.cons.inj heq).2).1.symm (hcode _ hy)
    | code =>
      simp only [List.cons_append, List.append_assoc, List.nil_append, List.cons.injEq, true_and]
        at heq
      obtain ⟨hcode, hrest⟩ := legible_hex rfl rfl heq
      exact ⟨Char.toNat_inj.1 hcode, (List.cons.inj hrest).2⟩
    | itself hd => exact absurd (List.cons.inj heq).1.symm hd
  | itself hc =>
    cases hd with
    | short | code => exact absurd (List.cons.inj heq).1 hc
    | itself => exact List.cons.inj heq

theorem legible_quoted (next : Option Char → Prop) :
    LegibleBefore next fun s => (quoted s).toList := by
  have hinside : LegibleBefore (· = some '"') (List.flatMap escaped) :=
    (legible_escaped fun _ => True).flatMap (fun _ _ => trivial) (fun _ _ => trivial)
      head?_escaped_append_ne
  intro a b r s _ _ heq
  simp only [toList_quoted, List.cons_append, List.append_assoc, List.cons.injEq, true_and] at heq
  obtain ⟨htext, hrest⟩ := hinside rfl rfl heq
  exact ⟨String.toList_injective htext, (List.cons.inj hrest).2⟩

end Text

/-! ## Terminals -/

namespace Terminal

/-- What is written after a quoted text for the texts that must not follow it. -/
def followMark (texts : List String) : List Char :=
  if texts.isEmpty then []
  else "(?!".toList ++ (Text.joined "|" (texts.map Text.quoted)).toList ++ [')']

theorem toList_render (t : Terminal) :
    t.render.toList = (Text.quoted t.text).toList ++ followMark t.follow.toList := by
  rw [render, String.toList_append, followMark, Catalog.isEmpty]
  split <;> simp

theorem legible_followMark : Text.LegibleBefore (· ≠ some '(') followMark := by
  have hinside : Text.LegibleBefore (· = some ')') fun texts : List String =>
      (Text.joined "|" (texts.map Text.quoted)).toList := by
    refine (Text.legible_quoted fun _ => True).joined ?sep ?stop ?more ?some
    case sep | stop => simp
    case more => simp
    case some => simp [Text.toList_quoted]
  intro l m r s hr hs heq
  unfold followMark at heq
  split at heq <;> split at heq
  · rename_i hl hm
    exact ⟨(List.isEmpty_iff.1 hl).trans (List.isEmpty_iff.1 hm).symm, heq⟩
  · exact absurd (congrArg List.head? heq) hr
  · exact absurd (congrArg List.head? heq).symm hs
  · simp only [List.append_assoc] at heq
    obtain ⟨htexts, hrest⟩ := hinside rfl rfl (List.append_cancel_left heq)
    exact ⟨htexts, (List.cons.inj hrest).2⟩

theorem legible_render :
    Text.LegibleBefore (· ≠ some '(') fun t : Terminal => t.render.toList := by
  intro t u r s hr hs heq
  simp only [toList_render, List.append_assoc] at heq
  obtain ⟨htext, hmark⟩ := Text.legible_quoted (fun _ => True) trivial trivial heq
  obtain ⟨hfollow, hrest⟩ := legible_followMark hr hs hmark
  exact ⟨Terminal.ext htext (Catalog.toList_inj.1 hfollow), hrest⟩

/-- Terminals have a space between them, which is no opening bracket, and nothing comes after the
last of them. -/
theorem legible_row : Text.LegibleBefore (· = none) fun ts : List Terminal =>
    (Text.joined " " (ts.map render)).toList := by
  refine legible_render.joined ?sep ?stop ?more ?some
  case sep => simp
  case stop => simp
  case more => simp
  case some => simp [toList_render, Text.toList_quoted]

end Terminal

/-- Rows of terminals are uniquely readable: equal texts come from rows of the same length with the
same texts and follow sets in order, whatever characters are in them. -/
theorem Item.terminals_uniquely_readable (ts us : List Terminal) :
    Text.joined " " ((ts.map terminal).map render) =
      Text.joined " " ((us.map terminal).map render) ↔ ts = us := by
  rw [List.map_map, List.map_map]
  constructor
  · intro h
    exact Terminal.legible_row.injective rfl (congrArg String.toList h)
  · rintro rfl
    rfl

/-- One terminal whose text reads like a follow set and the beginning of another terminal. -/
example : (Item.terminal { text := "a\"(?!\"b\") \"c" }).render =
    "\"a\\\"(?!\\\"b\\\") \\\"c\"" := by
  decide

end GrammarSynthesis
