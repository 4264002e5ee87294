import GrantCatalog.Text.Ligature

/-!
# The width of a text

How many columns of a terminal a line of text takes. This is the sum of the widths of its
characters, except that some **sequences** are drawn as one sign:

* emoji sequences (`GrantCatalog.Text.EmojiHead`) and ligatures
  (`GrantCatalog.Text.LigatureHead`);
* a character with a **variation selector** after it: an emoji has two columns before the selector
  for emoji and one before the selector for text, and a curly quotation mark has two before the
  selector for full width. Of several selectors in a row the foremost counts. In front of a ligature
  those for text and for full width count wherever they stand.

The text is measured from its end (`GrantCatalog.Text.Measured.put`), because what comes after a
character decides what it is drawn with.
-/

namespace GrantCatalog.Text

/-- A character that chooses the form of the character in front of it. -/
inductive Selector where
  /-- The form for emoji. -/
  | emoji
  /-- The form for text. -/
  | text
  /-- The form of full width. -/
  | full
  deriving DecidableEq, Repr

/-- The selector that a character is. -/
def Selector.of? (c : Char) : Option Selector :=
  if c = '\ufe0f' then some .emoji
  else if c = '\ufe0e' then some .text
  else if c = '\ufe01' then some .full
  else none

/-- The curly quotation marks. -/
def isCurlyQuote (c : Char) : Bool :=
  c == '\u2018' || c == '\u2019' || c == '\u201c' || c == '\u201d'

/-- What a text begins with, as far as a character in front of it may be drawn together with it. -/
inductive Head where
  /-- Nothing of that kind. -/
  | plain
  /-- The end part of an emoji sequence. -/
  | emoji (h : EmojiHead)
  /-- The end part of a ligature. -/
  | ligature (h : LigatureHead)
  /-- A vowel sign. -/
  | vowel (h : VowelHead)
  deriving DecidableEq, Repr

namespace Head

/-- What a character by itself is. -/
def of (c : Char) : Head :=
  match EmojiHead.of? c, LigatureHead.of? c, VowelHead.of? c with
  | some h, _, _ => emoji h
  | none, some h, _ => ligature h
  | none, none, some h => vowel h
  | none, none, none => plain

/-- What is left once selectors stand in front and have found nothing to select: a ligature goes
on. -/
def unselected : Head → Head
  | ligature h => ligature h
  | _ => plain

/-- What is left behind a selector: a ligature goes on, and so does an emoji sequence whose next
emoji the selector may choose. -/
def behind (s : Selector) : Head → Head
  | emoji h => if s = .emoji && h.takesBase then emoji h else plain
  | h => h.unselected

/-- An emoji in front that its selector marks as such belongs to the same sequence. -/
def takesBase : Head → Bool
  | emoji h => h.takesBase
  | _ => false

/-- The columns of a text after one more character is put in front of it, and what it begins with
then; `none` if the character is not drawn together with the text. -/
def put? (c : Char) (columns : Nat) : Head → Option (Nat × Head)
  | plain => none
  | emoji h => (h.put? c columns).map fun (n, h) => (n, emoji h)
  | ligature h => (h.put? c columns).map fun (n, h) => (n, (h.map ligature).getD plain)
  | vowel h => (h.put? c columns).map fun (n, h) => (n, (h.map vowel).getD plain)

end Head

/-- A text as it has been measured so far. -/
structure Measured where
  /-- The columns it takes. -/
  columns : Nat
  /-- The selectors it begins with that may still choose a form, the foremost first. In front of a
  ligature, which they do not part, there may be several. -/
  selectors : List Selector
  /-- What it begins with behind the selectors. -/
  head : Head
  deriving DecidableEq, Repr

namespace Measured

/-- The text without characters. -/
def empty : Measured := ⟨0, [], .plain⟩

/-- The text with a selector in front of it. A ligature keeps the selectors it has. Elsewhere a
second selector takes the place of the first, and no sequence goes on across the two. -/
def putSelector (s : Selector) (m : Measured) : Measured :=
  match m.head, m.selectors with
  | .ligature h, others => ⟨m.columns, s :: others, .ligature h⟩
  | h, [] => ⟨m.columns, [s], h.behind s⟩
  | _, _ :: _ => ⟨m.columns, [s], .plain⟩

/-- The text with a character in front of it that no selector chooses the form of. -/
def putUnselected (c : Char) (m : Measured) : Measured :=
  let head := if m.selectors.isEmpty then m.head else m.head.unselected
  match head.put? c m.columns with
  | some (n, h) => ⟨n, [], h⟩
  | none => ⟨m.columns + width c, [], .of c⟩

/-- **The text with one more character in front of it.** The selector for emoji has to come right
after the emoji; between the others and their character further selectors may stand. -/
def put (c : Char) (m : Measured) : Measured :=
  if m.selectors.head? = some .emoji ∧ hasForms c then
    ⟨m.columns + (if m.head.takesBase then 0 else 2), [], .emoji .sign⟩
  else if .text ∈ m.selectors ∧ isNarrowAsText c then ⟨m.columns + 1, [], .plain⟩
  else if .full ∈ m.selectors ∧ isCurlyQuote c then ⟨m.columns + 2, [], .plain⟩
  else
    match Selector.of? c with
    | some s => m.putSelector s
    | none => m.putUnselected c

end Measured

/-- **The columns that a line of text takes.** -/
def columns (s : List Char) : Nat := (s.foldr Measured.put .empty).columns

end GrantCatalog.Text
