import GrantCatalog.Json.Literal

/-!
# The tokens of a JSON text

A text is read character by character by a machine with four **modes**: between tokens, inside
a word, inside a string literal, and just after a backslash in one. A word ends where a blank, a
punctuation mark or a quote begins; a literal ends at the first quote that no backslash
precedes. What the word or the literal names is looked up when it ends, so a malformed one
fails there.

The machine consumes one character per step: `GrantCatalog.Json.tokens?` is a recursion on the
text and takes time linear in it.
-/

namespace GrantCatalog.Json

/-- A punctuation mark of JSON. -/
inductive Mark where
  | openArray
  | closeArray
  | openObject
  | closeObject
  | comma
  | colon
  deriving DecidableEq, Repr

/-- A token: a punctuation mark, or a leaf of the tree. -/
inductive Token where
  | mark (m : Mark)
  | leaf (j : Json)
  deriving Repr

/-- The blanks between tokens: space, tab, line feed and carriage return, and no others. -/
def isGap (c : Char) : Bool := c == ' ' || c == '\t' || c == '\n' || c == '\r'

/-- The punctuation mark that a character is. -/
def Mark.ofChar? : Char → Option Mark
  | '[' => some .openArray
  | ']' => some .closeArray
  | '\x7b' => some .openObject
  | '\x7d' => some .closeObject
  | ',' => some .comma
  | ':' => some .colon
  | _ => none

/-- Where in a text the machine stands. The characters of the token begun so far are kept last
one first. -/
inductive Mode where
  /-- Between two tokens. -/
  | between
  /-- Inside a word. -/
  | word (seen : List Char)
  /-- Inside a string literal. -/
  | quoted (seen : List Char)
  /-- Inside a string literal, after a backslash, which is among the characters seen. -/
  | escaped (seen : List Char)
  deriving Repr

/-- The tokens completed by one character between tokens, and the mode after it. -/
def Mode.enter (c : Char) : List Token × Mode :=
  if isGap c then ([], .between)
  else if c = '"' then ([], .quoted [])
  else
    match Mark.ofChar? c with
    | some m => ([.mark m], .between)
    | none => ([], .word [c])

/-- A character at which a word ends. -/
def endsWord (c : Char) : Bool := isGap c || c == '"' || (Mark.ofChar? c).isSome

/-- The tokens completed by one character, and the mode after it; `none` if a token that ends
here names nothing. -/
def Mode.step? (mode : Mode) (c : Char) : Option (List Token × Mode) :=
  match mode with
  | .between => some (enter c)
  | .word seen =>
    if endsWord c then do
      let j ← ofWord? seen.reverse
      let (ts, mode) := enter c
      return (.leaf j :: ts, mode)
    else some ([], .word (c :: seen))
  | .quoted seen =>
    if c = '"' then do
      let j ← ofLiteral? seen.reverse
      return ([.leaf j], .between)
    else if c = '\\' then some ([], .escaped (c :: seen))
    else some ([], .quoted (c :: seen))
  | .escaped seen => some ([], .quoted (c :: seen))

/-- The tokens completed by the end of the text; `none` inside a literal. -/
def Mode.finish? : Mode → Option (List Token)
  | .between => some []
  | .word seen => do
    let j ← ofWord? seen.reverse
    return [.leaf j]
  | .quoted _ => none
  | .escaped _ => none

/-- The tokens of a text from a mode on, after those found before, which are kept last one
first. -/
def Mode.tokens? (mode : Mode) (found : List Token) : List Char → Option (List Token)
  | [] => do
    let ts ← mode.finish?
    return found.reverse ++ ts
  | c :: r =>
    match mode.step? c with
    | none => none
    | some (ts, mode) => mode.tokens? (ts.reverse ++ found) r

/-- **The tokens of a text**, or `none` if it has a malformed one. -/
def tokens? (s : List Char) : Option (List Token) := Mode.tokens? .between [] s

end GrantCatalog.Json
