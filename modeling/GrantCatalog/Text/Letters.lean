/-!
# Letter case

Keywords, column names and provider names are compared without regard to the case of the
**ASCII letters**. All other characters, letters with accents among them, stand only for
themselves, so folding never changes the length of a text, neither in characters nor in bytes.
-/

namespace GrantCatalog.Text

/-- A text with `a` to `z` replaced by `A` to `Z`, position by position. -/
def upper (s : List Char) : List Char := s.map Char.toUpper

/-- `upper` on strings. -/
def uppered (s : String) : String := .ofList (upper s.toList)

/-- Equality of texts up to the case of ASCII letters. -/
def sameLetters (a b : String) : Bool := upper a.toList == upper b.toList

end GrantCatalog.Text
