/-!
# Blank characters

Names read from a configuration, a catalog or a command line may be padded. The
padding is **white space** in the sense of the Unicode property `White_Space`, which is wider
than the ASCII blanks: it holds the no-break space, the typographic spaces and the
ideographic space.

* `GrantCatalog.Text.isBlank` – the twenty-five characters of the property;
* `GrantCatalog.Text.trim` – a text without the blanks at its two ends;
* `GrantCatalog.Text.firstWord` – the first run of characters that are not blank.
-/

namespace GrantCatalog.Text

/-- A character with the property `White_Space`. -/
def isBlank (c : Char) : Bool :=
  let n := c.toNat
  (0x09 ≤ n && n ≤ 0x0D) || n == 0x20 || n == 0x85 || n == 0xA0 || n == 0x1680
    || (0x2000 ≤ n && n ≤ 0x200A) || n == 0x2028 || n == 0x2029 || n == 0x202F
    || n == 0x205F || n == 0x3000

/-- A text without its leading blanks. -/
def trimStart (s : List Char) : List Char := s.dropWhile isBlank

/-- A text without its trailing blanks. -/
def trimEnd (s : List Char) : List Char := (s.reverse.dropWhile isBlank).reverse

/-- A text without the blanks at its two ends; those inside stay. -/
def trim (s : List Char) : List Char := trimEnd (trimStart s)

/-- The first run of characters that are not blank, if the text is not all blank. -/
def firstWord (s : List Char) : Option (List Char) :=
  match (trimStart s).takeWhile (!isBlank ·) with
  | [] => none
  | w => some w

/-- `trim` on strings. -/
def trimmed (s : String) : String := .ofList (trim s.toList)

end GrantCatalog.Text
