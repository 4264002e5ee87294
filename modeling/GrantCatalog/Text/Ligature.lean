import GrantCatalog.Text.Emoji

/-!
# Letters drawn together

In some scripts a few letters are drawn as **one sign** when they stand next to each other, and
then take the columns of that sign. As a text is measured from its end, a ligature is recognised
by its last letter: `GrantCatalog.Text.LigatureHead` is the end part of one, and
`GrantCatalog.Text.LigatureHead.put?` puts one more character in front of it.

| script | letters | columns |
|---|---|---|
| Arabic | lam, alef | 1 |
| Hebrew | alef, joiner, lamed | 1 |
| Khmer | sign coeng, letter | 0 |
| Buginese | a, vowel i, joiner, ya | 1 |
| Tifinagh | consonant, consonant joiner or joiner, consonant | 1 |
| Lisu | tone, tone | 1 |
| Old Turkic | orkhon ash, joiner, orkhon i | 1 |

Certain marks do not part the letters of a ligature. The vowel signs of Kirat Rai are different:
there the same sign may be spelt with one character or with several
(`GrantCatalog.Text.VowelHead`).
-/

namespace GrantCatalog.Text

/-! ### Properties of characters -/

/-- Characters without a width that part the Arabic letters around them. -/
def breakers : List Range :=
  [(0x0605, 0x0605), (0x0890, 0x0891), (0x08E2, 0x08E2), (0x09BE, 0x09BE), (0x09D7, 0x09D7),
   (0x0B3E, 0x0B3E), (0x0B57, 0x0B57), (0x0BBE, 0x0BBE), (0x0BD7, 0x0BD7), (0x0CC0, 0x0CC0),
   (0x0CC2, 0x0CC2), (0x0CC7, 0x0CC8), (0x0CCA, 0x0CCB), (0x0CD5, 0x0CD6), (0x0D3E, 0x0D3E),
   (0x0D4E, 0x0D4E), (0x0D57, 0x0D57), (0x0DCF, 0x0DCF), (0x0DDF, 0x0DDF), (0x1160, 0x11FF),
   (0x1715, 0x1715), (0x1734, 0x1734), (0x180E, 0x180E), (0x1B35, 0x1B35), (0x1B3B, 0x1B3B),
   (0x1B3D, 0x1B3D), (0x1B43, 0x1B44), (0x1BAA, 0x1BAA), (0x1BF2, 0x1BF3), (0x200C, 0x200D),
   (0x2065, 0x2069), (0x302E, 0x302F), (0x3164, 0x3164), (0xA8FA, 0xA8FA), (0xA953, 0xA953),
   (0xA9C0, 0xA9C0), (0xD7B0, 0xD7C6), (0xD7CB, 0xD7FB), (0xFFA0, 0xFFA0), (0xFFF0, 0xFFF8),
   (0x111C0, 0x111C0), (0x111C2, 0x111C3), (0x11235, 0x11235), (0x1133E, 0x1133E),
   (0x1134D, 0x1134D), (0x11357, 0x11357), (0x113B8, 0x113B8), (0x113C2, 0x113C2),
   (0x113C5, 0x113C5), (0x113C7, 0x113C9), (0x113CF, 0x113CF), (0x113D1, 0x113D1),
   (0x114B0, 0x114B0), (0x114BD, 0x114BD), (0x115AF, 0x115AF), (0x116B6, 0x116B6),
   (0x11930, 0x11930), (0x1193D, 0x1193D), (0x1193F, 0x1193F), (0x11941, 0x11941),
   (0x11A84, 0x11A89), (0x11D46, 0x11D46), (0x11F02, 0x11F02), (0x11F41, 0x11F41),
   (0x16FF0, 0x16FF1), (0x1D165, 0x1D166), (0x1D16D, 0x1D172), (0x1D250, 0x1D252),
   (0x1D25F, 0x1D25F), (0x1D280, 0x1D281), (0xE0000, 0xE0000), (0xE0002, 0xE001F),
   (0xE0080, 0xE00FF), (0xE01F0, 0xE0FFF)]

/-- Marks that have no effect of their own. -/
def ignorables : List Range :=
  [(0x034F, 0x034F), (0x17B4, 0x17B5), (0x180B, 0x180D), (0x180F, 0x180F), (0xFE00, 0xFE0F),
   (0xE0100, 0xE01EF)]

/-- The Arabic letters lam. -/
def lams : List Range :=
  [(0x0644, 0x0644), (0x06B5, 0x06B8), (0x076A, 0x076A), (0x08A6, 0x08A6), (0x08C7, 0x08C7)]

/-- The Arabic letters alef. -/
def alefs : List Range :=
  [(0x0622, 0x0623), (0x0625, 0x0625), (0x0627, 0x0627), (0x0671, 0x0673), (0x0675, 0x0675),
   (0x0773, 0x0774), (0x0870, 0x0882)]

/-- The Khmer letters that the sign coeng turns into subscripts below the letter before. -/
def subscripts : List Range :=
  [(0x1780, 0x1782), (0x1784, 0x1787), (0x1789, 0x178C), (0x178E, 0x1793), (0x1795, 0x1798),
   (0x179B, 0x179D), (0x17A0, 0x17A0), (0x17A2, 0x17A2), (0x17A7, 0x17A7), (0x17AB, 0x17AC),
   (0x17AF, 0x17AF)]

/-- The Tifinagh consonants. -/
def consonants : List Range := [(0x2D31, 0x2D65), (0x2D6F, 0x2D6F)]

/-- The Lisu tones that begin a pair. -/
def firstTones : List Range := [(0xA4F8, 0xA4FB)]

/-- The Lisu tones that end a pair. -/
def lastTones : List Range := [(0xA4FC, 0xA4FD)]

/-! ### Ends of ligatures -/

/-- What a text begins with, if it begins with the end part of a ligature. Where the ligature
depends on it, a joiner in front is part of the head. -/
inductive LigatureHead where
  /-- The Arabic letter alef. -/
  | alef
  /-- The Hebrew letter lamed. -/
  | lamed (joined : Bool)
  /-- A Khmer letter. -/
  | subscript
  /-- The Buginese letter ya. -/
  | ya (joined : Bool)
  /-- The Buginese vowel i, a joiner and the letter ya. -/
  | vowelYa
  /-- A Tifinagh consonant. -/
  | consonant (joined : Bool)
  /-- The Tifinagh consonant joiner and a consonant. -/
  | joinedConsonant
  /-- A Lisu tone. -/
  | lastTone
  /-- The Old Turkic letter orkhon i. -/
  | orkhonI (joined : Bool)
  deriving DecidableEq, Repr

namespace LigatureHead

/-- The end part of a ligature that a character by itself is. -/
def of? (c : Char) : Option LigatureHead :=
  if inRanges alefs c then some .alef
  else if c = '\u05dc' then some (.lamed false)
  else if inRanges subscripts c then some .subscript
  else if c = '\u1a10' then some (.ya false)
  else if inRanges consonants c then some (.consonant false)
  else if inRanges lastTones c then some .lastTone
  else if c.toNat = 0x10C03 then some (.orkhonI false)
  else none

/-- The head with a joiner in front, which parts the letters of no script but Arabic. -/
def join? : LigatureHead → Option LigatureHead
  | alef => none
  | lamed _ => some (lamed true)
  | ya _ => some (ya true)
  | consonant _ => some (consonant true)
  | orkhonI _ => some (orkhonI true)
  | h => some h

/-- A mark that does not part the letters of a ligature. -/
def ignores (c : Char) : LigatureHead → Bool
  | alef => inRanges marks c && !inRanges breakers c
  | _ => inRanges ignorables c

/-- The columns of a text after one more letter is put in front of it, and what is left of the
end part it begins with then; `none` if the letter does not belong to the ligature. -/
def putLetter? (c : Char) (columns : Nat) : LigatureHead → Option (Nat × Option LigatureHead)
  | alef => if inRanges lams c then some (columns, none) else none
  | lamed joined => if joined && c == '\u05d0' then some (columns, none) else none
  | subscript => if c = '\u17d2' then some (columns - 1, none) else none
  | ya joined => if joined && c == '\u1a17' then some (columns, some vowelYa) else none
  | vowelYa => if c = '\u1a15' then some (columns, none) else none
  | consonant joined =>
    if c = '\u2d7f' then some (columns + 1, some joinedConsonant)
    else if joined && inRanges consonants c then some (columns, none)
    else none
  | joinedConsonant => if inRanges consonants c then some (columns - 1, none) else none
  | lastTone => if inRanges firstTones c then some (columns, none) else none
  | orkhonI joined => if joined && c.toNat == 0x10C32 then some (columns, none) else none

/-- The columns of a text after one more character is put in front of it, and what is left of the
end part it begins with then; `none` if the character does not belong to the ligature. -/
def put? (c : Char) (columns : Nat) (h : LigatureHead) : Option (Nat × Option LigatureHead) :=
  if c = joiner then h.join?.map fun h => (columns, some h)
  else if h.ignores c then some (columns, some h)
  else h.putLetter? c columns

end LigatureHead

/-! ### Vowel signs of Kirat Rai -/

/-- What a text begins with, if it begins with a vowel sign that may be part of another one. -/
inductive VowelHead where
  /-- The vowel sign e. -/
  | e
  /-- The vowel sign ai, which may be spelt e and e. -/
  | ai
  deriving DecidableEq, Repr

namespace VowelHead

/-- The vowel sign that a character by itself is. -/
def of? (c : Char) : Option VowelHead :=
  if c.toNat = 0x16D67 then some .e
  else if c.toNat = 0x16D68 then some .ai
  else none

/-- The columns of a text after one more vowel sign is put in front of it, and the sign it begins
with then, as far as that may be part of another one. -/
def put? (c : Char) (columns : Nat) (h : VowelHead) : Option (Nat × Option VowelHead) :=
  match h, c.toNat with
  | e, 0x16D63 => some (columns, none)
  | e, 0x16D67 => some (columns, some ai)
  | e, 0x16D68 => some (columns + 1, some e)
  | e, 0x16D69 => some (columns, none)
  | ai, 0x16D63 => some (columns, none)
  | _, _ => none

end VowelHead

end GrantCatalog.Text
