import GrantCatalog.Json.Basic

/-!
# Literals of JSON: strings and numbers

The leaves of a JSON text are **words** – `null`, `true`, `false` and the numbers – and
**string literals**. Both are read here from the characters that make them up, which the
tokens of `GrantCatalog.Json.Token` delimit, and both are written here.

A string literal is read in two steps. First each character or escape becomes a code point,
where an escape `\uXXXX` may also name a surrogate. Then each high surrogate is joined with
the low surrogate that follows it; a surrogate left alone makes the literal spell nothing.
Writing escapes only what has to be escaped: the quote, the backslash and the control
characters below `U+0020`.
-/

namespace GrantCatalog.Json

/-! ### Reading string literals -/

/-- The value of a hexadecimal digit, in either case. -/
def hexDigit? (c : Char) : Option Nat :=
  if '0' ≤ c ∧ c ≤ '9' then some (c.toNat - '0'.toNat)
  else if 'a' ≤ c ∧ c ≤ 'f' then some (c.toNat - 'a'.toNat + 10)
  else if 'A' ≤ c ∧ c ≤ 'F' then some (c.toNat - 'A'.toNat + 10)
  else none

/-- The code point that four hexadecimal digits name. -/
def hexPoint? (a b c d : Char) : Option Nat := do
  let a ← hexDigit? a
  let b ← hexDigit? b
  let c ← hexDigit? c
  let d ← hexDigit? d
  return ((a * 16 + b) * 16 + c) * 16 + d

/-- What a backslash and one further character stand for. -/
def shortEscape? : Char → Option Char
  | '"' => some '"'
  | '\\' => some '\\'
  | '/' => some '/'
  | 'b' => some '\x08'
  | 'f' => some '\x0c'
  | 'n' => some '\n'
  | 'r' => some '\r'
  | 't' => some '\t'
  | _ => none

/-- The code points of a literal, given the characters between its quotes; `none` if one of
them is a control character or an escape is not one of the grammar's. -/
def points? : List Char → Option (List Nat)
  | [] => some []
  | c :: r =>
    if c = '\\' then
      match r with
      | 'u' :: a :: b :: c :: d :: r => do
        let p ← hexPoint? a b c d
        let ps ← points? r
        return p :: ps
      | e :: r => do
        let e ← shortEscape? e
        let ps ← points? r
        return e.toNat :: ps
      | [] => none
    else if c.toNat < 0x20 then none
    else do
      let ps ← points? r
      return c.toNat :: ps

/-- The surrogates that open a pair. -/
def isHighSurrogate (p : Nat) : Bool := 0xD800 ≤ p && p ≤ 0xDBFF

/-- The surrogates that close a pair. -/
def isLowSurrogate (p : Nat) : Bool := 0xDC00 ≤ p && p ≤ 0xDFFF

/-- The characters that code points spell, with surrogate pairs joined; `none` if a surrogate
stands alone. -/
def spell? : List Nat → Option (List Char)
  | [] => some []
  | p :: r =>
    if isHighSurrogate p then
      match r with
      | q :: r => do
        guard (isLowSurrogate q)
        let cs ← spell? r
        return .ofNat (0x10000 + (p - 0xD800) * 0x400 + (q - 0xDC00)) :: cs
      | [] => none
    else do
      guard !isLowSurrogate p
      let cs ← spell? r
      return .ofNat p :: cs

/-- The string whose literal has these characters between its quotes; `none` if there is no
such literal. -/
def ofLiteral? (body : List Char) : Option Json := do
  let ps ← points? body
  return .text ((spell? ps).map String.ofList)

/-! ### Reading words -/

/-- The rest after a non-empty run of digits. -/
def skipDigits? (s : List Char) : Option (List Char) :=
  match s with
  | c :: r => if c.isDigit then some (r.dropWhile Char.isDigit) else none
  | [] => none

/-- The rest after an optional fraction. -/
def skipFraction? : List Char → Option (List Char)
  | '.' :: r => skipDigits? r
  | r => some r

/-- The rest after an optional exponent. -/
def skipExponent? : List Char → Option (List Char)
  | [] => some []
  | e :: r =>
    if e = 'e' ∨ e = 'E' then
      match r with
      | '+' :: r => skipDigits? r
      | '-' :: r => skipDigits? r
      | r => skipDigits? r
    else some (e :: r)

/-- Digits that may stand before the point: some, and without a superfluous zero. -/
def isWhole : List Char → Bool
  | [] => false
  | [_] => true
  | c :: _ => c != '0'

/-- The number that an unsigned literal names, given the sign before it. -/
def unsigned? (negative : Bool) (s : List Char) : Option Json := do
  let whole := s.takeWhile Char.isDigit
  guard (isWhole whole)
  match s.dropWhile Char.isDigit with
  | [] =>
    let n := Nat.ofDigitChars 10 whole 0
    return if negative then (if n = 0 then .real else .integer (-n)) else .integer n
  | rest =>
    let rest ← skipFraction? rest
    let rest ← skipExponent? rest
    guard rest.isEmpty
    return .real

/-- The number that a literal names. -/
def number? : List Char → Option Json
  | '-' :: s => unsigned? true s
  | s => unsigned? false s

/-- The value that a word names. -/
def ofWord? (w : List Char) : Option Json :=
  if w = "null".toList then some .null
  else if w = "true".toList then some (.bool true)
  else if w = "false".toList then some (.bool false)
  else number? w

/-! ### Writing -/

/-- The characters that stand for a character inside a literal. -/
def escape (c : Char) : List Char :=
  match c with
  | '"' => ['\\', '"']
  | '\\' => ['\\', '\\']
  | '\x08' => ['\\', 'b']
  | '\x0c' => ['\\', 'f']
  | '\n' => ['\\', 'n']
  | '\r' => ['\\', 'r']
  | '\t' => ['\\', 't']
  | c =>
    if c.toNat < 0x20 then
      ['\\', 'u', '0', '0', (c.toNat / 16).digitChar, (c.toNat % 16).digitChar]
    else [c]

/-- The literal of a string. One that spells no text is written as the high surrogate that it
may have come from. -/
def literal : Option String → List Char
  | some s => '"' :: s.toList.flatMap escape ++ ['"']
  | none => "\"\\ud800\"".toList

/-- The decimal digits of an integer, after a minus sign if it is negative. -/
def decimal : Int → List Char
  | .ofNat n => Nat.toDigits 10 n
  | .negSucc n => '-' :: Nat.toDigits 10 (n + 1)

end GrantCatalog.Json
