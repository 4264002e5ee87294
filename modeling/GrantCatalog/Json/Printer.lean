import GrantCatalog.Json.Literal

/-!
# Writing JSON

A value is written in one of two layouts: on one line without any blank, or with each item and
each member on a line of its own, indented by two spaces per level and with a blank after the
colon of a member. Empty containers stay on one line in both. Members are written in the order
of the object.
-/

namespace GrantCatalog.Json

/-- How containers are laid out: on one line, or on lines of their own at a depth. -/
inductive Layout where
  | compact
  | indented (depth : Nat)
  deriving DecidableEq, Repr

namespace Layout

/-- The layout of what stands inside a container. -/
def inner : Layout → Layout
  | .compact => .compact
  | .indented d => .indented (d + 1)

/-- What separates the parts of a container besides the comma. -/
def gap : Layout → List Char
  | .compact => []
  | .indented d => '\n' :: .replicate (2 * d) ' '

/-- What stands between a key and its value. -/
def colon : Layout → List Char
  | .compact => [':']
  | .indented _ => [':', ' ']

end Layout

mutual

/-- The characters of a value in a layout. -/
def print (l : Layout) : Json → List Char
  | .null => "null".toList
  | .bool b => if b then "true".toList else "false".toList
  | .integer n => decimal n
  | .real => "-0".toList
  | .text s => literal s
  | .array [] => "[]".toList
  | .array (j :: js) => '[' :: printItems l.inner (j :: js) ++ l.gap ++ [']']
  | .object [] => "\x7b\x7d".toList
  | .object (m :: ms) => '\x7b' :: printMembers l.inner (m :: ms) ++ l.gap ++ ['\x7d']
termination_by structural j => j

/-- The items of an array, each after its gap. -/
def printItems (l : Layout) : List Json → List Char
  | [] => []
  | j :: js =>
    l.gap ++ print l j ++ (if js.isEmpty then [] else [',']) ++ printItems l js
termination_by structural js => js

/-- The members of an object, each after its gap. -/
def printMembers (l : Layout) : List (Option String × Json) → List Char
  | [] => []
  | m :: ms =>
    l.gap ++ printMember l m ++ (if ms.isEmpty then [] else [',']) ++ printMembers l ms
termination_by structural ms => ms

/-- A member: its key, a colon and its value. -/
def printMember (l : Layout) : Option String × Json → List Char
  | (k, j) => literal k ++ l.colon ++ print l j
termination_by structural m => m

end

/-- **The text of a value on one line.** -/
def compact (j : Json) : String := .ofList (print .compact j)

/-- **The text of a value with one part to a line.** -/
def pretty (j : Json) : String := .ofList (print (.indented 0) j)

end GrantCatalog.Json
