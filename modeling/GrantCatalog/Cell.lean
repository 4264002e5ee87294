import GrantCatalog.Json.Shape
import GrantCatalog.Json.Literal

/-!
# Cells

A value of a result row. Integers have the sixty-four bits of the database protocol; set-valued
columns arrive either as a text with commas or as a list, and both are kept as they came.

`GrantCatalog.Cell.ofJson?` reads a cell from JSON. Nothing in a JSON text tells of what kind a cell
is, so the kinds are **tried in turn** and the first that can read the value has it. A number that
is no integer of sixty-four bits, an object, and an array with anything but strings in it are no
cells of any kind.
-/

namespace GrantCatalog

/-- A value of a result row. -/
inductive Cell where
  /-- SQL `NULL`. -/
  | null
  | bool (b : Bool)
  | int (n : Int64)
  | text (s : String)
  /-- A value of a set-valued column, element by element. -/
  | list (items : List String)
  deriving DecidableEq, Repr, Inhabited

namespace Cell

/-- No value. -/
def isNull : Cell → Bool
  | null => true
  | _ => false

/-- The text of a textual cell. -/
def text? : Cell → Option String
  | text s => some s
  | _ => none

/-- A cell in messages. -/
def display : Cell → String
  | null => "NULL"
  | bool b => if b then "true" else "false"
  | int n => .ofList (Json.decimal n.toInt)
  | text s => "'" ++ s ++ "'"
  | list items => "[" ++ ",".intercalate items ++ "]"

/-- The integers of sixty-four bits. -/
def int? (n : Int) : Option Cell :=
  if Int64.minValue.toInt ≤ n ∧ n ≤ Int64.maxValue.toInt then some (.int (.ofInt n)) else none

/-- The kinds of cells. -/
inductive Kind where
  | null
  | bool
  | int
  | text
  | list
  deriving DecidableEq, Repr

/-- A JSON value read as a cell of one kind. -/
def Kind.read? : Kind → Json → Option Cell
  | null, .null => some .null
  | bool, .bool b => some (.bool b)
  | int, .integer n => int? n
  | text, .text s => s.map .text
  | list, .array js => (js.mapM Json.string?).map .list
  | _, _ => none

/-- The kinds in the order in which they are tried. -/
def kinds : List Kind := [.null, .bool, .int, .text, .list]

/-- The cell that a JSON value stands for, if it is one. -/
def ofJson? (j : Json) : Option Cell := kinds.findSome? (·.read? j)

/-- A cell as a JSON value. -/
def toJson : Cell → Json
  | null => .null
  | bool b => .bool b
  | int n => .integer n.toInt
  | text s => .str s
  | list items => .array (items.map .str)

end Cell

end GrantCatalog
