import GrantCatalog.Catalog.Basic
import GrantCatalog.Grantee
import GrantCatalog.Grants.Basic
import GrantCatalog.ResultSet

/-!
# Reading the rows of a catalog

Each row of a catalog says what one grantee holds on one scope. A row is given here as a function
from column names to cells, so reading it cannot depend on where a column stands, nor on columns
that it does not ask for.

Reading is strict: a missing column, a cell of the wrong kind or a flag that is neither yes nor no
is a fault of the **whole** answer, and the first one met is reported, rows from top to bottom and
in each row the grantee, then the scope, then the privileges.
-/

namespace GrantCatalog.Catalog

/-- A row, as the cells found under column names. -/
abbrev Row := String → Option Cell

/-- What one row says: who holds what. -/
structure Entry where
  /-- The grantee that the row is about. -/
  grantee : Grantee
  /-- What the row says the grantee holds. -/
  grants : Grants
  deriving DecidableEq

/-- What may be wrong with the cell in a column. -/
inductive CellFault where
  /-- There is no such column. -/
  | missing
  /-- The cell is not a text. -/
  | notText (c : Cell)
  /-- The cell is neither a yes nor a no. -/
  | notFlag (c : Cell)
  /-- The cell is not a list of privileges. -/
  | notList (c : Cell)
  /-- An element of the list is no privilege. -/
  | unknownPrivilege (name : String)
  /-- The user name or the host is empty. -/
  | badGrantee (fault : Grantee.Fault)
  deriving DecidableEq, Repr

/-- A fault in words. -/
def CellFault.message : CellFault → String
  | missing => "column not found"
  | notText c => "expected text, found " ++ c.display
  | notFlag c => "not a privilege flag: " ++ c.display
  | notList c => "expected privilege list, found " ++ c.display
  | unknownPrivilege name => "unknown privilege '" ++ name ++ "'"
  | badGrantee fault => "invalid grantee: " ++ fault.message

/-- The column that cannot be read, and why. -/
structure Fault where
  /-- The column. -/
  column : String
  /-- What is wrong with it. -/
  cause : CellFault
  deriving DecidableEq, Repr

/-! ### Cells -/

/-- The cell in a column. -/
def cell (row : Row) (column : String) : Except Fault Cell :=
  match row column with
  | some c => .ok c
  | none => .error ⟨column, .missing⟩

/-- The text in a column. -/
def text (row : Row) (column : String) : Except Fault String := do
  match ← cell row column with
  | .text s => return s
  | c => throw ⟨column, .notText c⟩

/-- The flag that a text spells, trimmed and in any case; the empty text is a no. -/
def flagText? (s : String) : Option Bool :=
  let w := String.ofList (Text.upper (Text.trim s.toList))
  if w ∈ ["Y", "YES", "TRUE", "1"] then some true
  else if w ∈ ["N", "NO", "FALSE", "0", ""] then some false
  else none

/-- The flag that a cell stands for: `NULL` and zero are a no. -/
def flag? : Cell → Option Bool
  | .null => some false
  | .bool b => some b
  | .int n => some (n != 0)
  | .text s => flagText? s
  | .list _ => none

/-- The flag in a column. -/
def flag (row : Row) (column : String) : Except Fault Bool := do
  let c ← cell row column
  match flag? c with
  | some b => return b
  | none => throw ⟨column, .notFlag c⟩

/-- The elements of a set-valued cell, as they are written. -/
def elements? : Cell → Option (List (List Char))
  | .null => some []
  | .text s => some (s.toList.splitOn ',')
  | .list items => some (items.map String.toList)
  | .bool _ => none
  | .int _ => none

/-- The privilege that a trimmed element of a list names. -/
def element (column : String) (item : List Char) : Except Fault Privilege :=
  match Privilege.ofName? (.ofList item) with
  | some p => .ok p
  | none => .error ⟨column, .unknownPrivilege (.ofList item)⟩

/-- The privileges listed in a column. Blank elements of the list do not count. -/
def privileges (row : Row) (column : String) : Except Fault (List Privilege) := do
  let c ← cell row column
  match elements? c with
  | none => throw ⟨column, .notList c⟩
  | some items => ((items.map Text.trim).filter (!·.isEmpty)).mapM (element column)

/-! ### Rows -/

/-- The grantee of a row. An empty part counts as a fault of the user column. -/
def grantee (row : Row) : Except Fault Grantee := do
  let u ← text row userColumn
  let h ← text row hostColumn
  match Grantee.ofParts u h with
  | .ok g => return g
  | .error fault => throw ⟨userColumn, .badGrantee fault⟩

/-- The scope of a row. -/
def scope (row : Row) : Catalog → Except Fault Scope
  | .server => return .server
  | .schema => do
    let s ← text row schemaColumn
    return .schema s
  | .table => do
    let s ← text row schemaColumn
    let t ← text row tableColumn
    return .table s t

/-- The privileges whose flags are set, in the order of the flag columns. -/
def flagged (row : Row) : List (String × Privilege) → Except Fault (List Privilege)
  | [] => return []
  | (column, p) :: rest => do
    let set ← flag row column
    let ps ← flagged row rest
    return if set then p :: ps else ps

/-- The privileges that a row says are held. -/
def held (row : Row) : Catalog → Except Fault (List Privilege)
  | .table => privileges row listColumn
  | c => flagged row c.flags

/-- What a row says. -/
def entry (c : Catalog) (row : Row) : Except Fault Entry := do
  let g ← grantee row
  let s ← scope row c
  let ps ← held row c
  return ⟨g, Grants.nothing.addAll s ps⟩

/-- **What the answer to a query says**, row by row. -/
def decode (c : Catalog) (answer : ResultSet) : Except Fault (List Entry) :=
  answer.rows.mapM fun row => c.entry (answer.cell? row)

end GrantCatalog.Catalog
