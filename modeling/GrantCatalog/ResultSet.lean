import GrantCatalog.Cell
import GrantCatalog.Distinct
import GrantCatalog.Text.Letters

/-!
# Result sets

What a query answers: named columns and rows of cells. A row is cut or filled up with `NULL` when
it comes in (`GrantCatalog.ResultSet.push`), so that every row has a cell for every column, and a
cell is found through the name of its column (`GrantCatalog.ResultSet.cell?`), never through its
position. Column names are compared up to the case of ASCII letters; of several columns with one
name, the first is meant.

A result set may also be built from **records**, maps from keys to cells
(`GrantCatalog.ResultSet.ofRecords`). Its columns are then the keys in the order in which the
records bring them up, those of one record in the order of the keys, and a record without a key
has `NULL` in its column.
-/

namespace GrantCatalog

/-- Named columns and rows of cells. -/
structure ResultSet where
  /-- The names of the columns. -/
  columns : List String
  /-- The rows, each with a cell for every column. -/
  rows : List (List Cell)
  deriving DecidableEq, Repr, Inhabited

namespace ResultSet

/-- The result set without columns and rows. -/
def empty : ResultSet := ⟨[], []⟩

/-- A row cut, or filled up with `NULL`, to a number of cells. -/
def fit (width : Nat) (row : List Cell) : List Cell :=
  row.take width ++ .replicate (width - row.length) .null

/-- One more row, made to fit. -/
def push (r : ResultSet) (row : List Cell) : ResultSet :=
  ⟨r.columns, r.rows ++ [fit r.columns.length row]⟩

/-- The result set with these columns and rows, each row made to fit. -/
def ofRows (columns : List String) (rows : List (List Cell)) : ResultSet :=
  rows.foldl push ⟨columns, []⟩

/-- A row made to fit has a cell for every column. -/
@[simp] theorem length_fit (width : Nat) (row : List Cell) : (fit width row).length = width := by
  simp only [fit, List.length_append, List.length_take, List.length_replicate]
  omega

/-- Rows pushed one after the other are appended in order, each made to fit. -/
theorem foldl_push (rows : List (List Cell)) (r : ResultSet) :
    rows.foldl push r = ⟨r.columns, r.rows ++ rows.map (fit r.columns.length)⟩ := by
  induction rows generalizing r with
  | nil => simp
  | cons row rows ih => simp [ih, push]

/-- The columns are those given. -/
@[simp] theorem columns_ofRows (columns : List String) (rows : List (List Cell)) :
    (ofRows columns rows).columns = columns := by
  simp [ofRows, foldl_push]

/-- The rows are those given, made to fit. -/
@[simp] theorem rows_ofRows (columns : List String) (rows : List (List Cell)) :
    (ofRows columns rows).rows = rows.map (fit columns.length) := by
  simp [ofRows, foldl_push]

/-- The position of the first column with a name, up to case. -/
def column? (r : ResultSet) (name : String) : Option Nat :=
  r.columns.findIdx? (Text.sameLetters · name)

/-- The cell of a row in the column with a name, if there is such a column. -/
def cell? (r : ResultSet) (row : List Cell) (name : String) : Option Cell := do
  let i ← r.column? name
  row[i]?

/-! ### Records -/

/-- A row given as a map from keys to cells. -/
abbrev Record := Std.ExtTreeMap String Cell

/-- The keys of some records, each where it occurs first. -/
def keys (records : List Record) : List String :=
  firsts (records.flatMap (·.keys))

/-- The cells of a record under some keys. Each cell is taken out of the record, so nothing is left
of it under a key that comes again. -/
def takeOut (record : Record) : List String → List Cell
  | [] => []
  | k :: ks => record.getD k .null :: takeOut (record.erase k) ks

/-- The result set that some records amount to. -/
def ofRecords (records : List Record) : ResultSet :=
  let columns := keys records
  ⟨columns, records.map (takeOut · columns)⟩

/-- No key comes again among different keys, so they find what the record has. -/
theorem takeOut_of_nodup {keys : List String} (h : keys.Nodup) (record : Record) :
    takeOut record keys = keys.map (record.getD · .null) := by
  induction keys generalizing record with
  | nil => rfl
  | cons k ks ih =>
    obtain ⟨hk, hks⟩ := List.nodup_cons.mp h
    rw [takeOut, ih hks, List.map_cons]
    refine congrArg _ (List.map_congr_left fun k' hk' => ?_)
    have hne : compare k k' ≠ .eq := fun he =>
      hk (Std.LawfulEqOrd.compare_eq_iff_eq.mp he ▸ hk')
    rw [Std.ExtTreeMap.getD_erase, if_neg hne]

/-- The result set that a JSON value stands for: a list of records. -/
def ofJson? (j : Json) : Option ResultSet :=
  (j.list? (Json.map? Cell.ofJson?)).map ofRecords

end ResultSet

end GrantCatalog
