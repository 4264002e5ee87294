import GrantCatalog.Proofs.Order
import GrantCatalog.Proofs.Records

/-!
# Every row has a cell for every column

A result set comes from its columns by pushing rows, or from records
(`GrantCatalog.ResultSet.Built`). Either way its rows are as long as its columns are many
(`GrantCatalog.ResultSet.Built.rectangular`), and so a look-up in a row finds a cell under each name
that some column has, the cell at the **first** column with the name.

* A pushed row keeps its cells in their places and is cut or filled up at its end
  (`GrantCatalog.ResultSet.Pushed`).
* Records bring their keys along as columns, those of an earlier record first and those of one
  record in the order of their bytes (`GrantCatalog.ResultSet.Precedes`). A row takes the cells out
  of its record, and as no column comes twice, nothing is missing when its column is reached
  (`GrantCatalog.ResultSet.Gathered`).
-/

namespace GrantCatalog.ResultSet

variable {r r' : ResultSet} {row : List Cell} {records : List Record} {record : Record}
  {name key a b : String}

/-! ### Rows as they are pushed -/

/-- **A row made to fit keeps its cells in their places**, and has `NULL` where it had none. -/
theorem getElem?_fit {width i : Nat} (hi : i < width) (row : List Cell) :
    (fit width row)[i]? = some (row[i]?.getD .null) := by
  rw [fit]
  -- The place is one of the row's own, or one of those that are filled up.
  rcases Nat.lt_or_ge i row.length with hrow | hrow
  · rw [List.getElem?_append_left (by rw [List.length_take]; omega), List.getElem?_take_of_lt hi,
      List.getElem?_eq_getElem hrow, Option.getD_some]
  · rw [List.getElem?_append_right (by rw [List.length_take]; omega), List.length_take,
      List.getElem?_replicate, if_pos (by omega), List.getElem?_eq_none hrow, Option.getD_none]

/-- **What pushing a row makes of a result set.** -/
structure Pushed (r : ResultSet) (row : List Cell) (r' : ResultSet) : Prop where
  columns : r'.columns = r.columns
  /-- The row is the last one, and those in front of it are as they were. -/
  rows : ∃ last, r'.rows = r.rows ++ [last] ∧ last.length = r.columns.length ∧
    ∀ i < r.columns.length, last[i]? = some (row[i]?.getD .null)

theorem pushed_push (r : ResultSet) (row : List Cell) : Pushed r row (r.push row) where
  columns := rfl
  rows := ⟨fit r.columns.length row, rfl, length_fit _ _, fun _ hi => getElem?_fit hi row⟩

theorem Pushed.rectangular (h : Pushed r row r') (hr : r.Rectangular) : r'.Rectangular := by
  obtain ⟨last, hrows, hlast, -⟩ := h.rows
  rw [Rectangular, hrows, h.columns]
  exact List.forall_mem_append.mpr ⟨hr, List.forall_mem_singleton.mpr hlast⟩

/-! ### Columns as records bring them up -/

/-- How many records come before the first one with a key. -/
def firstRecord (records : List Record) (key : String) : Nat := records.findIdx (·.contains key)

/-- **A key comes before another one**: it is one of an earlier record, or of the same record and
smaller. -/
def Precedes (records : List Record) (a b : String) : Prop :=
  firstRecord records a < firstRecord records b ∨
    firstRecord records a = firstRecord records b ∧ Text.bytes a < Text.bytes b

theorem firstRecord_cons_of_mem (h : key ∈ record) (records : List Record) :
    firstRecord (record :: records) key = 0 := by
  rw [firstRecord, List.findIdx_cons, Std.ExtTreeMap.mem_iff_contains.mp h, cond_true]

theorem firstRecord_cons_of_not_mem (h : key ∉ record) (records : List Record) :
    firstRecord (record :: records) key = firstRecord records key + 1 := by
  have hno : record.contains key = false :=
    Bool.eq_false_iff.mpr (mt Std.ExtTreeMap.mem_iff_contains.mpr h)
  rw [firstRecord, List.findIdx_cons, hno, cond_false, firstRecord]

/-- A key of a record that stands before another one is smaller. -/
theorem bytes_lt_of_idxOf_lt (hb : b ∈ record) (h : record.keys.idxOf a < record.keys.idxOf b) :
    Text.bytes a < Text.bytes b := by
  have hlt : record.keys.idxOf b < record.keys.length :=
    List.idxOf_lt_length_of_mem (Std.ExtTreeMap.mem_keys.mpr hb)
  have hsorted := List.pairwise_iff_getElem.mp record.ordered_keys _ _ (h.trans hlt) hlt h
  rw [List.getElem_idxOf, List.getElem_idxOf] at hsorted
  exact Text.compare_eq_lt_iff.mp hsorted

/-- The key that occurs first among those of all records is one of an earlier record, or a smaller
one. -/
theorem precedes_of_idxOf_lt (hb : ∃ record ∈ records, b ∈ record)
    (h : (records.flatMap (·.keys)).idxOf a < (records.flatMap (·.keys)).idxOf b) :
    Precedes records a b := by
  induction records with
  | nil =>
    obtain ⟨_, hnil, -⟩ := hb
    exact absurd hnil List.not_mem_nil
  | cons record records ih =>
    rw [List.flatMap_cons, List.idxOf_append, List.idxOf_append] at h
    simp only [Std.ExtTreeMap.mem_keys] at h
    by_cases ha : a ∈ record <;> by_cases hb' : b ∈ record
    · rw [if_pos ha, if_pos hb'] at h
      refine .inr ⟨?_, bytes_lt_of_idxOf_lt hb' h⟩
      rw [firstRecord_cons_of_mem ha, firstRecord_cons_of_mem hb']
    · refine .inl ?_
      rw [firstRecord_cons_of_mem ha, firstRecord_cons_of_not_mem hb']
      exact Nat.succ_pos _
    · -- A key of the first record does not come after one of the others.
      rw [if_neg ha, if_pos hb'] at h
      have hlt := List.idxOf_lt_length_of_mem (Std.ExtTreeMap.mem_keys.mpr hb')
      omega
    · rw [if_neg ha, if_neg hb', Nat.add_lt_add_iff_right] at h
      obtain ⟨other, hother, hmem⟩ := hb
      have hrest : ∃ record ∈ records, b ∈ record := by
        rcases List.mem_cons.mp hother with rfl | hother
        · exact absurd hmem hb'
        · exact ⟨other, hother, hmem⟩
      rw [Precedes, firstRecord_cons_of_not_mem ha, firstRecord_cons_of_not_mem hb',
        Nat.add_lt_add_iff_right, Nat.add_right_cancel_iff]
      exact ih hrest h

/-- **Columns stand in the order of their first records**, and those of one record in that of their
bytes. -/
theorem pairwise_precedes_keys (records : List Record) :
    (keys records).Pairwise (Precedes records) :=
  (pairwise_idxOf_firsts _).imp_of_mem fun _ hb => precedes_of_idxOf_lt (mem_keys_iff.mp hb)

/-- **What records amount to.** -/
structure Gathered (records : List Record) (r : ResultSet) : Prop where
  /-- The columns are the keys of the records. -/
  columns (key : String) : key ∈ r.columns ↔ ∃ record ∈ records, key ∈ record
  nodup : r.columns.Nodup
  ordered : r.columns.Pairwise (Precedes records)
  /-- There is a row for each record, and it has under a column what the record has under that very
  key. -/
  rows : List.Forall₂ (fun record row => ∀ (i : Nat) (key : String), r.columns[i]? = some key →
    row[i]? = some (record[key]?.getD .null)) records r.rows

theorem gathered_ofRecords (records : List Record) : Gathered records (ofRecords records) where
  columns _ := mem_keys_iff
  nodup := nodup_keys records
  ordered := pairwise_precedes_keys records
  rows := by
    rw [rows_ofRecords, List.forall₂_map_right_iff, List.forall₂_same, columns_ofRecords]
    intro record _ i key hkey
    rw [List.getElem?_map, hkey, Option.map_some, Std.ExtTreeMap.getD_eq_getD_getElem?]

theorem rectangular_ofRecords (records : List Record) : (ofRecords records).Rectangular := by
  intro row hrow
  rw [rows_ofRecords] at hrow
  obtain ⟨record, -, rfl⟩ := List.mem_map.mp hrow
  exact List.length_map _

/-! ### All result sets -/

/-- **The ways in which result sets come to be.** -/
inductive Built : ResultSet → Prop where
  | new (columns : List String) : Built ⟨columns, []⟩
  | push {r : ResultSet} (h : Built r) (row : List Cell) : Built (r.push row)
  | records (records : List Record) : Built (ofRecords records)

theorem Built.rectangular (h : Built r) : r.Rectangular := by
  induction h with
  | new columns => exact fun _ hrow => absurd hrow List.not_mem_nil
  | push _ row ih => exact (pushed_push _ row).rectangular ih
  | records records => exact rectangular_ofRecords records

/-- Pushing rows one after the other is a way to build a result set. -/
theorem Built.foldl_push (h : Built r) (rows : List (List Cell)) :
    Built (rows.foldl ResultSet.push r) := by
  induction rows generalizing r with
  | nil => exact h
  | cons row rows ih => exact ih (h.push row)

/-- A row with a cell for each column has one under each name of a column. -/
theorem isSome_cell?_iff (h : row.length = r.columns.length) (name : String) :
    (r.cell? row name).isSome ↔ (r.column? name).isSome := by
  rw [cell?]
  cases hcolumn : r.column? name with
  | none => rfl
  | some i =>
    obtain ⟨column, hi, -⟩ := column?_eq_some_iff.mp hcolumn
    obtain ⟨hlt, -⟩ := List.getElem?_eq_some_iff.mp hi
    rw [Option.bind_eq_bind, Option.bind_some, List.getElem?_eq_getElem (h ▸ hlt)]
    rfl

/-- **Result sets are rectangular, and their rows neither lose nor shift cells.** In every row of
every result set that comes to be, there is a cell under a name just if there is a column with it,
and then it is the cell at the first such column. Pushing a row makes it fit and leaves the others
alone; records become rows under the columns that they bring up. -/
theorem built_rectangular :
    (∀ r, Built r → ∀ row ∈ r.rows, row.length = r.columns.length ∧ ∀ name,
      ((r.cell? row name).isSome ↔ (r.column? name).isSome) ∧
        ∀ cell, r.cell? row name = some cell ↔ r.Holds row name cell) ∧
    (∀ r row, Pushed r row (r.push row)) ∧
    ∀ records, Gathered records (ofRecords records) := by
  refine ⟨fun r h row hrow => ?_, pushed_push, gathered_ofRecords⟩
  have hlength := h.rectangular row hrow
  exact ⟨hlength, fun name => ⟨isSome_cell?_iff hlength name, fun _ => cell?_eq_some_iff⟩⟩

/-- Two columns with one name, a row that is too short and one that is too long. -/
def ragged : ResultSet :=
  ofRows ["User", "Host", "user"] [[.text "ann"], [.text "bob", .null, .int 1, .int 2]]

/-- In both rows there is a cell under the name of the second column, and none under another. -/
theorem built_rectangular_ragged : Built ragged ∧ ∀ row ∈ ragged.rows, row.length = 3 ∧
    (ragged.cell? row "HOST").isSome ∧ ¬(ragged.cell? row "Hosts").isSome ∧
    ∀ cell, ragged.cell? row "USER" = some cell ↔ ragged.Holds row "USER" cell := by
  have hbuilt : Built ragged := (Built.new _).foldl_push _
  refine ⟨hbuilt, fun row hrow => ?_⟩
  obtain ⟨hlength, hfound⟩ := built_rectangular.1 ragged hbuilt row hrow
  exact ⟨hlength, (hfound "HOST").1.mpr (by decide +kernel),
    mt (hfound "Hosts").1.mp (by decide +kernel), (hfound "USER").2⟩

end GrantCatalog.ResultSet
