import GrantCatalog.ResultSet
import Mathlib.Tactic.Common

/-!
# Cells under the names of columns

A cell is found by the name of its column, and names are the same if only the case of their ASCII
letters differs. There may be several columns with one name, and then the **first** one is meant:
that is all there is to a look-up (`GrantCatalog.ResultSet.cell?_eq_some_iff`). Two names that
are not the same never lead to the same column (`GrantCatalog.ResultSet.column?_ne`).
-/

namespace GrantCatalog.ResultSet

variable {r : ResultSet} {row : List Cell} {name : String}

/-- **A row holds a cell under a name**: the cell stands in the first column with that name, up to
the case of ASCII letters. -/
def Holds (r : ResultSet) (row : List Cell) (name : String) (c : Cell) : Prop :=
  ∃ (i : Nat) (column : String), r.columns[i]? = some column ∧ Text.sameLetters column name = true ∧
    (∀ j < i, ∀ other, r.columns[j]? = some other → Text.sameLetters other name = false) ∧
    row[i]? = some c

/-- Every row has a cell for each column. -/
def Rectangular (r : ResultSet) : Prop := ∀ row ∈ r.rows, row.length = r.columns.length

/-- Rows that are made to fit have a cell for each column. -/
theorem rectangular_ofRows (columns : List String) (rows : List (List Cell)) :
    (ofRows columns rows).Rectangular := by
  intro row hrow
  rw [rows_ofRows, List.mem_map] at hrow
  obtain ⟨written, -, rfl⟩ := hrow
  rw [length_fit, columns_ofRows]

/-- The position of a column is the first one with its name. -/
theorem column?_eq_some_iff {i : Nat} :
    r.column? name = some i ↔
      ∃ column, r.columns[i]? = some column ∧ Text.sameLetters column name = true ∧
        ∀ j < i, ∀ other, r.columns[j]? = some other → Text.sameLetters other name = false := by
  rw [column?, List.findIdx?_eq_some_iff_getElem]
  constructor
  · rintro ⟨hi, hname, hbefore⟩
    refine ⟨r.columns[i], List.getElem?_eq_getElem hi, hname, fun j hj other hother => ?_⟩
    obtain ⟨hlt, rfl⟩ := List.getElem?_eq_some_iff.mp hother
    simpa using hbefore j hj
  · rintro ⟨column, hcolumn, hname, hbefore⟩
    obtain ⟨hi, rfl⟩ := List.getElem?_eq_some_iff.mp hcolumn
    refine ⟨hi, hname, fun j hj => ?_⟩
    have hlt : j < r.columns.length := Nat.lt_trans hj hi
    rw [hbefore j hj _ (List.getElem?_eq_getElem hlt)]
    exact Bool.false_ne_true

/-- **A cell is found under a name just if the row holds it there.** -/
theorem cell?_eq_some_iff {c : Cell} : r.cell? row name = some c ↔ r.Holds row name c := by
  have hbind : r.cell? row name = some c ↔ ∃ i, r.column? name = some i ∧ row[i]? = some c :=
    Option.bind_eq_some_iff
  rw [hbind, Holds]
  simp only [column?_eq_some_iff]
  constructor
  · rintro ⟨i, ⟨column, hcolumn, hname, hbefore⟩, hc⟩
    exact ⟨i, column, hcolumn, hname, hbefore, hc⟩
  · rintro ⟨i, column, hcolumn, hname, hbefore, hc⟩
    exact ⟨i, ⟨column, hcolumn, hname, hbefore⟩, hc⟩

/-- The cell at the position of the first column with a property is the cell of that column. -/
theorem findIdx?_bind_getElem?_map {α β : Type} (p : α → Bool) (f : α → β) (l : List α) :
    ((l.findIdx? p).bind ((l.map f)[·]?)) = (l.find? p).map f := by
  induction l with
  | nil => rfl
  | cons a l ih =>
    rw [List.findIdx?_cons, List.find?_cons]
    cases p a with
    | true => rfl
    | false =>
      rw [if_neg Bool.false_ne_true, Option.bind_map]
      exact ih

/-- Names that are not the same lead to different columns. -/
theorem column?_ne {name' : String} (hne : Text.sameLetters name name' = false) {i : Nat}
    (h : r.column? name = some i) : r.column? name' ≠ some i := by
  intro h'
  obtain ⟨column, hcolumn, hname, -⟩ := column?_eq_some_iff.mp h
  obtain ⟨column', hcolumn', hname', -⟩ := column?_eq_some_iff.mp h'
  obtain rfl := Option.some.inj (hcolumn.symm.trans hcolumn')
  rw [Text.sameLetters, beq_iff_eq] at hname hname'
  rw [Text.sameLetters, ← hname, hname', beq_self_eq_true] at hne
  cases hne

end GrantCatalog.ResultSet
