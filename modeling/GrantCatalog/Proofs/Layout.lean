import GrantCatalog.Proofs.Column
import GrantCatalog.Proofs.Row
import Mathlib.Data.List.InsertIdx
import Mathlib.Logic.Relation

/-!
# Where a column stands does not matter

The same rows may be laid out in many ways: the columns in another order, their names in another
case, further columns in between. What is decoded does not depend on any of this, although a cell
is found by going through the columns **in order** until the first one with its name.

The way around the order is to look at all the cells under a name
(`GrantCatalog.ResultSet.under`). A look-up finds the first of them; but if no two columns share
their names there is at most one, and then it does not matter where it stands. Each change of the
layout (`GrantCatalog.ResultSet.Change`) permutes the cells under the names that are read, so that
a run of changes does (`GrantCatalog.ResultSet.SameCells.of_changes`), and at the end of the run
there is still at most one.

| change | what becomes of the cells under a name that is read |
|---|---|
| columns in another order | they are permuted |
| names in another case | they stay |
| one more column with a name that is not read | they stay |

What is read are the columns of `GrantCatalog.Catalog.reads`, no others
(`GrantCatalog.Catalog.entry_congr_reads`) and no fewer
(`GrantCatalog.Catalog.entry_without`).
-/

namespace GrantCatalog

namespace ResultSet

variable {r r' : ResultSet} {row : List Cell} {name : String} {names : List String}

/-! ### The cells under a name -/

/-- **The cells of a row under a name**, from left to right. -/
def under (r : ResultSet) (row : List Cell) (name : String) : List Cell :=
  ((r.columns.zip row).filter fun e => Text.sameLetters e.1 name).map Prod.snd

/-- A look-up finds the first of the cells under a name. -/
theorem cell?_eq_head?_under (hrow : row.length = r.columns.length) :
    r.cell? row name = (r.under row name).head? := by
  have hcolumns : (r.columns.zip row).map Prod.fst = r.columns :=
    List.map_fst_zip (Nat.le_of_eq hrow.symm)
  have hcells : (r.columns.zip row).map Prod.snd = row := List.map_snd_zip (Nat.le_of_eq hrow)
  calc r.cell? row name
      = (((r.columns.zip row).map Prod.fst).findIdx? (Text.sameLetters · name)).bind
          (((r.columns.zip row).map Prod.snd)[·]?) := by
        rw [hcolumns, hcells]
        rfl
    _ = ((r.columns.zip row).find? fun e => Text.sameLetters e.1 name).map Prod.snd := by
        rw [List.findIdx?_map]
        exact findIdx?_bind_getElem?_map _ _ _
    _ = (r.under row name).head? := by
        rw [under, List.head?_map, List.head?_filter]

/-- No two columns share their name, up to the case of ASCII letters. -/
def Distinct (r : ResultSet) : Prop :=
  r.columns.Pairwise fun a b => Text.sameLetters a b = false

instance : Decidable r.Distinct :=
  inferInstanceAs (Decidable (r.columns.Pairwise fun a b => Text.sameLetters a b = false))

/-- If no two columns share their name, then at most one cell stands under a name. -/
theorem length_under_le_one (hr : r.Distinct) (hrow : row.length = r.columns.length) :
    (r.under row name).length ≤ 1 := by
  rw [Distinct, ← List.map_fst_zip (Nat.le_of_eq hrow.symm), List.pairwise_map] at hr
  have hpairwise := hr.filter fun e => Text.sameLetters e.1 name
  have hname : ∀ e ∈ (r.columns.zip row).filter fun e => Text.sameLetters e.1 name,
      Text.upper e.1.toList = Text.upper name.toList := by
    intro e he
    rw [List.mem_filter, Text.sameLetters, beq_iff_eq] at he
    exact he.2
  rw [under, List.length_map]
  generalize (r.columns.zip row).filter (fun e => Text.sameLetters e.1 name) = cells
    at hpairwise hname ⊢
  rcases cells with _ | ⟨a, _ | ⟨b, cells⟩⟩
  · exact Nat.zero_le 1
  · exact Nat.le_refl 1
  · -- Two columns with the name asked for would share it.
    have hne := (List.pairwise_cons.mp hpairwise).1 b List.mem_cons_self
    rw [Text.sameLetters, hname a (by simp), hname b (by simp), beq_self_eq_true] at hne
    cases hne

/-! ### Changes of the layout -/

/-- The elements of a list that stand at some positions, in the order of the positions. -/
def pick {α : Type} (order : List Nat) (l : List α) : List α := order.filterMap (l[·]?)

/-- The columns in another order, and with them the cells of each row. -/
def reorder (r : ResultSet) (order : List Nat) : ResultSet :=
  ⟨pick order r.columns, r.rows.map (pick order)⟩

/-- Other names for the columns. -/
def rename (r : ResultSet) (columns : List String) : ResultSet := ⟨columns, r.rows⟩

/-- One more column at a position, with a cell for each row. -/
def insertColumn (r : ResultSet) (i : Nat) (name : String) (cells : List Cell) : ResultSet :=
  ⟨r.columns.insertIdx i name, (r.rows.zip cells).map fun (row, cell) => row.insertIdx i cell⟩

/-- **A change of the layout** that should not matter to a reader of some names. -/
inductive Change (names : List String) (r : ResultSet) : ResultSet → Prop where
  /-- The columns are put in another order. -/
  | reorder {order : List Nat} (h : order.Perm (List.range r.columns.length)) :
      Change names r (r.reorder order)
  /-- The names of some columns are put in another case. -/
  | recase {columns : List String}
      (h : List.Forall₂ (fun a b => Text.sameLetters a b = true) r.columns columns) :
      Change names r (r.rename columns)
  /-- One more column is put in between, with a name that is not read. -/
  | insert {i : Nat} {name : String} {cells : List Cell} (hi : i ≤ r.columns.length)
      (hcells : cells.length = r.rows.length)
      (hname : ∀ n ∈ names, Text.sameLetters name n = false) :
      Change names r (r.insertColumn i name cells)

/-- **Two result sets with the same cells under some names**, row by row and but for their order. -/
structure SameCells (names : List String) (r r' : ResultSet) : Prop where
  rectangular : r'.Rectangular
  rows_rel : List.Forall₂ (fun row row' =>
    ∀ name ∈ names, (r'.under row' name).Perm (r.under row name)) r.rows r'.rows

theorem SameCells.refl (hr : r.Rectangular) : SameCells names r r where
  rectangular := hr
  rows_rel := List.forall₂_same.mpr fun _ _ _ _ => List.Perm.refl _

theorem SameCells.trans {r'' : ResultSet} (h : SameCells names r r')
    (h' : SameCells names r' r'') : SameCells names r r'' where
  rectangular := h'.rectangular
  rows_rel := by
    refine (h.rows_rel.comp h'.rows_rel).imp ?_
    rintro row row'' ⟨row', hrow, hrow'⟩ name hname
    exact (hrow' name hname).trans (hrow name hname)

/-! ### Columns in another order -/

/-- Columns and cells are picked together. -/
theorem zip_pick (order : List Nat) {columns : List String} (h : row.length = columns.length) :
    (pick order columns).zip (pick order row) = pick order (columns.zip row) := by
  induction order with
  | nil => rfl
  | cons i order ih =>
    rw [pick, pick, pick, List.filterMap_cons, List.filterMap_cons, List.filterMap_cons]
    rcases Nat.lt_or_ge i columns.length with hi | hi
    · have hi' : i < row.length := by omega
      have hzip : (columns.zip row)[i]? = some (columns[i], row[i]) :=
        List.getElem?_zip_eq_some.mpr
          ⟨List.getElem?_eq_getElem hi, List.getElem?_eq_getElem hi'⟩
      rw [List.getElem?_eq_getElem hi, List.getElem?_eq_getElem hi', hzip]
      exact congrArg ((columns[i], row[i]) :: ·) ih
    · have hnone : columns[i]? = none := List.getElem?_eq_none hi
      have hnone' : row[i]? = none := List.getElem?_eq_none (by omega)
      have hzip : (columns.zip row)[i]? = none :=
        List.getElem?_eq_none (by rw [List.length_zip]; omega)
      rw [hnone, hnone', hzip]
      exact ih

/-- What stands at all positions is the whole list. -/
theorem pick_range {α : Type} (l : List α) : pick (List.range l.length) l = l := by
  induction l with
  | nil => rfl
  | cons a l ih =>
    rw [pick, List.length_cons, List.range_succ_eq_map, List.filterMap_cons, List.filterMap_map]
    exact congrArg (a :: ·) ih

/-- What stands at all positions, in any order, is the list in another order. -/
theorem pick_perm {α : Type} {order : List Nat} {l : List α}
    (h : order.Perm (List.range l.length)) : (pick order l).Perm l := by
  have hpick := h.filterMap (l[·]?)
  rwa [← pick, ← pick, pick_range] at hpick

theorem SameCells.reorder (hr : r.Rectangular) {order : List Nat}
    (h : order.Perm (List.range r.columns.length)) : SameCells names r (r.reorder order) where
  rectangular := by
    intro row' hrow'
    obtain ⟨row, hrow, rfl⟩ := List.mem_map.mp hrow'
    have hlength := hr row hrow
    have hrows : (pick order row).length = row.length := (pick_perm (hlength ▸ h)).length_eq
    have hcolumns : (pick order r.columns).length = r.columns.length := (pick_perm h).length_eq
    exact hrows.trans (hlength.trans hcolumns.symm)
  rows_rel := by
    refine List.forall₂_map_right_iff.mpr (List.forall₂_same.mpr fun row hrow name _ => ?_)
    have hlength : (r.columns.zip row).length = r.columns.length := by
      rw [List.length_zip, hr row hrow, Nat.min_self]
    rw [under, under, ResultSet.reorder, zip_pick order (hr row hrow)]
    exact ((pick_perm (hlength.symm ▸ h)).filter _).map _

/-! ### Names in another case -/

/-- Names are the same for all names if they are for each other. -/
theorem sameLetters_congr {a b : String} (h : Text.sameLetters a b = true) (name : String) :
    Text.sameLetters b name = Text.sameLetters a name := by
  rw [Text.sameLetters, beq_iff_eq] at h
  rw [Text.sameLetters, Text.sameLetters, h]

theorem SameCells.recase (hr : r.Rectangular) {columns : List String}
    (h : List.Forall₂ (fun a b => Text.sameLetters a b = true) r.columns columns) :
    SameCells names r (r.rename columns) where
  rectangular row hrow := (hr row hrow).trans h.length_eq
  rows_rel := by
    have same (row : List Cell) (name : String) :
        (r.rename columns).under row name = r.under row name := by
      rw [under, under, rename]
      generalize r.columns = old at h
      induction h generalizing row with
      | nil => rfl
      | cons hab _ ih =>
        rcases row with _ | ⟨c, row⟩
        · rfl
        · rw [List.zip_cons_cons, List.zip_cons_cons, List.filter_cons, List.filter_cons,
            sameLetters_congr hab]
          split
          · exact congrArg (c :: ·) (ih row)
          · exact ih row
    exact List.forall₂_same.mpr fun row _ name _ => List.Perm.of_eq (same row name)

/-! ### One more column -/

theorem zip_insertIdx {columns : List String} (h : row.length = columns.length) {i : Nat}
    (hi : i ≤ columns.length) (name : String) (cell : Cell) :
    ((columns.insertIdx i name).zip (row.insertIdx i cell)).Perm
      ((name, cell) :: columns.zip row) := by
  induction i generalizing columns row with
  | zero => exact List.Perm.refl _
  | succ i ih =>
    obtain ⟨column, columns, rfl⟩ :=
      List.exists_cons_of_length_pos (Nat.lt_of_lt_of_le i.succ_pos hi)
    obtain ⟨c, row, rfl⟩ := List.exists_cons_of_length_eq_add_one h
    have hrest := ih (Nat.succ.inj h) (Nat.le_of_succ_le_succ hi)
    rw [List.insertIdx_succ_cons, List.insertIdx_succ_cons, List.zip_cons_cons,
      List.zip_cons_cons]
    exact (hrest.cons _).trans (List.Perm.swap _ _ _)

theorem SameCells.insert (hr : r.Rectangular) {i : Nat} {name : String} {cells : List Cell}
    (hi : i ≤ r.columns.length) (hcells : cells.length = r.rows.length)
    (hname : ∀ n ∈ names, Text.sameLetters name n = false) :
    SameCells names r (r.insertColumn i name cells) where
  rectangular := by
    intro row' hrow'
    obtain ⟨⟨row, cell⟩, hmem, rfl⟩ := List.mem_map.mp hrow'
    have hlength := hr row (List.of_mem_zip hmem).1
    have hrow : (row.insertIdx i cell).length = row.length + 1 :=
      List.length_insertIdx_of_le_length (hlength ▸ hi) cell
    have hcolumns : (r.columns.insertIdx i name).length = r.columns.length + 1 :=
      List.length_insertIdx_of_le_length hi name
    exact hrow.trans (hlength ▸ hcolumns.symm)
  rows_rel := by
    have hzip : (r.rows.zip cells).map Prod.fst = r.rows :=
      List.map_fst_zip (Nat.le_of_eq hcells.symm)
    have hrows : List.Forall₂ (fun row row' => ∀ n ∈ names,
        ((r.insertColumn i name cells).under row' n).Perm (r.under row n))
        ((r.rows.zip cells).map Prod.fst) (r.insertColumn i name cells).rows := by
      refine List.forall₂_map_left_iff.mpr (List.forall₂_map_right_iff.mpr
        (List.forall₂_same.mpr fun e he n hn => ?_))
      have hlength := hr e.1 (List.of_mem_zip he).1
      have hcells' := (zip_insertIdx hlength hi name e.2).filter fun e => Text.sameLetters e.1 n
      rw [List.filter_cons_of_neg (by simp [hname n hn])] at hcells'
      exact hcells'.map Prod.snd
    rwa [hzip] at hrows

/-! ### Runs of changes -/

theorem Change.sameCells (hr : r.Rectangular) (h : Change names r r') : SameCells names r r' := by
  cases h with
  | reorder h => exact .reorder hr h
  | recase h => exact .recase hr h
  | insert hi hcells hname => exact .insert hr hi hcells hname

/-- **A run of changes** leaves the cells under the names that are read as they were, but for their
order. -/
theorem SameCells.of_changes (hr : r.Rectangular)
    (h : Relation.ReflTransGen (Change names) r r') : SameCells names r r' := by
  induction h with
  | refl => exact .refl hr
  | tail _ hchange ih => exact ih.trans (hchange.sameCells ih.rectangular)

/-- **What is found under a name that is read** stays what it was, if no two columns shared their
name. -/
theorem SameCells.cell?_eq (hr : r.Rectangular) (hdistinct : r.Distinct)
    (h : SameCells names r r') :
    List.Forall₂ (fun row row' => ∀ name ∈ names, r'.cell? row' name = r.cell? row name)
      r.rows r'.rows := by
  obtain ⟨hlength, hrows⟩ := List.forall₂_iff_zip.mp h.rows_rel
  refine List.forall₂_iff_zip.mpr ⟨hlength, fun {row row'} hmem name hname => ?_⟩
  obtain ⟨hrow, hrow'⟩ := List.of_mem_zip hmem
  have hperm := hrows hmem name hname
  have hone : (r.under row name).length ≤ 1 := length_under_le_one hdistinct (hr row hrow)
  rw [cell?_eq_head?_under (h.rectangular row' hrow'), cell?_eq_head?_under (hr row hrow)]
  -- The same cells but for their order are the same cells, as there is at most one.
  rcases hcells : r.under row name with _ | ⟨c, _ | ⟨d, cells⟩⟩
  · rw [hcells] at hperm
    rw [hperm.eq_nil]
  · rw [hcells] at hperm
    rw [hperm.eq_singleton]
  · rw [hcells] at hone
    simp at hone

end ResultSet

namespace Catalog

variable {c : Catalog} {row row' : Row} {column : String}

/-! ### What is read -/

/-- The columns with the scope of a row. -/
def scopeColumns : Catalog → List String
  | server => []
  | schema => [schemaColumn]
  | table => [schemaColumn, tableColumn]

/-- The columns with the privileges of a row. -/
def heldColumns : Catalog → List String
  | table => [listColumn]
  | c => c.flags.map Prod.fst

/-- **The columns that are read** off a row of a catalog. -/
def reads (c : Catalog) : List String := [userColumn, hostColumn] ++ c.scopeColumns ++ c.heldColumns

theorem grantee_congr (h : ∀ name ∈ [userColumn, hostColumn], row' name = row name) :
    grantee row' = grantee row := by
  rw [grantee, grantee, text_congr (h userColumn (by simp)), text_congr (h hostColumn (by simp))]

theorem scope_congr (h : ∀ name ∈ c.scopeColumns, row' name = row name) :
    scope row' c = scope row c := by
  cases c with
  | server => rfl
  | schema =>
    rw [scope, scope, text_congr (h schemaColumn (by simp [scopeColumns]))]
  | table =>
    rw [scope, scope, text_congr (h schemaColumn (by simp [scopeColumns])),
      text_congr (h tableColumn (by simp [scopeColumns]))]

theorem flag_congr (h : row' column = row column) : flag row' column = flag row column := by
  rw [flag, flag, cell, cell, h]

theorem flagged_congr {columns : List (String × Privilege)}
    (h : ∀ name ∈ columns.map Prod.fst, row' name = row name) :
    flagged row' columns = flagged row columns := by
  induction columns with
  | nil => rfl
  | cons entry columns ih =>
    obtain ⟨column, p⟩ := entry
    obtain ⟨hcolumn, hcolumns⟩ := List.forall_mem_cons.mp h
    rw [flagged, flagged, flag_congr hcolumn, ih hcolumns]

theorem held_congr (h : ∀ name ∈ c.heldColumns, row' name = row name) :
    held row' c = held row c := by
  cases c with
  | server | schema => exact flagged_congr h
  | table =>
    have hlist : row' listColumn = row listColumn := h listColumn (by simp [heldColumns])
    rw [held, held, privileges, privileges, cell, cell, hlist]

/-- **What a row says depends on the columns that are read.** -/
theorem entry_congr_reads (h : ∀ name ∈ c.reads, row' name = row name) :
    c.entry row' = c.entry row := by
  simp only [reads, List.forall_mem_append] at h
  obtain ⟨⟨hgrantee, hscope⟩, hheld⟩ := h
  rw [entry, entry, grantee_congr hgrantee, scope_congr hscope, held_congr hheld]

/-- A row with a cell under every name, of every kind that is asked for. -/
def fullRow : Row := fun name => some (if name = listColumn then .null else .text "Y")

/-- **Each of these columns is needed**: a row that can be read cannot be read without it. -/
theorem entry_without {name : String} (hname : name ∈ c.reads) :
    (∃ e, c.entry fullRow = .ok e) ∧
      c.entry (fun n => if n = name then none else fullRow n) = .error ⟨name, .missing⟩ := by
  have hread : (c.entry fullRow).isOk = true := by
    cases c <;> decide +kernel
  have hmissing : ∀ name ∈ c.reads,
      c.entry (fun n => if n = name then none else fullRow n) = .error ⟨name, .missing⟩ := by
    cases c <;> decide +kernel
  refine ⟨?_, hmissing name hname⟩
  cases hentry : c.entry fullRow with
  | ok e => exact ⟨e, rfl⟩
  | error f =>
    rw [hentry] at hread
    cases hread

/-! ### Whole answers -/

/-- **What is decoded depends only on what the columns are called.** If no two columns of an answer
share their names, up to the case of ASCII letters, then putting its columns in another order and
their names in another case, and putting in columns that are not read, in any number and order,
leaves what is decoded as it was, entries as well as faults. -/
theorem decode_relaid {answer answer' : ResultSet} (hr : answer.Rectangular)
    (hdistinct : answer.Distinct)
    (h : Relation.ReflTransGen (ResultSet.Change c.reads) answer answer') :
    c.decode answer' = c.decode answer := by
  have hcells := (ResultSet.SameCells.of_changes hr h).cell?_eq hr hdistinct
  refine (List.mapM_congr_of_forall₂ (hcells.imp fun row row' hrow => ?_)).symm
  exact (entry_congr_reads hrow).symm

/-- A row for `ann` on the table `orders` of the schema `shop`. -/
def plainAnswer : ResultSet :=
  .ofRows ["User", "Host", "Db", "Table_name", "Table_priv"]
    [[.text "ann", .text "%", .text "shop", .text "orders", .text "Select"]]

/-- The answer with the list in front. -/
def movedAnswer : ResultSet := plainAnswer.reorder [4, 2, 0, 1, 3]

/-- The answer with other spellings of its names as well. -/
def recasedAnswer : ResultSet :=
  movedAnswer.rename ["TABLE_PRIV", "db", "USER", "host", "table_name"]

/-- The answer with one more column, behind the list. -/
def relaidAnswer : ResultSet := recasedAnswer.insertColumn 1 "Grantor" [.bool true]

/-- The row says the same in both layouts. -/
theorem decode_relaid_ann :
    plainAnswer.Rectangular ∧ plainAnswer.Distinct ∧
      Relation.ReflTransGen (ResultSet.Change Catalog.table.reads) plainAnswer relaidAnswer ∧
      Catalog.table.decode relaidAnswer =
        .ok [⟨⟨"ann", "%"⟩, Grants.nothing.addAll (.table "shop" "orders") [.select]⟩] := by
  have hr : plainAnswer.Rectangular := ResultSet.rectangular_ofRows _ _
  have hdistinct : plainAnswer.Distinct := by decide
  have hmoved : ResultSet.Change Catalog.table.reads plainAnswer movedAnswer :=
    .reorder (by decide)
  have hrecased : ResultSet.Change Catalog.table.reads movedAnswer recasedAnswer :=
    .recase (by decide)
  have hinserted : ResultSet.Change Catalog.table.reads recasedAnswer relaidAnswer :=
    .insert (by decide) rfl (by decide)
  have hchanges :
      Relation.ReflTransGen (ResultSet.Change Catalog.table.reads) plainAnswer relaidAnswer :=
    ((Relation.ReflTransGen.single hmoved).tail hrecased).tail hinserted
  refine ⟨hr, hdistinct, hchanges, (decode_relaid hr hdistinct hchanges).trans ?_⟩
  decide +kernel

end Catalog

end GrantCatalog
