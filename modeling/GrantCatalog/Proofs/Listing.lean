import GrantCatalog.Error
import GrantCatalog.Proofs.Column
import GrantCatalog.Proofs.Fault
import GrantCatalog.Proofs.Spelling

/-!
# What the catalog for tables says

The third catalog has one column for all privileges, with a **list** of their names. The list comes
in two shapes, its elements one by one or in one text with commas between them, and its elements
may be written in many ways. None of this matters for what is read:

* both shapes of a list lead to the same outcome, be it an entry or a fault
  (`GrantCatalog.Catalog.decode_relisted`);
* the elements that are not blank have to be spellings of privileges
  (`GrantCatalog.Catalog.Spelling`), and just these privileges are granted;
* the first element that is none of either is the fault of the row
  (`GrantCatalog.Catalog.ListFault`).

`GrantCatalog.Catalog.decode_table` is this account for every answer whose other columns are in
order.
-/

namespace GrantCatalog

/-! ### Elements -/

namespace Cell

/-- **The elements of a list**, as they are written: one by one, or with commas between them. -/
inductive Elements : Cell → List String → Prop where
  | null : Elements .null []
  | list (items : List String) : Elements (.list items) items
  | text {items : List String} (hne : items ≠ []) (hitems : ∀ item ∈ items, ',' ∉ item.toList) :
      Elements (.text (",".intercalate items)) items

/-- **Two cells with the same list**: they are equal, or one has the elements one by one and the
other has them with commas between them. -/
inductive SameList : Cell → Cell → Prop where
  | refl (c : Cell) : SameList c c
  | joined {items : List String} (hitems : ∀ item ∈ items, ',' ∉ item.toList) :
      SameList (.list items) (.text (",".intercalate items))

end Cell

namespace Catalog

variable {row : Row} {column : String} {f : Fault} {items : List String} {ps : List Privilege}

theorem toList_intercalate_comma (items : List String) :
    (",".intercalate items).toList = [','].intercalate (items.map String.toList) :=
  String.toList_intercalate

/-- The commas in a text are found where they were put between the elements. -/
theorem elements?_joined (hne : items ≠ []) (hitems : ∀ item ∈ items, ',' ∉ item.toList) :
    elements? (.text (",".intercalate items)) = some (items.map String.toList) := by
  rw [elements?, toList_intercalate_comma, List.splitOn_intercalate]
  · intro piece hpiece
    obtain ⟨item, hitem, rfl⟩ := List.mem_map.mp hpiece
    exact hitems item hitem
  · simpa using hne

theorem elements?_eq_some_iff {cell : Cell} :
    elements? cell = some (items.map String.toList) ↔ cell.Elements items := by
  constructor
  · intro h
    cases cell with
    | null =>
      obtain rfl : items = [] := by simpa [elements?] using h
      exact .null
    | bool b => cases h
    | int n => cases h
    | text s =>
      obtain ⟨hne, hpieces, hjoin⟩ := Text.splitOn_eq_iff.mp (Option.some.inj h)
      have hs : s = ",".intercalate items := by
        rw [← String.toList_inj, toList_intercalate_comma, hjoin]
      rw [hs]
      refine .text (by simpa using hne) fun item hitem => ?_
      exact hpieces _ (List.mem_map_of_mem hitem)
    | list written =>
      have hmap : written.map String.toList = items.map String.toList := Option.some.inj h
      obtain rfl := List.map_injective_iff.mpr (fun _ _ => String.toList_injective) hmap
      exact .list written
  · intro h
    cases h with
    | null => rfl
    | list => rfl
    | text hne hitems => exact elements?_joined hne hitems

/-- A cell is a list, or it is a boolean or an integer. -/
theorem elements_cases (cell : Cell) :
    (∃ items, cell.Elements items) ∨ (∃ b, cell = .bool b) ∨ ∃ n, cell = .int n := by
  cases cell with
  | null => exact .inl ⟨[], .null⟩
  | bool b => exact .inr (.inl ⟨b, rfl⟩)
  | int n => exact .inr (.inr ⟨n, rfl⟩)
  | text s =>
    refine .inl ⟨(s.toList.splitOn ',').map String.ofList, elements?_eq_some_iff.mp ?_⟩
    rw [List.map_map]
    exact congrArg some (List.map_id'' (fun piece => String.toList_ofList) _).symm
  | list items => exact .inl ⟨items, .list items⟩

/-! ### Names -/

/-- **Some elements that spell some privileges**, with blank ones among them. -/
inductive Spelling : List String → List Privilege → Prop where
  | nil : Spelling [] []
  | blank {item : String} {items : List String} {ps : List Privilege}
      (hblank : Text.AllBlank item.toList) (h : Spelling items ps) : Spelling (item :: items) ps
  | name {item : String} {p : Privilege} {items : List String} {ps : List Privilege}
      (hp : p.Spells item) (h : Spelling items ps) : Spelling (item :: items) (p :: ps)

/-- An element that may stand in a list: a blank one, or a spelling of a privilege. -/
def Listable (item : String) : Prop := Text.AllBlank item.toList ∨ ∃ p : Privilege, p.Spells item

theorem Spelling.listable (h : Spelling items ps) : ∀ item ∈ items, Listable item := by
  induction h with
  | nil => exact fun _ h => absurd h List.not_mem_nil
  | blank hblank _ ih => exact List.forall_mem_cons.mpr ⟨.inl hblank, ih⟩
  | name hp _ ih => exact List.forall_mem_cons.mpr ⟨.inr ⟨_, hp⟩, ih⟩

/-- No comma stands in what may stand in a list. -/
theorem Listable.not_mem_comma {item : String} (h : Listable item) : ',' ∉ item.toList := by
  rcases h with hblank | ⟨p, hp⟩
  · exact hblank.not_mem rfl
  · exact hp.not_mem_comma

/-- What is read off the elements of a list. -/
def listed (column : String) (items : List String) : Except Fault (List Privilege) :=
  (((items.map String.toList).map Text.trim).filter (!·.isEmpty)).mapM (element column)

theorem listed_blank {item : String} (h : Text.AllBlank item.toList) (items : List String) :
    listed column (item :: items) = listed column items := by
  rw [listed, listed, List.map_cons, Text.filter_trim_cons_of_blank h]

theorem listed_cons {item : String} (h : ¬Text.AllBlank item.toList) (items : List String) :
    listed column (item :: items) = element column (Text.trim item.toList) >>= fun p =>
      (listed column items).map (p :: ·) := by
  rw [listed, List.map_cons, Text.filter_trim_cons h, List.mapM_cons]
  rfl

theorem element_trim_eq_ok_iff {item : String} {p : Privilege} :
    element column (Text.trim item.toList) = .ok p ↔ p.Spells item := by
  rw [element_eq_ok_iff, Privilege.ofName?_trim, String.ofList_toList,
    Privilege.ofName?_eq_some_iff]

theorem element_trim_eq_error_iff {item : String} :
    element column (Text.trim item.toList) = .error f ↔
      f = ⟨column, .unknownPrivilege (Text.trimmed item)⟩ ∧ ∀ p : Privilege, ¬p.Spells item := by
  have hok (p : Privilege) : p.Spells item ↔ element column (Text.trim item.toList) = .ok p :=
    element_trim_eq_ok_iff.symm
  simp only [hok]
  rw [element]
  cases Privilege.ofName? (String.ofList (Text.trim item.toList)) with
  | none => simp [Text.trimmed, eq_comm]
  | some p => simp

/-- **What is read off a list** are the privileges that it spells. -/
theorem listed_eq_ok_iff : listed column items = .ok ps ↔ Spelling items ps := by
  induction items generalizing ps with
  | nil =>
    constructor
    · intro h
      cases h
      exact .nil
    · intro h
      cases h
      rfl
  | cons item items ih =>
    by_cases hblank : Text.AllBlank item.toList
    · rw [listed_blank hblank, ih]
      constructor
      · exact .blank hblank
      · intro h
        cases h with
        | blank _ h => exact h
        | name hp _ => exact absurd hblank hp.not_allBlank
    · rw [listed_cons hblank, Except.bind_eq_ok_iff]
      simp only [element_trim_eq_ok_iff, Except.map_eq_ok_iff, ih]
      constructor
      · rintro ⟨p, hp, ps, h, rfl⟩
        exact .name hp h
      · intro h
        cases h with
        | blank hblank' _ => exact absurd hblank' hblank
        | name hp h => exact ⟨_, hp, _, h, rfl⟩

/-- **A list cannot be read** if an element is neither blank nor a spelling, and the first of these
is reported. -/
theorem listed_eq_error_iff :
    listed column items = .error f ↔ ∃ before item after, items = before ++ item :: after ∧
      (∀ i ∈ before, Listable i) ∧ ¬Listable item ∧
      f = ⟨column, .unknownPrivilege (Text.trimmed item)⟩ := by
  induction items with
  | nil => exact iff_of_false (fun h => by cases h) List.not_exists_first_nil
  | cons item items ih =>
    -- An element that may stand in a list can be left out.
    rw [List.exists_first_cons_iff, ← ih]
    by_cases hblank : Text.AllBlank item.toList
    · have hlistable : Listable item := .inl hblank
      simp [listed_blank hblank, hlistable]
    · have hlistable : Listable item ↔ ∃ p : Privilege, p.Spells item := or_iff_right hblank
      rw [listed_cons hblank, Except.bind_eq_error_iff]
      simp only [element_trim_eq_error_iff, element_trim_eq_ok_iff, Except.map_eq_error_iff,
        hlistable, not_exists, exists_and_right]
      rw [and_comm]

/-! ### Cells -/

theorem privileges_of_none (hrow : row column = none) :
    privileges row column = .error ⟨column, .missing⟩ := by
  rw [privileges, cell_eq_error_iff.mpr ⟨hrow, rfl⟩]
  rfl

/-- What is read off a cell that is found. -/
theorem privileges_of_cell {cell : Cell} (hrow : row column = some cell) :
    privileges row column = (elements? cell).elim (.error ⟨column, .notList cell⟩) fun pieces =>
      ((pieces.map Text.trim).filter (!·.isEmpty)).mapM (element column) := by
  rw [privileges, cell_eq_ok_iff.mpr hrow]
  cases h : elements? cell <;> simp only [bind, Except.bind, h] <;> rfl

/-- A list is read element by element. -/
theorem privileges_of_elements {cell : Cell} (hrow : row column = some cell)
    (hitems : cell.Elements items) : privileges row column = listed column items := by
  rw [privileges_of_cell hrow, elements?_eq_some_iff.mpr hitems]
  rfl

/-- **What is wrong with a list**: there is no column for it, or a boolean or an integer stands in
it, or it has an element that may not stand in it, the first of which is reported. -/
inductive ListFault (row : Row) (column : String) : CellFault → Prop where
  | missing (h : row column = none) : ListFault row column .missing
  | bool {b : Bool} (h : row column = some (.bool b)) : ListFault row column (.notList (.bool b))
  | int {n : Int64} (h : row column = some (.int n)) : ListFault row column (.notList (.int n))
  | element {cell : Cell} {before after : List String} {item : String} (h : row column = some cell)
      (hitems : cell.Elements (before ++ item :: after)) (hbefore : ∀ i ∈ before, Listable i)
      (hitem : ¬Listable item) : ListFault row column (.unknownPrivilege (Text.trimmed item))

/-- A column without a list of privileges in it. -/
inductive Unlisted (row : Row) (column : String) : Prop where
  | missing (h : row column = none)
  | bool {b : Bool} (h : row column = some (.bool b))
  | int {n : Int64} (h : row column = some (.int n))
  | element {cell : Cell} {items : List String} {item : String} (h : row column = some cell)
      (hitems : cell.Elements items) (hmem : item ∈ items)
      (hblank : ¬Text.AllBlank item.toList) (hname : ∀ p : Privilege, ¬p.Spells item)

theorem ListFault.privileges_eq {cause : CellFault} (h : ListFault row column cause) :
    privileges row column = .error ⟨column, cause⟩ := by
  cases h with
  | missing hrow => exact privileges_of_none hrow
  | bool hrow | int hrow => exact privileges_of_cell hrow
  | element hrow hitems hbefore hitem =>
    rw [privileges_of_elements hrow hitems]
    exact listed_eq_error_iff.mpr ⟨_, _, _, rfl, hbefore, hitem, rfl⟩

/-- **A column cannot be read** just if there is a fault in it. -/
theorem privileges_eq_error_iff :
    privileges row column = .error f ↔
      ∃ cause, f = ⟨column, cause⟩ ∧ ListFault row column cause := by
  constructor
  · intro h
    cases hrow : row column with
    | none =>
      rw [privileges_of_none hrow] at h
      exact ⟨_, (Except.error.inj h).symm, .missing hrow⟩
    | some cell =>
      rcases elements_cases cell with ⟨items, hitems⟩ | ⟨b, rfl⟩ | ⟨n, rfl⟩
      · rw [privileges_of_elements hrow hitems] at h
        obtain ⟨before, item, after, rfl, hbefore, hitem, rfl⟩ := listed_eq_error_iff.mp h
        exact ⟨_, rfl, .element hrow hitems hbefore hitem⟩
      · rw [privileges_of_cell hrow] at h
        exact ⟨_, (Except.error.inj h).symm, .bool hrow⟩
      · rw [privileges_of_cell hrow] at h
        exact ⟨_, (Except.error.inj h).symm, .int hrow⟩
  · rintro ⟨cause, rfl, h⟩
    exact h.privileges_eq

/-- A column with a fault is one without a list, whichever element is to blame. -/
theorem exists_listFault_iff : (∃ cause, ListFault row column cause) ↔ Unlisted row column := by
  constructor
  · rintro ⟨cause, h⟩
    cases h with
    | missing h => exact .missing h
    | bool h => exact .bool h
    | int h => exact .int h
    | element h hitems _ hitem =>
      obtain ⟨hblank, hname⟩ := not_or.mp hitem
      exact .element h hitems (by simp) hblank (not_exists.mp hname)
  · intro h
    cases h with
    | missing h => exact ⟨_, .missing h⟩
    | bool h => exact ⟨_, .bool h⟩
    | int h => exact ⟨_, .int h⟩
    | @element cell items item h hitems hmem hblank hname =>
      -- Some element may not stand in the list, so reading it fails, and that has a first cause.
      have hfail : ∃ f, privileges row column = .error f := by
        rw [privileges_of_elements h hitems, Except.exists_eq_error_iff]
        rintro ⟨ps, hps⟩
        rcases (listed_eq_ok_iff.mp hps).listable item hmem with hblank' | ⟨p, hp⟩
        · exact hblank hblank'
        · exact hname p hp
      obtain ⟨f, hf⟩ := hfail
      obtain ⟨cause, -, hcause⟩ := privileges_eq_error_iff.mp hf
      exact ⟨cause, hcause⟩

/-! ### Both shapes of a list -/

/-- Cells with the same list are read alike. -/
theorem listed_eq_of_sameList {row' : Row} {cell cell' : Cell} (hcells : cell.SameList cell')
    (hrow : row column = some cell) (hrow' : row' column = some cell') :
    privileges row' column = privileges row column := by
  cases hcells with
  | refl =>
    rw [privileges_of_cell hrow, privileges_of_cell hrow']
  | @joined items hitems =>
    rw [privileges_of_elements hrow (.list items)]
    by_cases hne : items = []
    · -- The text of no elements has a blank one.
      subst hne
      have hblank : Text.AllBlank "".toList := Text.allBlank_nil
      have helements : Cell.Elements (.text (",".intercalate [""])) [""] :=
        .text (by simp) (by simp)
      rw [privileges_of_elements hrow' helements, listed_blank hblank]
    · exact privileges_of_elements hrow' (.text hne hitems)

end Catalog

/-- **Two answers that differ in the shape of lists only**: they have the same columns, and rows
with the same cells but for the list column, where the cells have the same list. -/
structure ResultSet.Relisted (r r' : ResultSet) : Prop where
  columns_eq : r'.columns = r.columns
  rows_rel : List.Forall₂ (fun row row' =>
    (∀ i : Nat, r.column? Catalog.listColumn ≠ some i → row'[i]? = row[i]?) ∧
      Option.Rel Cell.SameList (r.cell? row Catalog.listColumn) (r.cell? row' Catalog.listColumn))
    r.rows r'.rows

namespace Catalog

/-- What is read off a row depends on five of its cells, the last one by way of the list in it. -/
theorem entry_congr {row row' : Row}
    (hcells : ∀ name ∈ [userColumn, hostColumn, schemaColumn, tableColumn], row' name = row name)
    (hlist : privileges row' listColumn = privileges row listColumn) :
    Catalog.table.entry row' = Catalog.table.entry row := by
  have htext : ∀ name ∈ [userColumn, hostColumn, schemaColumn, tableColumn],
      text row' name = text row name := fun name hname => text_congr (hcells name hname)
  simp only [entry, grantee, scope, held, hlist, htext userColumn (by simp),
    htext hostColumn (by simp), htext schemaColumn (by simp), htext tableColumn (by simp)]

/-- **Both shapes of a list lead to the same outcome.** -/
theorem decode_relisted {answer answer' : ResultSet} (h : answer.Relisted answer') :
    Catalog.table.decode answer' = Catalog.table.decode answer := by
  refine (List.mapM_congr_of_forall₂ (h.rows_rel.imp fun row row' hrow => ?_)).symm
  obtain ⟨hcells, hlist⟩ := hrow
  have hcell (name : String) : answer'.cell? row' name = answer.cell? row' name := by
    simp only [ResultSet.cell?, ResultSet.column?, h.columns_eq]
  refine (entry_congr (fun name hname => ?_) ?_).symm
  · have hne : ∀ name ∈ [userColumn, hostColumn, schemaColumn, tableColumn],
        Text.sameLetters name listColumn = false := by
      decide
    rw [hcell, ResultSet.cell?, ResultSet.cell?]
    cases hcolumn : answer.column? name with
    | none => rfl
    | some i => exact hcells i (ResultSet.column?_ne (hne name hname) hcolumn)
  · rw [← hcell] at hlist
    generalize hc : answer.cell? row listColumn = c at hlist
    generalize hc' : answer'.cell? row' listColumn = c' at hlist
    cases hlist with
    | none => rw [privileges, privileges, cell, cell, hc, hc']
    | some hcells => exact listed_eq_of_sameList hcells hc hc'

/-! ### Whole answers -/

/-- **A cell with a list of privileges**, in either shape or empty. -/
inductive Lists : Cell → List Privilege → Prop where
  | null : Lists .null []
  | list {items : List String} {ps : List Privilege} (h : Spelling items ps) :
      Lists (.list items) ps
  | text {items : List String} {ps : List Privilege} (h : Spelling items ps) :
      Lists (.text (",".intercalate items)) ps

theorem Lists.privileges_eq {cell : Cell} (h : Lists cell ps) (hrow : row column = some cell) :
    privileges row column = .ok ps := by
  cases h with
  | null => exact (privileges_of_elements hrow .null).trans (listed_eq_ok_iff.mpr .nil)
  | list h => exact (privileges_of_elements hrow (.list _)).trans (listed_eq_ok_iff.mpr h)
  | @text items ps h =>
    have hshape : Cell.SameList (.list items) (.text (",".intercalate items)) :=
      .joined fun item hitem => (h.listable item hitem).not_mem_comma
    have hlist : privileges (fun _ => some (.list items)) column = .ok ps :=
      (privileges_of_elements rfl (.list items)).trans (listed_eq_ok_iff.mpr h)
    exact (listed_eq_of_sameList hshape rfl hrow).trans hlist

/-- **A column can be read** just if a list of privileges is in it, and these are what is read. -/
theorem privileges_eq_ok_iff :
    privileges row column = .ok ps ↔ ∃ cell, row column = some cell ∧ Lists cell ps := by
  constructor
  · intro h
    cases hrow : row column with
    | none => cases (privileges_of_none hrow).symm.trans h
    | some cell =>
      refine ⟨cell, rfl, ?_⟩
      rcases elements_cases cell with ⟨items, hitems⟩ | ⟨b, rfl⟩ | ⟨n, rfl⟩
      · rw [privileges_of_elements hrow hitems, listed_eq_ok_iff] at h
        cases hitems with
        | null =>
          cases h
          exact .null
        | list => exact .list h
        | text => exact .text h
      · cases (privileges_of_cell hrow).symm.trans h
      · cases (privileges_of_cell hrow).symm.trans h
  · rintro ⟨cell, hrow, h⟩
    exact h.privileges_eq hrow

/-- A row whose other columns are in order is as good as its list. -/
theorem entry_of_named {g : Grantee} {s : Scope} (hg : IsNamed row g) (hs : IsOn row .table s) :
    Catalog.table.entry row =
      (privileges row listColumn).map fun ps => ⟨g, Grants.nothing.addAll s ps⟩ := by
  rw [entry, grantee_eq_ok_iff.mpr hg, scope_eq_ok_iff.mpr hs]
  rfl

/-- **What a row with a list says**: the privileges of the list, on the table of the row. -/
theorem exactly_of_lists {e : Entry} (h : Catalog.table.entry row = .ok e) {cell : Cell}
    (hrow : row listColumn = some cell) (hps : Lists cell ps) :
    e.grants.Exactly fun s p => IsOn row .table s ∧ p ∈ ps := by
  have hheld : held row .table = .ok ps := privileges_eq_ok_iff.mpr ⟨cell, hrow, hps⟩
  refine (proper_of_entry_eq_ok h).exactly fun s p => ?_
  rw [mem_own_of_entry_eq_ok h, hheld, scope_eq_ok_iff]
  simp only [Except.ok.injEq, exists_eq_left']

section

/- The grantee and the scope of the row are in order. -/
variable (hrow : (∃ g, IsNamed row g) ∧ ∃ s, IsOn row .table s)
include hrow

theorem exists_entry_eq_ok_iff_lists :
    (∃ e, Catalog.table.entry row = .ok e) ↔
      ∃ cell ps, row listColumn = some cell ∧ Lists cell ps := by
  obtain ⟨⟨g, hg⟩, s, hs⟩ := hrow
  simp only [entry_of_named hg hs, Except.map_eq_ok_iff, privileges_eq_ok_iff]
  constructor
  · rintro ⟨e, ps, ⟨cell, hcell, hps⟩, -⟩
    exact ⟨cell, ps, hcell, hps⟩
  · rintro ⟨cell, ps, hcell, hps⟩
    exact ⟨_, ps, ⟨cell, hcell, hps⟩, rfl⟩

theorem entry_eq_error_iff_listFault :
    Catalog.table.entry row = .error f ↔
      ∃ cause, f = ⟨listColumn, cause⟩ ∧ ListFault row listColumn cause := by
  obtain ⟨⟨g, hg⟩, s, hs⟩ := hrow
  rw [entry_of_named hg hs, Except.map_eq_error_iff, privileges_eq_error_iff]

theorem exists_entry_eq_ok_iff_not_unlisted :
    (∃ e, Catalog.table.entry row = .ok e) ↔ ¬Unlisted row listColumn := by
  rw [← not_iff_not, not_not, ← Except.exists_eq_error_iff, ← exists_listFault_iff]
  simp only [entry_eq_error_iff_listFault hrow]
  constructor
  · rintro ⟨f, cause, -, h⟩
    exact ⟨cause, h⟩
  · rintro ⟨cause, h⟩
    exact ⟨_, cause, rfl, h⟩

end

/-- **What the catalog for tables says**, if the other columns of all rows are in order. It does not
matter in which shape a list comes. If every row has a list whose elements spell some privileges,
with blank ones among them, then the answer can be read, and each row grants just the privileges of
its list on just its table. The answer cannot be read just if some row has no such list, and then
it fails with the first fault of the first such row. -/
theorem decode_table (answer : ResultSet) (hrows : ∀ row ∈ answer.rows,
    (∃ g, IsNamed (answer.cell? row) g) ∧ ∃ s, IsOn (answer.cell? row) .table s) :
    (∀ row name cell, answer.cell? row name = some cell ↔ answer.Holds row name cell) ∧
      (∀ answer', answer.Relisted answer' →
        Catalog.table.decode answer' = Catalog.table.decode answer) ∧
      ((∃ es, Catalog.table.decode answer = .ok es) ↔ ∀ row ∈ answer.rows,
        ∃ cell ps, answer.cell? row listColumn = some cell ∧ Lists cell ps) ∧
      (∀ es, Catalog.table.decode answer = .ok es → List.Forall₂ (fun row e =>
        IsNamed (answer.cell? row) e.grantee ∧
          ∀ cell ps, answer.cell? row listColumn = some cell → Lists cell ps →
            e.grants.Exactly fun s p => IsOn (answer.cell? row) .table s ∧ p ∈ ps)
        answer.rows es) ∧
      ((∃ f, Catalog.table.decode answer = .error f) ↔
        ∃ row ∈ answer.rows, Unlisted (answer.cell? row) listColumn) ∧
      ∀ e, (Catalog.table.decode answer).mapError (Error.decode .table) = .error e ↔
        ∃ cause before row after, e = .decode .table ⟨listColumn, cause⟩ ∧
          answer.rows = before ++ row :: after ∧
          (∀ r ∈ before, ¬Unlisted (answer.cell? r) listColumn) ∧
          ListFault (answer.cell? row) listColumn cause := by
  refine ⟨fun row name cell => ResultSet.cell?_eq_some_iff, fun answer' => decode_relisted,
    ?_, fun es h => ?_, ?_, fun e => ?_⟩
  · rw [decode, List.exists_mapM_eq_ok_iff]
    exact forall₂_congr fun row hrow => exists_entry_eq_ok_iff_lists (hrows row hrow)
  · refine (List.mapM_eq_ok_iff.mp h).imp fun row e he => ⟨?_, fun cell ps hcell hps => ?_⟩
    · exact grantee_eq_ok_iff.mp (entry_eq_ok_iff.mp he).1
    · exact exactly_of_lists he hcell hps
  · rw [Except.exists_eq_error_iff, decode, List.exists_mapM_eq_ok_iff]
    push Not
    refine exists_congr fun row => and_congr_right fun hrow => ?_
    rw [← not_exists, exists_entry_eq_ok_iff_not_unlisted (hrows row hrow), not_not]
  · simp only [Except.mapError_eq_error_iff, decode_eq_error_iff]
    constructor
    · rintro ⟨f, ⟨before, row, after, hsplit, hbefore, h⟩, rfl⟩
      have hrow (r) (hr : r ∈ before ++ row :: after) := hrows r (hsplit ▸ hr)
      obtain ⟨cause, rfl, hcause⟩ := (entry_eq_error_iff_listFault (hrow row (by simp))).mp h
      refine ⟨cause, before, row, after, rfl, hsplit, fun r hr => ?_, hcause⟩
      exact (exists_entry_eq_ok_iff_not_unlisted (hrow r (by simp [hr]))).mp (hbefore r hr)
    · rintro ⟨cause, before, row, after, rfl, hsplit, hbefore, hcause⟩
      have hrow (r) (hr : r ∈ before ++ row :: after) := hrows r (hsplit ▸ hr)
      refine ⟨_, ⟨before, row, after, hsplit, fun r hr => ?_, ?_⟩, rfl⟩
      · exact (exists_entry_eq_ok_iff_not_unlisted (hrow r (by simp [hr]))).mpr (hbefore r hr)
      · exact (entry_eq_error_iff_listFault (hrow row (by simp))).mpr ⟨cause, rfl, hcause⟩

/-- A row for `ann` on the table `orders` of the schema `shop`, for each cell with a list. -/
def ordersAnswer (cells : List Cell) : ResultSet :=
  .ofRows ["User", "Host", "Db", "Table_name", "TABLE_PRIV"]
    (cells.map fun cell => [.text "ann", .text "%", .text "shop", .text "orders", cell])

/-- The columns in front of the list are in order. -/
theorem named_orders (cells : List Cell) : ∀ row ∈ (ordersAnswer cells).rows,
    (∃ g, IsNamed ((ordersAnswer cells).cell? row) g) ∧
      ∃ s, IsOn ((ordersAnswer cells).cell? row) .table s := by
  intro row hrow
  rw [ordersAnswer, ResultSet.rows_ofRows, List.map_map] at hrow
  obtain ⟨cell, -, rfl⟩ := List.mem_map.mp hrow
  refine ⟨⟨⟨"ann", "%"⟩, ⟨?_, ?_⟩, by decide, by decide⟩, .table "shop" "orders", .table ?_ ?_⟩
  all_goals
    simp only [ResultSet.cell?, ResultSet.column?, ordersAnswer, ResultSet.columns_ofRows]
    rfl

/-- Names with a blank element between them grant what they name, on their table and not on its
schema, and an element that is no name is what is wrong with a list. -/
theorem decode_table_orders :
    (∃ e, Catalog.table.decode (ordersAnswer [.text "select,, CREATE_view "]) = .ok [e] ∧
      .createView ∈ e.grants.own (.table "shop" "orders") ∧
      .createView ∉ e.grants.own (.schema "shop")) ∧
    (∃ row ∈ (ordersAnswer [.null, .list ["select", "all"]]).rows,
      Unlisted ((ordersAnswer [.null, .list ["select", "all"]]).cell? row) listColumn) := by
  refine ⟨?_, ?_⟩
  · have hdecode : Catalog.table.decode (ordersAnswer [.text "select,, CREATE_view "]) =
        .ok [⟨⟨"ann", "%"⟩,
          Grants.nothing.addAll (.table "shop" "orders") [.select, .createView]⟩] := by
      decide +kernel
    have hspelling : Spelling ["select", "", " CREATE_view "] [.select, .createView] := by
      refine .name ?_ (.blank ?_ (.name ?_ .nil))
      · exact Privilege.ofName?_eq_some_iff.mp (by decide +kernel)
      · simp [Text.AllBlank]
      · exact Privilege.ofName?_eq_some_iff.mp (by decide +kernel)
    obtain ⟨-, -, -, hentries, -⟩ :=
      decode_table (ordersAnswer [.text "select,, CREATE_view "]) (named_orders _)
    obtain ⟨⟨-, hlist⟩, -⟩ := List.forall₂_cons.mp (hentries _ hdecode)
    have hexactly := hlist _ _ (by decide +kernel) (.text hspelling)
    refine ⟨_, hdecode, (hexactly.mem_own_iff _ _).mpr ⟨?_, by simp⟩, fun hschema => ?_⟩
    · exact .table (by decide +kernel) (by decide +kernel)
    · obtain ⟨hon, -⟩ := (hexactly.mem_own_iff _ _).mp hschema
      cases hon
  · have hdecode : Catalog.table.decode (ordersAnswer [.null, .list ["select", "all"]]) =
        .error ⟨listColumn, .unknownPrivilege "all"⟩ := by
      decide +kernel
    obtain ⟨-, -, -, -, hfails, -⟩ :=
      decode_table (ordersAnswer [.null, .list ["select", "all"]]) (named_orders _)
    exact hfails.mp ⟨_, hdecode⟩

end Catalog

end GrantCatalog
