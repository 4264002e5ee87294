import GrantCatalog.Proofs.Grantee
import GrantCatalog.Proofs.Row

/-!
# What is wrong with a row

A row is read column by column and the first column that cannot be read makes the whole answer
unreadable. So there are two accounts of a row to be given for each thing that is read off it, and
they exclude each other:

| what is read | it can be read | it cannot |
|---|---|---|
| the grantee | `GrantCatalog.Catalog.IsNamed` | `GrantCatalog.Catalog.GranteeFault` |
| the scope | `GrantCatalog.Catalog.IsOn` | `GrantCatalog.Catalog.ScopeFault` |
| the flags | `GrantCatalog.Catalog.IsFlag`, for each | `GrantCatalog.Catalog.FlagFault` |

The accounts on the right carry the **order** of reading with them: the fault of a column comes with
the cells of the columns in front of it, which are in order.
`GrantCatalog.Catalog.entry_eq_error_iff` and `GrantCatalog.Catalog.decode_eq_error_iff` put them
together for a row and for a whole answer.
-/

namespace GrantCatalog.Catalog

variable {c : Catalog} {row : Row} {column : String} {f : Fault}

/-! ### Texts -/

/-- A column without a text, and what is wrong with it. -/
inductive NoText (row : Row) (column : String) : CellFault → Prop where
  | missing (h : row column = none) : NoText row column .missing
  | notText {cell : Cell} (h : row column = some cell) (hcell : ∀ s, cell ≠ .text s) :
      NoText row column (.notText cell)

theorem cell_eq_error_iff :
    cell row column = .error f ↔ row column = none ∧ f = ⟨column, .missing⟩ := by
  rw [cell]
  cases row column with
  | none => simp [eq_comm]
  | some c => simp

theorem text_eq_error_iff :
    text row column = .error f ↔ ∃ cause, f = ⟨column, cause⟩ ∧ NoText row column cause := by
  rw [text, Except.bind_eq_error_iff]
  simp only [cell_eq_error_iff, cell_eq_ok_iff]
  constructor
  · rintro (⟨hrow, rfl⟩ | ⟨cell, hrow, h⟩)
    · exact ⟨_, rfl, .missing hrow⟩
    · cases cell with
      | text s => cases h
      | null | bool _ | int _ | list _ =>
        obtain rfl := Except.error.inj h
        exact ⟨_, rfl, .notText hrow fun s h => by cases h⟩
  · rintro ⟨cause, rfl, h⟩
    cases h with
    | missing hrow => exact .inl ⟨hrow, rfl⟩
    | @notText cell hrow hcell =>
      refine .inr ⟨cell, hrow, ?_⟩
      cases cell with
      | text s => exact absurd rfl (hcell s)
      | null | bool _ | int _ | list _ => rfl

/-! ### Grantees -/

/-- **A row about a grantee** neither part of which is empty. -/
structure IsNamed (row : Row) (g : Grantee) : Prop extends IsAbout row g where
  username_ne : g.username ≠ ""
  hostname_ne : g.hostname ≠ ""

/-- **What is wrong with the grantee of a row**: the first of its two columns without a text or, if
both have one, an empty part, for which the user column is blamed. -/
inductive GranteeFault (row : Row) : Fault → Prop where
  | user {cause : CellFault} (h : NoText row userColumn cause) :
      GranteeFault row ⟨userColumn, cause⟩
  | host {u : String} {cause : CellFault} (hu : row userColumn = some (.text u))
      (h : NoText row hostColumn cause) : GranteeFault row ⟨hostColumn, cause⟩
  | noUsername {w : String} (hu : row userColumn = some (.text ""))
      (hw : row hostColumn = some (.text w)) :
      GranteeFault row ⟨userColumn, .badGrantee (.noUsername w)⟩
  | noHostname {u : String} (hu : row userColumn = some (.text u)) (hne : u ≠ "")
      (hw : row hostColumn = some (.text "")) :
      GranteeFault row ⟨userColumn, .badGrantee (.noHostname u)⟩

/-- The grantee is read from two texts, and a fault of it is put down to the user column. -/
theorem grantee_eq (row : Row) :
    grantee row = text row userColumn >>= fun u => text row hostColumn >>= fun w =>
      (Grantee.ofParts u w).mapError fun fault => ⟨userColumn, .badGrantee fault⟩ := by
  refine bind_congr fun u => bind_congr fun w => ?_
  cases Grantee.ofParts u w <;> rfl

theorem grantee_eq_ok_iff {g : Grantee} : grantee row = .ok g ↔ IsNamed row g := by
  simp only [grantee_eq, Except.bind_eq_ok_iff, Except.mapError_eq_ok_iff, text_eq_ok_iff,
    Grantee.ofParts_eq_ok_iff]
  constructor
  · rintro ⟨u, hu, w, hw, hune, hwne, rfl⟩
    exact ⟨⟨hu, hw⟩, hune, hwne⟩
  · rintro ⟨⟨hu, hw⟩, hune, hwne⟩
    exact ⟨_, hu, _, hw, hune, hwne, rfl⟩

theorem grantee_eq_error_iff : grantee row = .error f ↔ GranteeFault row f := by
  simp only [grantee_eq, Except.bind_eq_error_iff, Except.mapError_eq_error_iff, text_eq_ok_iff,
    text_eq_error_iff, Grantee.ofParts_eq_error_iff]
  constructor
  · rintro (⟨cause, rfl, h⟩ | ⟨u, hu, ⟨cause, rfl, h⟩ | ⟨w, hw, fault, h, rfl⟩⟩)
    · exact .user h
    · exact .host hu h
    · rcases h with ⟨rfl, rfl⟩ | ⟨hne, rfl, rfl⟩
      · exact .noUsername hu hw
      · exact .noHostname hu hne hw
  · intro h
    cases h with
    | user h => exact .inl ⟨_, rfl, h⟩
    | host hu h => exact .inr ⟨_, hu, .inl ⟨_, rfl, h⟩⟩
    | noUsername hu hw => exact .inr ⟨_, hu, .inr ⟨_, hw, _, .inl ⟨rfl, rfl⟩, rfl⟩⟩
    | noHostname hu hne hw => exact .inr ⟨_, hu, .inr ⟨_, hw, _, .inr ⟨hne, rfl, rfl⟩, rfl⟩⟩

/-! ### Scopes -/

/-- **A row on a scope**: the columns that a catalog has for its scopes hold the texts of it. -/
inductive IsOn (row : Row) : Catalog → Scope → Prop where
  | server : IsOn row .server .server
  | schema {s : String} (hs : row schemaColumn = some (.text s)) : IsOn row .schema (.schema s)
  | table {s t : String} (hs : row schemaColumn = some (.text s))
      (ht : row tableColumn = some (.text t)) : IsOn row .table (.table s t)

/-- **What is wrong with the scope of a row**: the first of its columns without a text. -/
inductive ScopeFault (row : Row) : Catalog → Fault → Prop where
  | schema {cause : CellFault} (h : NoText row schemaColumn cause) :
      ScopeFault row .schema ⟨schemaColumn, cause⟩
  | schemaOfTable {cause : CellFault} (h : NoText row schemaColumn cause) :
      ScopeFault row .table ⟨schemaColumn, cause⟩
  | table {s : String} {cause : CellFault} (hs : row schemaColumn = some (.text s))
      (h : NoText row tableColumn cause) : ScopeFault row .table ⟨tableColumn, cause⟩

theorem scope_eq_ok_iff {s : Scope} : scope row c = .ok s ↔ IsOn row c s := by
  constructor
  · intro h
    cases c with
    | server =>
      cases h
      exact .server
    | schema =>
      obtain ⟨s, hs, h⟩ := Except.bind_eq_ok_iff.mp h
      cases h
      exact .schema (text_eq_ok_iff.mp hs)
    | table =>
      obtain ⟨s, hs, h⟩ := Except.bind_eq_ok_iff.mp h
      obtain ⟨t, ht, h⟩ := Except.bind_eq_ok_iff.mp h
      cases h
      exact .table (text_eq_ok_iff.mp hs) (text_eq_ok_iff.mp ht)
  · intro h
    cases h with
    | server => rfl
    | schema hs => exact scope_eq_schema_iff.mpr hs
    | table hs ht => exact scope_eq_table_iff.mpr ⟨hs, ht⟩

theorem scope_eq_error_iff : scope row c = .error f ↔ ScopeFault row c f := by
  cases c with
  | server => exact iff_of_false (fun h => by cases h) (fun h => by cases h)
  | schema =>
    rw [scope, Except.bind_eq_error_iff, text_eq_error_iff]
    constructor
    · rintro (⟨cause, rfl, h⟩ | ⟨s, -, h⟩)
      · exact .schema h
      · cases h
    · rintro (h | - | -)
      exact .inl ⟨_, rfl, h⟩
  | table =>
    simp only [scope, Except.bind_eq_error_iff, text_eq_error_iff, text_eq_ok_iff]
    constructor
    · rintro (⟨cause, rfl, h⟩ | ⟨s, hs, ⟨cause, rfl, h⟩ | ⟨t, -, h⟩⟩)
      · exact .schemaOfTable h
      · exact .table hs h
      · cases h
    · rintro (- | h | ⟨hs, h⟩)
      · exact .inl ⟨_, rfl, h⟩
      · exact .inr ⟨_, hs, .inl ⟨_, rfl, h⟩⟩

/-! ### Flags -/

/-- A column with a flag, be it set or not. -/
def IsFlag (row : Row) (column : String) : Prop :=
  ∃ cell, row column = some cell ∧ (cell.Truthy ∨ cell.Falsy)

/-- A column without a flag, and what is wrong with it. -/
inductive NoFlag (row : Row) (column : String) : CellFault → Prop where
  | missing (h : row column = none) : NoFlag row column .missing
  | notFlag {cell : Cell} (h : row column = some cell) (hyes : ¬cell.Truthy) (hno : ¬cell.Falsy) :
      NoFlag row column (.notFlag cell)

/-- **What is wrong with the flags of a row**: the first of their columns without a flag. -/
inductive FlagFault (row : Row) (columns : List (String × Privilege)) : Fault → Prop where
  | mk {before after : List (String × Privilege)} {column : String} {p : Privilege}
      {cause : CellFault} (hcolumns : columns = before ++ (column, p) :: after)
      (hbefore : ∀ entry ∈ before, IsFlag row entry.1) (h : NoFlag row column cause) :
      FlagFault row columns ⟨column, cause⟩

/-- A cell is a flag if it is one that is set or one that is not. -/
theorem exists_flag?_iff {cell : Cell} :
    (∃ b, flag? cell = some b) ↔ cell.Truthy ∨ cell.Falsy := by
  rw [Bool.exists_bool, flag?_eq_some_false_iff, flag?_eq_some_true_iff, or_comm]

theorem exists_flag_eq_ok_iff : (∃ b, flag row column = .ok b) ↔ IsFlag row column := by
  simp only [flag_eq_ok_iff, IsFlag, ← exists_flag?_iff]
  constructor
  · rintro ⟨b, cell, hrow, hb⟩
    exact ⟨cell, hrow, b, hb⟩
  · rintro ⟨cell, hrow, b, hb⟩
    exact ⟨b, cell, hrow, hb⟩

theorem flag_eq_error_iff :
    flag row column = .error f ↔ ∃ cause, f = ⟨column, cause⟩ ∧ NoFlag row column cause := by
  rw [flag, Except.bind_eq_error_iff]
  simp only [cell_eq_error_iff, cell_eq_ok_iff]
  constructor
  · rintro (⟨hrow, rfl⟩ | ⟨cell, hrow, h⟩)
    · exact ⟨_, rfl, .missing hrow⟩
    · cases hflag : flag? cell with
      | some b =>
        rw [hflag] at h
        cases h
      | none =>
        rw [hflag] at h
        obtain rfl := Except.error.inj h
        have hno : ¬(cell.Truthy ∨ cell.Falsy) := by
          rw [← exists_flag?_iff, hflag]
          simp
        exact ⟨_, rfl, .notFlag hrow (fun hyes => hno (.inl hyes)) fun hno' => hno (.inr hno')⟩
  · rintro ⟨cause, rfl, h⟩
    cases h with
    | missing hrow => exact .inl ⟨hrow, rfl⟩
    | @notFlag cell hrow hyes hno =>
      refine .inr ⟨cell, hrow, ?_⟩
      cases hflag : flag? cell with
      | some b => exact absurd (exists_flag?_iff.mp ⟨b, hflag⟩) (not_or.mpr ⟨hyes, hno⟩)
      | none => rfl

/-- Flags are collected just if each of them can be read, and fail with the first that cannot. -/
theorem flagged_eq_error_iff_mapM {columns : List (String × Privilege)} :
    flagged row columns = .error f ↔ (columns.mapM fun entry => flag row entry.1) = .error f := by
  induction columns with
  | nil => exact iff_of_false (fun h => by cases h) (fun h => by cases h)
  | cons entry columns ih =>
    obtain ⟨column, p⟩ := entry
    rw [flagged, List.mapM_cons, Except.bind_eq_error_iff, Except.bind_eq_error_iff]
    refine or_congr_right (exists_congr fun set => and_congr_right fun _ => ?_)
    rw [Except.bind_eq_error_iff, Except.bind_eq_error_iff, ih]
    refine or_congr_right (iff_of_false ?_ ?_)
    · rintro ⟨ps, -, h⟩
      cases h
    · rintro ⟨bs, -, h⟩
      cases h

theorem exists_flagged_eq_ok_iff {columns : List (String × Privilege)} :
    (∃ ps, flagged row columns = .ok ps) ↔ ∀ entry ∈ columns, IsFlag row entry.1 := by
  have hfail : (∃ ps, flagged row columns = .ok ps) ↔
      ∃ bs, (columns.mapM fun entry => flag row entry.1) = .ok bs := by
    rw [← not_iff_not, ← Except.exists_eq_error_iff, ← Except.exists_eq_error_iff]
    exact exists_congr fun f => flagged_eq_error_iff_mapM
  rw [hfail, List.exists_mapM_eq_ok_iff]
  simp only [exists_flag_eq_ok_iff]

theorem flagged_eq_error_iff {columns : List (String × Privilege)} :
    flagged row columns = .error f ↔ FlagFault row columns f := by
  rw [flagged_eq_error_iff_mapM, List.mapM_eq_error_iff]
  simp only [exists_flag_eq_ok_iff, flag_eq_error_iff]
  constructor
  · rintro ⟨before, ⟨column, p⟩, after, hcolumns, hbefore, cause, rfl, h⟩
    exact .mk hcolumns hbefore h
  · rintro ⟨hcolumns, hbefore, h⟩
    exact ⟨_, _, _, hcolumns, hbefore, _, rfl, h⟩

/-! ### Whole rows and answers -/

/-- **A row fails as the first of its pieces does that fails**: its grantee, its scope, or what it
says is held. -/
theorem entry_eq_error_iff :
    c.entry row = .error f ↔ GranteeFault row f ∨ ∃ g, IsNamed row g ∧
      (ScopeFault row c f ∨ ∃ s, IsOn row c s ∧ held row c = .error f) := by
  simp only [entry, Except.bind_eq_error_iff, grantee_eq_error_iff, grantee_eq_ok_iff,
    scope_eq_error_iff, scope_eq_ok_iff]
  refine or_congr_right (exists_congr fun g => and_congr_right fun _ => or_congr_right
    (exists_congr fun s => and_congr_right fun _ => ?_))
  constructor
  · rintro (h | ⟨ps, -, h⟩)
    · exact h
    · cases h
  · exact .inl

/-- **An answer fails as its first row does that fails.** -/
theorem decode_eq_error_iff {answer : ResultSet} :
    c.decode answer = .error f ↔ ∃ before row after, answer.rows = before ++ row :: after ∧
      (∀ r ∈ before, ∃ e, c.entry (answer.cell? r) = .ok e) ∧
      c.entry (answer.cell? row) = .error f :=
  List.mapM_eq_error_iff

end GrantCatalog.Catalog
