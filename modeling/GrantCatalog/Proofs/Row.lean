import GrantCatalog.Proofs.Catalog
import GrantCatalog.Proofs.Text

/-!
# The cells behind a grant

What has to stand in a row for the row to grant a privilege, said cell by cell and without the
order in which the cells are read:

* the user and host columns hold the texts of the grantee (`GrantCatalog.Catalog.IsAbout`);
* the scope columns hold the texts of the scope;
* the flag column of the privilege holds a cell that **grants** (`GrantCatalog.Cell.Truthy`) or, in
  the catalog for tables, the list column holds a cell that **names** the privilege
  (`GrantCatalog.Cell.Names`).

`GrantCatalog.Catalog.Bears` puts these together, and a row that can be read at all grants just
what its cells bear out (`GrantCatalog.Catalog.bears_iff`).
-/

namespace GrantCatalog

namespace Cell

/-- **A flag that is set**: true, an integer other than zero, or a text that spells a yes, with any
padding and in any case. -/
inductive Truthy : Cell → Prop where
  | bool : Truthy (.bool true)
  | int {n : Int64} (hn : n ≠ 0) : Truthy (.int n)
  | text {s : String}
      (hs : String.ofList (Text.upper (Text.trim s.toList)) ∈ ["Y", "YES", "TRUE", "1"]) :
      Truthy (.text s)

/-- **A flag that is not set**: nothing, false, zero, or a text that spells a no or nothing, with
any padding and in any case. -/
inductive Falsy : Cell → Prop where
  | null : Falsy .null
  | bool : Falsy (.bool false)
  | int : Falsy (.int 0)
  | text {s : String}
      (hs : String.ofList (Text.upper (Text.trim s.toList)) ∈ ["N", "NO", "FALSE", "0", ""]) :
      Falsy (.text s)

/-- **A list that names a privilege**: one of its elements does, be they written with commas in
between or one by one. -/
inductive Names (p : Privilege) : Cell → Prop where
  | text {s : String} {item : List Char} (hitem : item ∈ s.toList.splitOn ',')
      (hp : Privilege.ofName? (.ofList item) = some p) : Names p (.text s)
  | list {items : List String} {item : String} (hitem : item ∈ items)
      (hp : Privilege.ofName? item = some p) : Names p (.list items)

end Cell

namespace Privilege

/-- Padding around the name of a privilege does not count. -/
theorem ofName?_trim (item : List Char) :
    ofName? (.ofList (Text.trim item)) = ofName? (.ofList item) := by
  simp only [ofName?, canonical, String.toList_ofList, Text.trim_trim]

/-- A blank text names no privilege. -/
theorem ofName?_eq_none_of_blank {item : List Char} (h : Text.trim item = []) :
    ofName? (.ofList item) = none := by
  rw [← ofName?_trim, h, ofName?, List.find?_eq_none]
  intro p _
  cases p <;> decide

end Privilege

namespace Catalog

/-! ### Flags -/

/-- A text that spells a yes is a flag that is set. -/
theorem flagText?_eq_some_true_iff {s : String} : flagText? s = some true ↔
    String.ofList (Text.upper (Text.trim s.toList)) ∈ ["Y", "YES", "TRUE", "1"] := by
  simp only [flagText?]
  split
  · next hyes => exact iff_of_true rfl hyes
  · next hyes =>
    refine iff_of_false ?_ hyes
    split <;> simp

/-- A text that spells a no, or nothing, is a flag that is not set. -/
theorem flagText?_eq_some_false_iff {s : String} : flagText? s = some false ↔
    String.ofList (Text.upper (Text.trim s.toList)) ∈ ["N", "NO", "FALSE", "0", ""] := by
  simp only [flagText?]
  split
  · next hyes =>
    -- No word is both a yes and a no.
    have hdisjoint : ∀ w ∈ ["Y", "YES", "TRUE", "1"], w ∉ ["N", "NO", "FALSE", "0", ""] := by
      decide
    exact iff_of_false (by simp) (hdisjoint _ hyes)
  · split
    · next hno => exact iff_of_true rfl hno
    · next hno => exact iff_of_false (by simp) hno

theorem flag?_eq_some_true_iff {c : Cell} : flag? c = some true ↔ c.Truthy := by
  constructor
  · intro h
    cases c with
    | null => cases h
    | bool b =>
      obtain rfl := Option.some.inj h
      exact .bool
    | int n =>
      have hn : (n != 0) = true := Option.some.inj h
      exact .int (by simpa using hn)
    | text s =>
      rw [flag?, flagText?_eq_some_true_iff] at h
      exact .text h
    | list items => cases h
  · intro h
    cases h with
    | bool => rfl
    | int hn => simpa [flag?] using hn
    | text hs =>
      rw [flag?, flagText?_eq_some_true_iff]
      exact hs

theorem flag?_eq_some_false_iff {c : Cell} : flag? c = some false ↔ c.Falsy := by
  constructor
  · intro h
    cases c with
    | null => exact .null
    | bool b =>
      obtain rfl := Option.some.inj h
      exact .bool
    | int n =>
      have hn : (n != 0) = false := Option.some.inj h
      obtain rfl : n = 0 := by simpa using hn
      exact .int
    | text s =>
      rw [flag?, flagText?_eq_some_false_iff] at h
      exact .text h
    | list items => cases h
  · intro h
    cases h with
    | null => rfl
    | bool => rfl
    | int => rfl
    | text hs =>
      rw [flag?, flagText?_eq_some_false_iff]
      exact hs

variable {row : Row} {column : String} {p : Privilege}

theorem cell_eq_ok_iff {c : Cell} : cell row column = .ok c ↔ row column = some c := by
  rw [cell]
  cases row column <;> simp

theorem flag_eq_ok_iff {b : Bool} :
    flag row column = .ok b ↔ ∃ c, row column = some c ∧ flag? c = some b := by
  rw [flag, Except.bind_eq_ok_iff]
  simp only [cell_eq_ok_iff]
  refine exists_congr fun c => and_congr_right fun _ => ?_
  cases flag? c with
  | none => exact iff_of_false (fun h => by cases h) (fun h => by cases h)
  | some b =>
    constructor
    · intro h
      exact congrArg some (Except.ok.inj h)
    · intro h
      exact congrArg Except.ok (Option.some.inj h)

theorem flag_eq_ok_true_iff : flag row column = .ok true ↔ ∃ c, row column = some c ∧ c.Truthy := by
  simp only [flag_eq_ok_iff, flag?_eq_some_true_iff]

/-- The privileges collected are those with a flag that is set. -/
theorem mem_of_flagged_eq_ok {columns : List (String × Privilege)} {ps : List Privilege}
    (h : flagged row columns = .ok ps) :
    p ∈ ps ↔ ∃ column, (column, p) ∈ columns ∧ ∃ c, row column = some c ∧ c.Truthy := by
  induction columns generalizing ps with
  | nil =>
    cases h
    simp
  | cons entry columns ih =>
    obtain ⟨column, q⟩ := entry
    obtain ⟨set, hset, h⟩ := Except.bind_eq_ok_iff.mp h
    obtain ⟨rest, hrest, h⟩ := Except.bind_eq_ok_iff.mp h
    obtain rfl : (if set then q :: rest else rest) = ps := Except.ok.inj h
    simp only [← flag_eq_ok_true_iff] at ih ⊢
    have hcons : (∃ name, (name, p) ∈ (column, q) :: columns ∧ flag row name = .ok true) ↔
        (p = q ∧ flag row column = .ok true) ∨
          ∃ name, (name, p) ∈ columns ∧ flag row name = .ok true := by
      simp only [List.mem_cons, Prod.mk.injEq, or_and_right, exists_or, and_assoc, exists_eq_left]
    rw [hcons, ← ih hrest, hset]
    -- A column adds its privilege just if it is set; the others are for the rest to decide.
    cases set <;> simp

/-! ### Lists -/

theorem element_eq_ok_iff {item : List Char} :
    element column item = .ok p ↔ Privilege.ofName? (.ofList item) = some p := by
  rw [element]
  cases Privilege.ofName? (.ofList item) <;> simp

theorem names_iff {c : Cell} : c.Names p ↔ ∃ items, elements? c = some items ∧
    ∃ item ∈ items, Privilege.ofName? (.ofList item) = some p := by
  constructor
  · rintro (⟨hitem, hp⟩ | @⟨items, item, hitem, hp⟩)
    · exact ⟨_, rfl, _, hitem, hp⟩
    · refine ⟨_, rfl, item.toList, List.mem_map_of_mem hitem, ?_⟩
      rwa [String.ofList_toList]
  · rintro ⟨items, hitems, item, hitem, hp⟩
    cases c with
    | null =>
      obtain rfl := Option.some.inj hitems
      cases hitem
    | text s =>
      obtain rfl := Option.some.inj hitems
      exact .text hitem hp
    | list written =>
      obtain rfl := Option.some.inj hitems
      obtain ⟨w, hw, rfl⟩ := List.mem_map.mp hitem
      rw [String.ofList_toList] at hp
      exact .list hw hp
    | bool b => cases hitems
    | int n => cases hitems

/-- The privileges read from a list are those that it names. -/
theorem mem_of_privileges_eq_ok {ps : List Privilege} (h : privileges row column = .ok ps) :
    p ∈ ps ↔ ∃ c, row column = some c ∧ c.Names p := by
  obtain ⟨c, hc, h⟩ := Except.bind_eq_ok_iff.mp h
  have hrow : row column = some c := cell_eq_ok_iff.mp hc
  cases hitems : elements? c with
  | none =>
    rw [hitems] at h
    cases h
  | some items =>
    rw [hitems] at h
    have hnames : (∃ c, row column = some c ∧ c.Names p) ↔
        ∃ item ∈ items, Privilege.ofName? (.ofList item) = some p := by
      simp [hrow, names_iff, hitems]
    -- The elements are trimmed and the blank ones dropped, which loses none that names anything.
    rw [List.mem_of_mapM_eq_ok h, hnames]
    simp only [element_eq_ok_iff]
    constructor
    · rintro ⟨trimmed, hmem, hp⟩
      obtain ⟨item, hitem, rfl⟩ := List.mem_map.mp (List.mem_filter.mp hmem).1
      exact ⟨item, hitem, (Privilege.ofName?_trim item).symm.trans hp⟩
    · rintro ⟨item, hitem, hp⟩
      have hblank : Text.trim item ≠ [] := by
        intro hblank
        cases (Privilege.ofName?_eq_none_of_blank hblank).symm.trans hp
      refine ⟨Text.trim item, ?_, (Privilege.ofName?_trim item).trans hp⟩
      exact List.mem_filter.mpr ⟨List.mem_map_of_mem hitem, by simpa using hblank⟩

/-! ### Whole rows -/

theorem text_eq_ok_iff {s : String} : text row column = .ok s ↔ row column = some (.text s) := by
  rw [text, Except.bind_eq_ok_iff]
  simp only [cell_eq_ok_iff]
  constructor
  · rintro ⟨c, hc, h⟩
    cases c with
    | text s' =>
      obtain rfl : s' = s := Except.ok.inj h
      exact hc
    | null => cases h
    | bool b => cases h
    | int n => cases h
    | list items => cases h
  · intro h
    exact ⟨_, h, rfl⟩

/-- The text in a column depends on the cell there alone. -/
theorem text_congr {row' : Row} (h : row' column = row column) :
    text row' column = text row column := by
  rw [text, text, cell, cell, h]

/-- **A row about a grantee**: the user and host columns hold just its texts. -/
structure IsAbout (row : Row) (g : Grantee) : Prop where
  user_eq : row userColumn = some (.text g.username)
  host_eq : row hostColumn = some (.text g.hostname)

/-- The grantee that is read off a row is the one that the row is about. -/
theorem isAbout_iff {g h : Grantee} (hrow : grantee row = .ok h) : IsAbout row g ↔ h = g := by
  obtain ⟨u, hu, hrow⟩ := Except.bind_eq_ok_iff.mp hrow
  obtain ⟨w, hw, hrow⟩ := Except.bind_eq_ok_iff.mp hrow
  have hparts : h = ⟨u, w⟩ := by
    rw [Grantee.ofParts] at hrow
    split at hrow
    · next hsplit =>
      split at hsplit
      · cases hsplit
      · split at hsplit
        · cases hsplit
        · obtain rfl := Except.ok.inj hsplit
          exact (Except.ok.inj hrow).symm
    · cases hrow
  subst hparts
  rw [text_eq_ok_iff] at hu hw
  constructor
  · rintro ⟨hu', hw'⟩
    obtain rfl := Cell.text.inj (Option.some.inj (hu.symm.trans hu'))
    obtain rfl := Cell.text.inj (Option.some.inj (hw.symm.trans hw'))
    rfl
  · rintro rfl
    exact ⟨hu, hw⟩

theorem scope_eq_schema_iff {s : String} :
    scope row .schema = .ok (.schema s) ↔ row schemaColumn = some (.text s) := by
  rw [scope, Except.bind_eq_ok_iff]
  simp only [text_eq_ok_iff]
  constructor
  · rintro ⟨s', hs, h⟩
    obtain rfl : s' = s := Scope.schema.inj (Except.ok.inj h)
    exact hs
  · intro hs
    exact ⟨s, hs, rfl⟩

theorem scope_eq_table_iff {s t : String} :
    scope row .table = .ok (.table s t) ↔
      row schemaColumn = some (.text s) ∧ row tableColumn = some (.text t) := by
  rw [scope, Except.bind_eq_ok_iff]
  simp only [Except.bind_eq_ok_iff, text_eq_ok_iff]
  constructor
  · rintro ⟨s', hs, t', ht, h⟩
    obtain ⟨rfl, rfl⟩ := Scope.table.inj (Except.ok.inj h)
    exact ⟨hs, ht⟩
  · rintro ⟨hs, ht⟩
    exact ⟨s, hs, t, ht, rfl⟩

/-- **A row that bears out a grant** of a privilege on a scope: its scope columns hold the scope,
and its flag or its list the privilege. -/
inductive Bears (row : Row) (p : Privilege) : Scope → Prop where
  /-- A flag of the catalog for the server. -/
  | server {column : String} {c : Cell} (hcolumn : (column, p) ∈ Catalog.server.flags)
      (hc : row column = some c) (hset : c.Truthy) : Bears row p .server
  /-- A flag of the catalog for schemas. -/
  | schema {column s : String} {c : Cell} (hs : row schemaColumn = some (.text s))
      (hcolumn : (column, p) ∈ Catalog.schema.flags) (hc : row column = some c)
      (hset : c.Truthy) : Bears row p (.schema s)
  /-- An element of the list in the catalog for tables. -/
  | table {s t : String} {c : Cell} (hs : row schemaColumn = some (.text s))
      (ht : row tableColumn = some (.text t)) (hc : row listColumn = some c)
      (hp : c.Names p) : Bears row p (.table s t)

/-- **A row that can be read grants what its cells bear out.** -/
theorem bears_iff {e : Entry} {scope : Scope} (h : scope.catalog.entry row = .ok e) :
    Bears row p scope ↔ p ∈ e.grants.own scope := by
  obtain ⟨-, scope', ps, hscope, hheld, -⟩ := entry_eq_ok_iff.mp h
  rw [mem_own_of_entry_eq_ok h, hheld]
  simp only [Except.ok.injEq, exists_eq_left']
  cases scope with
  | server =>
    rw [mem_of_flagged_eq_ok hheld]
    constructor
    · rintro ⟨hcolumn, hc, hset⟩
      exact ⟨rfl, _, hcolumn, _, hc, hset⟩
    · rintro ⟨-, column, hcolumn, c, hc, hset⟩
      exact .server hcolumn hc hset
  | schema s =>
    change _ ↔ scope row .schema = .ok (.schema s) ∧ p ∈ ps
    rw [mem_of_flagged_eq_ok hheld, scope_eq_schema_iff]
    constructor
    · rintro (_ | ⟨hs, hcolumn, hc, hset⟩)
      exact ⟨hs, _, hcolumn, _, hc, hset⟩
    · rintro ⟨hs, column, hcolumn, c, hc, hset⟩
      exact .schema hs hcolumn hc hset
  | table s t =>
    change _ ↔ scope row .table = .ok (.table s t) ∧ p ∈ ps
    rw [mem_of_privileges_eq_ok hheld, scope_eq_table_iff]
    constructor
    · rintro (_ | _ | ⟨hs, ht, hc, hp⟩)
      exact ⟨⟨hs, ht⟩, _, hc, hp⟩
    · rintro ⟨⟨hs, ht⟩, c, hc, hp⟩
      exact .table hs ht hc hp

end Catalog

end GrantCatalog
