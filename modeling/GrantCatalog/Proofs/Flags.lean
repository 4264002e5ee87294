import GrantCatalog.Error
import GrantCatalog.Proofs.Column
import GrantCatalog.Proofs.Fault

/-!
# What the flag catalogs say

Two of the three catalogs have a column for each privilege. Whether an answer from one of them can
be read, what it says, and what is wrong with it can be told from its cells alone:

* a row is **legible** (`GrantCatalog.Catalog.Legible`) if the grantee, the scope and every single
  flag can be read, wherever their columns stand and whatever else the row holds;
* a legible row grants just the privileges whose flags are set (`GrantCatalog.Catalog.Sets`), on its
  own scope;
* any other row has a first fault (`GrantCatalog.Catalog.Illegible`), and the first row with one
  decides about the whole answer.

`GrantCatalog.Catalog.decode_flags` is this account for every answer.
-/

namespace GrantCatalog.Catalog

variable {c : Catalog} {row : Row}

/-- **A row that can be read**, of a catalog with flags. -/
structure Legible (c : Catalog) (row : Row) : Prop where
  named : ∃ g, IsNamed row g
  placed : ∃ s, IsOn row c s
  flags : ∀ entry ∈ c.flags, IsFlag row entry.1

/-- **A row with the flag of a privilege set.** -/
def Sets (c : Catalog) (row : Row) (p : Privilege) : Prop :=
  ∃ column cell, (column, p) ∈ c.flags ∧ row column = some cell ∧ cell.Truthy

/-- **What is wrong with a row** of a catalog with flags: the first fault in the order grantee,
scope, flags. -/
inductive Illegible (c : Catalog) (row : Row) : Fault → Prop where
  | grantee {f : Fault} (h : GranteeFault row f) : Illegible c row f
  | scope {g : Grantee} {f : Fault} (hg : IsNamed row g) (h : ScopeFault row c f) :
      Illegible c row f
  | flags {g : Grantee} {s : Scope} {f : Fault} (hg : IsNamed row g) (hs : IsOn row c s)
      (h : FlagFault row c.flags f) : Illegible c row f

theorem held_of_ne_table (hc : c ≠ .table) : held row c = flagged row c.flags := by
  cases c with
  | server => rfl
  | schema => rfl
  | table => exact absurd rfl hc

theorem exists_entry_eq_ok_iff (hc : c ≠ .table) : (∃ e, c.entry row = .ok e) ↔ Legible c row := by
  simp only [entry_eq_ok_iff, grantee_eq_ok_iff, scope_eq_ok_iff, held_of_ne_table hc]
  constructor
  · rintro ⟨e, hg, s, ps, hs, hps, -⟩
    exact ⟨⟨_, hg⟩, ⟨s, hs⟩, exists_flagged_eq_ok_iff.mp ⟨ps, hps⟩⟩
  · rintro ⟨⟨g, hg⟩, ⟨s, hs⟩, hflags⟩
    obtain ⟨ps, hps⟩ := exists_flagged_eq_ok_iff.mpr hflags
    exact ⟨⟨g, Grants.nothing.addAll s ps⟩, hg, s, ps, hs, hps, rfl⟩

theorem entry_eq_error_iff_illegible (hc : c ≠ .table) {f : Fault} :
    c.entry row = .error f ↔ Illegible c row f := by
  simp only [entry_eq_error_iff, held_of_ne_table hc, flagged_eq_error_iff]
  constructor
  · rintro (h | ⟨g, hg, h | ⟨s, hs, h⟩⟩)
    · exact .grantee h
    · exact .scope hg h
    · exact .flags hg hs h
  · intro h
    cases h with
    | grantee h => exact .inl h
    | scope hg h => exact .inr ⟨_, hg, .inl h⟩
    | flags hg hs h => exact .inr ⟨_, hg, .inr ⟨_, hs, h⟩⟩

/-- **What a row of flags says**: the privileges whose flags are set, on the scope of the row. -/
theorem exactly_of_entry_eq_ok (hc : c ≠ .table) {e : Entry} (h : c.entry row = .ok e) :
    e.grants.Exactly fun s p => IsOn row c s ∧ Sets c row p := by
  refine (proper_of_entry_eq_ok h).exactly fun s p => ?_
  obtain ⟨-, s', ps, -, hheld, -⟩ := entry_eq_ok_iff.mp h
  rw [mem_own_of_entry_eq_ok h, hheld, scope_eq_ok_iff]
  rw [held_of_ne_table hc] at hheld
  simp only [Except.ok.injEq, exists_eq_left', mem_of_flagged_eq_ok hheld, Sets]
  refine and_congr_right fun _ => ?_
  constructor
  · rintro ⟨column, hcolumn, cell, hcell, hset⟩
    exact ⟨column, cell, hcolumn, hcell, hset⟩
  · rintro ⟨column, cell, hcolumn, hcell, hset⟩
    exact ⟨column, hcolumn, cell, hcell, hset⟩

/-- **What the flag catalogs say.** Columns are found by their names up to case, the first of each
name. An answer can be read just if all of its rows are legible. It then has an entry for each row,
in order, about the grantee of the row, with just the privileges whose flags are set, on just the
scope of the row. Otherwise it fails with the first fault of the first row that is not legible. -/
theorem decode_flags (hc : c ≠ .table) (answer : ResultSet) :
    (∀ row name cell, answer.cell? row name = some cell ↔ answer.Holds row name cell) ∧
      ((∃ es, c.decode answer = .ok es) ↔ ∀ row ∈ answer.rows, Legible c (answer.cell? row)) ∧
      (∀ es, c.decode answer = .ok es → List.Forall₂ (fun row e =>
        IsNamed (answer.cell? row) e.grantee ∧
          e.grants.Exactly fun s p => IsOn (answer.cell? row) c s ∧ Sets c (answer.cell? row) p)
        answer.rows es) ∧
      ∀ e, (c.decode answer).mapError (Error.decode c) = .error e ↔
        ∃ f before row after, e = .decode c f ∧ answer.rows = before ++ row :: after ∧
          (∀ r ∈ before, Legible c (answer.cell? r)) ∧ Illegible c (answer.cell? row) f := by
  refine ⟨fun row name cell => ResultSet.cell?_eq_some_iff, ?_, fun es h => ?_, fun e => ?_⟩
  · rw [decode, List.exists_mapM_eq_ok_iff]
    simp only [exists_entry_eq_ok_iff hc]
  · refine (List.mapM_eq_ok_iff.mp h).imp fun row e he => ?_
    exact ⟨grantee_eq_ok_iff.mp (entry_eq_ok_iff.mp he).1, exactly_of_entry_eq_ok hc he⟩
  · simp only [Except.mapError_eq_error_iff, decode_eq_error_iff, exists_entry_eq_ok_iff hc,
      entry_eq_error_iff_illegible hc]
    constructor
    · rintro ⟨f, ⟨before, row, after, hrows, hbefore, h⟩, rfl⟩
      exact ⟨f, before, row, after, rfl, hrows, hbefore, h⟩
    · rintro ⟨f, before, row, after, rfl, hrows, hbefore, h⟩
      exact ⟨f, ⟨before, row, after, hrows, hbefore, h⟩, rfl⟩

/-- Columns for `ann` on the schema `shop`, with their names in capitals and one of them twice. -/
def shopColumns : List String :=
  ["HOST", "USER", "user", "DB"] ++ schemaFlags.map fun entry => Text.uppered entry.1

/-- A row that lets her read, and wait for events; the cell for another privilege is left open. -/
def shopRow (cell : Cell) : List Cell :=
  [.text "%", .text "ann", .null, .text "shop"] ++ schemaFlags.map fun entry =>
    if entry.2 = .select then .text " yes"
    else if entry.2 = .event then .int (-1)
    else if entry.2 = .execute then cell
    else .text "n"

/-- The answer with such rows. -/
def shopAnswer (cells : List Cell) : ResultSet := .ofRows shopColumns (cells.map shopRow)

/-- Columns for what is held on a server. -/
def rootColumns : List String :=
  ["Host", "User", "Select_priv", "Insert_priv", "Update_priv", "Delete_priv", "Create_priv",
    "Drop_priv", "Reload_priv", "Shutdown_priv", "Process_priv", "File_priv", "Grant_priv",
    "References_priv", "Index_priv", "Alter_priv", "Show_db_priv", "Super_priv",
    "Create_tmp_table_priv", "Lock_tables_priv", "Execute_priv", "Repl_slave_priv",
    "Repl_client_priv", "Create_view_priv", "Show_view_priv", "Create_routine_priv",
    "Alter_routine_priv", "Create_user_priv", "Event_priv", "Trigger_priv",
    "Create_tablespace_priv"]

/-- An answer with a row that lets `root` read, and act as a superuser. -/
def rootAnswer : ResultSet :=
  .ofRows rootColumns [[.text "localhost", .text "root"] ++ (rootColumns.drop 2).map fun column =>
    if column = "Super_priv" then .bool true
    else if column = "Select_priv" then .text "Y"
    else .text "N"]

/-- A flag that is set grants on the schema of its row and not on the server, or on the server and
not on a schema; a list is no flag. -/
theorem decode_flags_shop :
    Catalog.schema ≠ .table ∧ Catalog.server ≠ .table ∧
      (∃ e, Catalog.schema.decode (shopAnswer [.null]) = .ok [e] ∧
        .event ∈ e.grants.own (.schema "shop") ∧ .event ∉ e.grants.own .server) ∧
      (∃ e, Catalog.server.decode rootAnswer = .ok [e] ∧ e.grantee = ⟨"root", "localhost"⟩ ∧
        .super ∈ e.grants.own .server ∧ .select ∈ e.grants.own .server ∧
        .super ∉ e.grants.own (.schema "shop")) ∧
      ∃ f row, (Catalog.schema.decode (shopAnswer [.null, .list ["Y"]])).mapError
          (Error.decode .schema) = .error (.decode .schema f) ∧
        f.column = "Execute_priv" ∧ Illegible .schema row f := by
  have hne : Catalog.schema ≠ .table := by
    decide
  have hserver : Catalog.server ≠ .table := by
    decide
  refine ⟨hne, hserver, ?_, ?_, ?_⟩
  · have hdecode : Catalog.schema.decode (shopAnswer [.null]) =
        .ok [⟨⟨"ann", "%"⟩, Grants.nothing.addAll (.schema "shop") [.select, .event]⟩] := by
      decide +kernel
    obtain ⟨-, -, hentries, -⟩ := decode_flags hne (shopAnswer [.null])
    obtain ⟨⟨-, hexactly⟩, -⟩ := List.forall₂_cons.mp (hentries _ hdecode)
    refine ⟨_, hdecode, (hexactly.mem_own_iff _ _).mpr ⟨?_, ?_⟩, fun hserver => ?_⟩
    · exact .schema (by decide +kernel)
    · exact ⟨"Event_priv", .int (-1), by decide +kernel, by decide +kernel, .int (by decide)⟩
    · obtain ⟨hon, -⟩ := (hexactly.mem_own_iff _ _).mp hserver
      cases hon
  · have hdecode : Catalog.server.decode rootAnswer =
        .ok [⟨⟨"root", "localhost"⟩, Grants.nothing.addAll .server [.super, .select]⟩] := by
      decide +kernel
    obtain ⟨-, -, hentries, -⟩ := decode_flags hserver rootAnswer
    obtain ⟨⟨-, hexactly⟩, -⟩ := List.forall₂_cons.mp (hentries _ hdecode)
    refine ⟨_, hdecode, rfl, (hexactly.mem_own_iff _ _).mpr ⟨.server, ?_⟩,
      (hexactly.mem_own_iff _ _).mpr ⟨.server, ?_⟩, fun hschema => ?_⟩
    · exact ⟨"Super_priv", .bool true, by decide +kernel, by decide +kernel, .bool⟩
    · exact ⟨"Select_priv", .text "Y", by decide +kernel, by decide +kernel, .text (by decide)⟩
    · obtain ⟨hon, -⟩ := (hexactly.mem_own_iff _ _).mp hschema
      cases hon
  · have hdecode : (Catalog.schema.decode (shopAnswer [.null, .list ["Y"]])).mapError
        (Error.decode .schema) =
        .error (.decode .schema ⟨"Execute_priv", .notFlag (.list ["Y"])⟩) := by
      decide +kernel
    obtain ⟨-, -, -, hfault⟩ := decode_flags hne (shopAnswer [.null, .list ["Y"]])
    obtain ⟨f, before, row, after, hf, -, -, hrow⟩ := (hfault _).mp hdecode
    obtain ⟨-, rfl⟩ := Error.decode.inj hf
    exact ⟨_, _, hdecode, rfl, hrow⟩

end GrantCatalog.Catalog
