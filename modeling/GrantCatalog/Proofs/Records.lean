import GrantCatalog.Proofs.Column
import Mathlib.Data.List.Forall2

/-!
# Columns gathered from records

Records bring their columns along: the columns of a list of records are the keys of its records.
Keys are **gathered by their text** and **looked up by their letters**. As long as all records
spell a key in the same way this makes no difference. Otherwise there is one column for each
spelling, and a look-up finds the first of them in every row
(`GrantCatalog.ResultSet.cell?_ofRecords`): what a record holds under a later spelling is out of
reach, and `NULL` is found in its place.

What a look-up in records is meant to find is told by `GrantCatalog.ResultSet.Meant`, to which keys
that differ in the case of their letters only are one key. What is found is what is meant exactly
for those records that have nothing but `NULL` under later spellings
(`GrantCatalog.ResultSet.ofJson?_lawful_iff`). Two records with a single key each are enough to
break the law (`GrantCatalog.ResultSet.not_lawful_recased`).
-/

namespace GrantCatalog.ResultSet

variable {records : List Record} {record : Record} {name key : String} {cell : Cell}

/-! ### What is found -/

/-- The first spelling that records have for a name. -/
def spelling? (records : List Record) (name : String) : Option String :=
  (keys records).find? (Text.sameLetters · name)

theorem mem_keys_iff : key ∈ keys records ↔ ∃ record ∈ records, key ∈ record := by
  rw [keys, mem_firsts, List.mem_flatMap]
  simp only [Std.ExtTreeMap.mem_keys]

theorem columns_ofRecords (records : List Record) : (ofRecords records).columns = keys records :=
  rfl

theorem nodup_keys (records : List Record) : (keys records).Nodup :=
  nodup_firstsBy _

/-- There is a row for each record, with a cell for each key. -/
theorem rows_ofRecords (records : List Record) : (ofRecords records).rows =
    records.map fun record => (keys records).map (record.getD · .null) := by
  rw [ofRecords]
  exact List.map_congr_left fun record _ => takeOut_of_nodup (nodup_keys records) record

/-- **What is found under a name** in the row of a record is what the record has under the first
spelling of the name. -/
theorem cell?_ofRecords (records : List Record) (record : Record) (name : String) :
    (ofRecords records).cell? ((keys records).map (record.getD · .null)) name =
      (spelling? records name).map (record.getD · .null) := by
  rw [cell?, column?, columns_ofRecords]
  exact findIdx?_bind_getElem?_map _ _ _

theorem sameLetters_of_spelling? {first : String} (h : spelling? records name = some first) :
    Text.sameLetters first name = true :=
  List.find?_some (p := (Text.sameLetters · name)) h

/-- A name has a first spelling just if some record has a key for it. -/
theorem exists_spelling?_iff : (∃ first, spelling? records name = some first) ↔
    ∃ record ∈ records, ∃ key ∈ record, Text.sameLetters key name = true := by
  rw [← Option.isSome_iff_exists, spelling?, List.find?_isSome]
  constructor
  · rintro ⟨key, hkey, hname⟩
    obtain ⟨record, hrecord, hkey⟩ := mem_keys_iff.mp hkey
    exact ⟨record, hrecord, key, hkey, hname⟩
  · rintro ⟨record, hrecord, key, hkey, hname⟩
    exact ⟨key, mem_keys_iff.mpr ⟨record, hrecord, hkey⟩, hname⟩

/-- Names with the same letters have the same first spelling. -/
theorem spelling?_congr (h : Text.sameLetters key name = true) :
    spelling? records key = spelling? records name := by
  rw [Text.sameLetters, beq_iff_eq] at h
  simp only [spelling?, Text.sameLetters, h]

/-! ### What is meant -/

/-- No two keys of a record have the same letters. -/
def Record.Unambiguous (record : Record) : Prop :=
  ∀ a ∈ record, ∀ b ∈ record, Text.sameLetters a b = true → a = b

instance : Decidable record.Unambiguous :=
  decidable_of_iff (∀ a ∈ record.keys, ∀ b ∈ record.keys, Text.sameLetters a b = true → a = b)
    (by simp only [Std.ExtTreeMap.mem_keys, Record.Unambiguous])

/-- A record has a value under a name. -/
def Record.Knows (record : Record) (name : String) : Prop :=
  ∃ key ∈ record, Text.sameLetters key name = true

/-- **What a record is meant to hold under a name**, if keys with the same letters are one key. -/
inductive Meant (records : List Record) (record : Record) (name : String) : Option Cell → Prop where
  /-- The record has a value under the name. -/
  | own {key : String} {cell : Cell} (hcell : record[key]? = some cell)
      (hname : Text.sameLetters key name = true) : Meant records record name (some cell)
  /-- Only other records have a value under the name. -/
  | null (hnone : ¬record.Knows name) (hother : ∃ other ∈ records, other.Knows name) :
      Meant records record name (some .null)
  /-- No record has a value under the name. -/
  | unknown (hnone : ¬∃ other ∈ records, other.Knows name) : Meant records record name none

/-- **The rows of a result set hold what the records are meant to hold**, each row what its record
is, under every name. -/
def Lawful (records : List Record) (r : ResultSet) : Prop :=
  List.Forall₂ (fun record row => ∀ name answer, Meant records record name answer →
    r.cell? row name = answer) records r.rows

/-- Under later spellings of a name there is nothing but `NULL`. -/
def FirstSpelled (records : List Record) : Prop :=
  ∀ record ∈ records, ∀ key cell, record[key]? = some cell →
    cell = .null ∨ spelling? records key = some key

instance : Decidable (FirstSpelled records) :=
  decidable_of_iff
    (∀ record ∈ records, ∀ e ∈ record.toList, e.2 = .null ∨ spelling? records e.1 = some e.1)
    (by simp only [Prod.forall, Std.ExtTreeMap.mem_toList_iff_getElem?_eq_some, FirstSpelled])

theorem mem_of_getElem? (h : record[key]? = some cell) : key ∈ record := by
  rw [Std.ExtTreeMap.mem_iff_isSome_getElem?, h]
  rfl

/-- What a record has under a name is what the name is meant to hold, and so is nothing else. -/
theorem Meant.eq_of_own {answer : Option Cell} (hrecord : record.Unambiguous)
    (hmem : record ∈ records) (hcell : record[key]? = some cell)
    (hname : Text.sameLetters key name = true) (h : Meant records record name answer) :
    answer = some cell := by
  have hkey : key ∈ record := mem_of_getElem? hcell
  rcases h with @⟨key', cell', hcell', hname'⟩ | ⟨hnone, -⟩ | ⟨hnone⟩
  · have hsame : Text.sameLetters key' key = true := by
      rw [Text.sameLetters, beq_iff_eq] at hname hname' ⊢
      rw [hname, hname']
    obtain rfl := hrecord key' (mem_of_getElem? hcell') key hkey hsame
    exact hcell'.symm.trans hcell
  · exact absurd ⟨key, hkey, hname⟩ hnone
  · exact absurd ⟨record, hmem, key, hkey, hname⟩ hnone

/-- **Every name is meant to hold one thing.** -/
theorem existsUnique_meant (hrecord : record.Unambiguous) (hmem : record ∈ records)
    (name : String) : ∃! answer, Meant records record name answer := by
  by_cases hown : record.Knows name
  · obtain ⟨key, hkey, hname⟩ := hown
    have hcell := Std.ExtTreeMap.getElem?_eq_some_getElem hkey
    exact ⟨_, .own hcell hname, fun answer h => h.eq_of_own hrecord hmem hcell hname⟩
  · by_cases hother : ∃ other ∈ records, other.Knows name
    · refine ⟨_, .null hown hother, fun answer h => ?_⟩
      rcases h with @⟨key, cell, hcell, hname⟩ | ⟨-, -⟩ | ⟨hnone⟩
      · exact absurd ⟨key, mem_of_getElem? hcell, hname⟩ hown
      · rfl
      · exact absurd hother hnone
    · refine ⟨_, .unknown hother, fun answer h => ?_⟩
      rcases h with @⟨key, cell, hcell, hname⟩ | ⟨-, h⟩ | ⟨-⟩
      · exact absurd ⟨record, hmem, key, mem_of_getElem? hcell, hname⟩ hother
      · exact absurd h hother
      · rfl

/-- What a record has under a key is found just if the key is the first spelling, or there is
nothing to be found. -/
theorem found_eq_own_iff (hrecord : record.Unambiguous) (hmem : record ∈ records)
    (hcell : record[key]? = some cell) :
    (spelling? records key).map (record.getD · .null) = some cell ↔
      cell = .null ∨ spelling? records key = some key := by
  have hkey : key ∈ record := mem_of_getElem? hcell
  have hown : record.getD key .null = cell := by
    rw [Std.ExtTreeMap.getD_eq_getD_getElem?, hcell, Option.getD_some]
  obtain ⟨first, hfirst⟩ : ∃ first, spelling? records key = some first :=
    exists_spelling?_iff.mpr ⟨record, hmem, key, hkey, beq_self_eq_true _⟩
  have hsame := sameLetters_of_spelling? hfirst
  rw [hfirst, Option.map_some, Option.some.injEq, Option.some.injEq]
  by_cases hmem' : first ∈ record
  · obtain rfl := hrecord first hmem' key hkey hsame
    exact iff_of_true hown (.inr rfl)
  · -- The first spelling is one of other records, and this one has nothing under it.
    have hne : first ≠ key := by
      rintro rfl
      exact hmem' hkey
    rw [Std.ExtTreeMap.getD_eq_fallback hmem', or_iff_left hne, eq_comm]

/-- Look-ups find what is meant if every value but `NULL` stands under a first spelling. -/
theorem lawful_iff_firstSpelled (hrecords : ∀ record ∈ records, record.Unambiguous) :
    Lawful records (ofRecords records) ↔ FirstSpelled records := by
  rw [Lawful, rows_ofRecords, List.forall₂_map_right_iff, List.forall₂_same]
  simp only [cell?_ofRecords]
  constructor
  · intro h record hrecord key cell hcell
    have hmeant : Meant records record key (some cell) := .own hcell (beq_self_eq_true _)
    have hfound := h record hrecord key (some cell) hmeant
    exact (found_eq_own_iff (hrecords record hrecord) hrecord hcell).mp hfound
  · intro h record hrecord name answer hmeant
    rcases hmeant with @⟨key, cell, hcell, hname⟩ | ⟨hnone, hother⟩ | ⟨hnone⟩
    · rw [← spelling?_congr hname]
      have hspelled := h record hrecord key cell hcell
      exact (found_eq_own_iff (hrecords record hrecord) hrecord hcell).mpr hspelled
    · obtain ⟨first, hfirst⟩ := exists_spelling?_iff.mpr hother
      have hmem : first ∉ record := fun hmem =>
        hnone ⟨first, hmem, sameLetters_of_spelling? hfirst⟩
      rw [hfirst, Option.map_some, Std.ExtTreeMap.getD_eq_fallback hmem]
    · have hnone : spelling? records name = none := by
        rw [Option.eq_none_iff_forall_ne_some]
        exact fun first hfirst => hnone (exists_spelling?_iff.mp ⟨first, hfirst⟩)
      rw [hnone, Option.map_none]

/-! ### The law, and where it fails -/

/-- **When look-ups in records find what is meant.** If no record has two keys with the same
letters, then every name is meant to hold one thing in the row of a record. What is found there is
what the record has under the first spelling of the name; and this is what is meant, for all rows
and names, exactly if no record has a value, other than `NULL`, under a spelling that is not the
first. -/
theorem ofJson?_lawful_iff {j : Json} (hj : j.list? (Json.map? Cell.ofJson?) = some records)
    (hrecords : ∀ record ∈ records, record.Unambiguous) :
    (∀ record ∈ records, ∀ name, ∃! answer, Meant records record name answer) ∧
      ∃ r, ofJson? j = some r ∧
        List.Forall₂ (fun record row => ∀ name,
          r.cell? row name = (spelling? records name).map (record.getD · .null)) records r.rows ∧
        (Lawful records r ↔ FirstSpelled records) := by
  refine ⟨fun record hmem name => existsUnique_meant (hrecords record hmem) hmem name,
    ofRecords records, ?_, ?_, lawful_iff_firstSpelled hrecords⟩
  · rw [ofJson?, hj, Option.map_some]
  · rw [rows_ofRecords, List.forall₂_map_right_iff, List.forall₂_same]
    exact fun record _ name => cell?_ofRecords records record name

/-- Two records for users, the second with `NULL` under another spelling of a key of the first. -/
def alikeJson : Json :=
  .array [.dict [("User", .str "ann"), ("Host", .str "%")],
    .dict [("User", .str "bob"), ("host", .null)]]

/-- The records that this value stands for. -/
def alikeRecords : List Record :=
  [.ofList [("User", Cell.text "ann"), ("Host", Cell.text "%")],
    .ofList [("User", Cell.text "bob"), ("host", Cell.null)]]

/-- Both users are found under any spelling. -/
theorem ofJson?_lawful_iff_alike :
    alikeJson.list? (Json.map? Cell.ofJson?) = some alikeRecords ∧
      (∀ record ∈ alikeRecords, record.Unambiguous) ∧
      ∃ r, ofJson? alikeJson = some r ∧ Lawful alikeRecords r := by
  have hj : alikeJson.list? (Json.map? Cell.ofJson?) = some alikeRecords := by decide +kernel
  have hrecords : ∀ record ∈ alikeRecords, record.Unambiguous := by decide +kernel
  have hspelled : FirstSpelled alikeRecords := by decide +kernel
  obtain ⟨-, r, hr, -, hlawful⟩ := ofJson?_lawful_iff hj hrecords
  exact ⟨hj, hrecords, r, hr, hlawful.mpr hspelled⟩

/-- Two records that spell their one key differently. -/
def recasedJson : Json := .array [.dict [("User", .integer 1)], .dict [("user", .integer 2)]]

/-- The records that this value stands for. -/
def recasedRecords : List Record := [.ofList [("User", Cell.int 1)], .ofList [("user", Cell.int 2)]]

/-- **The law fails for records that spell a key differently**, although no record has it twice. -/
theorem not_lawful_recased :
    ¬∀ (j : Json) (records : List Record) (r : ResultSet),
      j.list? (Json.map? Cell.ofJson?) = some records → ofJson? j = some r →
      (∀ record ∈ records, record.Unambiguous) → Lawful records r := by
  intro h
  have hj : recasedJson.list? (Json.map? Cell.ofJson?) = some recasedRecords := by decide +kernel
  have hrecords : ∀ record ∈ recasedRecords, record.Unambiguous := by decide +kernel
  have hr : ofJson? recasedJson = some (ofRecords recasedRecords) := by
    rw [ofJson?, hj, Option.map_some]
  have hspelled := (lawful_iff_firstSpelled hrecords).mp (h _ _ _ hj hr hrecords)
  exact absurd hspelled (by decide +kernel)

end GrantCatalog.ResultSet
