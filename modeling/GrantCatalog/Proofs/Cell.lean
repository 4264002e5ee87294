import GrantCatalog.Proofs.Json

/-!
# Cells in JSON texts

The kinds of cells are tried in turn, but no order of them would make a difference: a value that can
be read as a cell of one kind is the value of that very cell, and the values of different cells
differ (`GrantCatalog.Cell.read?_eq_some_iff`). What is left are the values that are no cells, and
they can be told as well (`GrantCatalog.Cell.NoCell`).

Together with the grammar this settles every text (`GrantCatalog.Cell.parse_denotes`). A text that
denotes a cell is read as that cell, however it is spelt and wherever blanks stand in it, and a text
that denotes anything else is an error. The bounds of an integer are those of sixty-four bits, and
they are met exactly.
-/

namespace GrantCatalog.Cell

variable {v w : Cell} {j : Json} {k : Kind} {n : Int}

/-! ### Values of cells -/

/-- The kind of a cell. -/
def kind : Cell → Kind
  | null => .null
  | bool _ => .bool
  | int _ => .int
  | text _ => .text
  | list _ => .list

/-- **A value that is no cell.** -/
inductive NoCell : Json → Prop where
  /-- An integer that has more than sixty-four bits. -/
  | integer {n : Int} (h : n < -0x8000000000000000 ∨ 0x8000000000000000 ≤ n) : NoCell (.integer n)
  /-- A number that is not written as an integer. -/
  | real : NoCell .real
  /-- A literal that spells no text. -/
  | unspelt : NoCell (.text none)
  /-- An array with an item that is no string. -/
  | array {js : List Json} {j : Json} (hj : j ∈ js) (h : ∀ s, j ≠ .str s) : NoCell (.array js)
  | object (ms : List (Option String × Json)) : NoCell (.object ms)

theorem int?_eq_some_iff : int? n = some v ↔ ∃ i : Int64, v = .int i ∧ n = i.toInt := by
  rw [int?]
  constructor
  · intro h
    split at h
    · next hn =>
      cases h
      exact ⟨.ofInt n, rfl, (Int64.toInt_ofInt_of_le hn.1 (Int.lt_of_le_sub_one hn.2)).symm⟩
    · cases h
  · rintro ⟨i, rfl, rfl⟩
    rw [if_pos ⟨i.minValue_le_toInt, i.toInt_le⟩, Int64.ofInt_toInt]

theorem int?_eq_none_iff :
    int? n = none ↔ n < -0x8000000000000000 ∨ 0x8000000000000000 ≤ n := by
  have hbounds : Int64.minValue.toInt = -0x8000000000000000 ∧
      Int64.maxValue.toInt = 0x7FFFFFFFFFFFFFFF := by decide
  rw [int?, hbounds.1, hbounds.2]
  split
  · next h => exact iff_of_false (by simp) (by omega)
  · next h => exact iff_of_true rfl (by omega)

theorem string?_eq_some_iff {s : String} : j.string? = some s ↔ j = .str s := by
  cases j <;> simp [Json.string?, Json.str]

/-- Items are read as texts just if they are the values of these. -/
theorem mapM_string?_eq_some_iff {js : List Json} {items : List String} :
    js.mapM Json.string? = some items ↔ js = items.map .str := by
  induction js generalizing items with
  | nil =>
    rw [List.mapM_nil, eq_comm (a := []), List.map_eq_nil_iff]
    exact ⟨fun h => (Option.some.inj h).symm, fun h => h ▸ rfl⟩
  | cons j js ih =>
    rw [List.mapM_cons, Option.bind_eq_bind, Option.bind_eq_some_iff]
    constructor
    · rintro ⟨s, hs, h⟩
      obtain ⟨items, hitems, h⟩ := Option.bind_eq_some_iff.mp h
      cases h
      rw [List.map_cons, string?_eq_some_iff.mp hs, ih.mp hitems]
    · intro h
      cases items with
      | nil => cases h
      | cons s items =>
        obtain ⟨hj, hjs⟩ := List.cons.inj h
        exact ⟨s, string?_eq_some_iff.mpr hj, Option.bind_eq_some_iff.mpr ⟨items, ih.mpr hjs, rfl⟩⟩

/-- **A value is read as a cell of one kind just if it is the value of a cell of that kind.** -/
theorem read?_eq_some_iff : k.read? j = some v ↔ k = v.kind ∧ j = v.toJson := by
  constructor
  · intro h
    unfold Kind.read? at h
    split at h
    · cases h
      exact ⟨rfl, rfl⟩
    · cases h
      exact ⟨rfl, rfl⟩
    · obtain ⟨i, rfl, rfl⟩ := int?_eq_some_iff.mp h
      exact ⟨rfl, rfl⟩
    · obtain ⟨s, rfl, rfl⟩ := Option.map_eq_some_iff.mp h
      exact ⟨rfl, rfl⟩
    · obtain ⟨items, hitems, rfl⟩ := Option.map_eq_some_iff.mp h
      exact ⟨rfl, congrArg Json.array (mapM_string?_eq_some_iff.mp hitems)⟩
    · cases h
  · rintro ⟨rfl, rfl⟩
    cases v with
    | null => rfl
    | bool b => rfl
    | int i => exact int?_eq_some_iff.mpr ⟨i, rfl, rfl⟩
    | text s => rfl
    | list items => exact congrArg (Option.map list) (mapM_string?_eq_some_iff.mpr rfl)

/-- **No kind takes a cell away from another**: the values of different cells differ. -/
theorem toJson_injective (h : v.toJson = w.toJson) : v = w := by
  have hkind : v.kind = w.kind := by
    cases v <;> cases w <;> first | rfl | cases h
  have hv : v.kind.read? v.toJson = some v := read?_eq_some_iff.mpr ⟨rfl, rfl⟩
  have hw : w.kind.read? w.toJson = some w := read?_eq_some_iff.mpr ⟨rfl, rfl⟩
  rw [h, hkind, hw] at hv
  exact (Option.some.inj hv).symm

/-- So it does not matter in which order the kinds are tried. -/
theorem findSome?_read? {kinds : List Kind} (h : v.kind ∈ kinds) :
    kinds.findSome? (·.read? v.toJson) = some v := by
  cases hfound : kinds.findSome? (·.read? v.toJson) with
  | none =>
    have hnone := List.findSome?_eq_none_iff.mp hfound v.kind h
    rw [read?_eq_some_iff.mpr ⟨rfl, rfl⟩] at hnone
    cases hnone
  | some w =>
    -- Whichever kind came first, it found a cell with this value.
    obtain ⟨k, -, hk⟩ := List.exists_of_findSome?_eq_some hfound
    rw [toJson_injective (read?_eq_some_iff.mp hk).2]

theorem mem_kinds (k : Kind) : k ∈ kinds := by
  cases k <;> decide

theorem ofJson?_eq_some_iff : ofJson? j = some v ↔ j = v.toJson := by
  constructor
  · intro h
    obtain ⟨k, -, hk⟩ := List.exists_of_findSome?_eq_some h
    exact (read?_eq_some_iff.mp hk).2
  · rintro rfl
    exact findSome?_read? (mem_kinds v.kind)

theorem exists_eq_map_str {js : List Json} (h : ∀ j ∈ js, ∃ s, j = .str s) :
    ∃ items : List String, js = items.map .str := by
  induction js with
  | nil => exact ⟨[], rfl⟩
  | cons j js ih =>
    obtain ⟨⟨s, rfl⟩, hjs⟩ := List.forall_mem_cons.mp h
    obtain ⟨items, rfl⟩ := ih hjs
    exact ⟨s :: items, rfl⟩

/-- What is no cell is not the value of any. -/
theorem NoCell.ne_toJson (h : NoCell j) (v : Cell) : j ≠ v.toJson := by
  intro hv
  rcases h with hn | _ | _ | ⟨hj, hno⟩ | ms
  · cases v with
    | int i =>
      have hlow : -0x8000000000000000 ≤ i.toInt := i.le_toInt
      have hhigh : i.toInt < 0x8000000000000000 := i.toInt_lt
      obtain rfl := Json.integer.inj hv
      omega
    | _ => cases hv
  · cases v <;> cases hv
  · cases v <;> cases hv
  · cases v with
    | list items =>
      obtain rfl := Json.array.inj hv
      obtain ⟨s, -, rfl⟩ := List.mem_map.mp hj
      exact hno s rfl
    | _ => cases hv
  · cases v <;> cases hv

/-- **A value is the value of a cell, or it is none** for one of these reasons. -/
theorem noCell_iff : NoCell j ↔ ∀ v, j ≠ toJson v := by
  refine ⟨NoCell.ne_toJson, fun h => ?_⟩
  cases j with
  | null => exact absurd rfl (h null)
  | bool b => exact absurd rfl (h (bool b))
  | integer n =>
    refine .integer (int?_eq_none_iff.mp (Option.eq_none_iff_forall_ne_some.mpr fun v hv => ?_))
    obtain ⟨i, rfl, hi⟩ := int?_eq_some_iff.mp hv
    exact h (int i) (congrArg Json.integer hi)
  | real => exact .real
  | text s =>
    cases s with
    | none => exact .unspelt
    | some s => exact absurd rfl (h (text s))
  | array js =>
    -- If no item fails to be a text, all of them are, and they make up a list.
    by_contra hno
    have hall : ∀ j ∈ js, ∃ s, j = .str s := fun j hj => by
      by_contra hj'
      exact hno (.array hj fun s hs => hj' ⟨s, hs⟩)
    obtain ⟨items, rfl⟩ := exists_eq_map_str hall
    exact h (list items) rfl
  | object ms => exact .object ms

/-! ### Texts of cells -/

/-- **A text is read as a cell just if it denotes it.** -/
theorem parse_ofJson?_iff {s : String} :
    Json.parse ofJson? s = .ok v ↔ Json.Denotes s.toList (.value v.toJson) := by
  rw [Json.parse_eq_ok_iff, Option.bind_eq_some_iff]
  simp only [ofJson?_eq_some_iff, exists_eq_right, Json.read?_eq_some_iff]

/-- **A value is read as no cell just if it is none.** -/
theorem ofJson?_eq_none_iff : ofJson? j = none ↔ NoCell j := by
  rw [noCell_iff, Option.eq_none_iff_forall_ne_some]
  simp only [Ne, ofJson?_eq_some_iff]

/-- What is no cell is an error. -/
theorem parse_of_noCell {s : String} (h : Json.Denotes s.toList (.value j)) (hj : NoCell j) :
    Json.parse ofJson? s = .error .json := by
  refine Json.parse_eq_error_iff.mpr ⟨?_, rfl⟩
  rw [Json.read?_eq_some_iff.mpr h, Option.bind_some, ofJson?_eq_none_iff.mpr hj]

/-- **Cells are read from texts without ambiguity, and exactly.** Every text that denotes a cell is
read as that cell, and no other text is; no other kind can read its value, so that it does not
matter in which order the kinds are tried. A text that denotes a value that is no cell is an error.
And every cell has texts that denote it, in either layout. -/
theorem parse_denotes :
    (∀ (v : Cell) (s : String),
      Json.Denotes s.toList (.value v.toJson) ↔ Json.parse ofJson? s = .ok v) ∧
    (∀ (v w : Cell) (k : Kind), k.read? v.toJson = some w ↔ k = v.kind ∧ w = v) ∧
    (∀ (j : Json) (s : String), Json.Denotes s.toList (.value j) → NoCell j →
      Json.parse ofJson? s = .error .json) ∧
    ∀ (v : Cell) (l : Json.Layout), Json.Denotes (Json.print l v.toJson) (.value v.toJson) := by
  refine ⟨fun v s => parse_ofJson?_iff.symm, fun v w k => ?_, fun j s => parse_of_noCell,
    fun v l => Json.denotes_print l v.toJson⟩
  rw [read?_eq_some_iff]
  constructor
  · rintro ⟨rfl, h⟩
    obtain rfl := toJson_injective h
    exact ⟨rfl, rfl⟩
  · rintro ⟨rfl, rfl⟩
    exact ⟨rfl, rfl⟩

/-- A face, as a pair of surrogates. -/
theorem literal_face : Json.Literal "\\uD83D\\ude00".toList (some "😀") := by
  have hhigh : Json.Piece "\\uD83D".toList 0xD83D :=
    .point (t := 13) (u := 8) (v := 3) (w := 13) (by decide) (by decide) (by decide) (by decide)
      rfl
  have hlow : Json.Piece "\\ude00".toList 0xDE00 :=
    .point (t := 13) (u := 14) (v := 0) (w := 0) (by decide) (by decide) (by decide) (by decide)
      rfl
  have hjoined : Json.Joined [0xD83D, 0xDE00] "😀".toList :=
    .pair (by decide) (by decide) (by decide) .nil
  exact .spells (.cons hhigh (.cons hlow .nil)) hjoined

/-- The least integer is a cell, with blanks around it, and so is a list of texts with escapes. The
integer after the greatest one is none, and neither is a list with a number in it. -/
theorem parse_denotes_bounds :
    Json.parse ofJson? " -9223372036854775808\n" = .ok (int Int64.minValue) ∧
      Json.parse ofJson? "[\"\\uD83D\\ude00\" ,\"\\/\"]" = .ok (list ["😀", "/"]) ∧
      Json.parse ofJson? "9223372036854775808" = .error .json ∧
      Json.parse ofJson? "[\"/\",1]" = .error .json := by
  obtain ⟨hcell, -, hnone, -⟩ := parse_denotes
  have hblank : [' '].all Json.isGap = true := rfl
  have hfeed : ['\n'].all Json.isGap = true := rfl
  have hplain : Json.Literal "/".toList (some "/") :=
    .spells (.cons (@Json.Piece.plain '/' (by decide) (by decide) (by decide)) .nil) (.char .nil)
  have hslash : Json.Literal "\\/".toList (some "/") :=
    .spells (.cons (@Json.Piece.short '/' '/' (by decide)) .nil) (.char .nil)
  have hinteger (n : Int) : Json.Denotes (Json.decimal n) (.value (.integer n)) :=
    .word (.number (Json.numeral_decimal n))
  refine ⟨(hcell _ _).mp ?_, (hcell _ _).mp ?_, hnone (.integer 0x8000000000000000) _ ?_ ?_,
    hnone (.array [.str "/", .integer 1]) _ ?_ ?_⟩
  · have htext : " -9223372036854775808\n".toList =
        [' '] ++ (Json.decimal Int64.minValue.toInt ++ ['\n']) := by decide +kernel
    rw [htext]
    exact .padded hblank (hinteger _) hfeed
  · have hitems := (Json.Denotes.literal literal_face).padded (g := []) rfl hblank
    exact .array (.items hitems (.item (.literal hslash)))
  · exact hinteger 0x8000000000000000
  · exact .integer (by decide)
  · exact .array (.items (.literal hplain) (.item (hinteger 1)))
  · exact .array (j := .integer 1) (by simp) nofun

end GrantCatalog.Cell
