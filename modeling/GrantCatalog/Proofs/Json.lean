import GrantCatalog.Error
import GrantCatalog.Json.Printer
import GrantCatalog.Json.Shape
import GrantCatalog.Proofs.Reader

/-!
# What is printed is read back

Reading is settled by the grammar, so all there is to say about printing is that the text of a value
**denotes** it, in either layout: `GrantCatalog.Json.denotes_print`. The gaps of a layout are blanks
that the grammar has room for, and everything else is printed as the grammar spells it. So every
value is read back from its text: `GrantCatalog.Json.read?_print`.

What is read back can then be taken apart by its shape, item by item and member by member.
-/

namespace GrantCatalog.Json

/-! ### Printing -/

variable {l : Layout} {g : List Char}

theorem isGap_gap : l.gap.all isGap = true := by
  cases l with
  | compact => rfl
  | indented d =>
    rw [Layout.gap, List.all_cons, List.all_replicate]
    split <;> rfl

theorem denotes_literal (s : Option String) : Denotes (literal s) (.value (.text s)) := by
  obtain ⟨body, hbody, h⟩ := exists_literal_eq s
  rw [hbody]
  exact .literal h

/-- The digits of zero are all that may not be an integer behind a minus sign. -/
theorem numeral_minusZero : Numeral "-0".toList .real :=
  @Numeral.minusZero ['0'] ⟨⟨by decide, rfl⟩, fun _ => rfl⟩ rfl

/-- A value stands behind the gap of its line. -/
theorem denotes_line {cs : List Char} {j : Json} (h : Denotes cs (.value j))
    (hg : g.all isGap = true) : Denotes (l.gap ++ cs ++ g) (.value j) := by
  rw [List.append_assoc]
  exact .padded isGap_gap h hg

/-- The items of an array, up to the bracket that closes it. -/
theorem denotes_printItems (j : Json) (js : List Json)
    (h : ∀ i ∈ j :: js, Denotes (print l i) (.value i)) (hg : g.all isGap = true) :
    Denotes (printItems l (j :: js) ++ g) (.items (j :: js)) := by
  -- There is no comma after the last item, so the induction starts from a single one.
  induction js generalizing j with
  | nil =>
    obtain ⟨hj, -⟩ := List.forall_mem_cons.mp h
    simpa [printItems] using Denotes.item (denotes_line (l := l) hj hg)
  | cons i js ih =>
    obtain ⟨hj, hrest⟩ := List.forall_mem_cons.mp h
    rw [printItems]
    simpa using Denotes.items (denotes_line (l := l) (g := []) hj rfl) (ih i hrest)

theorem denotes_printMember (m : Option String × Json)
    (h : Denotes (print l m.2) (.value m.2)) (hg : g.all isGap = true) :
    Denotes (l.gap ++ printMember l m ++ g) (.member m) := by
  obtain ⟨k, j⟩ := m
  obtain ⟨body, hbody, hk⟩ := exists_literal_eq k
  rw [printMember, hbody]
  have hnone : ([] : List Char).all isGap = true := rfl
  cases l with
  | compact =>
    have hmember := Denotes.member hnone hk hnone (.padded hnone h hg)
    simpa [Layout.gap, Layout.colon] using hmember
  | indented d =>
    -- In this layout there is a blank behind the colon.
    have hblank : [' '].all isGap = true := rfl
    have hmember := Denotes.member (isGap_gap (l := .indented d)) hk hnone (.padded hblank h hg)
    simpa [Layout.colon] using hmember

/-- The members of an object, up to the bracket that closes it. -/
theorem denotes_printMembers (m : Option String × Json) (ms : Members)
    (h : ∀ m' ∈ m :: ms, Denotes (print l m'.2) (.value m'.2)) (hg : g.all isGap = true) :
    Denotes (printMembers l (m :: ms) ++ g) (.members (m :: ms)) := by
  induction ms generalizing m with
  | nil =>
    obtain ⟨hm, -⟩ := List.forall_mem_cons.mp h
    simpa [printMembers] using Denotes.last (denotes_printMember m hm hg)
  | cons m' ms ih =>
    obtain ⟨hm, hrest⟩ := List.forall_mem_cons.mp h
    rw [printMembers]
    simpa using Denotes.members (denotes_printMember (g := []) m hm rfl) (ih m' hrest)

/-- **What is printed denotes the value**, in either layout. -/
theorem denotes_print (l : Layout) (j : Json) : Denotes (print l j) (.value j) := by
  match j with
  | .null => exact .word .null
  | .bool true => exact .word .yes
  | .bool false => exact .word .no
  | .integer n => exact .word (.number (numeral_decimal n))
  | .real => exact .word (.number numeral_minusZero)
  | .text s => exact denotes_literal s
  | .array [] => exact .emptyArray (g := []) rfl
  | .array (j :: js) =>
    have hitems :=
      denotes_printItems j js (fun i hi => denotes_print l.inner i) (isGap_gap (l := l))
    rw [print]
    simpa using Denotes.array hitems
  | .object [] => exact .emptyObject (g := []) rfl
  | .object (m :: ms) =>
    have hmembers :=
      denotes_printMembers m ms (fun m' hm => denotes_print l.inner m'.2) (isGap_gap (l := l))
    rw [print]
    simpa using Denotes.object hmembers
termination_by sizeOf j
decreasing_by
  · have := List.sizeOf_lt_of_mem hi
    simp only [array.sizeOf_spec]
    omega
  · have := List.sizeOf_lt_of_mem hm
    obtain ⟨k, j⟩ := m'
    simp only [object.sizeOf_spec, Prod.mk.sizeOf_spec] at *
    omega

/-- **A value is read back from its text**, and blanks after the text do not matter. -/
theorem read?_print (j : Json) (l : Layout) {blanks : List Char}
    (hblanks : blanks.all isGap = true) :
    read? (.ofList (print l j ++ blanks)) = some j := by
  rw [read?_eq_some_iff, String.toList_ofList]
  exact .padded (g := []) rfl (denotes_print l j) hblanks

/-! ### Values of a known shape -/

variable {α β : Type} {shape : Json → Option α} {s : String}

/-- A text is read as what its value is by its shape. -/
theorem parse_eq_ok_iff {a : α} :
    parse shape s = .ok a ↔ (read? s).bind shape = some a := by
  rw [parse, Option.bind_eq_bind]
  cases (read? s).bind shape with
  | none => simp
  | some a => simp

theorem parse_eq_error_iff {e : Error} :
    parse shape s = .error e ↔ (read? s).bind shape = none ∧ e = .json := by
  rw [parse, Option.bind_eq_bind]
  cases (read? s).bind shape with
  | none => simp [eq_comm]
  | some a => simp

theorem members?_dict (ms : List (String × Json)) : members? (.dict ms) = some ms := by
  rw [dict, members?, List.mapM_map]
  induction ms with
  | nil => rfl
  | cons m ms ih =>
    rw [List.mapM_cons, ih]
    rfl

/-- Items that are read back one by one are read back from a list. -/
theorem list?_map {item : Json → Option β} {f : α → Json} {g : α → β}
    (h : ∀ a, item (f a) = some (g a)) (as : List α) :
    list? item (.array (as.map f)) = some (as.map g) := by
  rw [list?, List.mapM_map]
  induction as with
  | nil => rfl
  | cons a as ih =>
    rw [List.mapM_cons, ih, Function.comp_apply, h]
    rfl

theorem mapM_entries {value : Json → Option α} {f : α → Json} (h : ∀ a, value (f a) = some a)
    (as : List (String × α)) :
    (as.map fun e => (e.1, f e.2)).mapM (fun e => (value e.2).map (e.1, ·)) = some as := by
  induction as with
  | nil => rfl
  | cons e as ih =>
    rw [List.map_cons, List.mapM_cons, ih, h]
    rfl

/-- Values that are read back one by one are read back from a map. -/
theorem map?_dict {value : Json → Option α} {f : α → Json} (h : ∀ a, value (f a) = some a)
    (as : List (String × α)) :
    map? value (.dict (as.map fun (k, a) => (k, f a))) = some (.ofList as) := by
  rw [map?, members?_dict, Option.bind_eq_bind, Option.bind_some]
  exact Option.bind_eq_some_iff.mpr ⟨as, mapM_entries h as, rfl⟩

end GrantCatalog.Json
