import GrantCatalog.Text.Blank
import GrantCatalog.Text.Cut
import GrantCatalog.Text.Letters
import Mathlib.Data.List.DropRight

/-!
# Trimming and searching texts

* **Trimming** a second time does nothing (`GrantCatalog.Text.trim_trim`): the elements of a list
  may be trimmed when the list is cut, and again when an element is looked up as a name.
* What trimming leaves is found without trimming: it is the text between some padding that neither
  begins nor ends with a blank (`GrantCatalog.Text.trim_padded` and
  `GrantCatalog.Text.exists_padding`), and nothing just if the whole text is blank
  (`GrantCatalog.Text.trim_eq_nil_iff`). A text without padding is left as it is
  (`GrantCatalog.Text.trim_eq_self_iff`). `GrantCatalog.Text.Trims` is the relation that this makes.
* **Cutting** at the first or the last separator leaves none in front of it or behind it
  (`GrantCatalog.Text.cutFirst_eq_some_iff`, `GrantCatalog.Text.cutLast_eq_some_iff`); cutting at
  every separator gives pieces without one, which joined again are the text
  (`GrantCatalog.Text.splitOn_eq_iff`).
* **Searching** finds the first place at which a phrase stands, and the first word
  (`GrantCatalog.Text.find?_eq_some_iff`, `GrantCatalog.Text.firstWord_eq_some_iff`). The place
  stays the first one whatever is appended to the text (`GrantCatalog.Text.find?_append`), and so
  does the word, once a blank has ended it (`GrantCatalog.Text.firstWord_append`).
* A text in **upper case** can be cut where the text can
  (`GrantCatalog.Text.exists_of_uppered_eq_append`).
-/

namespace GrantCatalog.Text

/-! ### Trimming -/

theorem trimStart_trimStart (s : List Char) : trimStart (trimStart s) = trimStart s :=
  List.dropWhile_idempotent isBlank s

theorem trimEnd_trimEnd (s : List Char) : trimEnd (trimEnd s) = trimEnd s :=
  List.rdropWhile_idempotent isBlank s

/-- Trimming the end of a text that begins with no blank does not uncover one. -/
theorem trimStart_trimEnd_of_eq {s : List Char} (h : trimStart s = s) :
    trimStart (trimEnd s) = trimEnd s := by
  have hprefix : trimEnd s <+: s := List.rdropWhile_prefix isBlank s
  rw [trimStart, List.dropWhile_eq_self_iff] at h ⊢
  intro hlength
  have hs : 0 < s.length := Nat.lt_of_lt_of_le hlength hprefix.length_le
  have hfirst : (trimEnd s)[0] = s[0] := hprefix.getElem hlength
  rw [hfirst]
  exact h hs

/-- **Trimming twice is trimming once.** -/
@[simp] theorem trim_trim (s : List Char) : trim (trim s) = trim s := by
  have hstart : trimStart (trimEnd (trimStart s)) = trimEnd (trimStart s) :=
    trimStart_trimEnd_of_eq (trimStart_trimStart s)
  rw [trim, trim, hstart, trimEnd_trimEnd]

/-- A blank text: white space, if anything. -/
def AllBlank (s : List Char) : Prop := ∀ c ∈ s, isBlank c = true

theorem allBlank_nil : AllBlank [] := fun _ hc => absurd hc List.not_mem_nil

theorem AllBlank.not_mem {s : List Char} (h : AllBlank s) {c : Char} (hc : isBlank c = false) :
    c ∉ s := by
  intro hmem
  rw [h c hmem] at hc
  cases hc

/-- A text that neither begins nor ends with a blank. -/
def Unpadded (s : List Char) : Prop :=
  (∀ c ∈ s.head?, isBlank c = false) ∧ ∀ c ∈ s.getLast?, isBlank c = false

theorem trimStart_eq_nil_iff {s : List Char} : trimStart s = [] ↔ AllBlank s :=
  List.dropWhile_eq_nil_iff

/-- What is left behind the blanks at the front begins with none. -/
theorem not_isBlank_of_trimStart_eq_cons {s r : List Char} {c : Char}
    (h : trimStart s = c :: r) : isBlank c = false := by
  have hdrop : s.dropWhile isBlank = c :: r := h
  have hfirst := List.head_dropWhile_not isBlank (l := s) (by simp [hdrop])
  simpa only [hdrop, List.head_cons] using hfirst

/-- Blanks are left out at the front up to the first character that is none. -/
theorem trimStart_append_cons {l : List Char} (hl : AllBlank l) {c : Char}
    (hc : isBlank c = false) (r : List Char) : trimStart (l ++ c :: r) = c :: r := by
  rw [trimStart, List.dropWhile_append_of_pos hl, List.dropWhile_cons_of_neg (by simp [hc])]

/-- Trimming leaves nothing of a blank text, and something of any other. -/
theorem trim_eq_nil_iff {s : List Char} : trim s = [] ↔ AllBlank s := by
  have hend : trim s = [] ↔ AllBlank (trimStart s) := List.rdropWhile_eq_nil_iff
  rw [hend, ← trimStart_eq_nil_iff (s := s)]
  cases hstart : trimStart s with
  | nil => exact iff_of_true allBlank_nil rfl
  | cons c r =>
    refine iff_of_false (fun h => ?_) (List.cons_ne_nil c r)
    have hc := not_isBlank_of_trimStart_eq_cons hstart
    rw [h c List.mem_cons_self] at hc
    cases hc

/-- **Padding is trimmed off** a text that neither begins nor ends with a blank. -/
theorem trim_padded {l w r : List Char} (hl : AllBlank l) (hr : AllBlank r) (hw : Unpadded w) :
    trim (l ++ w ++ r) = w := by
  obtain ⟨hfirst, hlast⟩ := hw
  rcases List.eq_nil_or_concat' w with rfl | ⟨v, c, rfl⟩
  · refine trim_eq_nil_iff.mpr fun c hc => ?_
    rw [List.append_nil] at hc
    exact (List.mem_append.mp hc).elim (hl c) (hr c)
  · have hc : isBlank c = false := hlast c (by simp)
    have hstart : trimStart (l ++ (v ++ [c]) ++ r) = v ++ [c] ++ r := by
      rw [List.append_assoc]
      cases v with
      | nil => exact trimStart_append_cons hl hc r
      | cons d v => exact trimStart_append_cons hl (hfirst d (by simp)) (v ++ [c] ++ r)
    have hback : (v ++ [c] ++ r).reverse = r.reverse ++ c :: v.reverse := by simp
    have hr' : ∀ d ∈ r.reverse, isBlank d = true := fun d hd => hr d (List.mem_reverse.mp hd)
    rw [trim, hstart, trimEnd, hback, List.dropWhile_append_of_pos hr',
      List.dropWhile_cons_of_neg (by simp [hc])]
    simp

/-- What is trimmed off a text is padding. -/
theorem exists_padding (s : List Char) :
    ∃ l r, AllBlank l ∧ AllBlank r ∧ s = l ++ trim s ++ r := by
  refine ⟨s.takeWhile isBlank, (trimStart s).rtakeWhile isBlank, ?_, ?_, ?_⟩
  · exact fun c hc => List.mem_takeWhile_imp hc
  · exact fun c hc => List.mem_rtakeWhile_imp hc
  · have hstart : s = s.takeWhile isBlank ++ trimStart s := List.takeWhile_append_dropWhile.symm
    have hend : trimStart s = trim s ++ (trimStart s).rtakeWhile isBlank :=
      List.rdropWhile_append_rtakeWhile.symm
    rw [List.append_assoc, ← hend]
    exact hstart

/-- What is trimmed off the end of a text is padding. -/
theorem exists_padding_end (s : List Char) :
    ∃ w r, AllBlank r ∧ (∀ c ∈ w.getLast?, isBlank c = false) ∧ s = w ++ r := by
  refine ⟨trimEnd s, s.rtakeWhile isBlank, fun c hc => List.mem_rtakeWhile_imp hc, fun c hc => ?_,
    List.rdropWhile_append_rtakeWhile.symm⟩
  have hend := trimEnd_trimEnd s
  obtain ⟨r, hr⟩ := List.getLast?_eq_some_iff.mp hc
  rw [hr] at hend
  simpa using List.rdropWhile_eq_self_iff.mp hend (by simp)

/-- What is left of a text after trimming has no blanks at its ends. -/
theorem unpadded_trim (s : List Char) : Unpadded (trim s) := by
  have hstart : trimStart (trim s) = trim s := trimStart_trimEnd_of_eq (trimStart_trimStart s)
  have hend : trimEnd (trim s) = trim s := trimEnd_trimEnd (trimStart s)
  generalize trim s = w at hstart hend
  refine ⟨fun c hc => ?_, fun c hc => ?_⟩
  · obtain ⟨r, rfl⟩ := List.head?_eq_some_iff.mp hc
    simpa using List.dropWhile_eq_self_iff.mp hstart (Nat.succ_pos _)
  · obtain ⟨r, rfl⟩ := List.getLast?_eq_some_iff.mp hc
    simpa using List.rdropWhile_eq_self_iff.mp hend (by simp)

/-- **Trimming changes nothing** of a text just if it has no blanks at its ends. -/
theorem trim_eq_self_iff {s : List Char} : trim s = s ↔ Unpadded s := by
  constructor
  · intro h
    exact h ▸ unpadded_trim s
  · intro h
    simpa using trim_padded allBlank_nil allBlank_nil h

/-- **A text without the white space at its two ends.** -/
structure Trims (s w : List Char) : Prop where
  /-- It neither begins nor ends with a blank. -/
  unpadded : Unpadded w
  /-- What stands around it is blank. -/
  around : ∃ l r, s = l ++ w ++ r ∧ AllBlank l ∧ AllBlank r

/-- There is one such text, and it is what trimming leaves. -/
theorem trim_eq_iff {s w : List Char} : trim s = w ↔ Trims s w := by
  constructor
  · rintro rfl
    obtain ⟨l, r, hl, hr, hs⟩ := exists_padding s
    exact ⟨unpadded_trim s, l, r, hs, hl, hr⟩
  · rintro ⟨hw, l, r, rfl, hl, hr⟩
    exact trim_padded hl hr hw

theorem mem_of_mem_trim {s : List Char} {c : Char} (h : c ∈ trim s) : c ∈ s := by
  have hstart : c ∈ trimStart s := (List.rdropWhile_prefix isBlank (trimStart s)).subset h
  exact (List.dropWhile_suffix isBlank).subset hstart

/-- A blank piece does not count among those that something is read from. -/
theorem filter_trim_cons_of_blank {s : List Char} (h : AllBlank s) (pieces : List (List Char)) :
    ((s :: pieces).map trim).filter (!·.isEmpty) = (pieces.map trim).filter (!·.isEmpty) := by
  rw [List.map_cons, trim_eq_nil_iff.mpr h, List.filter_cons_of_neg (by simp)]

theorem filter_trim_cons {s : List Char} (h : ¬AllBlank s) (pieces : List (List Char)) :
    ((s :: pieces).map trim).filter (!·.isEmpty) =
      trim s :: (pieces.map trim).filter (!·.isEmpty) := by
  have htrim : trim s ≠ [] := mt trim_eq_nil_iff.mp h
  rw [List.map_cons, List.filter_cons_of_pos (by simpa using htrim)]

/-! ### Cutting -/

section Cutting

variable {sep : Char} {s a b : List Char}

/-- Nothing is cut from a text without the separator. -/
theorem cutFirst_eq_none_iff : cutFirst sep s = none ↔ sep ∉ s := by
  induction s with
  | nil => simp [cutFirst]
  | cons c r ih =>
    rw [cutFirst]
    split
    · next hc => simp [hc]
    · next hc => simp [ih, Ne.symm hc]

theorem cutFirst_append (ha : sep ∉ a) (b : List Char) :
    cutFirst sep (a ++ sep :: b) = some (a, b) := by
  induction a with
  | nil => exact if_pos rfl
  | cons c a ih =>
    rw [List.mem_cons, not_or] at ha
    obtain ⟨hc, ha⟩ := ha
    rw [List.cons_append, cutFirst, if_neg (Ne.symm hc), ih ha, Option.map_some]

/-- **A cut at the first separator** leaves none in front of it. -/
theorem cutFirst_eq_some_iff : cutFirst sep s = some (a, b) ↔ s = a ++ sep :: b ∧ sep ∉ a := by
  constructor
  · intro h
    have hmem : sep ∈ s := by
      by_contra hmem
      rw [cutFirst_eq_none_iff.mpr hmem] at h
      cases h
    obtain ⟨a', b', rfl, ha'⟩ := List.eq_append_cons_of_mem hmem
    rw [cutFirst_append ha', Option.some.injEq, Prod.mk.injEq] at h
    obtain ⟨rfl, rfl⟩ := h
    exact ⟨rfl, ha'⟩
  · rintro ⟨rfl, ha⟩
    exact cutFirst_append ha b

/-- Nothing is cut from a text without the separator. -/
theorem cutLast_eq_none_iff : cutLast sep s = none ↔ sep ∉ s := by
  induction s with
  | nil => simp [cutLast]
  | cons c r ih =>
    rw [cutLast]
    cases hr : cutLast sep r with
    | none => simp [ih.mp hr, eq_comm]
    | some parts =>
      have hmem : sep ∈ r := by
        by_contra hmem
        rw [ih.mpr hmem] at hr
        cases hr
      simp [hmem]

theorem cutLast_append (a : List Char) (hb : sep ∉ b) :
    cutLast sep (a ++ sep :: b) = some (a, b) := by
  induction a with
  | nil => rw [List.nil_append, cutLast, cutLast_eq_none_iff.mpr hb, if_pos rfl]
  | cons c a ih => rw [List.cons_append, cutLast, ih]

/-- **A cut at the last separator** leaves none behind it. -/
theorem cutLast_eq_some_iff : cutLast sep s = some (a, b) ↔ s = a ++ sep :: b ∧ sep ∉ b := by
  constructor
  · intro h
    have hmem : sep ∈ s := by
      by_contra hmem
      rw [cutLast_eq_none_iff.mpr hmem] at h
      cases h
    -- The last separator is the first one from behind.
    obtain ⟨b', a', hs, hb'⟩ := List.eq_append_cons_of_mem (List.mem_reverse.mpr hmem)
    obtain rfl : s = a'.reverse ++ sep :: b'.reverse := by
      rw [← List.reverse_reverse s, hs]
      simp
    have hb' : sep ∉ b'.reverse := by simpa using hb'
    rw [cutLast_append _ hb', Option.some.injEq, Prod.mk.injEq] at h
    obtain ⟨rfl, rfl⟩ := h
    exact ⟨rfl, hb'⟩
  · rintro ⟨rfl, hb⟩
    exact cutLast_append a hb

end Cutting

theorem not_mem_of_mem_splitOn {sep : Char} {s piece : List Char} (h : piece ∈ s.splitOn sep) :
    sep ∉ piece := by
  induction s generalizing piece with
  | nil =>
    obtain rfl : piece = [] := by simpa using h
    exact List.not_mem_nil
  | cons c s ih =>
    rw [List.splitOn_cons_eq_if_modifyHead] at h
    split at h
    · rcases List.mem_cons.mp h with rfl | h
      · exact List.not_mem_nil
      · exact ih h
    · next hc =>
      -- A character that is no separator goes to the front of the first piece.
      rcases List.exists_cons_of_ne_nil (List.splitOn_ne_nil sep s) with ⟨first, pieces, hs⟩
      rw [hs, List.modifyHead_cons] at h
      rcases List.mem_cons.mp h with rfl | h
      · have hfirst : sep ∉ first := ih (by rw [hs]; exact List.mem_cons_self)
        have hne : sep ≠ c := fun he => hc (by simp [he])
        simp [hfirst, hne]
      · exact ih (by rw [hs]; exact List.mem_cons_of_mem _ h)

/-- **The pieces of a text** are the only ones without a separator that make it up. -/
theorem splitOn_eq_iff {sep : Char} {s : List Char} {pieces : List (List Char)} :
    s.splitOn sep = pieces ↔
      pieces ≠ [] ∧ (∀ piece ∈ pieces, sep ∉ piece) ∧ [sep].intercalate pieces = s := by
  constructor
  · rintro rfl
    exact ⟨List.splitOn_ne_nil sep s, fun piece h => not_mem_of_mem_splitOn h,
      List.intercalate_splitOn sep⟩
  · rintro ⟨hne, hpieces, rfl⟩
    exact List.splitOn_intercalate sep hpieces hne

/-! ### Searching -/

section Searching

variable {phrase s w : List Char}

/-- **Where a phrase stands first** in a text, or the bytes of one in those of the other. -/
structure FirstAt {α : Type} (phrase s : List α) (i : Nat) : Prop where
  /-- It stands there. -/
  here : phrase <+: s.drop i
  /-- It does not stand any earlier. -/
  first : ∀ j < i, ¬phrase <+: s.drop j

/-- A phrase at the front of a text stands nowhere earlier. -/
theorem firstAt_iff_eq_zero {α : Type} {phrase s : List α} (h : phrase <+: s) {i : Nat} :
    FirstAt phrase s i ↔ i = 0 := by
  constructor
  · rintro ⟨-, hfirst⟩
    by_contra hi
    exact hfirst 0 (Nat.pos_of_ne_zero hi) h
  · rintro rfl
    exact ⟨h, fun j hj => absurd hj (Nat.not_lt_zero j)⟩

/-- **A phrase is found where it stands first.** -/
theorem find?_eq_some_iff {i : Nat} : find? phrase s = some i ↔ FirstAt phrase s i := by
  induction s generalizing i with
  | nil =>
    rw [find?]
    by_cases hphrase : phrase = []
    · rw [if_pos (List.isEmpty_iff.mpr hphrase), Option.some.injEq, eq_comm]
      exact (firstAt_iff_eq_zero (hphrase ▸ List.nil_prefix)).symm
    · rw [if_neg fun h => hphrase (List.isEmpty_iff.mp h)]
      refine iff_of_false (fun h => by cases h) fun hfirst => hphrase ?_
      simpa using hfirst.here
  | cons c r ih =>
    rw [find?]
    by_cases hprefix : phrase <+: c :: r
    · rw [if_pos (List.isPrefixOf_iff_prefix.mpr hprefix), Option.some.injEq, eq_comm]
      exact (firstAt_iff_eq_zero hprefix).symm
    · rw [if_neg fun h => hprefix (List.isPrefixOf_iff_prefix.mp h)]
      cases i with
      | zero => exact iff_of_false (by simp) fun hfirst => hprefix hfirst.here
      | succ i =>
        simp only [Option.map_eq_some_iff, Nat.add_right_cancel_iff, exists_eq_right, ih]
        refine ⟨fun ⟨hhere, hfirst⟩ => ⟨hhere, fun j hj => ?_⟩, fun ⟨hhere, hfirst⟩ =>
          ⟨hhere, fun j hj => hfirst (j + 1) (Nat.succ_lt_succ hj)⟩⟩
        cases j with
        | zero => exact hprefix
        | succ j => exact hfirst j (Nat.lt_of_succ_lt_succ hj)

/-- A phrase is not found just if it stands nowhere. -/
theorem find?_eq_none_iff : find? phrase s = none ↔ ∀ i, ¬phrase <+: s.drop i := by
  constructor
  · intro h i
    -- The first of the positions at which the phrase stands would be found.
    induction i using Nat.strongRecOn with
    | ind i ih =>
      intro hi
      rw [find?_eq_some_iff.mpr ⟨hi, ih⟩] at h
      cases h
  · intro h
    cases hs : find? phrase s with
    | none => rfl
    | some i => exact absurd (find?_eq_some_iff.mp hs).here (h i)

/-- A phrase is found where there is room for it. -/
theorem length_le_of_find? {i : Nat} (h : find? phrase s = some i) :
    i + phrase.length ≤ s.length := by
  obtain ⟨hi, hfirst⟩ := find?_eq_some_iff.mp h
  have hlength := hi.length_le
  rw [List.length_drop] at hlength
  by_contra hlong
  have hphrase : phrase = [] := List.eq_nil_of_length_eq_zero (by omega)
  rw [hphrase, List.length_nil] at hlong
  exact hfirst 0 (by omega) (hphrase ▸ List.nil_prefix)

/-- **The first occurrence of a phrase stays the first one** when the text goes on. -/
theorem find?_append {i : Nat} (h : find? phrase s = some i) (t : List Char) :
    find? phrase (s ++ t) = some i := by
  have hroom := length_le_of_find? h
  obtain ⟨hi, hfirst⟩ := find?_eq_some_iff.mp h
  refine find?_eq_some_iff.mpr ⟨?_, fun j hj hlonger => hfirst j hj ?_⟩
  · rw [List.drop_append_of_le_length (by omega)]
    exact hi.trans (List.prefix_append _ t)
  · -- A phrase that fits into the text stands in it, if it stands in the text that goes on.
    rw [List.drop_append_of_le_length (by omega)] at hlonger
    refine List.prefix_of_prefix_length_le hlonger (List.prefix_append _ t) ?_
    rw [List.length_drop]
    omega

/-- **A word at the front of a text**, after blanks, and up to the next blank or the end. -/
structure Begins (s w : List Char) : Prop where
  word_ne : w ≠ []
  word_unblank : ∀ c ∈ w, isBlank c = false
  around : ∃ l r, s = l ++ w ++ r ∧ AllBlank l ∧ ∀ c ∈ r.head?, isBlank c = true

/-- A text without a word is blank. -/
theorem firstWord_eq_none_iff : firstWord s = none ↔ AllBlank s := by
  have hnone : firstWord s = none ↔ (trimStart s).takeWhile (!isBlank ·) = [] := by
    rw [firstWord]
    split
    · next h => exact iff_of_true rfl h
    · next h => exact iff_of_false (fun h => by cases h) h
  rw [hnone, ← trimStart_eq_nil_iff]
  cases hstart : trimStart s with
  | nil => rfl
  | cons c r =>
    have hc := not_isBlank_of_trimStart_eq_cons hstart
    rw [List.takeWhile_cons_of_pos (by simp [hc])]
    exact iff_of_false (List.cons_ne_nil _ _) (List.cons_ne_nil c r)

/-- **What the first word of a text is.** -/
theorem firstWord_eq_some_iff : firstWord s = some w ↔ Begins s w := by
  constructor
  · intro h
    have hword : (trimStart s).takeWhile (!isBlank ·) = w ∧ w ≠ [] := by
      rw [firstWord] at h
      split at h
      · cases h
      · next hne =>
        obtain rfl := Option.some.inj h
        exact ⟨rfl, hne⟩
    obtain ⟨rfl, hne⟩ := hword
    refine ⟨hne, fun c hc => ?_, s.takeWhile isBlank, (trimStart s).dropWhile (!isBlank ·), ?_,
      fun c hc => List.mem_takeWhile_imp hc, fun c hc => ?_⟩
    · simpa using List.mem_takeWhile_imp hc
    · rw [List.append_assoc, List.takeWhile_append_dropWhile]
      exact List.takeWhile_append_dropWhile.symm
    · obtain ⟨r, hr⟩ := List.head?_eq_some_iff.mp hc
      have hfirst := List.head_dropWhile_not (!isBlank ·) (l := trimStart s) (by simp [hr])
      simpa [hr] using hfirst
  · rintro ⟨hne, hword, l, r, rfl, hl, hr⟩
    obtain ⟨c, w, rfl⟩ := List.exists_cons_of_ne_nil hne
    have hc : isBlank c = false := hword c List.mem_cons_self
    have hstart : trimStart (l ++ (c :: w) ++ r) = c :: w ++ r := by
      rw [List.append_assoc]
      exact trimStart_append_cons hl hc (w ++ r)
    have hrest : r.takeWhile (!isBlank ·) = [] := by
      rcases r with _ | ⟨b, r⟩
      · rfl
      · exact List.takeWhile_cons_of_neg (by simp [hr b rfl])
    have hcut : (c :: w ++ r).takeWhile (!isBlank ·) = c :: w := by
      rw [List.takeWhile_append_of_pos fun d hd => by simp [hword d hd], hrest, List.append_nil]
    rw [firstWord, hstart, hcut]

/-- **The first word of a text** ends at the first blank after it. -/
theorem firstWord_append (hne : w ≠ []) (hw : w.any isBlank = false) {b : Char}
    (hb : isBlank b = true) (t : List Char) : firstWord (w ++ b :: t) = some w := by
  refine firstWord_eq_some_iff.mpr ⟨hne, fun c hc => ?_, [], b :: t, rfl, allBlank_nil, ?_⟩
  · simpa using List.any_eq_false.mp hw c hc
  · simpa using hb

end Searching

/-! ### Upper case -/

/-- Characters beyond the small letters are their own capitals. -/
theorem toUpper_eq_self {c : Char} (h : 123 ≤ c.toNat) : c.toUpper = c := by
  refine dif_neg fun hc => ?_
  have hlast : c.toNat ≤ 122 := UInt32.le_iff_toNat_le.mp hc.2
  omega

/-- Letters that are in upper case stay as they are. -/
theorem toUpper_toUpper (c : Char) : c.toUpper.toUpper = c.toUpper := by
  have hletters : ∀ n < 123, (Char.ofNat n).toUpper.toUpper = (Char.ofNat n).toUpper := by
    decide +kernel
  rcases Nat.lt_or_ge c.toNat 123 with hsmall | hlarge
  · have hc := hletters _ hsmall
    rwa [Char.ofNat_toNat] at hc
  · rw [toUpper_eq_self hlarge, toUpper_eq_self hlarge]

/-- A text has the letters of its form in upper case. -/
theorem sameLetters_uppered (s t : String) : sameLetters s (uppered t) = sameLetters s t := by
  have htwice : upper (uppered t).toList = upper t.toList := by
    rw [uppered, String.toList_ofList, upper, upper, List.map_map]
    exact List.map_congr_left fun c _ => toUpper_toUpper c
  rw [sameLetters, htwice, sameLetters]

theorem uppered_append (s t : String) : uppered (s ++ t) = uppered s ++ uppered t := by
  rw [uppered, String.toList_append, upper, List.map_append, String.ofList_append]
  rfl

theorem length_uppered (s : String) : (uppered s).length = s.length := by
  rw [uppered, String.length_ofList, upper, List.length_map, String.length_toList]

/-- A text in upper case is split where the text is. -/
theorem exists_of_uppered_eq_append {s a b : String} (h : uppered s = a ++ b) :
    ∃ x y, s = x ++ y ∧ uppered x = a ∧ uppered y = b := by
  have hlist : upper s.toList = a.toList ++ b.toList := by
    rw [← String.toList_append, ← h, uppered, String.toList_ofList]
  obtain ⟨x, y, hs, hx, hy⟩ := List.map_eq_append_iff.mp hlist
  refine ⟨.ofList x, .ofList y, ?_, ?_, ?_⟩
  · rw [← String.ofList_append, ← hs, String.ofList_toList]
  · rw [uppered, String.toList_ofList, upper, hx, String.ofList_toList]
  · rw [uppered, String.toList_ofList, upper, hy, String.ofList_toList]

end GrantCatalog.Text
