import GrantCatalog.Error
import GrantCatalog.Proofs.Text
import Mathlib.Data.List.Forall2
import Mathlib.Data.List.Nodup

/-!
# How the name of a privilege may be written

A name is looked up by bringing it into the spelling of the identifiers: it is trimmed, its spaces
become underscores and its letters capitals. Seen from the identifier this says which texts are
**spellings** of a privilege (`GrantCatalog.Privilege.Spells`): some padding, and inside it one
character for each character of the identifier, which may be

* the character itself,
* the small letter, for a letter,
* a space, for an underscore.

`GrantCatalog.Privilege.ofName?_eq_some_iff` says that the look-up finds a privilege by its
spellings and by nothing else. The identifiers begin and end with letters, so padding can never be
taken for a part of the name, nor a part of the name for padding.
-/

namespace GrantCatalog

namespace Privilege

/-- The characters that may be written for a character of an identifier. -/
inductive StandsFor : Char → Char → Prop where
  | self (d : Char) : StandsFor d d
  | small {d : Char} (hd : d.isUpper = true) : StandsFor d.toLower d
  | space : StandsFor ' ' '_'

/-- **A spelling of a privilege**: padding around a text that stands for the identifier, character
by character. -/
def Spells (p : Privilege) (s : String) : Prop :=
  ∃ l w r, s.toList = l ++ w ++ r ∧ Text.AllBlank l ∧ Text.AllBlank r ∧
    List.Forall₂ StandsFor w p.name.toList

/-! ### Character by character -/

/-- What the look-up makes of a character. -/
def capital (c : Char) : Char := (if c = ' ' then '_' else c).toUpper

theorem canonical_eq (s : String) : canonical s = (Text.trim s.toList).map capital := by
  rw [canonical, Text.upper, List.map_map]
  rfl

/-- A character that is not its own capital is the small letter of it. -/
theorem toLower_toUpper {c : Char} (h : c.toUpper ≠ c) :
    c.toUpper.isUpper = true ∧ c.toUpper.toLower = c := by
  have hletters : ∀ n < 123, (Char.ofNat n).toUpper ≠ Char.ofNat n →
      (Char.ofNat n).toUpper.isUpper = true ∧ (Char.ofNat n).toUpper.toLower = Char.ofNat n := by
    decide
  have hsmall : c.toNat < 123 := by
    by_contra hn
    exact h (Text.toUpper_eq_self (Nat.not_lt.mp hn))
  rw [← Char.ofNat_toNat c] at h ⊢
  exact hletters _ hsmall h

/-- A capital letter, and its small letter, become the capital letter, and neither is blank. -/
theorem capital_of_isUpper {d : Char} (hd : d.isUpper = true) :
    capital d = d ∧ capital d.toLower = d ∧ Text.isBlank d = false ∧
      Text.isBlank d.toLower = false := by
  have hletters : ∀ n < 91, (Char.ofNat n).isUpper = true →
      capital (Char.ofNat n) = Char.ofNat n ∧ capital (Char.ofNat n).toLower = Char.ofNat n ∧
        Text.isBlank (Char.ofNat n) = false ∧ Text.isBlank (Char.ofNat n).toLower = false := by
    decide
  have hsmall : d.toNat < 91 := by
    have hrange : 'A'.val ≤ d.val ∧ d.val ≤ 'Z'.val := of_decide_eq_true hd
    exact Nat.lt_succ_of_le (UInt32.le_iff_toNat_le.mp hrange.2)
  rw [← Char.ofNat_toNat d] at hd ⊢
  exact hletters _ hsmall hd

/-- **A character becomes one of an identifier** just if it stands for it. -/
theorem capital_eq_iff {c d : Char} (hd : d.isUpper = true ∨ d = '_') :
    capital c = d ↔ StandsFor c d := by
  constructor
  · rintro rfl
    by_cases hc : c = ' '
    · subst hc
      exact .space
    · rw [capital, if_neg hc]
      by_cases hsame : c.toUpper = c
      · rw [hsame]
        exact .self c
      · obtain ⟨hupper, hlower⟩ := toLower_toUpper hsame
        have hsmall := StandsFor.small hupper
        rwa [hlower] at hsmall
  · intro h
    cases h with
    | self =>
      rcases hd with hd | rfl
      · exact (capital_of_isUpper hd).1
      · rfl
    | small hupper => exact (capital_of_isUpper hupper).2.1
    | space => rfl

theorem StandsFor.not_isBlank {c d : Char} (h : StandsFor c d) (hd : d.isUpper = true) :
    Text.isBlank c = false := by
  cases h with
  | self => exact (capital_of_isUpper hd).2.2.1
  | small hupper => exact (capital_of_isUpper hupper).2.2.2
  | space => cases hd

theorem map_capital_eq_iff {n w : List Char}
    (hn : n.all (fun d => d.isUpper || d == '_') = true) :
    w.map capital = n ↔ List.Forall₂ StandsFor w n := by
  induction n generalizing w with
  | nil => rw [List.map_eq_nil_iff, List.forall₂_nil_right_iff]
  | cons d n ih =>
    rw [List.all_cons, Bool.and_eq_true, Bool.or_eq_true, beq_iff_eq] at hn
    rw [List.map_eq_cons_iff, List.forall₂_cons_right_iff]
    constructor
    · rintro ⟨c, w, rfl, hc, hw⟩
      exact ⟨c, w, (capital_eq_iff hn.1).mp hc, (ih hn.2).mp hw, rfl⟩
    · rintro ⟨c, w, hc, hw, rfl⟩
      exact ⟨c, w, rfl, (capital_eq_iff hn.1).mpr hc, (ih hn.2).mpr hw⟩

/-! ### Identifiers -/

/-- An identifier has capital letters and underscores in it, and letters at its two ends. -/
theorem name_letters (p : Privilege) :
    p.name.toList.all (fun d => d.isUpper || d == '_') = true ∧
      p.name.toList.head?.all Char.isUpper = true ∧
      p.name.toList.getLast?.all Char.isUpper = true := by
  cases p <;> decide

/-- Privileges are told apart by their identifiers. -/
theorem name_injective : Function.Injective name := by
  have hnodup : (all.map name).Nodup := by
    decide +kernel
  intro p q h
  exact List.inj_on_of_nodup_map hnodup (mem_all p) (mem_all q) h

theorem ofName?_eq_some_iff_canonical {s : String} {p : Privilege} :
    ofName? s = some p ↔ p.name.toList = canonical s := by
  constructor
  · intro h
    simpa using List.find?_some h
  · intro h
    cases hs : ofName? s with
    | none =>
      have hno := List.find?_eq_none.mp hs p (mem_all p)
      exact absurd (by simpa using h) hno
    | some q =>
      have hq : q.name.toList = canonical s := by simpa using List.find?_some hs
      exact congrArg some (name_injective (String.toList_injective (hq.trans h.symm)))

/-! ### Spellings -/

/-- What stands for an identifier has no blank at its ends. -/
theorem unpadded_of_standsFor {w : List Char} {p : Privilege}
    (h : List.Forall₂ StandsFor w p.name.toList) :
    Text.Unpadded w := by
  obtain ⟨-, hfirst, hlast⟩ := name_letters p
  refine ⟨fun c hc => ?_, fun c hc => ?_⟩
  · cases w with
    | nil => cases hc
    | cons c' w =>
      obtain rfl : c' = c := Option.some.inj hc
      obtain ⟨d, n, hd, -, hn⟩ := List.forall₂_cons_left_iff.mp h
      rw [hn] at hfirst
      exact hd.not_isBlank (by simpa using hfirst)
  · have hreverse := List.forall₂_reverse_iff.mpr h
    rw [List.getLast?_eq_head?_reverse] at hc hlast
    cases hwn : w.reverse with
    | nil =>
      rw [hwn] at hc
      cases hc
    | cons c' w' =>
      rw [hwn] at hc hreverse
      obtain rfl : c' = c := Option.some.inj hc
      obtain ⟨d, n, hd, -, hn⟩ := List.forall₂_cons_left_iff.mp hreverse
      rw [hn] at hlast
      exact hd.not_isBlank (by simpa using hlast)

/-- **A privilege is found by its spellings**, and by nothing else. -/
theorem ofName?_eq_some_iff {s : String} {p : Privilege} : ofName? s = some p ↔ p.Spells s := by
  obtain ⟨hletters, -, -⟩ := name_letters p
  rw [ofName?_eq_some_iff_canonical, canonical_eq, eq_comm, map_capital_eq_iff hletters]
  constructor
  · intro h
    obtain ⟨l, r, hl, hr, hs⟩ := Text.exists_padding s.toList
    exact ⟨l, _, r, hs, hl, hr, h⟩
  · rintro ⟨l, w, r, hs, hl, hr, h⟩
    rwa [hs, Text.trim_padded hl hr (unpadded_of_standsFor h)]

/-- A name is parsed as it is looked up. -/
theorem parse_eq_ok_iff {s : String} {p : Privilege} : parse s = .ok p ↔ ofName? s = some p := by
  rw [parse]
  cases ofName? s <;> simp

theorem parse_eq_error_iff {s : String} {e : Error} :
    parse s = .error e ↔ ofName? s = none ∧ e = .unknownPrivilege s := by
  rw [parse]
  cases ofName? s <;> simp [eq_comm]

/-- No comma stands in a spelling. -/
theorem Spells.not_mem_comma {s : String} {p : Privilege} (h : p.Spells s) : ',' ∉ s.toList := by
  obtain ⟨l, w, r, hs, hl, hr, hw⟩ := h
  have hword : ',' ∉ w := by
    intro hmem
    have hcapital : capital ',' ∈ p.name.toList := by
      rw [← (map_capital_eq_iff (name_letters p).1).mpr hw]
      exact List.mem_map_of_mem hmem
    have hletter := List.all_eq_true.mp (name_letters p).1 _ hcapital
    cases hletter
  rw [hs, List.mem_append, List.mem_append]
  rintro ((hmem | hmem) | hmem)
  · exact hl.not_mem rfl hmem
  · exact hword hmem
  · exact hr.not_mem rfl hmem

/-- No spelling is blank. -/
theorem Spells.not_allBlank {s : String} {p : Privilege} (h : p.Spells s) :
    ¬Text.AllBlank s.toList := by
  intro hblank
  have hname := ofName?_eq_some_iff_canonical.mp (ofName?_eq_some_iff.mpr h)
  rw [canonical_eq, Text.trim_eq_nil_iff.mpr hblank] at hname
  cases p <;> cases hname

/-! ### The grammar of names -/

/-- **A text agrees with an identifier**: without the white space at its ends it has as many
characters, and each of them stands for the one at its place. -/
def Agrees (p : Privilege) (s : String) : Prop :=
  ∃ w, Text.Trims s.toList w ∧ w.length = p.name.toList.length ∧
    ∀ (i : Nat) c d, w[i]? = some c → p.name.toList[i]? = some d → StandsFor c d

/-- The texts that agree with an identifier are its spellings. -/
theorem agrees_iff_spells {p : Privilege} {s : String} : p.Agrees s ↔ p.Spells s := by
  constructor
  · rintro ⟨w, ⟨-, l, r, hs, hl, hr⟩, hlength, hplaces⟩
    refine ⟨l, w, r, hs, hl, hr, List.forall₂_iff_get.mpr ⟨hlength, fun i hw hn => ?_⟩⟩
    exact hplaces i _ _ (List.getElem?_eq_getElem hw) (List.getElem?_eq_getElem hn)
  · rintro ⟨l, w, r, hs, hl, hr, h⟩
    obtain ⟨hlength, hplaces⟩ := List.forall₂_iff_get.mp h
    refine ⟨w, ⟨unpadded_of_standsFor h, l, r, hs, hl, hr⟩, hlength, fun i c d hc hd => ?_⟩
    obtain ⟨hw, rfl⟩ := List.getElem?_eq_some_iff.mp hc
    obtain ⟨hn, rfl⟩ := List.getElem?_eq_some_iff.mp hd
    exact hplaces i hw hn

/-- **The grammar of the names of privileges.** A name means the privilege whose identifier it
agrees with. There is never more than one; if there is none, the look-up finds nothing, and the
error has the name as it was written. -/
theorem ofName?_agrees (s : String) :
    (∃! w, Text.Trims s.toList w) ∧ (∀ p q : Privilege, p.Agrees s → q.Agrees s → p = q) ∧
      (∀ p, ofName? s = some p ↔ p.Agrees s) ∧ (∀ p, parse s = .ok p ↔ p.Agrees s) ∧
      (ofName? s = none ↔ ∀ p : Privilege, ¬p.Agrees s) ∧
      ∀ e, parse s = .error e ↔ (∀ p : Privilege, ¬p.Agrees s) ∧ e = .unknownPrivilege s := by
  have hfound (p : Privilege) : ofName? s = some p ↔ p.Agrees s := by
    rw [ofName?_eq_some_iff, agrees_iff_spells]
  have hnone : ofName? s = none ↔ ∀ p : Privilege, ¬p.Agrees s := by
    rw [Option.eq_none_iff_forall_ne_some]
    exact forall_congr' fun p => not_congr (hfound p)
  refine ⟨⟨_, Text.trim_eq_iff.mp rfl, fun w hw => (Text.trim_eq_iff.mpr hw).symm⟩,
    fun p q hp hq => ?_, hfound, fun p => parse_eq_ok_iff.trans (hfound p), hnone, fun e => ?_⟩
  · exact Option.some.inj (((hfound p).mpr hp).symm.trans ((hfound q).mpr hq))
  · rw [parse_eq_error_iff, hnone]

/-- A name of two words, between an ideographic space and a tab, is not taken for that of a shorter
privilege. With a tab between its words it is no name at all. -/
theorem ofName?_agrees_createView :
    parse "\u3000cReate_vIEW\t" = .ok .createView ∧ ¬create.Agrees "\u3000cReate_vIEW\t" ∧
      parse "create\tview" = .error (.unknownPrivilege "create\tview") ∧
      ¬createView.Agrees "create\tview" := by
  obtain ⟨-, honly, -, hok, -, -⟩ := ofName?_agrees "\u3000cReate_vIEW\t"
  obtain ⟨-, -, -, -, hnone, herror⟩ := ofName?_agrees "create\tview"
  have hview : parse "\u3000cReate_vIEW\t" = .ok .createView := by decide +kernel
  have hmissing := hnone.mp (by decide +kernel)
  refine ⟨hview, fun h => ?_, (herror _).mpr ⟨hmissing, rfl⟩, hmissing createView⟩
  cases honly _ _ h ((hok _).mp hview)

end Privilege

end GrantCatalog
