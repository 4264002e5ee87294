import GrantCatalog.Error
import GrantCatalog.Proofs.Result
import GrantCatalog.Proofs.Text

/-!
# Grantees in writing

A grantee is written with an at sign between its two parts, and a text is read by cutting it at its
**last** at sign. So user names may have at signs of their own, but hosts may not; and since both
parts are trimmed when they are read, neither may begin or end with a blank. Nothing else is lost:
the grantees that can be read back from what is written for them are those without such a flaw
(`GrantCatalog.Grantee.Legible`).

What is read from a text never has one (`GrantCatalog.Grantee.Names.legible`). Reading is
therefore stable: writing what was read and reading it again comes to the same
(`GrantCatalog.Grantee.parse_display`).
-/

namespace GrantCatalog.Grantee

variable {s : String} {u h : String} {g : Grantee}

/-! ### Parts -/

theorem ofParts_eq_ok_iff : ofParts u h = .ok g ↔ u ≠ "" ∧ h ≠ "" ∧ g = ⟨u, h⟩ := by
  rw [ofParts]
  by_cases hu : u = ""
  · simp [hu]
  · by_cases hh : h = ""
    · simp [hu, hh]
    · simp [hu, hh, eq_comm]

theorem ofParts_eq_error_iff {fault : Fault} : ofParts u h = .error fault ↔
    (u = "" ∧ fault = .noUsername h) ∨ (u ≠ "" ∧ h = "" ∧ fault = .noHostname u) := by
  rw [ofParts]
  by_cases hu : u = ""
  · simp [hu, eq_comm]
  · by_cases hh : h = ""
    · simp [hu, hh, eq_comm]
    · simp [hu, hh]

/-! ### What is read -/

/-- **The grantee that a text names.** -/
inductive Names (s : String) : Grantee → Prop where
  /-- The parts before and after the last at sign, trimmed; neither is blank. -/
  | parts {u h : List Char} (hs : s.toList = u ++ '@' :: h) (hlast : '@' ∉ h)
      (hu : ¬Text.AllBlank u) (hh : ¬Text.AllBlank h) :
      Names s ⟨.ofList (Text.trim u), .ofList (Text.trim h)⟩
  /-- A text without an at sign, trimmed, on every host; it is not blank. -/
  | bare (hs : '@' ∉ s.toList) (hu : ¬Text.AllBlank s.toList) : Names s ⟨Text.trimmed s, anyHost⟩

/-- Nothing is left of a text after trimming just if it is blank. -/
theorem ofList_trim_eq_empty_iff {w : List Char} :
    String.ofList (Text.trim w) = "" ↔ Text.AllBlank w := by
  rw [← String.toList_inj, String.toList_ofList, ← Text.trim_eq_nil_iff]
  rfl

/-- **A text is read as the grantee that it names.** -/
theorem parse_eq_ok_iff : parse s = .ok g ↔ Names s g := by
  rw [parse, Except.mapError_eq_ok_iff, ofText]
  constructor
  · intro hread
    split at hread
    · next u h hcut =>
      obtain ⟨hs, hlast⟩ := Text.cutLast_eq_some_iff.mp hcut
      obtain ⟨hu, hh, rfl⟩ := ofParts_eq_ok_iff.mp hread
      exact .parts hs hlast (mt ofList_trim_eq_empty_iff.mpr hu)
        (mt ofList_trim_eq_empty_iff.mpr hh)
    · next hcut =>
      obtain ⟨hu, -, rfl⟩ := ofParts_eq_ok_iff.mp hread
      exact .bare (Text.cutLast_eq_none_iff.mp hcut) (mt ofList_trim_eq_empty_iff.mpr hu)
  · rintro (@⟨u, h, hs, hlast, hu, hh⟩ | ⟨hs, hu⟩)
    · rw [Text.cutLast_eq_some_iff.mpr ⟨hs, hlast⟩]
      exact ofParts_eq_ok_iff.mpr
        ⟨mt ofList_trim_eq_empty_iff.mp hu, mt ofList_trim_eq_empty_iff.mp hh, rfl⟩
    · rw [Text.cutLast_eq_none_iff.mpr hs]
      exact ofParts_eq_ok_iff.mpr ⟨mt ofList_trim_eq_empty_iff.mp hu, by decide, rfl⟩

/-! ### What is written -/

/-- A grantee that can be read back: there is no at sign in its host, and neither of its parts
begins or ends with a blank. -/
structure Legible (g : Grantee) : Prop where
  host_at : '@' ∉ g.hostname.toList
  user_unpadded : Text.Unpadded g.username.toList
  host_unpadded : Text.Unpadded g.hostname.toList

theorem toList_display (g : Grantee) :
    g.display.toList = g.username.toList ++ '@' :: g.hostname.toList := by
  have hat : "@".toList = ['@'] := rfl
  rw [display, String.toList_append, String.toList_append, hat, List.append_assoc,
    List.singleton_append]

theorem anyHost_legible : '@' ∉ anyHost.toList ∧ Text.Unpadded anyHost.toList :=
  ⟨by decide, Text.trim_eq_self_iff.mp (by decide)⟩

/-- **What a text names can be read back.** -/
theorem Names.legible (hg : Names s g) : g.Legible := by
  rcases hg with @⟨u, h, hs, hlast, hu, hh⟩ | ⟨hs, hu⟩
  · refine ⟨?_, ?_, ?_⟩
    · rw [String.toList_ofList]
      exact fun hmem => hlast (Text.mem_of_mem_trim hmem)
    · rw [String.toList_ofList]
      exact Text.unpadded_trim u
    · rw [String.toList_ofList]
      exact Text.unpadded_trim h
  · refine ⟨anyHost_legible.1, ?_, anyHost_legible.2⟩
    rw [Text.trimmed, String.toList_ofList]
    exact Text.unpadded_trim s.toList

/-- What is written for a grantee names it just if it can be read back. -/
theorem names_display_iff (hu : g.username ≠ "") (hh : g.hostname ≠ "") :
    Names g.display g ↔ g.Legible := by
  refine ⟨Names.legible, fun hg => ?_⟩
  have htrim {w : String} (hw : Text.Unpadded w.toList) : Text.trim w.toList = w.toList :=
    Text.trim_eq_self_iff.mpr hw
  have hblank {w : String} (hw : Text.Unpadded w.toList) (hne : w ≠ "") :
      ¬Text.AllBlank w.toList := by
    rw [← ofList_trim_eq_empty_iff, htrim hw, String.ofList_toList]
    exact hne
  have hnames : Names g.display ⟨_, _⟩ := .parts (toList_display g) hg.host_at
    (hblank hg.user_unpadded hu) (hblank hg.host_unpadded hh)
  rwa [htrim hg.user_unpadded, htrim hg.host_unpadded, String.ofList_toList,
    String.ofList_toList] at hnames

/-- Neither part of a grantee that a text names is empty. -/
theorem Names.ne_empty (hg : Names s g) : g.username ≠ "" ∧ g.hostname ≠ "" := by
  rcases hg with ⟨-, -, hu, hh⟩ | ⟨-, hu⟩
  · exact ⟨mt ofList_trim_eq_empty_iff.mp hu, mt ofList_trim_eq_empty_iff.mp hh⟩
  · have hhost : anyHost ≠ "" := by decide
    exact ⟨mt ofList_trim_eq_empty_iff.mp hu, hhost⟩

/-- **Reading and writing grantees.** A text is read just if it names a grantee. What was read is
read again from what is written for it, so that grantees that were read are told apart by what is
written for them. Any two texts that are not empty make a grantee, and that grantee is read again
just if there is no at sign in its host and no blank at the ends of its parts. -/
theorem parse_display :
    (∀ s g, parse s = .ok g ↔ Names s g) ∧
      (∀ s g, parse s = .ok g → parse g.display = .ok g) ∧
      (∀ s t a b, parse s = .ok a → parse t = .ok b → a.display = b.display → a = b) ∧
      ∀ u h, u ≠ "" → h ≠ "" → ∃ g, ofParts u h = .ok g ∧ g.username = u ∧ g.hostname = h ∧
        (parse g.display = .ok g ↔
          '@' ∉ h.toList ∧ Text.Unpadded u.toList ∧ Text.Unpadded h.toList) := by
  have hstable (s : String) (g : Grantee) (hread : parse s = .ok g) : parse g.display = .ok g := by
    have hg := parse_eq_ok_iff.mp hread
    exact parse_eq_ok_iff.mpr ((names_display_iff hg.ne_empty.1 hg.ne_empty.2).mpr hg.legible)
  refine ⟨fun s g => parse_eq_ok_iff, hstable, fun s t a b ha hb hab => ?_, fun u h hu hh => ?_⟩
  · have hread : parse a.display = .ok b := hab ▸ hstable t b hb
    exact Except.ok.inj ((hstable s a ha).symm.trans hread)
  · refine ⟨⟨u, h⟩, ofParts_eq_ok_iff.mpr ⟨hu, hh, rfl⟩, rfl, rfl, ?_⟩
    rw [parse_eq_ok_iff, names_display_iff hu hh]
    exact ⟨fun hg => ⟨hg.host_at, hg.user_unpadded, hg.host_unpadded⟩,
      fun ⟨hat, hu, hh⟩ => ⟨hat, hu, hh⟩⟩

/-- A user name with an at sign is read again, but a host with one is not. -/
theorem parse_display_corp :
    parse " ops@corp @ 10.0.0.% " = .ok ⟨"ops@corp", "10.0.0.%"⟩ ∧
      parse (display ⟨"ops@corp", "10.0.0.%"⟩) = .ok ⟨"ops@corp", "10.0.0.%"⟩ ∧
      parse (display ⟨"ops", "corp@10.0.0.%"⟩) ≠ .ok ⟨"ops", "corp@10.0.0.%"⟩ := by
  obtain ⟨-, hstable, -, hparts⟩ := parse_display
  have hread : parse " ops@corp @ 10.0.0.% " = .ok ⟨"ops@corp", "10.0.0.%"⟩ := by decide +kernel
  refine ⟨hread, hstable _ _ hread, fun hback => ?_⟩
  obtain ⟨g, hg, -, -, hiff⟩ := hparts "ops" "corp@10.0.0.%" (by decide) (by decide)
  obtain rfl : ⟨"ops", "corp@10.0.0.%"⟩ = g := (ofParts_eq_ok_iff.mp hg).2.2.symm
  exact (hiff.mp hback).1 (by decide)

end GrantCatalog.Grantee
