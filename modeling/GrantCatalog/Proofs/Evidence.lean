import GrantCatalog.Proofs.Query
import GrantCatalog.Proofs.Row

/-!
# What instances show

A load that succeeds over sources in memory finds a privilege exactly where a **row** of some
planned source bears it out (`GrantCatalog.Plan.holds_iff_shows`). So the question of access that a
check asks of what was loaded is a question about rows, `GrantCatalog.Plan.permits_iff`: each
required privilege needs a row of its own, for the scope or for one around it, and the rows may
come from different sources.
-/

namespace GrantCatalog

/-- **An instance shows a grant** by a row of the catalog for scopes of that kind. -/
def Source.Shows (f : Source) (g : Grantee) (p : Privilege) (scope : Scope) : Prop :=
  ∃ row ∈ (f.answerFor scope.catalog).rows,
    Catalog.IsAbout ((f.answerFor scope.catalog).cell? row) g ∧
      Catalog.Bears ((f.answerFor scope.catalog).cell? row) p scope

/-- What an instance shows is what its decoded rows grant. -/
theorem Source.shows_iff {f : Source} {g : Grantee} {p : Privilege} {scope : Scope}
    {es : List Catalog.Entry} (h : scope.catalog.decode (f.answerFor scope.catalog) = .ok es) :
    f.Shows g p scope ↔ ∃ e ∈ es, e.grantee = g ∧ p ∈ e.grants.own scope := by
  have hrows := List.exists_mapM_eq_ok_iff.mp ⟨es, h⟩
  constructor
  · rintro ⟨row, hrow, habout, hbears⟩
    obtain ⟨e, he⟩ := hrows row hrow
    obtain ⟨hgrantee, -⟩ := Catalog.entry_eq_ok_iff.mp he
    refine ⟨e, (Catalog.mem_of_decode_eq_ok h).mpr ⟨row, hrow, he⟩, ?_, ?_⟩
    · exact (Catalog.isAbout_iff hgrantee).mp habout
    · exact (Catalog.bears_iff he).mp hbears
  · rintro ⟨e, he, hg, hp⟩
    obtain ⟨row, hrow, he⟩ := (Catalog.mem_of_decode_eq_ok h).mp he
    obtain ⟨hgrantee, -⟩ := Catalog.entry_eq_ok_iff.mp he
    refine ⟨row, hrow, ?_, ?_⟩
    · exact (Catalog.isAbout_iff hgrantee).mpr hg
    · exact (Catalog.bears_iff he).mpr hp

namespace Grants

/-- A question of access asks for each required privilege on the scope or on one around it. -/
theorem permits_iff {g : Grants} {scope : Scope} {required : List Privilege} :
    g.permits scope required = true ↔
      ∀ p ∈ required, ∃ around ∈ scope.enclosing, p ∈ g.own around := by
  simp [permits, holds]

/-- Nothing that is asked for is permitted where nothing is held. -/
theorem permits_nothing {scope : Scope} {required : List Privilege} (h : required ≠ []) :
    nothing.permits scope required = false := by
  obtain ⟨p, hp⟩ := List.exists_mem_of_ne_nil required h
  rw [Bool.eq_false_iff]
  intro hpermits
  obtain ⟨around, -, hheld⟩ := permits_iff.mp hpermits p hp
  simp at hheld

end Grants

namespace Plan

variable {n : Nat} {plan : Plan n} {fleet : Fleet Source n} {found : Holdings}

/-- **A load finds what the planned sources show** about the grantees asked for. -/
theorem holds_iff_shows (hfound : (plan.load fleet).1 = .ok found) (g : Grantee) (p : Privilege)
    (scope : Scope) :
    p ∈ (found[g]?.getD ∅).own scope ↔
      plan.predicate.contains g = true ∧ ∃ i ∈ plan.sources, (fleet.get i).Shows g p scope := by
  have hnothing : p ∉ (∅ : Grants).own scope := Grants.not_mem_own_empty scope p
  by_cases hsources : plan.sources = []
  · -- Nobody holds anything: all that is known are the grantees asked for.
    rw [load_of_sources_eq_nil hsources] at hfound
    obtain rfl := Except.ok.inj hfound
    have hblank : ((Holdings.blank plan.predicate)[g]?.getD ∅) = ∅ := by
      rw [Holdings.getElem?_blank]
      split <;> rfl
    rw [hblank, hsources]
    exact iff_of_false hnothing (by simp)
  by_cases hgrantees : plan.predicate.grantees = []
  · rw [load_of_grantees_eq_nil hsources hgrantees] at hfound
    obtain rfl := Except.ok.inj hfound
    refine iff_of_false (by simpa using hnothing) ?_
    simp [Predicate.contains, hgrantees]
  have hsteady : ∀ i ∈ plan.sources,
      DataSource.Steady (statements plan.predicate) (fleet.get i) := fun i _ => Source.steady _ _
  have hok := (exists_load_eq_ok_iff hsources hgrantees hsteady).mp ⟨found, hfound⟩
  rw [mem_own_iff_of_load_eq_ok hsources hgrantees hsteady hfound]
  refine and_congr_right fun _ => exists_congr fun i => and_congr_right fun hi => ?_
  constructor
  · rintro ⟨es, hsays, hgranted⟩
    exact (Source.shows_iff (Source.says_iff.mp hsays).2).mpr hgranted
  · intro hshows
    obtain ⟨es, hsays⟩ := hok i hi scope.catalog
    exact ⟨es, hsays, (Source.shows_iff (Source.says_iff.mp hsays).2).mp hshows⟩

/-- **What a check asks of a load is asked of the rows**: the grantee has to be asked for, and every
required privilege has to be shown by some planned source, on the scope or on one around it. -/
theorem permits_iff (hfound : (plan.load fleet).1 = .ok found) {g : Grantee} {scope : Scope}
    {required : List Privilege} (hrequired : required ≠ []) :
    (found[g]?).any (·.permits scope required) = true ↔
      plan.predicate.contains g = true ∧ ∀ p ∈ required,
        ∃ i ∈ plan.sources, ∃ around ∈ scope.enclosing, (fleet.get i).Shows g p around := by
  -- An unknown grantee is refused, just as one who is known to hold nothing.
  have hany : (found[g]?).any (·.permits scope required) =
      (found[g]?.getD ∅).permits scope required := by
    cases found[g]? with
    | none => exact (Grants.permits_nothing hrequired).symm
    | some held => rfl
  rw [hany, Grants.permits_iff]
  simp only [holds_iff_shows hfound g]
  constructor
  · intro h
    obtain ⟨p, hp⟩ := List.exists_mem_of_ne_nil required hrequired
    obtain ⟨-, -, hg, -⟩ := h p hp
    refine ⟨hg, fun p hp => ?_⟩
    obtain ⟨around, haround, -, i, hi, hshows⟩ := h p hp
    exact ⟨i, hi, around, haround, hshows⟩
  · rintro ⟨hg, h⟩ p hp
    obtain ⟨i, hi, around, haround, hshows⟩ := h p hp
    exact ⟨around, haround, hg, i, hi, hshows⟩

end Plan

end GrantCatalog
