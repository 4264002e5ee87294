import GrantCatalog.Proofs.Drafts
import GrantCatalog.Proofs.Evidence
import Mathlib.Data.Fintype.EquivFin

/-!
# Access at the three kinds of scope

A question of access may be asked about the server, about a schema or about a table. Each question
looks up the names it is asked about, and nothing else, while whether a schema can be accessed at
all is found by going through everything that is held. This module says how the answers fit
together.

* What is permitted on a scope is permitted inside it
  (`GrantCatalog.Grants.permits_of_mem_enclosing`).
* Conversely, what is permitted on **every** schema of the server is permitted on the server, and
  what is permitted on every table of a schema is permitted on the schema
  (`GrantCatalog.Grants.permits_iff_forall`). Grants are finite and names are not, so there is
  always a name that nothing is granted on (`GrantCatalog.Grants.exists_fresh`), and what is
  permitted there is held further out.
* A schema can be accessed if something is permitted on one of its tables, which need not be a
  table that anything was granted on (`GrantCatalog.Grants.canAccess_iff`).

None of this asks for the invariant `GrantCatalog.Grants.Proper`: scopes that are known but on
which nothing is held make no difference to any answer.
-/

namespace GrantCatalog

/-! ### Scopes inside one another -/

namespace Scope

variable {s around : Scope}

theorem mem_enclosing_self (s : Scope) : s ∈ s.enclosing := by
  cases s <;> simp [enclosing]

/-- The scopes around a wider scope are around the narrower one, too. -/
theorem enclosing_subset (h : around ∈ s.enclosing) : around.enclosing ⊆ s.enclosing := by
  cases s with
  | server =>
    obtain rfl := List.mem_singleton.mp h
    exact List.Subset.refl _
  | schema s =>
    simp only [enclosing, List.mem_cons, List.not_mem_nil, or_false] at h
    rcases h with rfl | rfl <;> simp [enclosing]
  | table s t =>
    simp only [enclosing, List.mem_cons, List.not_mem_nil, or_false] at h
    rcases h with rfl | rfl | rfl <;> simp [enclosing]

/-- The scopes that concern a schema are those around its tables. -/
theorem touches_iff {schema : String} :
    s.touches schema = true ↔ ∃ t, s ∈ (table schema t).enclosing := by
  cases s with
  | server => simp [touches, enclosing]
  | schema name => simp [touches, enclosing]
  | table name t => simp [touches, enclosing]

/-- Every scope concerns some schema. -/
theorem exists_touches (s : Scope) : ∃ schema, s.touches schema = true := by
  cases s with
  | server => exact ⟨"", rfl⟩
  | schema name => exact ⟨name, beq_self_eq_true name⟩
  | table name t => exact ⟨name, beq_self_eq_true name⟩

end Scope

namespace Grants

variable {g a b : Grants} {scope around : Scope} {required : List Privilege} {p : Privilege}

/-! ### One question and another -/

/-- A single privilege is permitted where it is held on the scope or on one around it. -/
theorem permits_singleton_iff :
    g.permits scope [p] = true ↔ ∃ around ∈ scope.enclosing, p ∈ g.own around := by
  rw [permits_iff, List.forall_mem_singleton]

/-- **What is permitted on a scope is permitted inside it.** -/
theorem permits_of_mem_enclosing (h : around ∈ scope.enclosing)
    (hpermits : g.permits around required = true) : g.permits scope required = true := by
  rw [permits_iff] at hpermits ⊢
  intro p hp
  obtain ⟨outer, houter, hheld⟩ := hpermits p hp
  exact ⟨outer, Scope.enclosing_subset h houter, hheld⟩

/-- Each single privilege is permitted by one of the two that were merged. -/
theorem permits_merge_singleton (a b : Grants) (scope : Scope) (p : Privilege) :
    (a.merge b).permits scope [p] = (a.permits scope [p] || b.permits scope [p]) := by
  rw [Bool.eq_iff_iff, Bool.or_eq_true]
  simp only [permits_singleton_iff, mem_own_merge, and_or_left, exists_or]

/-! ### Every name -/

/-- **Some name is new**: there are always scopes that nothing is granted on. -/
theorem exists_fresh (g : Grants) {inner : String → Scope} (hinner : Function.Injective inner) :
    ∃ name, ∀ p, p ∉ g.own (inner name) := by
  have hfinite : (Set.preimage inner (Prod.fst '' g.toSet)).Finite :=
    (g.finite_toSet.image Prod.fst).preimage hinner.injOn
  obtain ⟨name, hname⟩ := hfinite.exists_notMem
  exact ⟨name, fun p hp => hname ⟨(inner name, p), hp, rfl⟩⟩

/-- **What is permitted on a scope is what is permitted under every name inside it.** -/
theorem permits_iff_forall {inner : String → Scope} (hinner : Function.Injective inner)
    (henclosing : ∀ name, (inner name).enclosing = scope.enclosing ++ [inner name]) :
    g.permits scope required = true ↔ ∀ name, g.permits (inner name) required = true := by
  constructor
  · intro h name
    refine permits_of_mem_enclosing ?_ h
    rw [henclosing]
    exact List.mem_append_left _ (Scope.mem_enclosing_self scope)
  · intro h
    -- Under a new name nothing is held, so what is permitted there is held on the scope or outside.
    obtain ⟨name, hname⟩ := g.exists_fresh hinner
    refine permits_iff.mpr fun p hp => ?_
    obtain ⟨around, haround, hheld⟩ := permits_iff.mp (h name) p hp
    rw [henclosing, List.mem_append, List.mem_singleton] at haround
    rcases haround with haround | rfl
    · exact ⟨around, haround, hheld⟩
    · exact absurd hheld (hname p)

/-! ### Anything at all -/

/-- Something concerns a schema if it is held on a scope that does. -/
theorem canAccess_iff_exists_own {schema : String} :
    g.canAccess schema = true ↔ ∃ s : Scope, s.touches schema = true ∧ ∃ p, p ∈ g.own s := by
  have hnonempty (ps : PrivilegeSet) : (!ps.isEmpty) = true ↔ ∃ p, p ∈ ps := by
    rw [Bool.not_eq_true', Bool.eq_false_iff, Ne, PrivilegeSet.isEmpty_iff_forall, not_forall_not]
  rw [canAccess, List.any_eq_true]
  simp only [Prod.exists, Std.ExtTreeMap.mem_toList_iff_getElem?_eq_some, Bool.and_eq_true,
    hnonempty]
  refine exists_congr fun s => ?_
  rw [own, find?]
  cases g.held[s]? with
  | none => simp
  | some ps => simp

/-- **A schema can be accessed if something is permitted on one of its tables.** -/
theorem canAccess_iff {schema : String} :
    g.canAccess schema = true ↔ ∃ p t, g.permits (.table schema t) [p] = true := by
  simp only [canAccess_iff_exists_own, Scope.touches_iff, permits_singleton_iff]
  constructor
  · rintro ⟨s, ⟨t, ht⟩, p, hp⟩
    exact ⟨p, t, s, ht, hp⟩
  · rintro ⟨p, t, s, ht, hp⟩
    exact ⟨s, ⟨t, ht⟩, p, hp⟩

/-- Nothing is held just if no schema can be accessed. -/
theorem isEmpty_iff_canAccess :
    g.isEmpty = true ↔ ∀ schema, g.canAccess schema = false := by
  simp only [isEmpty_iff, Bool.eq_false_iff, Ne, canAccess_iff_exists_own]
  constructor
  · rintro h schema ⟨s, -, p, hp⟩
    exact h s p hp
  · intro h s p hp
    obtain ⟨schema, htouches⟩ := s.exists_touches
    exact h schema ⟨s, htouches, p, hp⟩

/-- **All questions of access agree with one another.** What is permitted on the server is what is
permitted on every schema, and what is permitted on a schema is what is permitted on every table of
it. On each scope, to require two lists is to require each of them, and a single privilege is
permitted after merging just if it was permitted on either side. A schema can be accessed just if
some privilege is permitted on some table of it, and nothing is held just if no privilege is
permitted on any table. -/
theorem permits_consistent (g a b : Grants) (required more : List Privilege) (p : Privilege)
    (schema : String) (scope : Scope) :
    (g.permits .server required = true ↔ ∀ s, g.permits (.schema s) required = true) ∧
    (g.permits (.schema schema) required = true ↔
      ∀ t, g.permits (.table schema t) required = true) ∧
    g.permits scope (required ++ more) = (g.permits scope required && g.permits scope more) ∧
    (a.merge b).permits scope [p] = (a.permits scope [p] || b.permits scope [p]) ∧
    (g.canAccess schema = true ↔ ∃ q t, g.permits (.table schema t) [q] = true) ∧
    (g.isEmpty = true ↔ ∀ q s t, g.permits (.table s t) [q] = false) := by
  refine ⟨?_, ?_, List.all_append, permits_merge_singleton a b scope p, canAccess_iff, ?_⟩
  · exact permits_iff_forall (fun s s' h => Scope.schema.inj h) fun _ => rfl
  · exact permits_iff_forall (fun t t' h => (Scope.table.inj h).2) fun _ => rfl
  · simp only [isEmpty_iff_canAccess, Bool.eq_false_iff, Ne, canAccess_iff, not_exists]
    exact ⟨fun h q s t => h s q t, fun h s q t => h q s t⟩

end Grants

end GrantCatalog
