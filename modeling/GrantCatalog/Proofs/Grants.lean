import GrantCatalog.Grants.Basic
import Mathlib.Data.List.Nodup
import Mathlib.Tactic.Common

/-!
# No scope is known for nothing

A value of `GrantCatalog.Grants` knows some scopes, and it could know a scope without holding
anything on it. Such a scope would change nothing for the questions of access, but it would be
listed and counted, and two values with the same grants would differ. No construction leaves one
behind: that is the invariant `GrantCatalog.Grants.Proper`, kept by every operation because each
of them enters a scope together with a privilege.

Under the invariant, the known scopes are those that something is held on
(`GrantCatalog.Grants.isSome_find?_iff`), and two values are equal just if the same is held in both
(`GrantCatalog.Grants.Proper.eq_iff`). What is listed of a value are its scopes, each of them once:
`GrantCatalog.Grants.mem_schemas`, `GrantCatalog.Grants.nodup_schemas` and the like for tables.
-/

namespace GrantCatalog

/-- A set is empty if nothing is in it. -/
theorem PrivilegeSet.isEmpty_iff_forall {ps : PrivilegeSet} :
    ps.isEmpty = true ↔ ∀ p, p ∉ ps := by
  rw [Std.ExtTreeSet.isEmpty_iff]
  constructor
  · rintro rfl p
    exact Std.ExtTreeSet.not_mem_empty
  · intro h
    exact Std.ExtTreeSet.ext_mem fun p => iff_of_false (h p) Std.ExtTreeSet.not_mem_empty

namespace Grants

/-- Something is held on every scope that is known. -/
def Proper (g : Grants) : Prop := ∀ s ps, g.find? s = some ps → ∃ p, p ∈ ps

variable {g other : Grants} {s : Scope}

/-- **Under the invariant, a scope is known just if something is held on it.** -/
theorem isSome_find?_iff (hg : g.Proper) : (g.find? s).isSome = true ↔ ∃ p, p ∈ g.own s := by
  rw [own]
  cases h : g.find? s with
  | none => simp
  | some ps => simpa using hg s ps h

theorem find?_add (g : Grants) (s s' : Scope) (p : Privilege) :
    (g.add s p).find? s' = if s = s' then some ((g.own s).insert p) else g.find? s' := by
  simp only [find?, own, add, Std.ExtTreeMap.getElem?_alter, Std.LawfulEqOrd.compare_eq_iff_eq]

theorem find?_join (g : Grants) (s s' : Scope) (ps : PrivilegeSet) :
    (g.join s ps).find? s' = if s = s' then some (g.own s ∪ ps) else g.find? s' := by
  simp only [find?, own, join, Std.ExtTreeMap.getElem?_alter, Std.LawfulEqOrd.compare_eq_iff_eq]

/-- Nothing is held on any scope by one who is not known. -/
theorem not_mem_own_empty (s : Scope) (p : Privilege) : p ∉ (∅ : Grants).own s := by
  change p ∉ nothing.own s
  simp

/-- **Grants of just some privileges on some scopes**: these are held and no others, and a scope is
known only if there is a privilege for it. -/
structure Exactly (g : Grants) (q : Scope → Privilege → Prop) : Prop where
  mem_own_iff : ∀ s p, p ∈ g.own s ↔ q s p
  isSome_find?_iff : ∀ s, (g.find? s).isSome = true ↔ ∃ p, q s p

/-- Under the invariant, it is enough to know what is held. -/
theorem Proper.exactly (hg : g.Proper) {q : Scope → Privilege → Prop}
    (h : ∀ s p, p ∈ g.own s ↔ q s p) : g.Exactly q where
  mem_own_iff := h
  isSome_find?_iff s := by
    rw [Grants.isSome_find?_iff hg]
    simp only [h]

/-! ### When two are equal -/

/-- **Grants are equal if the same scopes are known in both for the same privileges.** -/
theorem ext_find? {g other : Grants} (h : ∀ s, g.find? s = other.find? s) : g = other :=
  congrArg Grants.mk (Std.ExtTreeMap.ext_getElem? h)

/-- **Under the invariant, grants are equal just if the same is held in both.** -/
theorem Proper.eq_iff (hg : g.Proper) (hother : other.Proper) :
    g = other ↔ ∀ s p, p ∈ g.own s ↔ p ∈ other.own s := by
  constructor
  · rintro rfl s p
    rfl
  · intro h
    refine ext_find? fun s => ?_
    have hown : g.own s = other.own s := Std.ExtTreeSet.ext_mem (h s)
    have hknown : (g.find? s).isSome = (other.find? s).isSome := by
      rw [Bool.eq_iff_iff, isSome_find?_iff hg, isSome_find?_iff hother]
      exact exists_congr (h s)
    rw [own, own] at hown
    cases hf : g.find? s with
    | none =>
      rw [hf] at hknown
      exact (Option.not_isSome_iff_eq_none.mp (by simp [← hknown])).symm
    | some ps =>
      rw [hf] at hknown hown
      obtain ⟨ps', hf'⟩ := Option.isSome_iff_exists.mp hknown.symm
      rw [hf'] at hown ⊢
      exact congrArg some hown

/-- Grants are empty if nothing is held on any scope. -/
theorem isEmpty_iff : g.isEmpty = true ↔ ∀ s p, p ∉ g.own s := by
  rw [isEmpty, List.all_eq_true]
  simp only [Prod.forall, Std.ExtTreeMap.mem_toList_iff_getElem?_eq_some,
    PrivilegeSet.isEmpty_iff_forall, own, find?]
  refine forall_congr' fun s => ?_
  cases g.held[s]? <;> simp

/-! ### The scopes that are listed -/

theorem mem_schemas {name : String} {ps : PrivilegeSet} :
    (name, ps) ∈ g.schemas ↔ g.find? (.schema name) = some ps := by
  rw [schemas, find?, ← Std.ExtTreeMap.mem_toList_iff_getElem?_eq_some, List.mem_filterMap]
  constructor
  · rintro ⟨⟨s, ps'⟩, h, he⟩
    cases s with
    | schema name' =>
      cases he
      exact h
    | server | table _ _ => cases he
  · intro h
    exact ⟨_, h, rfl⟩

theorem mem_tables {schema name : String} {ps : PrivilegeSet} :
    (schema, name, ps) ∈ g.tables ↔ g.find? (.table schema name) = some ps := by
  rw [tables, find?, ← Std.ExtTreeMap.mem_toList_iff_getElem?_eq_some, List.mem_filterMap]
  constructor
  · rintro ⟨⟨s, ps'⟩, h, he⟩
    cases s with
    | table schema' name' =>
      cases he
      exact h
    | server | schema _ => cases he
  · intro h
    exact ⟨_, h, rfl⟩

/-- Under the invariant, a schema is listed just if something is held on it. -/
theorem mem_schemaNames_iff (hg : g.Proper) {s : String} :
    s ∈ g.schemas.map Prod.fst ↔ ∃ p, p ∈ g.own (.schema s) := by
  rw [← isSome_find?_iff hg, Option.isSome_iff_exists]
  simp only [List.mem_map, Prod.exists, exists_eq_right, mem_schemas, exists_and_right]

theorem mem_tableNames_iff (hg : g.Proper) {t : String × String} :
    t ∈ (g.tables.map fun e => (e.1, e.2.1)) ↔ ∃ p, p ∈ g.own (.table t.1 t.2) := by
  rw [← isSome_find?_iff hg, Option.isSome_iff_exists]
  simp only [List.mem_map, Prod.exists, Prod.ext_iff, mem_tables]
  constructor
  · rintro ⟨s, n, ps, h, rfl, rfl⟩
    exact ⟨ps, h⟩
  · rintro ⟨ps, h⟩
    exact ⟨_, _, ps, h, rfl, rfl⟩

/-- The scopes are entered in order. -/
theorem sorted_held (g : Grants) : g.held.toList.Pairwise fun e e' => compare e.1 e'.1 = .lt :=
  Std.ExtTreeMap.ordered_keys_toList

/-- What is listed of the entries stands in the order of their scopes. -/
theorem sorted_filterMap (g : Grants) {α : Type} {pick : Scope × PrivilegeSet → Option α}
    {scope : α → Scope} (hpick : ∀ s ps a, pick (s, ps) = some a → scope a = s) :
    (g.held.toList.filterMap pick).Pairwise fun a a' => compare (scope a) (scope a') = .lt := by
  refine g.sorted_held.filterMap pick fun e e' hlt a ha a' ha' => ?_
  rw [hpick _ _ a ha, hpick _ _ a' ha']
  exact hlt

theorem sorted_schemas (g : Grants) : g.schemas.Pairwise fun e e' =>
    compare (Scope.schema e.1) (Scope.schema e'.1) = .lt :=
  g.sorted_filterMap fun s ps e he => by
    cases s <;> cases he
    rfl

theorem sorted_tables (g : Grants) : g.tables.Pairwise fun e e' =>
    compare (Scope.table e.1 e.2.1) (Scope.table e'.1 e'.2.1) = .lt :=
  g.sorted_filterMap fun s ps e he => by
    cases s <;> cases he
    rfl

/-- Scopes in order are different. -/
theorem ne_of_compare_eq_lt {s s' : Scope} (h : compare s s' = .lt) : s ≠ s' := by
  intro he
  rw [Std.LawfulEqOrd.compare_eq_iff_eq.mpr he] at h
  cases h

/-- No schema is listed twice. -/
theorem nodup_schemas (g : Grants) : (g.schemas.map Prod.fst).Nodup :=
  List.pairwise_map.mpr (g.sorted_schemas.imp fun hlt he =>
    ne_of_compare_eq_lt hlt (congrArg Scope.schema he))

/-- No table is listed twice. -/
theorem nodup_tables (g : Grants) : (g.tables.map fun e => (e.1, e.2.1)).Nodup := by
  refine List.pairwise_map.mpr (g.sorted_tables.imp fun hlt he => ?_)
  obtain ⟨hs, ht⟩ := Prod.mk.inj he
  exact ne_of_compare_eq_lt hlt (congrArg₂ Scope.table hs ht)

/-- Two lists in the order of some scopes are equal if they have the same elements. -/
theorem eq_of_sorted {α : Type} {scope : α → Scope} {l l' : List α}
    (hl : l.Pairwise fun e e' => compare (scope e) (scope e') = .lt)
    (hl' : l'.Pairwise fun e e' => compare (scope e) (scope e') = .lt)
    (hmem : ∀ e, e ∈ l ↔ e ∈ l') : l = l' := by
  have hnodup {l : List α} (hl : l.Pairwise fun e e' => compare (scope e) (scope e') = .lt) :
      l.Nodup :=
    hl.imp fun hlt he => ne_of_compare_eq_lt hlt (congrArg scope he)
  refine List.Perm.eq_of_pairwise (fun e e' _ _ hlt hgt => ?_) hl hl'
    ((List.perm_ext_iff_of_nodup (hnodup hl) (hnodup hl')).mpr hmem)
  rw [Std.OrientedCmp.gt_of_lt hgt] at hlt
  cases hlt

theorem schemas_congr (h : ∀ s, g.find? (.schema s) = other.find? (.schema s)) :
    g.schemas = other.schemas := by
  refine eq_of_sorted g.sorted_schemas other.sorted_schemas ?_
  rintro ⟨s, ps⟩
  rw [mem_schemas, mem_schemas, h]

theorem tables_congr (h : ∀ s t, g.find? (.table s t) = other.find? (.table s t)) :
    g.tables = other.tables := by
  refine eq_of_sorted g.sorted_tables other.sorted_tables ?_
  rintro ⟨s, t, ps⟩
  rw [mem_tables, mem_tables, h]

/-! ### What keeps the invariant -/

theorem proper_nothing : nothing.Proper := by
  intro s ps h
  simp [find?, nothing] at h

theorem Proper.add (hg : g.Proper) (s : Scope) (p : Privilege) : (g.add s p).Proper := by
  intro s' ps h
  rw [find?_add] at h
  split at h
  · obtain rfl := Option.some.inj h
    exact ⟨p, by simp⟩
  · exact hg s' ps h

theorem Proper.addAll (hg : g.Proper) (s : Scope) (ps : List Privilege) :
    (g.addAll s ps).Proper := by
  induction ps generalizing g with
  | nil => exact hg
  | cons p ps ih => exact ih (hg.add s p)

theorem Proper.join (hg : g.Proper) (s : Scope) {ps : PrivilegeSet} (hps : ∃ p, p ∈ ps) :
    (g.join s ps).Proper := by
  intro s' ps' h
  rw [find?_join] at h
  split at h
  · obtain rfl := Option.some.inj h
    obtain ⟨p, hp⟩ := hps
    exact ⟨p, by simp [hp]⟩
  · exact hg s' ps' h

theorem Proper.merge (hg : g.Proper) (hother : other.Proper) : (g.merge other).Proper := by
  have fold (l : List (Scope × PrivilegeSet)) (hl : ∀ e ∈ l, ∃ p, p ∈ e.2) (g : Grants)
      (hg : g.Proper) : (l.foldl (fun g e => g.join e.1 e.2) g).Proper := by
    induction l generalizing g with
    | nil => exact hg
    | cons e l ih =>
      obtain ⟨he, hl⟩ := List.forall_mem_cons.mp hl
      exact ih hl _ (hg.join e.1 he)
  rw [Grants.merge, Std.ExtTreeMap.foldl_eq_foldl_toList]
  refine fold _ ?_ g hg
  rintro ⟨s, ps⟩ he
  exact hother s ps (Std.ExtTreeMap.mem_toList_iff_getElem?_eq_some.mp he)

end Grants

end GrantCatalog
