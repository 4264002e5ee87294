import GrantCatalog.Catalog.Decode
import GrantCatalog.Proofs.Grants
import GrantCatalog.Proofs.Result

/-!
# What a row of a catalog grants

A row of a catalog says something about one grantee on one scope, and the catalog fixes the kind
of the scope: `mysql.user` the server, `mysql.db` a schema, `mysql.tables_priv` a table. So a
grant on a scope can only come from the catalog for scopes of its kind,
`GrantCatalog.Scope.catalog`.
-/

namespace GrantCatalog

/-- The catalog that says what is held on a scope itself. -/
def Scope.catalog : Scope → Catalog
  | server => .server
  | schema _ => .schema
  | table _ _ => .table

namespace Catalog

variable {c : Catalog} {row : Row}

/-- A catalog is about the scopes of one kind. -/
theorem catalog_of_scope_eq_ok {s : Scope} (h : scope row c = .ok s) : s.catalog = c := by
  cases c with
  | server =>
    cases h
    rfl
  | schema =>
    obtain ⟨a, -, h⟩ := Except.bind_eq_ok_iff.mp h
    cases h
    rfl
  | table =>
    obtain ⟨a, -, h⟩ := Except.bind_eq_ok_iff.mp h
    obtain ⟨b, -, h⟩ := Except.bind_eq_ok_iff.mp h
    cases h
    rfl

/-- A row is read piece by piece. -/
theorem entry_eq_ok_iff {e : Entry} :
    c.entry row = .ok e ↔ grantee row = .ok e.grantee ∧
      ∃ s ps, scope row c = .ok s ∧ held row c = .ok ps ∧
        e.grants = Grants.nothing.addAll s ps := by
  rw [entry, Except.bind_eq_ok_iff]
  constructor
  · rintro ⟨g, hg, h⟩
    obtain ⟨s, hs, h⟩ := Except.bind_eq_ok_iff.mp h
    obtain ⟨ps, hps, h⟩ := Except.bind_eq_ok_iff.mp h
    cases h
    exact ⟨hg, s, ps, hs, hps, rfl⟩
  · rintro ⟨hg, s, ps, hs, hps, he⟩
    refine ⟨_, hg, Except.bind_eq_ok_iff.mpr ⟨s, hs, Except.bind_eq_ok_iff.mpr ⟨ps, hps, ?_⟩⟩⟩
    rw [← he]
    rfl

/-- **What a row grants**: the privileges it lists, on the scope it names and nowhere else. -/
theorem mem_own_of_entry_eq_ok {e : Entry} (h : c.entry row = .ok e) {s : Scope} {p : Privilege} :
    p ∈ e.grants.own s ↔ scope row c = .ok s ∧ ∃ ps, held row c = .ok ps ∧ p ∈ ps := by
  obtain ⟨-, s', ps, hs, hps, he⟩ := entry_eq_ok_iff.mp h
  rw [he, Grants.mem_own_addAll, hs, hps]
  simp

theorem proper_of_entry_eq_ok {e : Entry} (h : c.entry row = .ok e) : e.grants.Proper := by
  obtain ⟨-, s, ps, -, -, he⟩ := entry_eq_ok_iff.mp h
  rw [he]
  exact Grants.proper_nothing.addAll s ps

/-! ### Whole answers -/

variable {answer : ResultSet} {es : List Entry}

theorem mem_of_decode_eq_ok (h : c.decode answer = .ok es) {e : Entry} :
    e ∈ es ↔ ∃ row ∈ answer.rows, c.entry (answer.cell? row) = .ok e :=
  List.mem_of_mapM_eq_ok h

theorem proper_of_mem_decode (h : c.decode answer = .ok es) {e : Entry} (he : e ∈ es) :
    e.grants.Proper := by
  obtain ⟨row, -, hrow⟩ := (mem_of_decode_eq_ok h).mp he
  exact proper_of_entry_eq_ok hrow

/-- Each decoded row grants on scopes of its catalog only. -/
theorem catalog_of_mem_decode (h : c.decode answer = .ok es) {e : Entry} (he : e ∈ es) {s : Scope}
    {p : Privilege} (hp : p ∈ e.grants.own s) : s.catalog = c := by
  obtain ⟨row, -, hrow⟩ := (mem_of_decode_eq_ok h).mp he
  exact catalog_of_scope_eq_ok ((mem_own_of_entry_eq_ok hrow).mp hp).1

end Catalog

end GrantCatalog
