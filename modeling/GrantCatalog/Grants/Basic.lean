import GrantCatalog.Privilege
import GrantCatalog.Grants.Scope

/-!
# What a grantee holds

`GrantCatalog.Grants` is what one grantee holds: for each scope on which something was granted,
the set of the privileges granted there. Nothing is repeated at narrower scopes; instead
`GrantCatalog.Grants.permits` consults every scope around the one asked about.

Since maps and sets are extensional, two values are equal exactly if they hold the same
privileges on the same scopes and know the same scopes. The operations only ever grow a set by
an element, so a scope is known only if something is held on it.

* `GrantCatalog.Grants.add`, `GrantCatalog.Grants.merge` – one more grant, all the grants of
  another;
* `GrantCatalog.Grants.own` – what is held on a scope itself, and how the operations change it
  (`GrantCatalog.Grants.mem_own_addAll`, `GrantCatalog.Grants.mem_own_merge`);
* `GrantCatalog.Grants.permits` – whether all of some required privileges are held on a scope or
  around it.
-/

namespace GrantCatalog

/-- What one grantee holds, scope by scope. -/
structure Grants where
  /-- The privileges held on each scope itself. -/
  held : Std.ExtTreeMap Scope PrivilegeSet
  deriving DecidableEq

namespace Grants

/-- Nothing at all. -/
def nothing : Grants := ⟨∅⟩

instance : EmptyCollection Grants := ⟨nothing⟩

instance : Inhabited Grants := ⟨nothing⟩

/-! ### Granting -/

/-- Grants a privilege on a scope. -/
def add (g : Grants) (scope : Scope) (p : Privilege) : Grants :=
  ⟨g.held.alter scope fun old => some ((old.getD ∅).insert p)⟩

/-- Grants some privileges on a scope; if there are none, the scope stays unknown. -/
def addAll (g : Grants) (scope : Scope) (ps : List Privilege) : Grants :=
  ps.foldl (·.add scope ·) g

/-- Every privilege, on the whole server. -/
def everything : Grants := nothing.addAll .server Privilege.all

/-- Grants a set of privileges on a scope. -/
def join (g : Grants) (scope : Scope) (ps : PrivilegeSet) : Grants :=
  ⟨g.held.alter scope fun old => some (old.getD ∅ ∪ ps)⟩

/-- Grants in addition all that another value holds; nothing is ever taken away. -/
def merge (g other : Grants) : Grants :=
  other.held.foldl join g

/-! ### What is held -/

/-- The privileges held on a scope itself, if the scope is known. -/
def find? (g : Grants) (scope : Scope) : Option PrivilegeSet := g.held[scope]?

/-- The privileges held on a scope itself. -/
def own (g : Grants) (scope : Scope) : PrivilegeSet := (g.find? scope).getD ∅

/-- The schemas that something was granted on, by name. -/
def schemas (g : Grants) : List (String × PrivilegeSet) :=
  g.held.toList.filterMap fun
    | (.schema s, ps) => some (s, ps)
    | _ => none

/-- The tables that something was granted on, by schema and name. -/
def tables (g : Grants) : List (String × String × PrivilegeSet) :=
  g.held.toList.filterMap fun
    | (.table s t, ps) => some (s, t, ps)
    | _ => none

/-- No privilege is held anywhere. -/
def isEmpty (g : Grants) : Bool := g.held.toList.all (·.2.isEmpty)

/-! ### What the operations grant -/

/-- Nothing is held on any scope at first. -/
@[simp] theorem own_nothing (s : Scope) : nothing.own s = ∅ := by
  simp [own, find?, nothing]

/-- What is held on a scope after one more grant. -/
theorem own_add (g : Grants) (s s' : Scope) (p : Privilege) :
    (g.add s p).own s' = if s = s' then (g.own s).insert p else g.own s' := by
  simp only [own, find?, add, Std.ExtTreeMap.getElem?_alter, Std.LawfulEqOrd.compare_eq_iff_eq]
  split <;> rfl

/-- One more grant adds just that. -/
theorem mem_own_add {g : Grants} {s s' : Scope} {p q : Privilege} :
    q ∈ (g.add s p).own s' ↔ (s = s' ∧ p = q) ∨ q ∈ g.own s' := by
  rw [own_add]
  split
  · next h => simp [h, Std.ExtTreeSet.mem_insert]
  · next h => simp [h]

/-- More grants on a scope add just those. -/
theorem mem_own_addAll {g : Grants} {s s' : Scope} {ps : List Privilege} {q : Privilege} :
    q ∈ (g.addAll s ps).own s' ↔ (s = s' ∧ q ∈ ps) ∨ q ∈ g.own s' := by
  induction ps generalizing g with
  | nil => simp [addAll]
  | cons p ps ih =>
    have step : g.addAll s (p :: ps) = (g.add s p).addAll s ps := rfl
    rw [step, ih, mem_own_add]
    grind

/-- Granting a set adds just its elements. -/
theorem mem_own_join {g : Grants} {s s' : Scope} {ps : PrivilegeSet} {q : Privilege} :
    q ∈ (g.join s ps).own s' ↔ (s = s' ∧ q ∈ ps) ∨ q ∈ g.own s' := by
  simp only [own, find?, join, Std.ExtTreeMap.getElem?_alter, Std.LawfulEqOrd.compare_eq_iff_eq]
  split
  · next h => simp [h, or_comm]
  · next h => simp [h]

/-- **Merging is union**, scope by scope. -/
theorem mem_own_merge {g other : Grants} {s : Scope} {q : Privilege} :
    q ∈ (g.merge other).own s ↔ q ∈ g.own s ∨ q ∈ other.own s := by
  have fold (l : List (Scope × PrivilegeSet)) (g : Grants) :
      q ∈ (l.foldl (fun g e => g.join e.1 e.2) g).own s ↔
        q ∈ g.own s ∨ ∃ ps, (s, ps) ∈ l ∧ q ∈ ps := by
    induction l generalizing g with
    | nil => simp
    | cons e l ih =>
      obtain ⟨s', ps'⟩ := e
      simp only [List.foldl_cons, ih, mem_own_join, List.mem_cons, Prod.mk.injEq]
      grind
  rw [merge, Std.ExtTreeMap.foldl_eq_foldl_toList, fold]
  simp only [Std.ExtTreeMap.mem_toList_iff_getElem?_eq_some, own, find?]
  cases h : other.held[s]? <;> simp

/-! ### Questions of access -/

/-- A privilege is held on a scope or on one around it. -/
def holds (g : Grants) (scope : Scope) (p : Privilege) : Bool :=
  scope.enclosing.any fun s => (g.own s).contains p

/-- **Every required privilege is held** on a scope or around it. -/
def permits (g : Grants) (scope : Scope) (required : List Privilege) : Bool :=
  required.all (g.holds scope)

/-- Something is held that concerns a schema: on the server, on the schema, or on one of its
tables. -/
def canAccess (g : Grants) (schema : String) : Bool :=
  g.held.toList.any fun (scope, ps) => scope.touches schema && !ps.isEmpty

end Grants

end GrantCatalog
