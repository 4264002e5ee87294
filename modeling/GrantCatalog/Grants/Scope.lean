import Std.Data.ExtTreeMap

/-!
# Scopes

A privilege is held on the whole server, on a schema, or on a table. Scopes are nested: what is
held on a scope is good for every scope inside it, and `GrantCatalog.Scope.enclosing` lists the
scopes that a question about one of them has to consult.

The order on scopes is the order of reports: first the server, then the schemas by name, then the
tables by schema and name.
-/

namespace GrantCatalog

/-- What a privilege is held on. -/
inductive Scope where
  /-- The whole server. -/
  | server
  /-- Every object of a schema. -/
  | schema (name : String)
  /-- One table of a schema. -/
  | table (schema name : String)
  deriving DecidableEq, Repr, Inhabited

namespace Scope

/-- **A scope and the scopes around it**, widest first. -/
def enclosing : Scope → List Scope
  | server => [server]
  | schema s => [server, schema s]
  | table s t => [server, schema s, table s t]

/-- A scope in writing, with asterisks for what it leaves open. -/
def display : Scope → String
  | server => "*.*"
  | schema s => s ++ ".*"
  | table s t => s ++ "." ++ t

/-- The scopes at which a privilege gives some access to a schema: those around the schema,
and the tables in it. -/
def touches (s : String) : Scope → Bool
  | server => true
  | schema s' => s' == s
  | table s' _ => s' == s

/-! ### Order -/

/-- The kind of a scope, as its rank in the order. -/
def rank : Scope → Nat
  | server => 0
  | schema _ => 1
  | table _ _ => 2

/-- The schema that a scope names, or nothing. -/
def schemaName : Scope → String
  | server => ""
  | schema s => s
  | table s _ => s

/-- The table that a scope names, or nothing. -/
def tableName : Scope → String
  | server => ""
  | schema _ => ""
  | table _ t => t

/-- Scopes are ordered by kind, then by schema, then by table. -/
instance : Ord Scope :=
  ⟨compareLex (compareOn rank) (compareLex (compareOn schemaName) (compareOn tableName))⟩

instance : Std.TransOrd Scope :=
  inferInstanceAs (Std.TransCmp
    (compareLex (compareOn rank) (compareLex (compareOn schemaName) (compareOn tableName))))

instance : Std.LawfulEqOrd Scope where
  eq_of_compare {a b} h := by
    change (compare a.rank b.rank).then ((compare a.schemaName b.schemaName).then
      (compare a.tableName b.tableName)) = .eq at h
    rw [Ordering.then_eq_eq, Ordering.then_eq_eq] at h
    obtain ⟨hr, hs, ht⟩ := h
    replace hr := Std.LawfulEqOrd.eq_of_compare (α := Nat) hr
    replace hs := Std.LawfulEqOrd.eq_of_compare (α := String) hs
    replace ht := Std.LawfulEqOrd.eq_of_compare (α := String) ht
    cases a <;> cases b <;> simp_all [rank, schemaName, tableName]

end Scope

end GrantCatalog
