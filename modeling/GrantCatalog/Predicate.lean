import GrantCatalog.Distinct
import GrantCatalog.Grantee

/-!
# The grantees asked for

A load asks for the rows of the configured users only. In SQL they are written as a list of pairs
of **string literals**, and names may hold anything, quotes and backslashes included. Inside a
literal a backslash is doubled and a quote is doubled, so that no name can end its literal
(`GrantCatalog.Predicate.render`).
-/

namespace GrantCatalog

/-- The grantees that a load asks for. -/
structure Predicate where
  /-- The grantees, in the order of configuration. -/
  grantees : List Grantee
  deriving DecidableEq, Repr

namespace Predicate

/-- The grantees of some users, each once. -/
def ofUsers (users : List User) : Predicate := ⟨firsts (users.map User.grantee)⟩

/-- A grantee is asked for. -/
def contains (p : Predicate) (g : Grantee) : Bool := p.grantees.contains g

/-- Nobody is asked for. -/
def isEmpty (p : Predicate) : Bool := p.grantees.isEmpty

/-- What stands for a character inside a string literal of SQL. -/
def escape (c : Char) : List Char :=
  match c with
  | '\\' => ['\\', '\\']
  | '\'' => ['\'', '\'']
  | c => [c]

/-- A string literal of SQL. -/
def literal (s : String) : List Char := '\'' :: s.toList.flatMap escape ++ ['\'']

/-- A grantee as a pair of literals. -/
def pair (g : Grantee) : List Char :=
  '(' :: literal g.username ++ ", ".toList ++ literal g.hostname ++ [')']

/-- **The grantees as a list in SQL.** -/
def render (p : Predicate) : String := .ofList (", ".toList.intercalate (p.grantees.map pair))

end Predicate

end GrantCatalog
