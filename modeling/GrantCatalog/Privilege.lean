import GrantCatalog.Text.Blank
import GrantCatalog.Text.Letters
import GrantCatalog.Json.Basic
import Std.Data.ExtTreeSet

/-!
# Privileges

A privilege is one of twenty-nine things that a database server lets a user do. The first eleven
in the order of `GrantCatalog.Privilege.all` are **administrative**: they make sense for a whole
server only. The others may also be held on a schema or on a table.

Each privilege has an identifier, such as `CREATE_VIEW`. A name in a catalog or on a command line
is read loosely (`GrantCatalog.Privilege.ofName?`): padding is dropped, the case of ASCII letters
does not count, and a space may stand for an underscore. In a JSON text only the identifier will
do (`GrantCatalog.Privilege.ofJson?`).

Sets of privileges are `Std.ExtTreeSet`s in the order of declaration, so that two sets are equal
exactly if they have the same elements.
-/

namespace GrantCatalog

/-- Something that a server lets a user do. -/
inductive Privilege where
  | super
  | reload
  | shutdown
  | process
  | file
  | showDatabases
  | replicationSlave
  | replicationClient
  | createUser
  | createTablespace
  | grant
  | select
  | insert
  | update
  | delete
  | create
  | alter
  | drop
  | index
  | references
  | createTemporaryTables
  | lockTables
  | execute
  | createView
  | showView
  | createRoutine
  | alterRoutine
  | event
  | trigger
  deriving DecidableEq, Repr, Inhabited

namespace Privilege

/-- Every privilege, in order. -/
def all : List Privilege :=
  [super, reload, shutdown, process, file, showDatabases, replicationSlave, replicationClient,
   createUser, createTablespace, grant, select, insert, update, delete, create, alter, drop,
   index, references, createTemporaryTables, lockTables, execute, createView, showView,
   createRoutine, alterRoutine, event, trigger]

/-- The list of all privileges leaves none out. -/
theorem mem_all (p : Privilege) : p ∈ all := by
  cases p <;> decide

/-- The identifier of a privilege. -/
def name : Privilege → String
  | super => "SUPER"
  | reload => "RELOAD"
  | shutdown => "SHUTDOWN"
  | process => "PROCESS"
  | file => "FILE"
  | showDatabases => "SHOW_DATABASES"
  | replicationSlave => "REPLICATION_SLAVE"
  | replicationClient => "REPLICATION_CLIENT"
  | createUser => "CREATE_USER"
  | createTablespace => "CREATE_TABLESPACE"
  | grant => "GRANT"
  | select => "SELECT"
  | insert => "INSERT"
  | update => "UPDATE"
  | delete => "DELETE"
  | create => "CREATE"
  | alter => "ALTER"
  | drop => "DROP"
  | index => "INDEX"
  | references => "REFERENCES"
  | createTemporaryTables => "CREATE_TEMPORARY_TABLES"
  | lockTables => "LOCK_TABLES"
  | execute => "EXECUTE"
  | createView => "CREATE_VIEW"
  | showView => "SHOW_VIEW"
  | createRoutine => "CREATE_ROUTINE"
  | alterRoutine => "ALTER_ROUTINE"
  | event => "EVENT"
  | trigger => "TRIGGER"

/-- The privileges that make sense for a whole server only. -/
def administrative : Privilege → Bool
  | super | reload | shutdown | process | file | showDatabases | replicationSlave
  | replicationClient | createUser | createTablespace | grant => true
  | _ => false

/-! ### Order -/

/-- Privileges are ordered as in `GrantCatalog.Privilege.all`. -/
instance : Ord Privilege := ⟨compareOn Privilege.ctorIdx⟩

instance : Std.TransOrd Privilege := inferInstanceAs (Std.TransCmp (compareOn Privilege.ctorIdx))

instance : Std.LawfulEqOrd Privilege where
  eq_of_compare {p q} h := by
    have h : p.ctorIdx = q.ctorIdx := Std.LawfulEqOrd.eq_of_compare (α := Nat) h
    rw [← ofNat_ctorIdx p, h, ofNat_ctorIdx]

/-! ### Names -/

/-- A loosely written name in the spelling of the identifiers: trimmed, with underscores for
spaces and capitals for ASCII letters. -/
def canonical (s : String) : List Char :=
  Text.upper ((Text.trim s.toList).map fun c => if c = ' ' then '_' else c)

/-- **The privilege that a loosely written name means**, if any. -/
def ofName? (s : String) : Option Privilege :=
  all.find? fun p => p.name.toList == canonical s

/-- The privilege with an identifier, if any. -/
def ofIdentifier? (s : String) : Option Privilege :=
  all.find? fun p => p.name == s

/-- The privilege that a JSON value stands for: its identifier, alone or as the only key of an
object with the value `null`. -/
def ofJson? : Json → Option Privilege
  | .text s => s.bind ofIdentifier?
  | .object [(k, .null)] => k.bind ofIdentifier?
  | _ => none

/-- A privilege as a JSON value. -/
def toJson (p : Privilege) : Json := .str p.name

end Privilege

/-- A finite set of privileges. -/
abbrev PrivilegeSet := Std.ExtTreeSet Privilege

namespace PrivilegeSet

/-- The set of all privileges. -/
def full : PrivilegeSet := .ofList Privilege.all

/-- The identifiers of a set's elements, in order. -/
def names (s : PrivilegeSet) : List String := s.toList.map Privilege.name

end PrivilegeSet

end GrantCatalog
