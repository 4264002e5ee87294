import GrantCatalog.Command.Table
import GrantCatalog.Grantee
import GrantCatalog.Grants.Basic
import GrantCatalog.Json.Printer

/-!
# Reports

What the program prints: what a grantee holds, the verdict of a check, and a list of grantees. Each
report has two forms, a **table** for people and a **JSON** text for programs. A grantee of whom
nothing is known is told apart from one who holds nothing in both.
-/

namespace GrantCatalog

/-- The form of a report. -/
inductive Format where
  | table
  | json
  deriving DecidableEq, Repr, Inhabited

namespace Format

/-- The name of a form. -/
def name : Format → String
  | table => "table"
  | json => "json"

/-- The form with a name. -/
def ofName? (s : String) : Option Format := [table, json].find? (·.name == s)

end Format

/-- Something to be printed. -/
inductive Report where
  /-- What a grantee holds, if it is known. -/
  | holdings (g : Grantee) (held : Option Grants)
  /-- Whether some privileges are held on a scope or around it. -/
  | verdict (g : Grantee) (scope : Scope) (required : List Privilege) (allowed : Bool)
  /-- What some grantees hold, those that are known. -/
  | listing (rows : List (Grantee × Option Grants))

namespace Report

/-! ### Tables -/

/-- The names of some privileges, with commas between them. -/
def commas (names : List String) : String := ", ".intercalate names

/-- The rows for what is held, one for each scope. -/
def scopeRows (held : Grants) : List (List String) :=
  held.held.toList.map fun (scope, ps) => [scope.display, commas ps.names]

/-- What a grantee holds, for people. -/
def holdingsText (g : Grantee) : Option Grants → String
  | none => "No privileges found for " ++ g.display
  | some held =>
    if held.isEmpty then g.display ++ ": no privileges granted"
    else g.display ++ "\n" ++ (Table.mk ["Scope", "Privileges"] (scopeRows held)).render

/-- A verdict in words. -/
def verdictText (g : Grantee) (scope : Scope) (required : List Privilege) (allowed : Bool) :
    String :=
  commas (required.map Privilege.name) ++ " on " ++ scope.display ++ " for " ++ g.display ++ ": "
    ++ (if allowed then "ALLOWED" else "DENIED")

/-- A number in decimal. -/
def count (n : Nat) : String := .ofList (Nat.toDigits 10 n)

/-- The row of a grantee in a list: how many privileges are held on the server, and on how many
schemas and tables there are any. -/
def listingRow (g : Grantee) : Option Grants → List String
  | none => [g.display, "-", "-", "-"]
  | some held =>
    [g.display, count (held.own .server).size, count held.schemas.length,
     count held.tables.length]

/-- A list of grantees, for people. -/
def listingText (rows : List (Grantee × Option Grants)) : String :=
  (Table.mk ["Grantee", "Global", "Schemas", "Tables"]
    (rows.map fun (g, held) => listingRow g held)).render

/-! ### JSON -/

/-- A set of privileges as a JSON value. -/
def setJson (ps : PrivilegeSet) : Json := .array (ps.toList.map Privilege.toJson)

/-- What is held as a JSON value, scope by scope. -/
def grantsJson (held : Grants) : Json :=
  .dict [
    ("global", setJson (held.own .server)),
    ("schemas", .dict (held.schemas.map fun (s, ps) => (s, setJson ps))),
    ("tables", .array (held.tables.map fun (s, t, ps) =>
      .dict [("privileges", setJson ps), ("schema", .str s), ("table", .str t)]))]

/-- What a grantee holds as a JSON value, `null` if nothing is known. -/
def holdingsJson (g : Grantee) (held : Option Grants) : Json :=
  .dict [("grantee", .str g.display), ("privileges", (held.map grantsJson).getD .null)]

/-- A verdict as a JSON value. -/
def verdictJson (g : Grantee) (scope : Scope) (required : List Privilege) (allowed : Bool) :
    Json :=
  .dict [
    ("allowed", .bool allowed), ("grantee", .str g.display),
    ("required", .array (required.map Privilege.toJson)), ("scope", .str scope.display)]

/-- A list of grantees as a JSON value. -/
def listingJson (rows : List (Grantee × Option Grants)) : Json :=
  .array (rows.map fun (g, held) => holdingsJson g held)

/-- **The text of a report.** A verdict in JSON takes one line. -/
def render : Format → Report → String
  | .table, holdings g held => holdingsText g held
  | .table, verdict g scope required allowed => verdictText g scope required allowed
  | .table, listing rows => listingText rows
  | .json, holdings g held => (holdingsJson g held).pretty
  | .json, verdict g scope required allowed => (verdictJson g scope required allowed).compact
  | .json, listing rows => (listingJson rows).pretty

end Report

end GrantCatalog
