import GrantCatalog.Text.Blank
import GrantCatalog.Text.Cut
import GrantCatalog.Json.Shape
import Std.Data.ExtTreeSet

/-!
# Grantees and users

Privileges are granted to a **grantee**: a user name together with the host, or pattern of hosts,
from which the user connects. In writing they are joined by an at sign, `root@localhost`. Since
user names may contain at signs and hosts do not, the *last* one is the separator
(`GrantCatalog.Grantee.ofText`); a text without any is a user name alone, which stands for that
user on every host.

A **user** is a grantee that is configured, with the password it was configured with.
-/

namespace GrantCatalog

/-- A user name together with the host it is good for. -/
structure Grantee where
  /-- The name of the user. -/
  username : String
  /-- The host, or a pattern for hosts. -/
  hostname : String
  deriving DecidableEq, Repr, Inhabited

namespace Grantee

/-- Why two texts make no grantee. -/
inductive Fault where
  /-- The user name is empty; the host is given. -/
  | noUsername (hostname : String)
  /-- The host is empty; the user name is given. -/
  | noHostname (username : String)
  deriving DecidableEq, Repr

/-- A fault in words. -/
def Fault.message : Fault → String
  | noUsername h => "empty username for host '" ++ h ++ "'"
  | noHostname u => "empty hostname for user '" ++ u ++ "'"

/-- The pattern for every host. -/
def anyHost : String := "%"

/-- The grantee with this user name and host, both of which must not be empty. -/
def ofParts (username hostname : String) : Except Fault Grantee :=
  if username = "" then .error (.noUsername hostname)
  else if hostname = "" then .error (.noHostname username)
  else .ok ⟨username, hostname⟩

/-- **The grantee that a text names**: what stands before and after the last at sign, trimmed, or
the trimmed text on every host if there is no at sign. -/
def ofText (s : String) : Except Fault Grantee :=
  match Text.cutLast '@' s.toList with
  | some (u, h) => ofParts (.ofList (Text.trim u)) (.ofList (Text.trim h))
  | none => ofParts (Text.trimmed s) anyHost

/-- A grantee in writing. -/
def display (g : Grantee) : String := g.username ++ "@" ++ g.hostname

/-! ### Order -/

/-- Grantees are ordered by user name, then by host. -/
instance : Ord Grantee := ⟨compareLex (compareOn username) (compareOn hostname)⟩

instance : Std.TransOrd Grantee :=
  inferInstanceAs (Std.TransCmp (compareLex (compareOn username) (compareOn hostname)))

instance : Std.LawfulEqOrd Grantee where
  eq_of_compare {a b} h := by
    simp only [compare, compareLex, compareOn, Ordering.then_eq_eq] at h
    obtain ⟨hu, hh⟩ := h
    replace hu := Std.LawfulEqOrd.eq_of_compare (α := String) hu
    replace hh := Std.LawfulEqOrd.eq_of_compare (α := String) hh
    cases a
    cases b
    simp_all

/-- Grantees in order, without repetitions. -/
def sorted (gs : List Grantee) : List Grantee := (Std.ExtTreeSet.ofList gs).toList

/-! ### JSON -/

/-- The grantee that a JSON value stands for. Its parts are taken as they are, even empty. -/
def ofJson? (j : Json) : Option Grantee :=
  match j.record? ["username", "hostname"] with
  | some [u, h] => do
    let u ← Json.required? Json.string? u
    let h ← Json.required? Json.string? h
    return ⟨u, h⟩
  | _ => none

/-- A grantee as a JSON value. -/
def toJson (g : Grantee) : Json :=
  .dict [("username", .str g.username), ("hostname", .str g.hostname)]

end Grantee

/-- A grantee whose privileges are wanted. -/
structure User where
  /-- The grantee. -/
  grantee : Grantee
  /-- The password that was configured, possibly empty. -/
  password : String
  deriving DecidableEq, Repr, Inhabited

/-- The user with this name, password and host. -/
def User.ofParts (username password hostname : String) : Except Grantee.Fault User :=
  (Grantee.ofParts username hostname).map (⟨·, password⟩)

end GrantCatalog
