import GrantCatalog.Settings
import GrantCatalog.Source.Fleet

/-!
# The configuration file

A configuration is a JSON text with the provider settings and the logical databases. Each database
lists its instances: a **fixture**, which gives the tables of the instance inline, or the URL of a
server. Databases are opened in the order of their names, and their instances in the order of the
list; the sources are numbered in this order, each instance becoming a source of its own.

This program has no client for servers, so opening one by its URL fails.
-/

namespace GrantCatalog

/-- An instance as it is configured. -/
inductive InstanceConfig where
  /-- A server, by its URL. -/
  | server (url : String)
  /-- An instance whose tables are given. -/
  | fixture (source : Source)
  deriving DecidableEq

namespace InstanceConfig

/-- The instance that a JSON value stands for. -/
def ofJson? : Json → Option InstanceConfig
  | .object [(some "mysql", j)] => j.string?.map .server
  | .object [(some "fixture", j)] => (Source.ofJson? j).map .fixture
  | _ => none

/-- Opens an instance. -/
def toSource : InstanceConfig → Except Error Source
  | server url => .error (.config (.noConnection url))
  | fixture source => .ok source

end InstanceConfig

/-- A configuration. -/
structure Configuration where
  /-- The provider, and the users it is for. -/
  settings : Settings := {}
  /-- The instances of each logical database. -/
  databases : Std.ExtTreeMap String (List InstanceConfig) := ∅

namespace Configuration

/-- The configuration that a JSON value stands for. -/
def ofJson? (j : Json) : Option Configuration :=
  match j.record? ["provider", "databases"] with
  | some [p, d] => do
    let p ← Json.optional? {} Settings.ofJson? p
    let d ← Json.optional? ∅ (Json.map? (Json.list? InstanceConfig.ofJson?)) d
    return ⟨p, d⟩
  | _ => none

/-- The configuration that the bytes of a file hold. -/
def ofBytes (bytes : ByteArray) : Except Error Configuration :=
  match String.fromUTF8? bytes with
  | some s => Json.parse ofJson? s
  | none => .error (.file .notText)

/-- Opened databases: each with a name and the sources behind it. -/
abbrev Opened := List (String × List Source)

/-- Opens the instances of every database. -/
def opened (c : Configuration) : Except Error Opened :=
  c.databases.toList.mapM fun (name, instances) => do
    let sources ← instances.mapM InstanceConfig.toSource
    return (name, sources)

namespace Opened

/-- The sources of all databases, in order. -/
def sources (o : Opened) : List Source := o.flatMap (·.2)

/-- The fleet of all sources. -/
def fleet (o : Opened) : Fleet Source o.sources.length :=
  ⟨o.sources.toArray, List.size_toArray⟩

/-- Databases on a fleet, each of which takes as many of some positions as it has sources, and
leaves the others to the databases after it. -/
def place {n : Nat} (positions : List (Fin n)) : Opened → Databases n
  | [] => ∅
  | (name, sources) :: rest =>
    (place (positions.drop sources.length) rest).insert name
      ⟨name, positions.take sources.length⟩

/-- The databases on the fleet of all sources. -/
def databases (o : Opened) : Databases o.sources.length := o.place (List.finRange _)

end Opened

end Configuration

end GrantCatalog
