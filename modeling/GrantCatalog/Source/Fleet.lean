import GrantCatalog.Source.Basic

/-!
# Fleets and databases

Several logical databases may be backed by one and the same instance. The sources of a
configuration therefore stand in a **fleet**, each at a position of its own, and a database names
the positions of its sources. Executing a statement at a position changes the source there, for
all the databases that name it, and no other source.
-/

namespace GrantCatalog

/-- Sources, each at a position. -/
abbrev Fleet (σ : Type) (n : Nat) := Vector σ n

namespace Fleet

variable {σ : Type} {n : Nat}

/-- Executes a statement on the source at a position. -/
def execute [DataSource σ] (f : Fleet σ n) (i : Fin n) (statement : String) :
    Except Error ResultSet × Fleet σ n :=
  let (answer, source) := DataSource.execute (f.get i) statement
  (answer, f.set i source)

/-- The fleet with the source at a position put out of order, or back in order. -/
def withFailing (f : Fleet Source n) (i : Fin n) (failing : Bool) : Fleet Source n :=
  f.set i ((f.get i).withFailing failing)

end Fleet

/-- A logical database: a name, and the positions of the sources behind it. -/
structure Database (n : Nat) where
  /-- The name of the database. -/
  name : String
  /-- The sources behind it. -/
  sources : List (Fin n)
  deriving DecidableEq, Repr

/-- Logical databases, by key. -/
abbrev Databases (n : Nat) := Std.ExtTreeMap String (Database n)

namespace Database

/-- A character inside a quoted name: quotes, backslashes and control characters are escaped. -/
def escape (c : Char) : List Char :=
  match c with
  | '"' => ['\\', '"']
  | '\\' => ['\\', '\\']
  | '\t' => ['\\', 't']
  | '\n' => ['\\', 'n']
  | '\r' => ['\\', 'r']
  | '\x00' => ['\\', '0']
  | c =>
    if c.toNat < 0x20 ∨ c.toNat = 0x7F then
      ['\\', 'u', '\x7b'] ++ Nat.toDigits 16 c.toNat ++ ['\x7d']
    else [c]

/-- A name between quotes. -/
def quoted (s : String) : String := "\"" ++ .ofList (s.toList.flatMap escape) ++ "\""

/-- A database with the instances behind it, for people to look at. -/
def describe (name : String) (instances : List String) : String :=
  "DatabaseMetaData \x7b name: " ++ quoted name ++ ", instances: ["
    ++ ", ".intercalate (instances.map quoted) ++ "] \x7d"

end Database

end GrantCatalog
