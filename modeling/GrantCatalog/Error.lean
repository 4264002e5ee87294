import GrantCatalog.Catalog.Decode
import GrantCatalog.Json.Reader

/-!
# What can go wrong

Every failure of this library is one of these causes, and `GrantCatalog.Error.message` words it.
A text that is not JSON, or not of the shape expected, and a file that cannot be read have no
details worth keeping.
-/

namespace GrantCatalog

/-- Why an instance does not answer a query. -/
inductive QueryFault where
  /-- The instance is down. -/
  | unavailable
  /-- The statement names no table to read from. -/
  | noTable (statement : String)
  deriving DecidableEq, Repr

/-- A fault in words. -/
def QueryFault.message : QueryFault → String
  | unavailable => "instance unavailable"
  | noTable statement => "no FROM clause in: " ++ statement

/-- What may be wrong with a configuration that has the right shape. -/
inductive ConfigFault where
  /-- An entry of a list of users has no user name. -/
  | noUser (entry : String)
  /-- An instance can only be reached over the network, which this program does not do. -/
  | noConnection (url : String)
  deriving DecidableEq, Repr

/-- A fault in words. -/
def ConfigFault.message : ConfigFault → String
  | noUser entry => "missing user in entry '" ++ entry ++ "'"
  | noConnection url => "cannot connect to " ++ url ++ ": built without the `mysql` feature"

/-- Why a file cannot be read as text. -/
inductive FileFault where
  /-- There is no such file. -/
  | notFound
  /-- The file is not encoded in UTF-8. -/
  | notText
  deriving DecidableEq, Repr

/-- A failure, by its cause. -/
inductive Error where
  /-- An instance does not answer a query. -/
  | query (instanceId : String) (fault : QueryFault)
  /-- The answer to a query cannot be read. -/
  | decode (catalog : Catalog) (fault : Catalog.Fault)
  /-- A name means no privilege. -/
  | unknownPrivilege (name : String)
  /-- A grantee has an empty part. -/
  | badGrantee (fault : Grantee.Fault)
  /-- No provider is registered under a name. -/
  | unknownProvider (name : String)
  /-- A configuration cannot be used. -/
  | config (fault : ConfigFault)
  /-- A text is not JSON, or not of the shape expected. -/
  | json
  /-- A file cannot be read. -/
  | file (fault : FileFault)
  deriving DecidableEq, Repr

namespace Error

/-- **A failure in words.** -/
def message : Error → String
  | query i fault => "data access error on instance " ++ i ++ ": " ++ fault.message
  | decode c fault =>
    "cannot decode " ++ c.tableName ++ "." ++ fault.column ++ ": " ++ fault.cause.message
  | unknownPrivilege name => "unknown privilege: " ++ name
  | badGrantee fault => "invalid grantee: " ++ fault.message
  | unknownProvider name => "unknown authority provider type: " ++ name
  | config fault => "configuration error: " ++ fault.message
  | json => "invalid JSON"
  | file .notFound => "file not found"
  | file .notText => "file is not valid UTF-8"

end Error

/-- The value of a JSON text of a known shape. -/
def Json.parse {α : Type} (shape : Json → Option α) (s : String) : Except Error α :=
  match Json.read? s >>= shape with
  | some a => .ok a
  | none => .error .json

/-- The privilege that a loosely written name means. -/
def Privilege.parse (name : String) : Except Error Privilege :=
  match Privilege.ofName? name with
  | some p => .ok p
  | none => .error (.unknownPrivilege name)

/-- The grantee that a text names. -/
def Grantee.parse (s : String) : Except Error Grantee := (Grantee.ofText s).mapError .badGrantee

end GrantCatalog
