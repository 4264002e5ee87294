import GrantCatalog.Command.Arguments
import GrantCatalog.Command.Configuration
import GrantCatalog.Provider.Registry

/-!
# Carrying out a command line

The surroundings of the program are the files it may read and a list of users in the environment.
`GrantCatalog.Arguments.run` goes through a fixed sequence of stages: the configuration file, the
users of the command line and of the environment, the grantees they name, the provider, the
instances, the load, and at last the command itself. The **first stage that fails** is the result
of the run, and nothing is printed then; otherwise there is exactly one report.
-/

namespace GrantCatalog

/-- What the program can see of its surroundings. -/
structure Surroundings where
  /-- The content of the file at a path, if there is one. -/
  readFile : String → Option ByteArray
  /-- The list of users in the environment, if it is set. -/
  users : Option ByteArray

/-- The end of a run. -/
structure Outcome where
  /-- The answer is not a refusal. -/
  allowed : Bool
  /-- What is printed. -/
  output : String
  deriving DecidableEq, Repr

/-- The name of the variable of the environment that holds a list of users. -/
def usersVariable : String := "AUTHORITY_USERS"

namespace Command

/-- What a command answers, given a loaded provider and the users it was loaded for. -/
def report (users : List User) (p : Provider) : Command → Except Error Report
  | .show g => do
    let g ← Grantee.parse g
    return .holdings g (p.find? g)
  | .check g names scope => do
    let g ← Grantee.parse g
    let required ← names.mapM Privilege.parse
    return .verdict g scope required ((p.find? g).any (·.permits scope required))
  | .list => return .listing (users.map fun u => (u.grantee, p.find? u.grantee))

end Command

/-- The report is no refusal: only the verdict of a check that failed is one. -/
def Report.allowed : Report → Bool
  | verdict _ _ _ allowed => allowed
  | _ => true

namespace Arguments

/-- The configuration that a command line names, or an empty one. -/
def configuration (a : Arguments) (w : Surroundings) : Except Error Configuration :=
  match a.config with
  | none => .ok {}
  | some path =>
    match w.readFile path with
    | some bytes => Configuration.ofBytes bytes
    | none => .error (.file .notFound)

/-- The settings of a run: those of the configuration, with the users and the provider that the
command line and the environment add. -/
def settings (a : Arguments) (w : Surroundings) (c : Configuration) : Except Error Settings := do
  let extra ← UserEntry.ofLists a.users
  let more ← environmentUsers w.users
  return ((c.settings.withUsers extra).withUsers more).withProvider a.provider

/-- **Carries out a command line** up to its report. -/
def evaluate (a : Arguments) (w : Surroundings) : Except Error Report := do
  let configuration ← a.configuration w
  let settings ← a.settings w configuration
  let users ← settings.resolve
  let provider ← Registry.defaults.create settings.provider
  let opened ← configuration.opened
  let (outcome, provider, _) := provider.serve .setUp opened.fleet opened.databases users
  outcome
  a.command.report users provider

/-- **Carries out a command line** and prints its report, followed by a line feed. -/
def run (a : Arguments) (w : Surroundings) : Except Error Outcome := do
  let report ← a.evaluate w
  return ⟨report.allowed, report.render a.format ++ "\n"⟩

end Arguments

end GrantCatalog
