import GrantCatalog.Command.Run

/-!
# The program

The thin layer between the system and `GrantCatalog.Arguments.run`: it reads the configuration
file and the environment, prints what is to be printed, and turns the outcome into an exit
status – 0 for a report, 2 for a check that failed, 1 for an error.
-/

namespace GrantCatalog

/-- How the program is used. -/
def usage : String :=
  "usage: [OPTIONS] show GRANTEE\n" ++
  "       [OPTIONS] check GRANTEE PRIVILEGE... [--schema SCHEMA [--table TABLE]]\n" ++
  "       [OPTIONS] list\n" ++
  "options:\n" ++
  "  -c, --config FILE      the configuration file\n" ++
  "  -u, --user LIST        additional users, user@host[:password], separated by semicolons\n" ++
  "      --provider NAME    the provider, instead of the configured one\n" ++
  "      --format FORM      table or json\n" ++
  "  -h, --help             this text\n" ++
  "  -V, --version          the version"

/-- What is said about a command line that is not carried out. -/
def UsageError.message : UsageError → String
  | missingArgument => "a required argument is missing"
  | unknownArgument => "unexpected argument"
  | unknownSubcommand => "unrecognized subcommand"
  | badValue => "invalid or missing value for an option"
  | superfluousValue => "unexpected value for an option"
  | repeated => "an option cannot be used multiple times"
  | missingSubcommand => "a subcommand is required"
  | help => usage
  | noArguments => usage
  | version => "0.1.0"

/-- What the program sees of its surroundings when it reads a configuration file. -/
def surroundings (config : Option String) : IO Surroundings := do
  let file ← match config with
    | none => pure none
    | some path => try some <$> IO.FS.readBinFile path catch _ => pure none
  let users ← IO.getEnv usersVariable
  return ⟨fun path => if some path = config then file else none, users.map String.toUTF8⟩

end GrantCatalog

open GrantCatalog in
/-- Runs the program. -/
def main (args : List String) : IO UInt32 := do
  match Arguments.parse args with
  | .error e =>
    if e = .help ∨ e = .version then
      IO.println e.message
      return 0
    else
      IO.eprintln e.message
      return 2
  | .ok a =>
    match a.run (← surroundings a.config) with
    | .error e =>
      IO.eprintln ("Error: " ++ e.message)
      return 1
    | .ok outcome =>
      IO.print outcome.output
      return if outcome.allowed then 0 else 2
