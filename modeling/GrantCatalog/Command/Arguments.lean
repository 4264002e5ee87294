import GrantCatalog.Command.Option

/-!
# The command line

A command line has options, a subcommand, and the subcommand's own options and words:

* `show GRANTEE` – what a grantee holds;
* `check GRANTEE PRIVILEGE…` – whether a grantee holds all of some privileges, on the server or,
  with `--schema` or with `--schema` and `--table`, on a schema or table;
* `list` – what was found for each configured user.

The scope of a check is fixed here, once and for all: a table without its schema is an error, so
no check is ever made on a wider scope than the one asked for.
-/

namespace GrantCatalog

/-- What the program is asked to do. -/
inductive Command where
  /-- Show what a grantee holds. -/
  | show (grantee : String)
  /-- Check that a grantee holds some privileges on a scope. -/
  | check (grantee : String) (privileges : List String) (scope : Scope)
  /-- List the configured users. -/
  | list
  deriving DecidableEq, Repr, Inhabited

/-- A command line. -/
structure Arguments where
  /-- The path of the configuration file, if there is one. -/
  config : Option String := none
  /-- Lists of additional users. -/
  users : List String := []
  /-- The name of a provider that overrides the configured one. -/
  provider : Option String := none
  /-- The form of the report. -/
  format : Format := .table
  /-- What to do. -/
  command : Command
  deriving DecidableEq, Repr, Inhabited

/-- The scope that a schema and a table select; a table alone selects none. -/
def Scope.ofParts? : Option String → Option String → Option Scope
  | none, none => some .server
  | some s, none => some (.schema s)
  | some s, some t => some (.table s t)
  | none, some _ => none

namespace Command

/-- The command that a subcommand's arguments amount to. -/
def ofSeen : Place → Seen → Except UsageError Command
  | .top, _ => .error .missingSubcommand
  | .show, s =>
    match s.words with
    | [g] => .ok (.show g)
    | _ => .error .missingArgument
  | .check, s =>
    match s.words, Scope.ofParts? (s.value? .schema) (s.value? .table) with
    | g :: p :: ps, some scope => .ok (.check g (p :: ps) scope)
    | _, _ => .error .missingArgument
  | .list, _ => .ok .list

end Command

namespace Arguments

/-- A command line, given what was seen before the subcommand. -/
def ofSeen (s : Seen) (command : Command) : Arguments :=
  ⟨s.value? .config, s.valuesOf .user, s.value? .provider,
   ((s.value? .format).bind Format.ofName?).getD .table, command⟩

/-- What a request for help amounts to, given the words after it: at most one subcommand may be
named. -/
def helpError (words : List String) : UsageError :=
  match words with
  | [] => .help
  | [w] => if w = "help" ∨ (Place.ofWord? w).isSome then .help else .unknownSubcommand
  | _ => .unknownSubcommand

/-- What a command line without a subcommand amounts to. -/
def noSubcommand (s : Seen) : Except UsageError Arguments := do
  let s ← s.settle
  throw (if s.values.isEmpty then .noArguments else .missingSubcommand)

/-- What a word after two dashes amounts to, where a subcommand should be. -/
def afterDashes (w : String) : UsageError :=
  if w = "help" ∨ (Place.ofWord? w).isSome then .unknownArgument else .unknownSubcommand

/-- Reads arguments, given what was seen before them. -/
def parseFrom (s : Seen) : List String → Except UsageError Arguments
  | [] => noSubcommand s
  | arg :: rest =>
    if arg = "help" ∧ !s.isAwaiting then .error (helpError rest)
    else
      match if s.isAwaiting then none else Place.ofWord? arg with
      | some place => do
        let inner ← Seen.takeAll {} place rest
        let command ← Command.ofSeen place inner
        let s ← s.settle
        return ofSeen s command
      | none =>
        if arg = "--" then
          match rest with
          | [] => noSubcommand s
          | w :: _ => .error (afterDashes w)
        else do
          let s ← s.take .top arg
          parseFrom s rest

/-- **Reads a command line.** -/
def parse (args : List String) : Except UsageError Arguments := parseFrom {} args

end Arguments

end GrantCatalog
