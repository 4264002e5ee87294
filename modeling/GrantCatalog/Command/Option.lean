import GrantCatalog.Command.Report
import GrantCatalog.Text.Cut

/-!
# Options of the command line

Options are written `--name value` or `--name=value`, and those with a letter also `-n value`,
`-nvalue` or `-n=value`. Which options there are depends on where one is: before the subcommand,
or after one of the three subcommands.

`GrantCatalog.Seen` is what has been seen of the arguments at one of these places. The value of an
option is looked at when the option is complete: at once if it is attached, otherwise when the
next option or word begins, or at the end. So an option without a value is noticed only then.
-/

namespace GrantCatalog

/-- Why a command line is not carried out: it is wrong, or it asks for help only. -/
inductive UsageError where
  /-- An argument or option that is required is missing. -/
  | missingArgument
  /-- There is no such option, or there is a word too many. -/
  | unknownArgument
  /-- There is no such subcommand. -/
  | unknownSubcommand
  /-- An option has no value, or a value that it does not accept. -/
  | badValue
  /-- An option that takes no value has one. -/
  | superfluousValue
  /-- An option is given twice. -/
  | repeated
  /-- There is no subcommand. -/
  | missingSubcommand
  /-- Help is asked for. -/
  | help
  /-- There are no arguments at all, which is answered with help. -/
  | noArguments
  /-- The version is asked for. -/
  | version
  deriving DecidableEq, Repr

/-- An option of the command line. -/
inductive Switch where
  | config
  | user
  | provider
  | format
  | schema
  | table
  | help
  | version
  deriving DecidableEq, Repr

namespace Switch

/-- The name of an option. -/
def name : Switch → String
  | config => "config"
  | user => "user"
  | provider => "provider"
  | format => "format"
  | schema => "schema"
  | table => "table"
  | help => "help"
  | version => "version"

/-- The letter of an option, if it has one. -/
def letter? : Switch → Option Char
  | config => some 'c'
  | user => some 'u'
  | help => some 'h'
  | version => some 'V'
  | _ => none

/-- What an option that takes no value asks for. -/
def request? : Switch → Option UsageError
  | help => some .help
  | version => some .version
  | _ => none

/-- An option that may be given several times. -/
def repeatable (f : Switch) : Bool := f == user

/-- The values that an option accepts. -/
def accepts : Switch → String → Bool
  | config, v => v != ""
  | format, v => (Format.ofName? v).isSome
  | _, _ => true

end Switch

/-- A place in a command line. -/
inductive Place where
  /-- Before the subcommand. -/
  | top
  /-- After `show`. -/
  | show
  /-- After `check`. -/
  | check
  /-- After `list`. -/
  | list
  deriving DecidableEq, Repr

namespace Place

/-- The options that may be given at a place. -/
def switches : Place → List Switch
  | .top => [.config, .user, .provider, .format, .help, .version]
  | .show => [.help]
  | .check => [.schema, .table, .help]
  | .list => [.help]

/-- The word after which one is at a place. -/
def ofWord? (s : String) : Option Place :=
  if s = "show" then some .show
  else if s = "check" then some .check
  else if s = "list" then some .list
  else none

/-- Another word is welcome at a place where there are some already. -/
def takesWord : Place → Nat → Bool
  | .top, _ => false
  | .show, n => n == 0
  | .check, _ => true
  | .list, _ => false

end Place

/-- An option that is not complete. -/
inductive Pending where
  /-- There is none. -/
  | none
  /-- The value of an option is to come. -/
  | awaiting (f : Switch)
  /-- The value of an option has come, but has not been looked at. -/
  | given (f : Switch) (value : String)
  deriving DecidableEq, Repr

/-- What has been seen of the arguments at a place. -/
structure Seen where
  /-- The options and their values, in order. -/
  values : List (Switch × String) := []
  /-- The words that belong to no option, in order. -/
  words : List String := []
  /-- The option that is not complete. -/
  pending : Pending := .none
  deriving DecidableEq, Repr

namespace Seen

/-- The values of an option, in order. -/
def valuesOf (s : Seen) (f : Switch) : List String :=
  s.values.filterMap fun (f', v) => if f' = f then some v else none

/-- The value of an option that may be given once. -/
def value? (s : Seen) (f : Switch) : Option String := (s.valuesOf f).head?

/-- The value of an option has not come yet. -/
def isAwaiting (s : Seen) : Bool :=
  match s.pending with
  | .awaiting _ => true
  | _ => false

/-- Takes an option with its value. -/
def accept (s : Seen) (f : Switch) (value : String) : Except UsageError Seen :=
  if !f.repeatable && !(s.valuesOf f).isEmpty then .error .repeated
  else if !f.accepts value then .error .badValue
  else .ok ⟨s.values ++ [(f, value)], s.words, .none⟩

/-- Completes the option that is not complete. -/
def settle (s : Seen) : Except UsageError Seen :=
  match s.pending with
  | .none => .ok s
  | .awaiting _ => .error .badValue
  | .given f value => s.accept f value

/-- Begins an option, with or without a value attached to it. -/
def begin (s : Seen) (f : Switch) (attached : Option String) : Except UsageError Seen :=
  match f.request?, attached with
  | some _, some _ => .error .superfluousValue
  | some request, none => do
    let _ ← s.settle
    throw request
  | none, some value => do
    let s ← s.settle
    s.accept f value
  | none, none => do
    let s ← s.settle
    return ⟨s.values, s.words, .awaiting f⟩

/-- Takes an option written with its name, given what follows the two dashes. -/
def takeLong (s : Seen) (place : Place) (body : List Char) : Except UsageError Seen :=
  let (name, attached) := match Text.cutFirst '=' body with
    | some (n, v) => (n, some (String.ofList v))
    | none => (body, none)
  match place.switches.find? (·.name.toList == name) with
  | some f => s.begin f attached
  | none => .error .unknownArgument

/-- Takes an option written with its letter, given the letter and what follows it. -/
def takeShort (s : Seen) (place : Place) (letter : Char) (rest : List Char) :
    Except UsageError Seen :=
  match place.switches.find? (·.letter? == some letter) with
  | some f =>
    if f.request?.isSome then s.begin f none
    else
      match rest with
      | [] => s.begin f none
      | '=' :: v => s.begin f (some (.ofList v))
      | v => s.begin f (some (.ofList v))
  | none => .error .unknownArgument

/-- Takes a word that belongs to no option. -/
def takeWord (s : Seen) (place : Place) (w : String) : Except UsageError Seen :=
  if place.takesWord s.words.length then do
    let s ← s.settle
    return ⟨s.values, s.words ++ [w], .none⟩
  else .error (if place = .top then .unknownSubcommand else .unknownArgument)

/-- Takes an argument that is not two dashes alone: an option, the value of one, or a word. A
dash alone is a word. -/
def take (s : Seen) (place : Place) (arg : String) : Except UsageError Seen :=
  match arg.toList with
  | '-' :: '-' :: body => s.takeLong place body
  | '-' :: letter :: rest => s.takeShort place letter rest
  | _ =>
    match s.pending with
    | .awaiting f => .ok ⟨s.values, s.words, .given f arg⟩
    | _ => s.takeWord place arg

/-- Takes all the arguments after a subcommand. After two dashes everything is a word. -/
def takeAll (s : Seen) (place : Place) : List String → Except UsageError Seen
  | [] => s.settle
  | arg :: rest =>
    if arg = "--" then do
      let s ← rest.foldlM (·.takeWord place ·) s
      s.settle
    else do
      let s ← s.take place arg
      s.takeAll place rest

end Seen

end GrantCatalog
