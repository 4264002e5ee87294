import GrantCatalog.Error
import GrantCatalog.Provider.Basic
import GrantCatalog.Text.Cut

/-!
# Provider settings

Settings select a provider and list the users it is for. Users come from three places – a
configuration file, lists on the command line, a list in the environment – and add up.

A **list of users** is a text with entries separated by semicolons. In an entry the name of the
user ends at the first colon, and all that follows is the password, colons included
(`GrantCatalog.UserEntry.ofList`). Blank entries do not count. Names are resolved to grantees
later, when all users are known.
-/

namespace GrantCatalog

/-- A user as it is configured. -/
structure UserEntry where
  /-- The text that names the grantee. -/
  user : String
  /-- The password. -/
  password : String
  deriving DecidableEq, Repr, Inhabited

namespace UserEntry

/-- The entry that a trimmed text stands for. -/
def ofEntry (entry : List Char) : Except Error UserEntry :=
  let (user, password) := (Text.cutFirst ':' entry).getD (entry, [])
  let user := Text.trim user
  if user.isEmpty then .error (.config (.noUser (.ofList entry)))
  else .ok ⟨.ofList user, .ofList password⟩

/-- **The users that a list names.** -/
def ofList (s : String) : Except Error (List UserEntry) :=
  (((s.toList.splitOn ';').map Text.trim).filter (!·.isEmpty)).mapM ofEntry

/-- The users that several lists name, list by list. -/
def ofLists (lists : List String) : Except Error (List UserEntry) :=
  (lists.mapM ofList).map List.flatten

/-- The user that an entry means. -/
def resolve (u : UserEntry) : Except Error User :=
  (Grantee.parse u.user).map (⟨·, u.password⟩)

/-- The entry that a JSON value stands for. -/
def ofJson? (j : Json) : Option UserEntry :=
  match j.record? ["user", "password"] with
  | some [u, p] => do
    let u ← Json.required? Json.string? u
    let p ← Json.optional? "" Json.string? p
    return ⟨u, p⟩
  | _ => none

end UserEntry

/-- Which provider to run, and for which users. -/
structure Settings where
  /-- The name that selects the provider. -/
  provider : String := ProviderKind.native.name
  /-- The users, in the order of configuration. -/
  users : List UserEntry := []
  deriving DecidableEq, Repr, Inhabited

namespace Settings

/-- The settings with some more users. -/
def withUsers (s : Settings) (users : List UserEntry) : Settings := ⟨s.provider, s.users ++ users⟩

/-- The settings with the provider that an option selects, if it is given. -/
def withProvider (s : Settings) (provider : Option String) : Settings :=
  ⟨provider.getD s.provider, s.users⟩

/-- The users that the settings mean. -/
def resolve (s : Settings) : Except Error (List User) := s.users.mapM UserEntry.resolve

/-- The settings that a JSON value stands for. -/
def ofJson? (j : Json) : Option Settings :=
  match j.record? ["type", "users"] with
  | some [t, u] => do
    let t ← Json.optional? ProviderKind.native.name Json.string? t
    let u ← Json.optional? [] (Json.list? UserEntry.ofJson?) u
    return ⟨t, u⟩
  | _ => none

end Settings

/-- The list of users that a variable of the environment holds. A value that is not a text counts
as no value. -/
def environmentUsers (value : Option ByteArray) : Except Error (List UserEntry) :=
  match value.bind String.fromUTF8? with
  | some list => UserEntry.ofList list
  | none => .ok []

end GrantCatalog
