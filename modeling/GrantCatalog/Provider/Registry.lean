import GrantCatalog.Provider.Basic

/-!
# Selecting a provider

Kinds of providers are registered under names, and a configuration selects one by its name. Names
are compared **up to the case of ASCII letters** and listed in capitals; a later registration
under the same name replaces the earlier one.
-/

namespace GrantCatalog

/-- Ways to make a provider, by name in capitals. -/
structure Registry (α : Type) where
  /-- What is registered under each name. -/
  makers : Std.ExtTreeMap String α

namespace Registry

variable {α : Type}

/-- Nothing is registered. -/
def empty : Registry α := ⟨∅⟩

/-- Registers something under a name. -/
def register (r : Registry α) (name : String) (maker : α) : Registry α :=
  ⟨r.makers.insert (Text.uppered name) maker⟩

/-- What is registered under a name. -/
def find (r : Registry α) (name : String) : Except Error α :=
  match r.makers[Text.uppered name]? with
  | some maker => .ok maker
  | none => .error (.unknownProvider name)

/-- The names, in order. -/
def names (r : Registry α) : List String := r.makers.keys

/-- A run of registrations on top of a registry. -/
def registerAll (r : Registry α) (entries : List (String × α)) : Registry α :=
  entries.foldl (fun r (name, maker) => r.register name maker) r

/-- The two kinds of providers under their own names. -/
def defaults : Registry ProviderKind :=
  empty.registerAll ([ProviderKind.native, .allPermitted].map fun k => (k.name, k))

/-- The provider that a name selects, before it has loaded anything. -/
def create (r : Registry ProviderKind) (name : String) : Except Error Provider :=
  (r.find name).map .new

end Registry

end GrantCatalog
