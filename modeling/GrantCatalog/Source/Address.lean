import GrantCatalog.Text.Cut

/-!
# Addresses of instances

The URL under which an instance is reached also says which instance it is: its **endpoint**, a host
and the number of the service on it. Three cuts find them, in this order: the scheme is dropped,
then everything up to the last at sign, then everything from the first slash or question mark on.
A missing service number is the usual one.
-/

namespace GrantCatalog.Address

/-- The service number used when a URL names none. -/
def defaultService : String := "3306"

/-- A URL without its scheme. -/
def schemeless (url : List Char) : List Char :=
  (Text.after? "://".toList url).getD url

/-- **The identifier of the instance** that a URL leads to. -/
def instanceId (url : String) : String :=
  let rest := schemeless url.toList
  let host := match Text.cutLast '@' rest with
    | some (_, h) => h
    | none => rest
  let host := host.takeWhile fun c => c ≠ '/' ∧ c ≠ '?'
  if ':' ∈ host then .ofList host else .ofList host ++ ":" ++ defaultService

end GrantCatalog.Address
