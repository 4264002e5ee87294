import GrantCatalog.Provider.Snapshot

/-!
# Providers

A provider answers what grantees hold, from the snapshot that its last successful load published.
The **native** provider loads what the catalogs of the instances say. The **all-permitted**
provider queries nothing and lets every configured user do everything.

A load that fails leaves the provider as it was.
-/

namespace GrantCatalog

/-- Where a provider knows from what grantees hold. -/
inductive ProviderKind where
  /-- From the catalogs of the instances. -/
  | native
  /-- From nowhere: configured users hold everything. -/
  | allPermitted
  deriving DecidableEq, Repr, Inhabited

namespace ProviderKind

/-- The name under which a kind of provider is selected. -/
def name : ProviderKind → String
  | native => "NATIVE"
  | allPermitted => "ALL_PERMITTED"

end ProviderKind

/-- A request to a provider that makes it load. -/
inductive Request where
  /-- To build up what it knows from scratch. -/
  | setUp
  /-- To build it up again. -/
  | refresh
  deriving DecidableEq, Repr, Inhabited

/-- A kind of provider, and what it published last. -/
structure Provider where
  /-- Where it knows from. -/
  kind : ProviderKind
  /-- What it published last. -/
  snapshot : Snapshot
  deriving DecidableEq

namespace Provider

variable {σ : Type} [DataSource σ] {n : Nat}

/-- A provider that has not loaded anything yet. -/
def new (kind : ProviderKind) : Provider := ⟨kind, .initial⟩

instance : Inhabited Provider := ⟨new .native⟩

/-- Everything for each of some users. -/
def permitAll (users : List User) : Holdings :=
  .ofList (users.map fun u => (u.grantee, Grants.everything))

/-- What a kind of provider would publish for some users, and the fleet afterwards. -/
def gather (kind : ProviderKind) (fleet : Fleet σ n) (dbs : Databases n) (users : List User) :
    Except Error Holdings × Fleet σ n :=
  match kind with
  | .native => (Plan.build fleet dbs users).load fleet
  | .allPermitted => (.ok (permitAll users), fleet)

/-- The provider after it has gathered something, or failed to. -/
def publish (p : Provider) : Except Error Holdings → Except Error Unit × Provider
  | .ok entries => (.ok (), ⟨p.kind, p.snapshot.next entries⟩)
  | .error e => (.error e, p)

/-- **Loads** what some users hold: the outcome, and the provider and the fleet afterwards. -/
def load (p : Provider) (fleet : Fleet σ n) (dbs : Databases n) (users : List User) :
    Except Error Unit × Provider × Fleet σ n :=
  let (entries, fleet) := gather p.kind fleet dbs users
  let (outcome, p) := p.publish entries
  (outcome, p, fleet)

/-- Carries out a request. The first and every later one load everything afresh. -/
def serve (p : Provider) (request : Request) (fleet : Fleet σ n) (dbs : Databases n)
    (users : List User) : Except Error Unit × Provider × Fleet σ n :=
  match request with
  | .setUp => p.load fleet dbs users
  | .refresh => p.load fleet dbs users

/-- What a grantee holds, if it is known. -/
def find? (p : Provider) (g : Grantee) : Option Grants := p.snapshot.find? g

end Provider

end GrantCatalog
