import GrantCatalog.Provider.Basic

/-!
# Sessions

A session is a provider at work on a fleet, together with what its users **keep**: the answers of
lookups and whole snapshots, each under a label. Loads publish new snapshots, instances fail and
recover, and what was kept stays what it was when it was taken.
-/

namespace GrantCatalog

/-- A provider at work on a fleet, and what is kept of its answers. -/
structure Session (n : Nat) where
  /-- The provider. -/
  provider : Provider
  /-- The sources it may query. -/
  fleet : Fleet Source n
  /-- The answers kept, by label. A grantee that was unknown has no answer. -/
  grants : Std.ExtTreeMap String (Option Grants) := ∅
  /-- The snapshots kept, by label. -/
  snapshots : Std.ExtTreeMap String Snapshot := ∅

namespace Session

variable {n : Nat}

/-- A session with a new provider, in which nothing has happened yet. -/
def start (kind : ProviderKind) (fleet : Fleet Source n) : Session n := ⟨.new kind, fleet, ∅, ∅⟩

/-- Carries out a request to load what some users hold: the outcome, and the session afterwards. -/
def load (s : Session n) (dbs : Databases n) (users : List User) (request : Request := .refresh) :
    Except Error Unit × Session n :=
  let (outcome, provider, fleet) := s.provider.serve request s.fleet dbs users
  (outcome, ⟨provider, fleet, s.grants, s.snapshots⟩)

/-- Looks a grantee up and keeps the answer. -/
def keepGrants (s : Session n) (g : Grantee) (label : String) : Session n :=
  ⟨s.provider, s.fleet, s.grants.insert label (s.provider.find? g), s.snapshots⟩

/-- Keeps the snapshot that is served. -/
def keepSnapshot (s : Session n) (label : String) : Session n :=
  ⟨s.provider, s.fleet, s.grants, s.snapshots.insert label s.provider.snapshot⟩

/-- Puts an instance out of order, or back in order. -/
def setFailing (s : Session n) (i : Fin n) (failing : Bool) : Session n :=
  ⟨s.provider, s.fleet.withFailing i failing, s.grants, s.snapshots⟩

/-- The answer kept under a label. -/
def keptGrants (s : Session n) (label : String) : Option Grants := (s.grants[label]?).join

/-- The snapshot kept under a label. -/
def keptSnapshot (s : Session n) (label : String) : Option Snapshot := s.snapshots[label]?

/-! ### Runs -/

/-- Something that happens in a session. -/
inductive Event (n : Nat) where
  /-- A request to load. -/
  | load (request : Request) (dbs : Databases n) (users : List User)
  /-- A lookup whose answer is kept. -/
  | find (g : Grantee) (label : String)
  /-- A snapshot is kept. -/
  | snapshot (label : String)
  /-- An instance fails or recovers. -/
  | failing (i : Fin n) (failing : Bool)

/-- The session after an event. -/
def after (s : Session n) : Event n → Session n
  | .load request dbs users => (s.load dbs users request).2
  | .find g label => s.keepGrants g label
  | .snapshot label => s.keepSnapshot label
  | .failing i failing => s.setFailing i failing

/-- The session after a run of events. -/
def run (s : Session n) (events : List (Event n)) : Session n := events.foldl after s

end Session

end GrantCatalog
