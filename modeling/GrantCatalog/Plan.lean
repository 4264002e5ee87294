import GrantCatalog.Predicate
import GrantCatalog.Source.Fleet

/-!
# What a load has to query

A plan lists the sources that a load queries and the grantees that it asks for. Databases are
gone through in the order of their keys, and an instance that several of them share, or that
stands at several positions, is queried once, **through the first position** met.
-/

namespace GrantCatalog

/-- The sources to query, and the grantees to ask for. -/
structure Plan (n : Nat) where
  /-- The positions of the sources, in the order of the queries. -/
  sources : List (Fin n)
  /-- The grantees. -/
  predicate : Predicate
  deriving DecidableEq, Repr

namespace Plan

variable {σ : Type} [DataSource σ] {n : Nat}

/-- The positions that the databases name, in the order of their keys. -/
def positions (dbs : Databases n) : List (Fin n) := dbs.toList.flatMap (·.2.sources)

/-- **The plan** of a load for some users. -/
def build (fleet : Fleet σ n) (dbs : Databases n) (users : List User) : Plan n :=
  ⟨firstsBy (fun i => DataSource.instanceId (fleet.get i)) (positions dbs), .ofUsers users⟩

/-- The instances to query. -/
def instanceIds (fleet : Fleet σ n) (plan : Plan n) : List String :=
  plan.sources.map fun i => DataSource.instanceId (fleet.get i)

end Plan

end GrantCatalog
