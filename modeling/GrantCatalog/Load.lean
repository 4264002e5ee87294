import GrantCatalog.Plan

/-!
# Loading

A load asks each planned source for the rows of each catalog and adds up what they say about the
grantees asked for. The queries are made one after the other; the **first failure ends the load**
and is its result, but what was executed until then stays executed, so a load always comes with
the fleet it leaves behind.

A grantee is in the result if some row is about it, even if that row grants nothing. Two cases
make no query at all: without sources every grantee asked for is in the result, with no
privileges, and without grantees nobody is.
-/

namespace GrantCatalog

/-- What some grantees hold. -/
abbrev Holdings := Std.ExtTreeMap Grantee Grants

namespace Holdings

/-- Adds what a row says, if it is about a grantee asked for. -/
def absorb (p : Predicate) (found : Holdings) (e : Catalog.Entry) : Holdings :=
  if p.contains e.grantee then
    found.alter e.grantee fun old => some ((old.getD ∅).merge e.grants)
  else found

/-- Adds what some rows say. -/
def absorbAll (p : Predicate) (found : Holdings) (es : List Catalog.Entry) : Holdings :=
  es.foldl (absorb p) found

/-- Holdings of the grantees asked for, all of them without privileges. -/
def blank (p : Predicate) : Holdings := .ofList (p.grantees.map (·, Grants.nothing))

end Holdings

namespace Plan

variable {σ : Type} [DataSource σ] {n : Nat}

/-- The queries of a load: each source is asked for each catalog. -/
def queries (plan : Plan n) : List (Fin n × Catalog) :=
  plan.sources.flatMap fun i => Catalog.all.map (i, ·)

/-- Asks one source for one catalog. -/
def ask (p : Predicate) (fleet : Fleet σ n) (i : Fin n) (c : Catalog) :
    Except Error (List Catalog.Entry) × Fleet σ n :=
  let (answer, fleet) := fleet.execute i (c.statement p.render)
  (answer >>= fun rows => (c.decode rows).mapError (.decode c), fleet)

/-- Makes some queries, adding what they say to what was found before. -/
def collect (p : Predicate) (found : Holdings) (fleet : Fleet σ n) :
    List (Fin n × Catalog) → Except Error Holdings × Fleet σ n
  | [] => (.ok found, fleet)
  | (i, c) :: rest =>
    match ask p fleet i c with
    | (.error e, fleet) => (.error e, fleet)
    | (.ok es, fleet) => collect p (found.absorbAll p es) fleet rest

/-- **Carries out a plan**: what the grantees asked for hold, and the fleet afterwards. -/
def load (plan : Plan n) (fleet : Fleet σ n) : Except Error Holdings × Fleet σ n :=
  if plan.sources.isEmpty then (.ok (.blank plan.predicate), fleet)
  else if plan.predicate.isEmpty then (.ok ∅, fleet)
  else collect plan.predicate ∅ fleet plan.queries

end Plan

end GrantCatalog
