import GrantCatalog.Command.Configuration
import GrantCatalog.Plan
import GrantCatalog.Proofs.Order
import GrantCatalog.Proofs.Result

/-!
# The instances that a configuration stands for

A configuration lists instances under the names of databases, opening turns them into sources, the
sources get positions in a fleet, and a plan picks some of the positions. Seen from the outside
there is only one list: the **fixtures** of a configuration, database by database in the order of
the names (`GrantCatalog.Configuration.fixtures`).

* `GrantCatalog.Configuration.sources_of_opened_eq_ok` – opening succeeds for fixtures only, and
  their sources are these;
* `GrantCatalog.Configuration.Opened.positions_databases` – the databases take all positions, in
  order;
* `GrantCatalog.Configuration.exists_planned_iff` – the planned sources are the fixtures that are
  the first of their instance.
-/

namespace GrantCatalog

namespace Configuration

/-! ### Positions -/

namespace Opened

variable {n : Nat}

theorem mem_place {ps : List (Fin n)} {o : Opened} {k : String} :
    k ∈ o.place ps ↔ k ∈ o.map Prod.fst := by
  induction o generalizing ps with
  | nil => simp [place]
  | cons d o ih =>
    obtain ⟨name, sources⟩ := d
    rw [place, Std.ExtTreeMap.mem_insert, ih, Std.LawfulEqOrd.compare_eq_iff_eq]
    simp [eq_comm]

/-- Databases whose names are in order take the positions in order. -/
theorem positions_place {ps : List (Fin n)} {o : Opened}
    (ho : (o.map Prod.fst).Pairwise (compare · · = .lt)) :
    Plan.positions (o.place ps) = ps.take o.sources.length := by
  induction o generalizing ps with
  | nil => simp [place, Plan.positions, sources]
  | cons d o ih =>
    obtain ⟨name, here⟩ := d
    obtain ⟨hname, ho⟩ := List.pairwise_cons.mp ho
    -- The first name is before all others, so its positions are listed before theirs.
    have hfirst : ∀ k ∈ place (ps.drop here.length) o, compare name k = .lt :=
      fun k hk => hname k (mem_place.mp hk)
    have hrest : Plan.positions (place (ps.drop here.length) o) =
        (ps.drop here.length).take (sources o).length := ih ho
    have hsources : sources ((name, here) :: o) = here ++ sources o := rfl
    rw [Plan.positions] at hrest ⊢
    rw [place, toList_insert_of_lt _ hfirst, List.flatMap_cons, hrest, hsources,
      List.length_append, List.take_add]

/-- **The databases take all positions, in order.** -/
theorem positions_databases {o : Opened} (ho : (o.map Prod.fst).Pairwise (compare · · = .lt)) :
    Plan.positions o.databases = List.finRange o.sources.length := by
  rw [databases, positions_place ho]
  exact List.take_of_length_le (by simp)

end Opened

/-! ### Fixtures -/

/-- The source of an instance that is given inline. -/
def fixture? : InstanceConfig → Option Source
  | .server _ => none
  | .fixture source => some source

/-- **The fixtures of a configuration**, database by database in the order of their names, and those
of a database in the order of its list. -/
def fixtures (c : Configuration) : List Source :=
  c.databases.toList.flatMap fun (_, instances) => instances.filterMap fixture?

/-- **A fixture that a load queries**: the first one of its instance. -/
def Planned (c : Configuration) (f : Source) : Prop :=
  ∃ before after, c.fixtures = before ++ f :: after ∧
    ∀ e ∈ before, e.instanceId ≠ f.instanceId

theorem filterMap_fixture? {instances : List InstanceConfig} {sources : List Source}
    (h : instances.mapM InstanceConfig.toSource = .ok sources) :
    instances.filterMap fixture? = sources := by
  rw [List.mapM_eq_ok_iff] at h
  induction h with
  | nil => rfl
  | @cons i s instances sources hi _ ih =>
    cases i with
    | server url => cases hi
    | fixture source =>
      obtain rfl := Except.ok.inj hi
      exact congrArg (source :: ·) ih

variable {c : Configuration} {o : Opened}

/-- Opening keeps the names, and the fixtures behind each. -/
theorem eq_of_opened_eq_ok (h : c.opened = .ok o) :
    o = c.databases.toList.map fun (name, instances) => (name, instances.filterMap fixture?) := by
  have hall := List.mapM_eq_ok_iff.mp h
  clear h
  generalize c.databases.toList = ds at hall ⊢
  induction hall with
  | nil => rfl
  | @cons d _ _ _ hd _ ih =>
    obtain ⟨name, instances⟩ := d
    obtain ⟨sources, hsources, hd⟩ := Except.bind_eq_ok_iff.mp hd
    obtain rfl := Except.ok.inj hd
    rw [List.map_cons, ← ih, ← filterMap_fixture? hsources]

theorem sources_of_opened_eq_ok (h : c.opened = .ok o) : o.sources = c.fixtures := by
  rw [eq_of_opened_eq_ok h, Opened.sources, List.flatMap_map, fixtures]

theorem pairwise_of_opened_eq_ok (h : c.opened = .ok o) :
    (o.map Prod.fst).Pairwise (compare · · = .lt) := by
  rw [eq_of_opened_eq_ok h, List.map_map, List.pairwise_map]
  exact Std.ExtTreeMap.ordered_keys_toList

/-- The sources that a plan for all databases queries are those of the planned fixtures. -/
theorem exists_planned_iff (h : c.opened = .ok o) (users : List User) (q : Source → Prop) :
    (∃ i ∈ (Plan.build o.fleet o.databases users).sources, q (o.fleet.get i)) ↔
      ∃ f, c.Planned f ∧ q f := by
  have hfleet : (List.finRange o.sources.length).map (fun i => (o.fleet.get i)) = o.sources :=
    List.map_getElem_finRange o.sources
  -- Instances are told apart by source, so the positions that are kept do not matter.
  have hplanned : (Plan.build o.fleet o.databases users).sources.map (fun i => (o.fleet.get i)) =
      firstsBy Source.instanceId c.fixtures := by
    rw [Plan.build, Opened.positions_databases (pairwise_of_opened_eq_ok h),
      ← sources_of_opened_eq_ok h]
    exact (firstsBy_map _ _).symm.trans (congrArg (firstsBy Source.instanceId) hfleet)
  simp only [Planned, ← mem_firstsBy_iff, ← hplanned, List.mem_map]
  constructor
  · rintro ⟨i, hi, hq⟩
    exact ⟨_, ⟨i, hi, rfl⟩, hq⟩
  · rintro ⟨f, ⟨i, hi, rfl⟩, hq⟩
    exact ⟨i, hi, hq⟩

end Configuration

end GrantCatalog
