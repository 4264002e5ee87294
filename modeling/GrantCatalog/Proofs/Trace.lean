import GrantCatalog.Proofs.Load

/-!
# What a load asks

A load puts its queries to the sources one after the other and stops at the first that fails. What
it has asked by then stays recorded, so the statements executed on a source tell how far the load
came: all three of a source that was done with, those up to the failure of the source that failed,
none of a source that was still to come or that was never planned.

The queries of a load stand in one list. What is proved of the loops is therefore this:

* asking some queries puts to each source the statements that are for it, in order
  (`GrantCatalog.Plan.get_askAll`);
* a load asks all queries (`GrantCatalog.Plan.collect_of_says`), or those up to the first that
  fails, whose error is its result (`GrantCatalog.Plan.collect_of_fails`).

The rest is to find the statements of one source in that list. There each planned source has its
three queries in a row, as no source is planned twice.
-/

namespace GrantCatalog

/-- A source on which some more statements were executed. -/
def Source.record (s : Source) (statements : List String) : Source :=
  ⟨s.instanceId, s.tables, s.failing, s.executed ++ statements⟩

@[simp] theorem Source.record_nil (s : Source) : s.record [] = s := by
  simp [Source.record]

namespace Plan

variable {σ : Type} [DataSource σ] {n : Nat}

/-! ### Queries that fail -/

/-- **A source fails** for some grantees and a catalog: it does not answer the query, or its answer
cannot be decoded. -/
inductive Fails (p : Predicate) (s : σ) (c : Catalog) : Error → Prop where
  | unanswered {e : Error} (h : (DataSource.execute s (c.statement p.render)).1 = .error e) :
      Fails p s c e
  | illegible {rows : ResultSet} {f : Catalog.Fault}
      (h : (DataSource.execute s (c.statement p.render)).1 = .ok rows)
      (hf : c.decode rows = .error f) : Fails p s c (.decode c f)

theorem reading_eq_error_iff {p : Predicate} {s : σ} {c : Catalog} {e : Error} :
    reading p s c = .error e ↔ Fails p s c e := by
  rw [reading, Except.bind_eq_error_iff]
  simp only [Except.mapError_eq_error_iff]
  constructor
  · rintro (h | ⟨rows, h, f, hf, rfl⟩)
    · exact .unanswered h
    · exact .illegible h hf
  · rintro (h | ⟨h, hf⟩)
    · exact .inl h
    · exact .inr ⟨_, h, _, hf, rfl⟩

/-- A source that says nothing fails. -/
theorem exists_fails_iff {p : Predicate} {s : σ} {c : Catalog} :
    (∃ e, Fails p s c e) ↔ ¬∃ es, Says p s c es := by
  simp only [← reading_eq_error_iff, ← reading_eq_ok_iff, Except.exists_eq_error_iff]

/-! ### Asking some queries -/

/-- The fleet after some queries, whatever came of them. -/
def askAll (p : Predicate) (fleet : Fleet σ n) (queries : List (Fin n × Catalog)) : Fleet σ n :=
  queries.foldl (fun fleet q => (ask p fleet q.1 q.2).2) fleet

/-- The statements that some queries put to one source. -/
def putTo (p : Predicate) (i : Fin n) (queries : List (Fin n × Catalog)) : List String :=
  (queries.filter (·.1 = i)).map (·.2.statement p.render)

variable {p : Predicate} {start fleet : Fleet σ n}

/-- **Some queries put to each source the statements that are for it**, in order, and leave it as it
is otherwise. -/
theorem get_askAll (queries : List (Fin n × Catalog)) (i : Fin n) :
    (askAll p fleet queries).get i = DataSource.after (fleet.get i) (putTo p i queries) := by
  induction queries generalizing fleet with
  | nil => rfl
  | cons q queries ih =>
    obtain ⟨j, c⟩ := q
    have hrest : askAll p fleet ((j, c) :: queries) = askAll p (ask p fleet j c).2 queries := rfl
    rw [hrest, ih, get_ask, putTo, putTo]
    by_cases hj : j = i
    · subst hj
      simp [DataSource.after]
    · simp [hj]

theorem Reached.askAll (h : Reached p start fleet) (queries : List (Fin n × Catalog)) :
    Reached p start (askAll p fleet queries) := by
  induction queries generalizing fleet with
  | nil => exact h
  | cons q queries ih => exact ih (h.ask q.1 q.2)

/-! ### How far a load comes -/

section

/- Each source answers in one way all through the load. -/
variable (hsteady : ∀ i : Fin n, DataSource.Steady (statements p) (start.get i))
include hsteady

/-- Queries that are answered and can be decoded do not stop the load. -/
theorem exists_collect_append (h : Reached p start fleet) {queries : List (Fin n × Catalog)}
    (hsaid : ∀ q ∈ queries, ∃ es, Says p (start.get q.1) q.2 es) (found : Holdings)
    (rest : List (Fin n × Catalog)) :
    ∃ found', collect p found fleet (queries ++ rest) =
      collect p found' (askAll p fleet queries) rest := by
  induction queries generalizing fleet found with
  | nil => exact ⟨found, rfl⟩
  | cons q queries ih =>
    obtain ⟨i, c⟩ := q
    obtain ⟨⟨es, hes⟩, hrest⟩ := List.forall_mem_cons.mp hsaid
    have hread : reading p (fleet.get i) c = .ok es := by
      rw [h.reading_eq (hsteady i) c]
      exact reading_eq_ok_iff.mpr hes
    obtain ⟨found', hfound'⟩ := ih (h.ask i c) hrest (found.absorbAll p es)
    refine ⟨found', Eq.trans ?_ hfound'⟩
    exact collect_cons_of_ok hread found (queries ++ rest)

/-- **A load with no failure asks all its queries.** -/
theorem collect_of_says {queries : List (Fin n × Catalog)}
    (hsaid : ∀ q ∈ queries, ∃ es, Says p (start.get q.1) q.2 es) :
    ∃ found, collect p ∅ start queries = (.ok found, askAll p start queries) := by
  obtain ⟨found, hfound⟩ := exists_collect_append hsteady (reached_refl p start) hsaid ∅ []
  rw [List.append_nil] at hfound
  exact ⟨found, hfound⟩

/-- **A load with a failure asks its queries up to the first that fails**, and ends with the error
of that. -/
theorem collect_of_fails {queries after : List (Fin n × Catalog)} {i : Fin n} {c : Catalog}
    {e : Error} (hsaid : ∀ q ∈ queries, ∃ es, Says p (start.get q.1) q.2 es)
    (hfails : Fails p (start.get i) c e) :
    collect p ∅ start (queries ++ (i, c) :: after) =
      (.error e, askAll p start (queries ++ [(i, c)])) := by
  obtain ⟨found, hfound⟩ :=
    exists_collect_append hsteady (reached_refl p start) hsaid ∅ ((i, c) :: after)
  have hreached := (reached_refl p start).askAll queries
  have hread : reading p ((askAll p start queries).get i) c = .error e := by
    rw [hreached.reading_eq (hsteady i) c]
    exact reading_eq_error_iff.mpr hfails
  have hlast : askAll p start (queries ++ [(i, c)]) =
      (Plan.ask p (askAll p start queries) i c).2 :=
    List.foldl_concat _ _ _ _
  rw [hfound, hlast, collect_cons_of_error hread]

end

/-! ### The statements of one source -/

theorem putTo_append (i : Fin n) (queries rest : List (Fin n × Catalog)) :
    putTo p i (queries ++ rest) = putTo p i queries ++ putTo p i rest := by
  simp [putTo]

/-- Queries of one source are for that source. -/
theorem putTo_map_self (i : Fin n) (cs : List Catalog) :
    putTo p i (cs.map (i, ·)) = cs.map (·.statement p.render) := by
  simp [putTo, List.filter_map, Function.comp_def]

/-- Queries of one source are not for another one. -/
theorem putTo_map_of_ne {i j : Fin n} (hij : j ≠ i) (cs : List Catalog) :
    putTo p i (cs.map (j, ·)) = [] := by
  simp [putTo, List.filter_map, Function.comp_def, hij]

/-- A source that is not among some sources is not asked when they are. -/
theorem putTo_flatMap_of_notMem {sources : List (Fin n)} {i : Fin n} (hi : i ∉ sources) :
    putTo p i (sources.flatMap fun j => Catalog.all.map (j, ·)) = [] := by
  induction sources with
  | nil => rfl
  | cons j sources ih =>
    rw [List.mem_cons, not_or] at hi
    obtain ⟨hij, hi⟩ := hi
    rw [List.flatMap_cons, putTo_append, putTo_map_of_ne (Ne.symm hij), ih hi, List.append_nil]

/-- **Each of some sources is asked for every catalog**, if none of them comes twice. -/
theorem putTo_flatMap_of_mem {sources : List (Fin n)} (hnodup : sources.Nodup) {i : Fin n}
    (hi : i ∈ sources) :
    putTo p i (sources.flatMap fun j => Catalog.all.map (j, ·)) = statements p := by
  induction sources with
  | nil => cases hi
  | cons j sources ih =>
    obtain ⟨hj, hsources⟩ := List.nodup_cons.mp hnodup
    rw [List.flatMap_cons, putTo_append]
    rcases List.mem_cons.mp hi with rfl | hi
    · rw [putTo_map_self, putTo_flatMap_of_notMem hj, List.append_nil, statements]
    · have hij : j ≠ i := fun he => hj (he ▸ hi)
      rw [putTo_map_of_ne hij, List.nil_append, ih hsources hi]

/-! ### The first failure -/

/-- **The first failure of a load** is that of a source for a catalog: the sources planned before it
have something to say about every catalog, and so has the source itself about the catalogs before
that one. -/
structure FailsFirst (plan : Plan n) (fleet : Fleet σ n) (before : List (Fin n)) (i : Fin n)
    (done : List Catalog) (c : Catalog) (e : Error) : Prop where
  /-- The source is planned, after those. -/
  sources_eq : ∃ after, plan.sources = before ++ i :: after
  /-- The catalog is consulted after those. -/
  catalogs_eq : ∃ left, Catalog.all = done ++ c :: left
  /-- The sources before it have something to say about every catalog. -/
  says_before : ∀ j ∈ before, ∀ c, ∃ es, Says plan.predicate (fleet.get j) c es
  /-- The source has something to say about the catalogs before that one. -/
  says_done : ∀ c ∈ done, ∃ es, Says plan.predicate (fleet.get i) c es
  /-- The source fails for that catalog. -/
  fails : Fails plan.predicate (fleet.get i) c e

/-- **A load that fails has a first failure**, and only such a load. -/
theorem exists_failsFirst_iff {plan : Plan n} {fleet : Fleet σ n} :
    (∃ before i done c e, plan.FailsFirst fleet before i done c e) ↔
      ¬∀ i ∈ plan.sources, ∀ c, ∃ es, Says plan.predicate (fleet.get i) c es := by
  constructor
  · rintro ⟨before, i, done, c, e, h⟩ hall
    obtain ⟨after, hsources⟩ := h.sources_eq
    exact exists_fails_iff.mp ⟨e, h.fails⟩ (hall i (by simp [hsources]) c)
  · intro h
    obtain ⟨before, i, after, hsources, hbefore, hi⟩ := List.exists_first_of_not_forall h
    have hall : ¬∀ c ∈ Catalog.all, ∃ es, Says plan.predicate (fleet.get i) c es :=
      fun hall => hi fun c => hall c (Catalog.mem_all c)
    obtain ⟨done, c, left, hcatalogs, hdone, hc⟩ := List.exists_first_of_not_forall hall
    obtain ⟨e, he⟩ := exists_fails_iff.mpr hc
    exact ⟨before, i, done, c, e, ⟨after, hsources⟩, ⟨left, hcatalogs⟩, hbefore, hdone, he⟩

/-! ### Whole loads -/

section

variable {plan : Plan n} {fleet : Fleet Source n}

/-- What the statements of some queries leave of a source in memory. -/
theorem get_askAll_source (queries : List (Fin n × Catalog)) (i : Fin n) :
    (askAll p fleet queries).get i = (fleet.get i).record (putTo p i queries) := by
  rw [get_askAll, Source.after_eq]
  rfl

/-- **A load with no failure** asks every planned source for every catalog. -/
theorem load_of_says (hnodup : plan.sources.Nodup) (hsources : plan.sources ≠ [])
    (hgrantees : plan.predicate.grantees ≠ [])
    (hsaid : ∀ i ∈ plan.sources, ∀ c, ∃ es, Says plan.predicate (fleet.get i) c es) :
    (∃ found, (plan.load fleet).1 = .ok found) ∧
    (∀ i ∈ plan.sources,
      (plan.load fleet).2.get i = (fleet.get i).record (statements plan.predicate)) ∧
    ∀ i ∉ plan.sources, (plan.load fleet).2.get i = fleet.get i := by
  obtain ⟨found, hfound⟩ := collect_of_says (fun i => Source.steady (fleet.get i) _)
    fun q hq => hsaid q.1 (mem_queries.mp hq) q.2
  rw [load_eq_collect hsources hgrantees, hfound]
  refine ⟨⟨found, rfl⟩, fun i hi => ?_, fun i hi => ?_⟩
  · rw [get_askAll_source, queries, putTo_flatMap_of_mem hnodup hi]
  · rw [get_askAll_source, queries, putTo_flatMap_of_notMem hi, Source.record_nil]

section

variable {before : List (Fin n)} {i : Fin n} {done : List Catalog} {c : Catalog} {e : Error}

/-- The queries up to the first failure stand in front of all others, and all but the last of them
are answered and can be decoded. -/
theorem FailsFirst.queries_eq (h : plan.FailsFirst fleet before i done c e) :
    let asked := before.flatMap (fun j => Catalog.all.map (j, ·)) ++ done.map (i, ·)
    (∃ rest, plan.queries = asked ++ (i, c) :: rest) ∧
      ∀ q ∈ asked, ∃ es, Says plan.predicate (fleet.get q.1) q.2 es := by
  obtain ⟨⟨after, hsources⟩, ⟨left, hcatalogs⟩, hbefore, hdone, -⟩ := h
  constructor
  · refine ⟨left.map (i, ·) ++ after.flatMap fun j => Catalog.all.map (j, ·), ?_⟩
    rw [queries, hsources, List.flatMap_append, List.flatMap_cons, hcatalogs]
    simp
  · intro q hq
    rcases List.mem_append.mp hq with hq | hq
    · obtain ⟨j, hj, hq⟩ := List.mem_flatMap.mp hq
      obtain ⟨c', -, rfl⟩ := List.mem_map.mp hq
      exact hbefore j hj c'
    · obtain ⟨c', hc', rfl⟩ := List.mem_map.mp hq
      exact hdone c' hc'

/-- **A load with a failure** ends with the error of the first, and asks nothing after it. -/
theorem load_of_failsFirst (hnodup : plan.sources.Nodup) (hgrantees : plan.predicate.grantees ≠ [])
    (h : plan.FailsFirst fleet before i done c e) :
    (plan.load fleet).1 = .error e ∧
    (∀ j ∈ before,
      (plan.load fleet).2.get j = (fleet.get j).record (statements plan.predicate)) ∧
    (plan.load fleet).2.get i =
      (fleet.get i).record ((done ++ [c]).map (·.statement plan.predicate.render)) ∧
    ∀ j, j ∉ before → j ≠ i → (plan.load fleet).2.get j = fleet.get j := by
  obtain ⟨⟨rest, hqueries⟩, hsaid⟩ := h.queries_eq
  obtain ⟨after, hsources⟩ := h.sources_eq
  have hload : plan.load fleet = collect plan.predicate ∅ fleet plan.queries :=
    load_eq_collect (by simp [hsources]) hgrantees
  have hdistinct : before.Nodup ∧ i ∉ before := by
    rw [hsources] at hnodup
    obtain ⟨hbefore, -, hapart⟩ := List.nodup_append.mp hnodup
    exact ⟨hbefore, fun hi => hapart i hi i List.mem_cons_self rfl⟩
  -- The query that fails is one more of its source.
  have hlast : [(i, c)] = [c].map (i, ·) := rfl
  rw [hload, hqueries, collect_of_fails (fun j => Source.steady (fleet.get j) _) hsaid h.fails,
    List.append_assoc, hlast, ← List.map_append]
  refine ⟨rfl, fun j hj => ?_, ?_, fun j hj hij => ?_⟩
  · have hij : i ≠ j := fun he => hdistinct.2 (he ▸ hj)
    rw [get_askAll_source, putTo_append, putTo_flatMap_of_mem hdistinct.1 hj, putTo_map_of_ne hij,
      List.append_nil]
  · rw [get_askAll_source, putTo_append, putTo_flatMap_of_notMem hdistinct.2, putTo_map_self,
      List.nil_append]
  · rw [get_askAll_source, putTo_append, putTo_flatMap_of_notMem hj,
      putTo_map_of_ne (Ne.symm hij), List.nil_append, Source.record_nil]

end

end

/-- **What a load asks.** Without users or without sources a load asks nothing. If no query of the
load fails, every planned source is asked for the three catalogs, in order, and no other source is
asked anything. Otherwise the load ends with the error of the first failure. The sources planned
before it were then asked for the three catalogs, the source that failed for the catalogs up to the
one it failed for, and no other source was asked anything. -/
theorem load_asks (fleet : Fleet Source n) (dbs : Databases n) (users : List User) :
    let plan := build fleet dbs users
    (users = [] ∨ positions dbs = [] → (plan.load fleet).2 = fleet) ∧
    (users ≠ [] → positions dbs ≠ [] →
      ((¬∃ before i done c e, plan.FailsFirst fleet before i done c e) →
        (∀ i ∈ plan.sources, ∀ c, ∃ es, Says plan.predicate (fleet.get i) c es) ∧
        (∃ found, (plan.load fleet).1 = .ok found) ∧
        (∀ i ∈ plan.sources,
          (plan.load fleet).2.get i = (fleet.get i).record (statements plan.predicate)) ∧
        ∀ i ∉ plan.sources, (plan.load fleet).2.get i = fleet.get i) ∧
      ∀ before i done c e, plan.FailsFirst fleet before i done c e →
        (plan.load fleet).1 = .error e ∧
        (∀ j ∈ before,
          (plan.load fleet).2.get j = (fleet.get j).record (statements plan.predicate)) ∧
        (plan.load fleet).2.get i =
          (fleet.get i).record ((done ++ [c]).map (·.statement plan.predicate.render)) ∧
        ∀ j, j ∉ before → j ≠ i → (plan.load fleet).2.get j = fleet.get j) := by
  intro plan
  have hnodup : plan.sources.Nodup := nodup_firstsBy _
  have hsources : plan.sources = [] ↔ positions dbs = [] := firstsBy_eq_nil_iff
  have hgrantees : plan.predicate.grantees = [] ↔ users = [] :=
    firstsBy_eq_nil_iff.trans List.map_eq_nil_iff
  refine ⟨fun hnone => ?_, fun husers hpositions => ⟨fun hno => ?_, fun before i done c e h => ?_⟩⟩
  · by_cases hsome : plan.sources = []
    · rw [load_of_sources_eq_nil hsome]
    · have husers : users = [] := hnone.resolve_right fun h => hsome (hsources.mpr h)
      rw [load_of_grantees_eq_nil hsome (hgrantees.mpr husers)]
  · have hall : ∀ i ∈ plan.sources, ∀ c, ∃ es, Says plan.predicate (fleet.get i) c es :=
      not_not.mp fun h => hno (exists_failsFirst_iff.mpr h)
    exact ⟨hall, load_of_says hnodup (mt hsources.mp hpositions) (mt hgrantees.mp husers) hall⟩
  · exact load_of_failsFirst hnodup (mt hgrantees.mp husers) h

/-! Four sources of three instances, two of which are out of order, each in a way of its own. -/

/-- An instance of the north: its tables are empty. -/
def north : Source := ⟨"north:3306", ∅, false, []⟩

/-- An instance of the south: a row on schemas names no user. -/
def south : Source :=
  ⟨"south:3306", .ofList [("mysql.db", ResultSet.ofRows ["User"] [[.null]])], false, ["SELECT 1"]⟩

/-- An instance of the west: it is down. -/
def west : Source := ⟨"west:3306", ∅, true, []⟩

/-- The instance of the north stands at two positions. -/
def regions : Fleet Source 4 := #v[north, south, north, west]

/-- A database behind which all of them are. -/
def allRegions : Databases 4 := .ofList [("regions", Database.mk "regions" (List.finRange 4))]

/-- A database behind which there is the north alone. -/
def northRegion : Databases 4 :=
  .ofList [("north", Database.mk "north" ((List.finRange 4).take 1))]

/-- The user whose rows are asked for. -/
def annUsers : List User := [⟨ann, ""⟩]

/-- Her rows. -/
def annRows : Predicate := ⟨[ann]⟩

theorem build_allRegions : build regions allRegions annUsers = ⟨[0, 1, 3], annRows⟩ := by
  decide +kernel

theorem build_northRegion : build regions northRegion annUsers = ⟨[0], annRows⟩ := by
  decide +kernel

/-- What is held on the south cannot be read: the load ends there, and the west is never asked.
The north is asked at one of its positions only. Behind the north alone nothing fails. -/
theorem load_asks_regions :
    let load := (build regions allRegions annUsers).load regions
    let loadNorth := (build regions northRegion annUsers).load regions
    annUsers ≠ [] ∧
    (positions allRegions ≠ [] ∧ load.1 = .error (.decode .schema ⟨"user", .notText .null⟩) ∧
      load.2.get 0 = north.record (statements annRows) ∧
      load.2.get 1 = south.record
        [Catalog.server.statement annRows.render, Catalog.schema.statement annRows.render] ∧
      load.2.get 2 = north ∧ load.2.get 3 = west) ∧
    positions northRegion ≠ [] ∧ (∃ found, loadNorth.1 = .ok found) ∧
      loadNorth.2.get 0 = north.record (statements annRows) ∧ loadNorth.2.get 1 = south := by
  have husers : annUsers ≠ [] := by decide
  have hnorth (c : Catalog) : ∃ es, Says annRows north c es := by
    refine ⟨[], .empty, ?_⟩
    cases c <;> decide +kernel
  have hregions : positions allRegions ≠ [] := by decide +kernel
  have hregion : positions northRegion ≠ [] := by decide +kernel
  refine ⟨husers, ⟨hregions, ?_⟩, hregion, ?_⟩
  · obtain ⟨-, hload⟩ := load_asks regions allRegions annUsers
    obtain ⟨-, hfails⟩ := hload husers hregions
    rw [build_allRegions] at hfails ⊢
    have hserver : ∃ es, Says annRows south .server es := ⟨[], .empty, by decide +kernel⟩
    have hfirst : FailsFirst ⟨[0, 1, 3], annRows⟩ regions [0] 1 [.server] .schema
        (.decode .schema ⟨"user", .notText .null⟩) := by
      refine ⟨⟨[3], rfl⟩, ⟨[.table], rfl⟩, ?_, ?_, ?_⟩
      · intro j hj
        obtain rfl := List.mem_singleton.mp hj
        exact hnorth
      · intro c hc
        obtain rfl := List.mem_singleton.mp hc
        exact hserver
      · exact reading_eq_error_iff.mp (by decide +kernel)
    obtain ⟨herror, hbefore, hlast, hother⟩ := hfails _ _ _ _ _ hfirst
    exact ⟨herror, hbefore 0 List.mem_cons_self, hlast, hother 2 (by decide) (by decide),
      hother 3 (by decide) (by decide)⟩
  · obtain ⟨-, hload⟩ := load_asks regions northRegion annUsers
    obtain ⟨hclear, -⟩ := hload husers hregion
    rw [build_northRegion] at hclear ⊢
    have hall : ∀ i ∈ [0], ∀ c, ∃ es, Says annRows (regions.get i) c es := by
      intro i hi
      obtain rfl := List.mem_singleton.mp hi
      exact hnorth
    obtain ⟨-, hok, hplanned, hother⟩ := hclear fun h => exists_failsFirst_iff.mp h hall
    exact ⟨hok, hplanned 0 List.mem_cons_self, hother 1 (by decide)⟩

end Plan

end GrantCatalog
