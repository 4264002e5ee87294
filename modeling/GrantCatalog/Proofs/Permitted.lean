import GrantCatalog.Proofs.Access
import GrantCatalog.Proofs.Order
import GrantCatalog.Proofs.Session

/-!
# Sessions in which everything is permitted

An all-permitted provider has no questions. A load of it succeeds whatever the sources would have
answered, executes nothing on them, and puts the users it is for in the place of all that was known
before. So what is served after a run depends on the **users of the last load** alone: each of them
may do everything, and nobody else is known (`GrantCatalog.Session.run_allPermitted`).

One load is accounted for by `GrantCatalog.Provider.serve_allPermitted`, for sources of any kind.
Between the last load and the end of a run the provider is left alone
(`GrantCatalog.Session.provider_run_of_no_load`); in the whole run the sources change only where
they fail or recover (`GrantCatalog.Session.exists_get_fleet_run`).
-/

namespace GrantCatalog

/-! ### Everything -/

namespace Grants

/-- Everything is held on the server. -/
theorem mem_own_everything (p : Privilege) : p ∈ everything.own .server :=
  mem_own_addAll.mpr (.inl ⟨rfl, p.mem_all⟩)

/-- **Who holds everything** is permitted everything, on every scope. -/
theorem permits_everything (scope : Scope) (required : List Privilege) :
    everything.permits scope required = true := by
  have hserver : Scope.server ∈ scope.enclosing := by
    cases scope <;> exact List.mem_cons_self
  exact permits_iff.mpr fun p _ => ⟨.server, hserver, mem_own_everything p⟩

/-- Who holds everything can access every schema. -/
theorem canAccess_everything (schema : String) : everything.canAccess schema = true :=
  canAccess_iff.mpr ⟨.super, "", permits_everything _ _⟩

end Grants

/-! ### One load -/

namespace Provider

/-- **Just the users are known**, and hold everything. -/
theorem getElem?_permitAll (users : List User) (g : Grantee) :
    (permitAll users)[g]? =
      if ∃ u ∈ users, u.grantee = g then some Grants.everything else none := by
  have hmap : permitAll users =
      .ofList ((users.map User.grantee).map (·, Grants.everything)) := by
    rw [permitAll, List.map_map]
    rfl
  rw [hmap, getElem?_ofList_map_const]
  simp only [List.mem_map]

/-- **A load that permits everything** succeeds and leaves the sources as they are, of whatever kind
they may be. -/
theorem serve_allPermitted {σ : Type} [DataSource σ] {n : Nat} {p : Provider}
    (hkind : p.kind = .allPermitted) (request : Request) (fleet : Fleet σ n) (dbs : Databases n)
    (users : List User) : p.serve request fleet dbs users =
      (.ok (), ⟨.allPermitted, p.snapshot.next (permitAll users)⟩, fleet) := by
  rcases p with ⟨kind, snapshot⟩
  obtain rfl : kind = .allPermitted := hkind
  cases request <;> rfl

end Provider

/-! ### Runs -/

namespace Session

variable {n : Nat} {s : Session n}

/-- An event that is a request to load. -/
def Event.isLoad : Event n → Bool
  | .load _ _ _ => true
  | _ => false

/-- Without a load the provider stays as it is. -/
theorem provider_run_of_no_load {events : List (Event n)}
    (h : ∀ e ∈ events, e.isLoad = false) : (s.run events).provider = s.provider := by
  refine run_induction (P := fun t => t.provider = s.provider) rfl ?_
  intro e he t ht
  cases e with
  | load request dbs users => cases h _ he
  | find g label => exact ht
  | snapshot label => exact ht
  | failing i failing => exact ht

theorem load_allPermitted (hkind : s.provider.kind = .allPermitted) (request : Request)
    (dbs : Databases n) (users : List User) :
    s.load dbs users request = (.ok (), ⟨⟨.allPermitted,
      s.provider.snapshot.next (Provider.permitAll users)⟩, s.fleet, s.grants, s.snapshots⟩) := by
  rw [load, Provider.serve_allPermitted hkind]

/-- **No event** makes another provider of one that permits everything. -/
theorem kind_after (hkind : s.provider.kind = .allPermitted) (e : Event n) :
    (s.after e).provider.kind = .allPermitted := by
  cases e with
  | load request dbs users => rw [after, load_allPermitted hkind]
  | find g label => exact hkind
  | snapshot label => exact hkind
  | failing i failing => exact hkind

theorem kind_run (hkind : s.provider.kind = .allPermitted) (events : List (Event n)) :
    (s.run events).provider.kind = .allPermitted :=
  run_induction (P := fun t => t.provider.kind = .allPermitted) hkind
    fun e _ _ ht => kind_after ht e

/-- **An event changes a source** at most by putting it out of order, or back in order. -/
theorem exists_get_fleet_after (hkind : s.provider.kind = .allPermitted) (e : Event n) (i : Fin n) :
    ∃ failing, (s.after e).fleet.get i = (s.fleet.get i).withFailing failing := by
  cases e with
  | load request dbs users =>
    rw [after, load_allPermitted hkind]
    exact ⟨_, rfl⟩
  | find g label => exact ⟨_, rfl⟩
  | snapshot label => exact ⟨_, rfl⟩
  | failing j failing =>
    by_cases hij : j = i
    · subst hij
      exact ⟨failing, Vector.getElem_set_self j.isLt⟩
    · refine ⟨(s.fleet.get i).failing, ?_⟩
      exact Vector.getElem_set_ne j.isLt i.isLt fun h => hij (Fin.ext h)

/-- **A run changes a source** at most so. -/
theorem exists_get_fleet_run (hkind : s.provider.kind = .allPermitted) (events : List (Event n))
    (i : Fin n) : ∃ failing, (s.run events).fleet.get i = (s.fleet.get i).withFailing failing := by
  have hrun : (s.run events).provider.kind = .allPermitted ∧
      ∃ failing, (s.run events).fleet.get i = (s.fleet.get i).withFailing failing := by
    refine run_induction (P := fun t => t.provider.kind = .allPermitted ∧
      ∃ failing, t.fleet.get i = (s.fleet.get i).withFailing failing) ⟨hkind, _, rfl⟩ ?_
    rintro e - t ⟨ht, now, hnow⟩
    obtain ⟨later, hlater⟩ := exists_get_fleet_after ht e i
    rw [hnow] at hlater
    exact ⟨kind_after ht e, later, hlater⟩
  exact hrun.2

/-- **What is served after the last load**: its users may do everything. -/
theorem find?_run_of_last_load (hkind : s.provider.kind = .allPermitted) (before : List (Event n))
    (request : Request) (dbs : Databases n) (users : List User) {later : List (Event n)}
    (hlater : ∀ e ∈ later, e.isLoad = false) (g : Grantee) :
    (s.run (before ++ .load request dbs users :: later)).provider.find? g =
      if ∃ u ∈ users, u.grantee = g then some Grants.everything else none := by
  have hrun : s.run (before ++ .load request dbs users :: later) =
      ((s.run before).load dbs users request).2.run later := run_append s before _
  rw [hrun, Provider.find?, provider_run_of_no_load hlater,
    load_allPermitted (kind_run hkind before)]
  exact Provider.getElem?_permitAll users g

/-- **What a session with an all-permitted provider serves after a run**, whatever happened in it.
Every load succeeds and executes nothing, over sources of any kind, and the sources of the session
are as they were but for failures. After a load the known grantees are its users, all of them
permitted everything; whoever else was known before is not any more. Before the first load nobody is
known. An answer or a snapshot that is kept is what it was when it was taken. -/
theorem run_allPermitted (fleet : Fleet Source n) (events : List (Event n)) :
    let s := (start .allPermitted fleet).run events
    (∀ request dbs users, (s.load dbs users request).1 = .ok () ∧
        (s.load dbs users request).2.fleet = s.fleet) ∧
      (∀ {σ : Type} [DataSource σ] {m : Nat} (others : Fleet σ m) request dbs users,
        (s.provider.serve request others dbs users).1 = .ok () ∧
          (s.provider.serve request others dbs users).2.2 = others) ∧
      (∀ i, (s.fleet.get i).executed = (fleet.get i).executed ∧
        ∃ failing, s.fleet.get i = (fleet.get i).withFailing failing) ∧
      (∀ before request dbs users later, events = before ++ .load request dbs users :: later →
        (∀ e ∈ later, e.isLoad = false) → ∀ g,
          ((∃ held, s.provider.find? g = some held) ↔ ∃ u ∈ users, u.grantee = g) ∧
          ∀ held, s.provider.find? g = some held →
            (∀ scope required, held.permits scope required = true) ∧
              ∀ schema, held.canAccess schema = true) ∧
      ((∀ e ∈ events, e.isLoad = false) → ∀ g, s.provider.find? g = none) ∧
      (∀ before g label later, events = before ++ .find g label :: later →
        (∀ g', .find g' label ∉ later) →
          s.keptGrants label = ((start .allPermitted fleet).run before).provider.find? g) ∧
      ∀ before label later, events = before ++ .snapshot label :: later →
        .snapshot label ∉ later →
          s.keptSnapshot label =
            some ((start .allPermitted fleet).run before).provider.snapshot := by
  intro s
  have hkind : s.provider.kind = .allPermitted := kind_run rfl events
  refine ⟨fun request dbs users => ?_, fun others request dbs users => ?_, fun i => ?_, ?_,
    fun hnone g => ?_, ?_, ?_⟩
  · rw [load_allPermitted hkind]
    exact ⟨rfl, rfl⟩
  · rw [Provider.serve_allPermitted hkind]
    exact ⟨rfl, rfl⟩
  · obtain ⟨failing, hget⟩ := exists_get_fleet_run (s := start .allPermitted fleet) rfl events i
    refine ⟨?_, failing, hget⟩
    rw [hget]
    rfl
  · rintro before request dbs users later rfl hlater g
    have hfind : s.provider.find? g = _ :=
      find?_run_of_last_load rfl before request dbs users hlater g
    rw [hfind]
    by_cases hg : ∃ u ∈ users, u.grantee = g
    · rw [if_pos hg]
      refine ⟨iff_of_true ⟨_, rfl⟩ hg, fun held hheld => ?_⟩
      obtain rfl := Option.some.inj hheld
      exact ⟨Grants.permits_everything, Grants.canAccess_everything⟩
    · rw [if_neg hg]
      refine ⟨iff_of_false ?_ hg, fun held hheld => by cases hheld⟩
      rintro ⟨held, hheld⟩
      cases hheld
  · have hprovider : s.provider = .new .allPermitted := provider_run_of_no_load hnone
    rw [hprovider]
    rfl
  · rintro before g label later rfl hlater
    exact keptGrants_of_find _ before later g hlater
  · rintro before label later rfl hlater
    exact keptSnapshot_of_snapshot _ before later hlater

/-- Another configured user. -/
def carol : User := ⟨⟨"carol", "%"⟩, ""⟩

/-- What happens as long as `bob`, who is configured twice, is known, and just before. -/
def bobServed : List (Event 1) :=
  [.find bob.grantee "early", .load .setUp brokenShop [bob, bob], .find bob.grantee "late"]

/-- What happens after the last load. -/
def carolServed : List (Event 1) := [.find carol.grantee "other"]

/-- A run in which `carol` takes the place of `bob`. -/
def handover : List (Event 1) := bobServed ++ .load .refresh brokenShop [carol] :: carolServed

/-- It does not matter that the instance is out of order. At the end `bob` is not known any more,
but the answer about him that was kept is not lost. -/
theorem run_allPermitted_handover :
    let s := (start .allPermitted #v[broken]).run handover
    (∀ e ∈ carolServed, e.isLoad = false) ∧ s.provider.find? bob.grantee = none ∧
      (∃ held, s.provider.find? carol.grantee = some held ∧
        held.permits (.table "shop" "orders") Privilege.all = true) ∧
      (∀ i, (s.fleet.get i).executed = (#v[broken].get i).executed) ∧
      (∀ e ∈ bobServed.take 1, e.isLoad = false) ∧
      ((start .allPermitted #v[broken]).run (bobServed.take 1)).provider.find? bob.grantee = none ∧
      (∀ g, .find g "late" ∉ handover.drop 3) ∧ s.keptGrants "late" = some .everything := by
  intro s
  have hlater : ∀ e ∈ carolServed, e.isLoad = false := by
    simp [carolServed, Event.isLoad]
  have hearly : ∀ e ∈ bobServed.take 1, e.isLoad = false := by
    simp [bobServed, Event.isLoad]
  have hkept : ∀ g, .find g "late" ∉ handover.drop 3 := by
    simp [handover, bobServed, carolServed]
  obtain ⟨-, -, hsources, hserved, -, hgrants, -⟩ := run_allPermitted #v[broken] handover
  obtain ⟨-, -, -, -, hnobody, -⟩ := run_allPermitted #v[broken] (bobServed.take 1)
  have hbob : ((start .allPermitted #v[broken]).run (bobServed.take 2)).provider.find? bob.grantee =
      some .everything :=
    (find?_run_of_last_load (s := start .allPermitted #v[broken]) rfl (bobServed.take 1) .setUp
      brokenShop [bob, bob] (List.forall_mem_nil _) bob.grantee).trans
        (if_pos ⟨bob, List.mem_cons_self, rfl⟩)
  have hserved := hserved bobServed .refresh brokenShop [carol] carolServed rfl hlater
  obtain ⟨held, hheld⟩ := (hserved carol.grantee).1.mpr ⟨carol, by simp, rfl⟩
  refine ⟨hlater, ?_, ⟨held, hheld, ((hserved carol.grantee).2 held hheld).1 _ _⟩,
    fun i => (hsources i).1, hearly, hnobody hearly _, hkept, ?_⟩
  · rw [Option.eq_none_iff_forall_ne_some]
    intro held hheld
    obtain ⟨u, hu, hne⟩ := (hserved bob.grantee).1.mp ⟨held, hheld⟩
    obtain rfl := List.mem_singleton.mp hu
    exact absurd hne (by decide)
  · exact (hgrants (bobServed.take 2) bob.grantee "late" _ rfl hkept).trans hbob

end Session

end GrantCatalog
