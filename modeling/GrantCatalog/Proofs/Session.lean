import GrantCatalog.Provider.Session
import Mathlib.Tactic.Common

/-!
# What a session serves

Loads succeed and fail in any order, over sources that fail and recover in between. What is served
at the end depends on little of this: on the loads that **succeeded**, and of those on their number
and on the last one.

* `GrantCatalog.Session.found` – what the successful loads of a run found. It is read off the
  loader alone: the provider, the counter and what is kept do not occur in it.
* `GrantCatalog.Session.Serves` – the invariant. It ties the counter and the entries to that list,
  event by event (`GrantCatalog.Session.Serves.after`) and so for a run
  (`GrantCatalog.Session.Serves.run`).
* What outlives each event outlives a run (`GrantCatalog.Session.run_induction`). So what is kept is
  a value that no event but another of its label touches (`GrantCatalog.Session.keptGrants_run`,
  `GrantCatalog.Session.keptSnapshot_run`).
* Lookups leave nothing behind outside of what is kept: a run reaches the same provider and the
  same sources without them (`GrantCatalog.Session.Alike.run_others`).
-/

namespace GrantCatalog

namespace Session

variable {n : Nat} {s t : Session n} {dbs : Databases n} {users : List User}

/-! ### One load -/

/-- What the loader finds in a session for some users, or why it fails. -/
def loaded (s : Session n) (dbs : Databases n) (users : List User) : Except Error Holdings :=
  ((Plan.build s.fleet dbs users).load s.fleet).1

theorem load_eq (request : Request) (dbs : Databases n) (users : List User)
    (hkind : s.provider.kind = .native) :
    (s.load dbs users request).1 = (s.provider.publish (s.loaded dbs users)).1 ∧
      (s.load dbs users request).2.provider = (s.provider.publish (s.loaded dbs users)).2 := by
  rcases s with ⟨⟨kind, snapshot⟩, fleet, grants, snapshots⟩
  obtain rfl : kind = .native := hkind
  cases request <;> exact ⟨rfl, rfl⟩

/-- **A load that succeeds** publishes what the loader found. -/
theorem load_of_ok (request : Request) (hkind : s.provider.kind = .native) {holdings : Holdings}
    (h : s.loaded dbs users = .ok holdings) :
    (s.load dbs users request).1 = .ok () ∧
      (s.load dbs users request).2.provider = ⟨.native, s.provider.snapshot.next holdings⟩ := by
  obtain ⟨houtcome, hprovider⟩ := load_eq request dbs users hkind
  rw [houtcome, hprovider, h, ← hkind]
  exact ⟨rfl, rfl⟩

/-- **A load that fails** says why the loader failed, and leaves the provider as it was. -/
theorem load_of_error (request : Request) (hkind : s.provider.kind = .native) {e : Error}
    (h : s.loaded dbs users = .error e) :
    (s.load dbs users request).1 = .error e ∧
      (s.load dbs users request).2.provider = s.provider := by
  obtain ⟨houtcome, hprovider⟩ := load_eq request dbs users hkind
  rw [houtcome, hprovider, h]
  exact ⟨rfl, rfl⟩

/-! ### The invariant -/

/-- What the loader finds at an event; nothing if it fails or is not asked. -/
def finds (s : Session n) : Event n → Option Holdings
  | .load _ dbs users => (s.loaded dbs users).toOption
  | _ => none

theorem provider_after_of_some (hkind : s.provider.kind = .native) {e : Event n}
    {holdings : Holdings} (h : s.finds e = some holdings) :
    (s.after e).provider = ⟨.native, s.provider.snapshot.next holdings⟩ := by
  cases e with
  | load request dbs users =>
    cases hload : s.loaded dbs users with
    | ok holdings' =>
      rw [finds, hload] at h
      obtain rfl := Option.some.inj h
      exact (load_of_ok request hkind hload).2
    | error fault =>
      rw [finds, hload] at h
      cases h
  | find g label => cases h
  | snapshot label => cases h
  | failing i failing => cases h

theorem provider_after_of_none (hkind : s.provider.kind = .native) {e : Event n}
    (h : s.finds e = none) : (s.after e).provider = s.provider := by
  cases e with
  | load request dbs users =>
    cases hload : s.loaded dbs users with
    | ok holdings =>
      rw [finds, hload] at h
      cases h
    | error fault => exact (load_of_error request hkind hload).2
  | find g label => rfl
  | snapshot label => rfl
  | failing i failing => rfl

/-- **What the successful loads of a run found**, oldest first. -/
def found (s : Session n) : List (Event n) → List Holdings
  | [] => []
  | e :: events => (s.finds e).toList ++ found (s.after e) events

/-- **A session serves the last of some holdings**, and has counted all of them. -/
structure Serves (s : Session n) (found : List Holdings) : Prop where
  /-- The provider asks the catalogs. -/
  kind_eq : s.provider.kind = .native
  /-- The counter counts the holdings, in the bits it has. -/
  number_eq : s.provider.snapshot.number = .ofNat found.length
  /-- The entries are the last holdings, or none. -/
  entries_eq : s.provider.snapshot.entries = found.getLast?.getD ∅

theorem serves_start (fleet : Fleet Source n) : (start .native fleet).Serves [] where
  kind_eq := rfl
  number_eq := rfl
  entries_eq := rfl

variable {before : List Holdings}

theorem Serves.of_provider_eq (h : s.Serves before) (ht : t.provider = s.provider) :
    t.Serves before where
  kind_eq := ht ▸ h.kind_eq
  number_eq := ht ▸ h.number_eq
  entries_eq := ht ▸ h.entries_eq

/-- **One event** keeps the invariant: only a load that succeeds changes the provider. -/
theorem Serves.after (h : s.Serves before) (e : Event n) :
    (s.after e).Serves (before ++ (s.finds e).toList) := by
  cases hfinds : s.finds e with
  | none =>
    rw [Option.toList_none, List.append_nil]
    exact h.of_provider_eq (provider_after_of_none h.kind_eq hfinds)
  | some holdings =>
    have hprovider := provider_after_of_some h.kind_eq hfinds
    rw [Option.toList_some]
    constructor
    · rw [hprovider]
    · rw [hprovider, List.length_append, UInt64.ofNat_add, ← h.number_eq]
      rfl
    · rw [hprovider, List.getLast?_concat]
      rfl

/-- **A run** keeps the invariant. -/
theorem Serves.run (h : s.Serves before) (events : List (Event n)) :
    (s.run events).Serves (before ++ s.found events) := by
  -- What was found before grows with each event, so it cannot be fixed in the induction.
  induction events generalizing s before with
  | nil =>
    rw [found, List.append_nil]
    exact h
  | cons e events ih =>
    have hnext := ih (h.after e)
    rw [List.append_assoc] at hnext
    exact hnext

theorem length_found_le (s : Session n) (events : List (Event n)) :
    (s.found events).length ≤ events.length := by
  induction events generalizing s with
  | nil => exact Nat.le_refl 0
  | cons e events ih =>
    have hrest := ih (s.after e)
    have hone : (s.finds e).toList.length ≤ 1 := by
      cases s.finds e <;> simp
    rw [found, List.length_append, List.length_cons]
    omega

/-- The counter counts the loads up to the size of a machine word. -/
theorem Serves.generation_eq (h : s.Serves before) :
    s.provider.snapshot.generation = before.length % UInt64.size := by
  rw [Snapshot.generation, h.number_eq, UInt64.toNat_ofNat']

theorem Serves.find?_eq (h : s.Serves before) (g : Grantee) :
    s.provider.find? g = (before.getLast?.getD ∅)[g]? := by
  rw [Provider.find?, Snapshot.find?, h.entries_eq]

/-! ### What is kept -/

theorem run_append (s : Session n) (events later : List (Event n)) :
    s.run (events ++ later) = (s.run events).run later := List.foldl_append

/-- **What holds at the start of a run and outlives each of its events** holds at the end. -/
theorem run_induction {P : Session n → Prop} {events : List (Event n)} (hs : P s)
    (hafter : ∀ e ∈ events, ∀ t, P t → P (t.after e)) : P (s.run events) := by
  induction events generalizing s with
  | nil => exact hs
  | cons e events ih =>
    obtain ⟨he, hrest⟩ := List.forall_mem_cons.mp hafter
    exact ih (he s hs) hrest

/-- Only another lookup under its label touches an answer that is kept. -/
theorem keptGrants_run {label : String} {events : List (Event n)}
    (h : ∀ g, .find g label ∉ events) : (s.run events).keptGrants label = s.keptGrants label := by
  refine run_induction (P := fun t => t.keptGrants label = s.keptGrants label) rfl ?_
  intro e he t ht
  refine Eq.trans ?_ ht
  cases e with
  | find g label' =>
    have hne : label' ≠ label := by
      rintro rfl
      exact h g he
    simp [Session.after, keepGrants, keptGrants, Std.ExtTreeMap.getElem?_insert, hne]
  | load request dbs users => rfl
  | snapshot label' => rfl
  | failing i failing => rfl

/-- Only another snapshot under its label touches a snapshot that is kept. -/
theorem keptSnapshot_run {label : String} {events : List (Event n)}
    (h : .snapshot label ∉ events) : (s.run events).keptSnapshot label = s.keptSnapshot label := by
  refine run_induction (P := fun t => t.keptSnapshot label = s.keptSnapshot label) rfl ?_
  intro e he t ht
  refine Eq.trans ?_ ht
  cases e with
  | snapshot label' =>
    have hne : label' ≠ label := by
      rintro rfl
      exact h he
    simp [Session.after, keepSnapshot, keptSnapshot, Std.ExtTreeMap.getElem?_insert, hne]
  | load request dbs users => rfl
  | find g label' => rfl
  | failing i failing => rfl

/-- An answer is kept as it was given, until another one takes its label. -/
theorem keptGrants_of_find (s : Session n) (events later : List (Event n)) (g : Grantee)
    {label : String} (hlater : ∀ g', .find g' label ∉ later) :
    (s.run (events ++ .find g label :: later)).keptGrants label =
      (s.run events).provider.find? g := by
  have hrun : s.run (events ++ .find g label :: later) =
      ((s.run events).keepGrants g label).run later := run_append s events _
  rw [hrun, keptGrants_run hlater]
  simp [keepGrants, keptGrants]

/-- A snapshot is kept as it was served, until another one takes its label. -/
theorem keptSnapshot_of_snapshot (s : Session n) (events later : List (Event n)) {label : String}
    (hlater : .snapshot label ∉ later) :
    (s.run (events ++ .snapshot label :: later)).keptSnapshot label =
      some (s.run events).provider.snapshot := by
  have hrun : s.run (events ++ .snapshot label :: later) =
      ((s.run events).keepSnapshot label).run later := run_append s events _
  rw [hrun, keptSnapshot_run hlater]
  simp [keepSnapshot, keptSnapshot]

/-! ### Lookups -/

/-- An event that only looks at what is served. -/
def Event.isLookup : Event n → Bool
  | .find _ _ => true
  | .snapshot _ => true
  | _ => false

/-- Two sessions with the same provider and the same sources, which may have kept different
things. -/
def Alike (s t : Session n) : Prop := s.provider = t.provider ∧ s.fleet = t.fleet

theorem alike_after_of_isLookup {e : Event n} (he : e.isLookup = true) :
    (s.after e).Alike s := by
  cases e with
  | find g label => exact ⟨rfl, rfl⟩
  | snapshot label => exact ⟨rfl, rfl⟩
  | load request dbs users => cases he
  | failing i failing => cases he

/-- What an event does to the provider and to the sources depends on these only. -/
theorem Alike.after (h : s.Alike t) (e : Event n) : (s.after e).Alike (t.after e) := by
  rcases s with ⟨provider, fleet, grants, snapshots⟩
  rcases t with ⟨provider', fleet', grants', snapshots'⟩
  obtain ⟨rfl, rfl⟩ := h
  cases e with
  | load request dbs users => exact ⟨rfl, rfl⟩
  | find g label => exact ⟨rfl, rfl⟩
  | snapshot label => exact ⟨rfl, rfl⟩
  | failing i failing => exact ⟨rfl, rfl⟩

/-- **A run without its lookups** reaches the same provider and the same sources. -/
theorem Alike.run_others (h : s.Alike t) (events : List (Event n)) :
    (s.run events).Alike (t.run (events.filter (!·.isLookup))) := by
  induction events generalizing s t with
  | nil => exact h
  | cons e events ih =>
    -- A lookup is made on one side only, every other event on both.
    by_cases he : e.isLookup = true
    · have hskip : (s.after e).Alike t := by
        obtain ⟨hprovider, hfleet⟩ := alike_after_of_isLookup (s := s) he
        exact ⟨hprovider.trans h.1, hfleet.trans h.2⟩
      have hfilter : (e :: events).filter (!·.isLookup) = events.filter (!·.isLookup) := by
        simp [he]
      rw [hfilter]
      exact ih hskip
    · have hfilter :
          (e :: events).filter (!·.isLookup) = e :: events.filter (!·.isLookup) := by
        simp [he]
      rw [hfilter]
      exact ih (h.after e)

/-! ### Whole runs -/

/-- **What a session with a native provider serves after a run**, whatever happened in it. The
counter counts the successful loads and the entries are what the last of them found. A further load
either installs what the loader finds or returns its error and changes nothing that is served. An
answer or a snapshot that is kept is what it was when it was taken. Both requests to load do the
same, and lookups do nothing to the sources. -/
theorem run_native (fleet : Fleet Source n) (events : List (Event n)) :
    let s := (start .native fleet).run events
    let found := (start .native fleet).found events
    (s.provider.snapshot.generation = found.length % UInt64.size ∧
        (events.length < UInt64.size → s.provider.snapshot.generation = found.length)) ∧
      (s.provider.snapshot.entries = found.getLast?.getD ∅ ∧
        ∀ g, s.provider.find? g = (found.getLast?.getD ∅)[g]?) ∧
      (∀ request dbs users,
        (∀ holdings, s.loaded dbs users = .ok holdings →
          (s.load dbs users request).1 = .ok () ∧
            (s.load dbs users request).2.provider.snapshot.entries = holdings) ∧
        ∀ e, s.loaded dbs users = .error e →
          (s.load dbs users request).1 = .error e ∧
            (s.load dbs users request).2.provider = s.provider) ∧
      (∀ before g label later, events = before ++ .find g label :: later →
        (∀ g', .find g' label ∉ later) →
          s.keptGrants label = ((start .native fleet).run before).provider.find? g) ∧
      (∀ before label later, events = before ++ .snapshot label :: later →
        .snapshot label ∉ later →
          s.keptSnapshot label = some ((start .native fleet).run before).provider.snapshot) ∧
      (∀ dbs users, s.load dbs users .setUp = s.load dbs users .refresh) ∧
      (∀ e : Event n, e.isLookup = true → (s.after e).fleet = s.fleet) ∧
      s.Alike ((start .native fleet).run (events.filter (!·.isLookup))) := by
  intro s found
  have hserves : s.Serves found := (serves_start fleet).run events
  have hle : found.length ≤ events.length := length_found_le (start .native fleet) events
  refine ⟨⟨hserves.generation_eq, fun hlt => ?_⟩, ⟨hserves.entries_eq, hserves.find?_eq⟩,
    fun request dbs users => ⟨fun holdings hload => ?_, fun e hload => ?_⟩, ?_, ?_,
    fun dbs users => rfl, ?_, ?_⟩
  · rw [hserves.generation_eq]
    exact Nat.mod_eq_of_lt (by omega)
  · obtain ⟨houtcome, hprovider⟩ := load_of_ok request hserves.kind_eq hload
    refine ⟨houtcome, ?_⟩
    rw [hprovider]
    rfl
  · exact load_of_error request hserves.kind_eq hload
  · rintro before g label later rfl hlater
    exact keptGrants_of_find _ before later g hlater
  · rintro before label later rfl hlater
    exact keptSnapshot_of_snapshot _ before later hlater
  · intro e he
    exact (alike_after_of_isLookup he).2
  · have hrefl : (start .native fleet).Alike (start .native fleet) := ⟨rfl, rfl⟩
    exact hrefl.run_others events

/-- A configured user. -/
def bob : User := ⟨⟨"bob", "%"⟩, ""⟩

/-- An instance that is out of order. -/
def broken : Source := ⟨"shop:3306", ∅, true, []⟩

/-- A database behind which it stands. -/
def brokenShop : Databases 1 := (∅ : Databases 1).insert "shop" ⟨"shop", List.finRange 1⟩

/-- A run in which a load fails between two that succeed. -/
def threeLoads : List (Event 1) :=
  [.load .setUp ∅ [bob], .find bob.grantee "first", .load .refresh brokenShop [bob],
    .snapshot "second", .load .refresh ∅ []]

/-- The failing load leaves no trace, and what was kept outlives the loads after it. -/
theorem run_native_threeLoads :
    let s := (start .native #v[broken]).run threeLoads
    threeLoads.length < UInt64.size ∧ s.provider.snapshot.generation = 2 ∧
      s.provider.find? bob.grantee = none ∧
      (∀ g, .find g "first" ∉ threeLoads.drop 2) ∧
      s.keptGrants "first" = some .nothing ∧
      .snapshot "second" ∉ threeLoads.drop 4 ∧
      (s.keptSnapshot "second").map Snapshot.generation = some 1 ∧
      s.loaded brokenShop [bob] = .error (.query "shop:3306" .unavailable) ∧
      (s.load brokenShop [bob] .refresh).1 = .error (.query "shop:3306" .unavailable) := by
  intro s
  have hlt : threeLoads.length < UInt64.size := by decide
  have hfind : ∀ g, .find g "first" ∉ threeLoads.drop 2 := by simp [threeLoads]
  have hsnapshot : .snapshot "second" ∉ threeLoads.drop 4 := by simp [threeLoads]
  have herror : s.loaded brokenShop [bob] = .error (.query "shop:3306" .unavailable) := rfl
  obtain ⟨⟨-, hcount⟩, ⟨-, hserved⟩, hload, hgrants, hkept, -⟩ :=
    run_native #v[broken] threeLoads
  have hfirst := hgrants [.load .setUp ∅ [bob]] bob.grantee "first" _ rfl hfind
  have hsecond := hkept (threeLoads.take 3) "second" _ rfl hsnapshot
  refine ⟨hlt, (hcount hlt).trans rfl, (hserved bob.grantee).trans rfl, hfind, hfirst.trans rfl,
    hsnapshot, ?_, herror, ((hload .refresh brokenShop [bob]).2 _ herror).1⟩
  exact (congrArg (Option.map Snapshot.generation) hsecond).trans rfl

end Session

end GrantCatalog
