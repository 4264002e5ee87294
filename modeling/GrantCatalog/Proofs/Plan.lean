import GrantCatalog.Plan
import GrantCatalog.Proofs.Order

/-!
# Each instance is planned once

A plan goes through all positions that the databases name, database by database in the byte order
of the keys, and keeps a position if no earlier one is of the same instance. The list of all these
positions, `GrantCatalog.Plan.listed`, is defined here from **any** enumeration of the databases, by
sorting it; the planner has no such enumeration, only the map
(`GrantCatalog.Plan.listed_eq_positions`).

What is planned is read off the facts about first occurrences in `GrantCatalog.firstsBy`. To the
last of the databases a position may be added: if its instance is not new, nothing changes
(`GrantCatalog.Plan.build_insert_last`).
-/

namespace GrantCatalog.Plan

variable {σ : Type} [DataSource σ] {n : Nat}

/-- **All positions**, database by database in the byte order of the keys. -/
def listed (entries : List (String × Database n)) : List (Fin n) :=
  (inByteOrder entries).flatMap (·.2.sources)

theorem listed_eq_positions {dbs : Databases n} {entries : List (String × Database n)}
    (h : entries.Perm dbs.toList) : listed entries = positions dbs := by
  rw [listed, inByteOrder_eq_toList h, positions]

/-- The instances that are queried are those of the positions. -/
theorem mem_instanceIds_iff {fleet : Fleet σ n} {dbs : Databases n} {users : List User}
    {x : String} : x ∈ (build fleet dbs users).instanceIds fleet ↔
      ∃ i ∈ positions dbs, DataSource.instanceId (fleet.get i) = x := by
  rw [instanceIds, List.mem_map]
  constructor
  · rintro ⟨i, hi, rfl⟩
    exact ⟨i, (firstsBy_sublist _).subset hi, rfl⟩
  · rintro ⟨i, hi, rfl⟩
    exact exists_mem_firstsBy hi

/-- No instance is queried twice. -/
theorem nodup_instanceIds (fleet : Fleet σ n) (dbs : Databases n) (users : List User) :
    ((build fleet dbs users).instanceIds fleet).Nodup :=
  List.pairwise_map.mpr (pairwise_firstsBy _)

/-- **One more position in the last database** makes no difference if its instance is not new. -/
theorem build_insert_last {fleet : Fleet σ n} {dbs : Databases n} {users : List User}
    {init : List (String × Database n)} {k : String} {d : Database n} {i : Fin n}
    (hlast : dbs.toList = init ++ [(k, d)])
    (hold : ∃ j ∈ positions dbs,
      DataSource.instanceId (fleet.get j) = DataSource.instanceId (fleet.get i)) :
    build fleet (dbs.insert k ⟨d.name, d.sources ++ [i]⟩) users = build fleet dbs users := by
  have hpositions : positions (dbs.insert k ⟨d.name, d.sources ++ [i]⟩) = positions dbs ++ [i] := by
    rw [positions, positions, toList_insert_last hlast, hlast]
    simp
  rw [build, hpositions, firstsBy_concat, if_pos hold, List.append_nil, build]

/-- **A plan visits each instance once, through its first position.** However the databases are
enumerated, with all their positions listed in the byte order of the keys: the positions planned
are some of these, in order; no instance is planned twice, and none is left out; and planned are
just the positions that are the first of their instance. The plan does not depend on the order in
which the databases were entered, and a position of a known instance that is added to the last
database changes nothing. -/
theorem build_visits (fleet : Fleet σ n) (dbs : Databases n) (users : List User)
    {entries : List (String × Database n)} (h : entries.Perm dbs.toList) :
    let plan := build fleet dbs users
    plan.sources.Sublist (listed entries) ∧
    (plan.instanceIds fleet).Nodup ∧
    (∀ x, x ∈ plan.instanceIds fleet ↔
      ∃ i ∈ listed entries, DataSource.instanceId (fleet.get i) = x) ∧
    (∀ i, i ∈ plan.sources ↔ ∃ before after, listed entries = before ++ i :: after ∧
      ∀ j ∈ before, DataSource.instanceId (fleet.get j) ≠ DataSource.instanceId (fleet.get i)) ∧
    build fleet (.ofList entries) users = plan ∧
    ∀ init k d i, inByteOrder entries = init ++ [(k, d)] →
      (∃ j ∈ listed entries,
        DataSource.instanceId (fleet.get j) = DataSource.instanceId (fleet.get i)) →
      build fleet (dbs.insert k ⟨d.name, d.sources ++ [i]⟩) users = plan := by
  rw [listed_eq_positions h, inByteOrder_eq_toList h, ofList_eq_of_perm h]
  exact ⟨firstsBy_sublist _, nodup_instanceIds fleet dbs users, fun _ => mem_instanceIds_iff,
    fun _ => mem_firstsBy_iff, rfl, fun _ _ _ _ hlast hold => build_insert_last hlast hold⟩

/-! Three databases over four sources, two of which are of one instance. The names of the databases
stand the other way round than their keys. -/

/-- The sources. -/
def shelves : Fleet Source 4 :=
  #v[⟨"a:3306", ∅, false, []⟩, ⟨"b:3306", ∅, false, []⟩, ⟨"a:3306", ∅, false, []⟩,
    ⟨"c:3306", ∅, false, []⟩]

/-- The databases as they come. -/
def shelfEntries : List (String × Database 4) :=
  [("é", ⟨"b", [1, 2]⟩), ("😀", ⟨"a", [3, 1]⟩), ("z", ⟨"c", [2, 0]⟩)]

/-- The databases. -/
def shelfDatabases : Databases 4 := .ofList shelfEntries

/-- All positions are listed from `z` to the smiley, and three of them are planned; it makes no
difference if the smiley names position 0, too. -/
theorem build_visits_shelves :
    shelfEntries.Perm shelfDatabases.toList ∧ listed shelfEntries = [2, 0, 1, 2, 3, 1] ∧
      (build shelves shelfDatabases []).sources.Sublist [2, 0, 1, 2, 3, 1] ∧
      2 ∈ (build shelves shelfDatabases []).sources ∧
      ¬0 ∈ (build shelves shelfDatabases []).sources ∧
      build shelves (shelfDatabases.insert "😀" ⟨"a", [3, 1, 0]⟩) [] =
        build shelves shelfDatabases [] := by
  have hperm : shelfEntries.Perm shelfDatabases.toList := by decide +kernel
  have hlisted : listed shelfEntries = [2, 0, 1, 2, 3, 1] := by
    rw [listed_eq_positions hperm]
    decide +kernel
  have hsorted : inByteOrder shelfEntries =
      [("z", ⟨"c", [2, 0]⟩), ("é", ⟨"b", [1, 2]⟩)] ++ [("😀", ⟨"a", [3, 1]⟩)] := by
    rw [inByteOrder_eq_toList hperm]
    decide +kernel
  obtain ⟨hsub, -, -, hfirst, -, hlast⟩ := build_visits shelves shelfDatabases [] hperm
  rw [hlisted] at hsub hfirst hlast
  refine ⟨hperm, hlisted, hsub, (hfirst 2).mpr ⟨[], [0, 1, 2, 3, 1], rfl, by simp⟩, fun h0 => ?_,
    hlast _ "😀" ⟨"a", [3, 1]⟩ 0 hsorted ⟨2, by decide, by decide⟩⟩
  obtain ⟨before, after, hsplit, hne⟩ := (hfirst 0).mp h0
  -- In front of position 0 there is position 2, which is of the same instance.
  cases before with
  | nil => cases (List.cons.inj hsplit).1
  | cons j before =>
    obtain rfl := (List.cons.inj hsplit).1
    exact hne 2 List.mem_cons_self rfl

end GrantCatalog.Plan
