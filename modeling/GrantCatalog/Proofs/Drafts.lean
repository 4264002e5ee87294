import GrantCatalog.Command.Report
import GrantCatalog.Grants.Drafts
import GrantCatalog.Proofs.Load
import Mathlib.Data.Finset.Card
import Mathlib.Data.Set.Finite.Basic
import Mathlib.Logic.Function.Basic

/-!
# Grants are sets

A value of `GrantCatalog.Grants` is a map of sets, and more can be told from a map than what it
grants. This module is about the values that the program comes to hold, be it by constructing them
edit by edit, by decoding a row or by a load (`GrantCatalog.Grants.Published`). Of these nothing
more can be told: each **is** the finite set of its grants, `GrantCatalog.Grants.toSet`.

* An edit of a draft is an operation on sets, `GrantCatalog.Drafts.Edit.effect`, and a run of edits
  is a run of these operations (`GrantCatalog.Drafts.toSet_ofEdits`), whatever drafts are merged
  into each other on the way.
* Two values are equal just if their sets are, so merging has the laws of union.
* Emptiness, the scopes that are known and the numbers in a list of grantees can be told from the
  set.

What carries all of it is the invariant `GrantCatalog.Grants.Proper`.
-/

namespace GrantCatalog

namespace Grants

variable {g a b c : Grants}

/-- **The set of the grants** of a value. -/
def toSet (g : Grants) : Set (Scope × Privilege) := {x | x.2 ∈ g.own x.1}

@[simp] theorem mem_toSet {x : Scope × Privilege} : x ∈ g.toSet ↔ x.2 ∈ g.own x.1 := Iff.rfl

@[simp] theorem toSet_nothing : nothing.toSet = ∅ := by
  ext x
  simp

@[simp] theorem toSet_everything : everything.toSet = {x | x.1 = .server} := by
  ext x
  simp [everything, mem_own_addAll, Privilege.mem_all, eq_comm]

@[simp] theorem toSet_addAll (s : Scope) (ps : List Privilege) :
    (g.addAll s ps).toSet = g.toSet ∪ {x | x.1 = s ∧ x.2 ∈ ps} := by
  ext x
  simp [mem_own_addAll, or_comm, eq_comm]

@[simp] theorem toSet_merge : (a.merge b).toSet = a.toSet ∪ b.toSet := by
  ext x
  simp [mem_own_merge]

theorem finite_toSet (g : Grants) : g.toSet.Finite := by
  have hsub : g.toSet ⊆ {x | x ∈ g.held.toList.flatMap fun e => e.2.toList.map (e.1, ·)} := by
    rintro ⟨s, p⟩ (hp : p ∈ g.own s)
    rw [own] at hp
    cases hf : g.find? s with
    | none =>
      rw [hf] at hp
      exact absurd hp Std.ExtTreeSet.not_mem_empty
    | some ps =>
      rw [hf] at hp
      refine List.mem_flatMap.mpr ⟨(s, ps), ?_, List.mem_map_of_mem ?_⟩
      · exact Std.ExtTreeMap.mem_toList_iff_getElem?_eq_some.mpr hf
      · exact Std.ExtTreeSet.mem_toList.mpr hp
  exact (List.finite_toSet _).subset hsub

/-! ### Under the invariant -/

/-- **Under the invariant, grants are the set of their grants.** -/
theorem Proper.eq_iff_toSet_eq (ha : a.Proper) (hb : b.Proper) : a = b ↔ a.toSet = b.toSet := by
  rw [ha.eq_iff hb, Set.ext_iff, Prod.forall]
  rfl

theorem Proper.merge_comm (ha : a.Proper) (hb : b.Proper) : a.merge b = b.merge a := by
  rw [(ha.merge hb).eq_iff_toSet_eq (hb.merge ha), toSet_merge, toSet_merge, Set.union_comm]

theorem Proper.merge_assoc (ha : a.Proper) (hb : b.Proper) (hc : c.Proper) :
    (a.merge b).merge c = a.merge (b.merge c) := by
  rw [((ha.merge hb).merge hc).eq_iff_toSet_eq (ha.merge (hb.merge hc))]
  simp only [toSet_merge, Set.union_assoc]

theorem Proper.merge_self (ha : a.Proper) : a.merge a = a := by
  rw [(ha.merge ha).eq_iff_toSet_eq ha, toSet_merge, Set.union_self]

theorem Proper.merge_nothing (ha : a.Proper) : a.merge nothing = a := by
  rw [(ha.merge proper_nothing).eq_iff_toSet_eq ha, toSet_merge, toSet_nothing, Set.union_empty]

theorem Proper.nothing_merge (ha : a.Proper) : nothing.merge a = a := by
  rw [proper_nothing.merge_comm ha, ha.merge_nothing]

theorem Proper.isEmpty_iff_eq_nothing (ha : a.Proper) : a.isEmpty = true ↔ a = nothing := by
  rw [isEmpty_iff, ha.eq_iff proper_nothing]
  simp

/-- **The row of a grantee in a list counts** the privileges held on the server, and the schemas and
the tables that something is held on. -/
theorem Proper.listingRow_eq (ha : a.Proper) (g : Grantee) :
    ∃ (server : Finset Privilege) (schemas : Finset String) (tables : Finset (String × String)),
      (∀ p, p ∈ server ↔ (.server, p) ∈ a.toSet) ∧
      (∀ s, s ∈ schemas ↔ ∃ p, (.schema s, p) ∈ a.toSet) ∧
      (∀ t, t ∈ tables ↔ ∃ p, (.table t.1 t.2, p) ∈ a.toSet) ∧
      Report.listingRow g (some a) = [g.display, Report.count server.card,
        Report.count schemas.card, Report.count tables.card] := by
  have hserver : (a.own .server).toList.Nodup :=
    Std.ExtTreeSet.distinct_toList.imp fun h he => h (Std.LawfulEqOrd.compare_eq_iff_eq.mpr he)
  refine ⟨(a.own .server).toList.toFinset, (a.schemas.map Prod.fst).toFinset,
    (a.tables.map fun e => (e.1, e.2.1)).toFinset, fun p => ?_, fun s => ?_, fun t => ?_, ?_⟩
  · rw [List.mem_toFinset, Std.ExtTreeSet.mem_toList, mem_toSet]
  · rw [List.mem_toFinset]
    exact mem_schemaNames_iff ha
  · rw [List.mem_toFinset]
    exact mem_tableNames_iff ha
  · rw [List.toFinset_card_of_nodup hserver, List.toFinset_card_of_nodup a.nodup_schemas,
      List.toFinset_card_of_nodup a.nodup_tables, List.length_map, List.length_map,
      Std.ExtTreeSet.length_toList]
    rfl

end Grants

/-! ### Runs of edits -/

namespace Drafts

/-- **What an edit makes of the set of its draft**, given the sets of all drafts. -/
def Edit.effect (sets : String → Set (Scope × Privilege)) (name : String) :
    Edit → Set (Scope × Privilege)
  | .clear => ∅
  | .everything => {x | x.1 = .server}
  | .add scope ps => sets name ∪ {x | x.1 = scope ∧ x.2 ∈ ps}
  | .merge other => sets name ∪ sets other

/-- **A run of edits on sets**, from empty sets on. -/
def sets (es : List (String × Edit)) : String → Set (Scope × Privilege) :=
  es.foldl (fun sets (name, e) => Function.update sets name (e.effect sets name)) fun _ => ∅

theorem get_empty (name : String) : get ∅ name = .nothing := by
  simp [get]
  rfl

theorem get_edit (d : Drafts) (name name' : String) (e : Edit) :
    (d.edit name e).get name' = if name = name' then d.edited name e else d.get name' := by
  rw [get, edit, Std.ExtTreeMap.getD_insert, get]
  simp only [Std.LawfulEqOrd.compare_eq_iff_eq]

/-- An edit has its effect. -/
theorem toSet_edited (d : Drafts) (name : String) (e : Edit) :
    (d.edited name e).toSet = e.effect (fun name => (d.get name).toSet) name := by
  cases e with
  | clear => exact Grants.toSet_nothing
  | everything => exact Grants.toSet_everything
  | add scope ps => exact Grants.toSet_addAll scope ps
  | merge other => exact Grants.toSet_merge

/-- **An edit is its effect on the sets** of all drafts. -/
theorem toSet_edit (d : Drafts) (name : String) (e : Edit) :
    (fun name' => ((d.edit name e).get name').toSet) =
      Function.update (fun name' => (d.get name').toSet) name
        (e.effect (fun name' => (d.get name').toSet) name) := by
  funext name'
  rw [get_edit, Function.update_apply, ← toSet_edited]
  by_cases h : name = name'
  · rw [if_pos h, if_pos h.symm]
  · rw [if_neg h, if_neg (Ne.symm h)]

/-- **What a run of edits makes of the drafts** is what it makes of their sets. -/
theorem toSet_ofEdits (es : List (String × Edit)) :
    (fun name => ((ofEdits es).get name).toSet) = sets es := by
  have run (d : Drafts) (start : String → Set (Scope × Privilege))
      (hd : (fun name => (d.get name).toSet) = start) :
      (fun name => ((es.foldl (fun d (name, e) => d.edit name e) d).get name).toSet) =
        es.foldl (fun sets (name, e) => Function.update sets name (e.effect sets name)) start := by
    induction es generalizing d start with
    | nil => exact hd
    | cons step es ih =>
      subst hd
      exact ih (d.edit step.1 step.2) _ (toSet_edit d step.1 step.2)
  refine run ∅ (fun _ => ∅) (funext fun name => ?_)
  rw [get_empty, Grants.toSet_nothing]

/-- An edit keeps the invariant. -/
theorem proper_edited {d : Drafts} (hd : ∀ name, (d.get name).Proper) (name : String) (e : Edit) :
    (d.edited name e).Proper := by
  cases e with
  | clear => exact Grants.proper_nothing
  | everything => exact Grants.proper_nothing.addAll _ _
  | add scope ps => exact (hd name).addAll scope ps
  | merge other => exact (hd name).merge (hd other)

/-- **A run of edits keeps the invariant.** -/
theorem proper_ofEdits (es : List (String × Edit)) (name : String) :
    ((ofEdits es).get name).Proper := by
  have run (d : Drafts) (hd : ∀ name, (d.get name).Proper) (name : String) :
      ((es.foldl (fun d (name, e) => d.edit name e) d).get name).Proper := by
    induction es generalizing d with
    | nil => exact hd name
    | cons step es ih =>
      obtain ⟨name', e⟩ := step
      refine ih (d.edit name' e) fun name'' => ?_
      rw [get_edit]
      split
      · exact proper_edited hd name' e
      · exact hd name''
  refine run ∅ (fun name => ?_) name
  rw [get_empty]
  exact Grants.proper_nothing

end Drafts

/-! ### What the program comes to hold -/

namespace Grants

/-- **Grants that the program comes to hold**: a draft after some edits, what a row of a catalog
says, or what a load finds for a grantee. -/
inductive Published : Grants → Prop where
  | draft (es : List (String × Drafts.Edit)) (name : String) :
      Published ((Drafts.ofEdits es).get name)
  | decoded {c : Catalog} {answer : ResultSet} {es : List Catalog.Entry} {e : Catalog.Entry}
      (h : c.decode answer = .ok es) (he : e ∈ es) : Published e.grants
  | loaded {σ : Type} [DataSource σ] {n : Nat} {plan : Plan n} {fleet : Fleet σ n}
      {found : Holdings} {g : Grantee} {held : Grants} (h : (plan.load fleet).1 = .ok found)
      (hg : found[g]? = some held) : Published held

theorem Published.proper {g : Grants} (hg : g.Published) : g.Proper := by
  cases hg with
  | draft es name => exact Drafts.proper_ofEdits es name
  | decoded h he => exact Catalog.proper_of_mem_decode h he
  | loaded h hg => exact Plan.proper_of_load_eq_ok h _ _ hg

/-- **Grants are sets.** A run of edits makes of each draft what it makes of its set. Whatever the
program comes to hold has a finite set of grants and knows no scope for nothing; whether it is
empty, which scopes are known, and what a list counts can be told from the set. And two values are
equal just if their sets are, so that merging is commutative, associative and idempotent, with no
grants as the identity. -/
theorem published_isSet :
    (∀ es name, ((Drafts.ofEdits es).get name).toSet = Drafts.sets es name) ∧
      (∀ a : Grants, a.Published → a.toSet.Finite ∧
        (∀ s ps, a.find? s = some ps → ∃ p, p ∈ ps) ∧
        (a.isEmpty = true ↔ a = nothing) ∧
        (∀ s, (a.find? s).isSome = true ↔ ∃ p, (s, p) ∈ a.toSet) ∧
        ∀ g : Grantee, ∃ (server : Finset Privilege) (schemas : Finset String)
            (tables : Finset (String × String)),
          (∀ p, p ∈ server ↔ (.server, p) ∈ a.toSet) ∧
          (∀ s, s ∈ schemas ↔ ∃ p, (.schema s, p) ∈ a.toSet) ∧
          (∀ t, t ∈ tables ↔ ∃ p, (.table t.1 t.2, p) ∈ a.toSet) ∧
          Report.listingRow g (some a) = [g.display, Report.count server.card,
            Report.count schemas.card, Report.count tables.card]) ∧
      ∀ a b c : Grants, a.Published → b.Published → c.Published →
        (a = b ↔ a.toSet = b.toSet) ∧
        a.merge b = b.merge a ∧ (a.merge b).merge c = a.merge (b.merge c) ∧ a.merge a = a ∧
        a.merge nothing = a ∧ nothing.merge a = a := by
  refine ⟨fun es name => congrFun (Drafts.toSet_ofEdits es) name, fun a ha => ?_,
    fun a b c ha hb hc => ?_⟩
  · refine ⟨a.finite_toSet, ha.proper, ha.proper.isEmpty_iff_eq_nothing, fun s => ?_,
      ha.proper.listingRow_eq⟩
    exact isSome_find?_iff ha.proper
  · exact ⟨ha.proper.eq_iff_toSet_eq hb.proper, ha.proper.merge_comm hb.proper,
      ha.proper.merge_assoc hb.proper hc.proper, ha.proper.merge_self, ha.proper.merge_nothing,
      ha.proper.nothing_merge⟩

/-- Three drafts: one that is merged into itself, one that starts again and copies the first, and
one to which no privilege is added. -/
def threeDrafts : List (String × Drafts.Edit) :=
  [("first", .add (.schema "shop") [.select]), ("first", .merge "first"), ("copy", .everything),
   ("copy", .clear), ("copy", .merge "first"), ("none", .add (.table "shop" "orders") [])]

/-- The first draft and its copy are equal, and know the schema; the third knows no table. -/
theorem published_isSet_threeDrafts :
    ∃ a b c : Grants, a.Published ∧ b.Published ∧ c.Published ∧
      a = b ∧ (a.find? (.schema "shop")).isSome = true ∧
      a ≠ c ∧ ¬(c.find? (.table "shop" "orders")).isSome = true := by
  obtain ⟨hsets, hpublished, hequal⟩ := published_isSet
  have ha : ((Drafts.ofEdits threeDrafts).get "first").Published := .draft _ _
  have hb : ((Drafts.ofEdits threeDrafts).get "copy").Published := .draft _ _
  have hc : ((Drafts.ofEdits threeDrafts).get "none").Published := .draft _ _
  have hfirst : Drafts.sets threeDrafts "first" = {(.schema "shop", .select)} := by
    ext ⟨s, p⟩
    simp [threeDrafts, Drafts.sets, Drafts.Edit.effect]
  have hcopy : Drafts.sets threeDrafts "copy" = {(.schema "shop", .select)} := by
    ext ⟨s, p⟩
    simp [threeDrafts, Drafts.sets, Drafts.Edit.effect]
  have hnone : Drafts.sets threeDrafts "none" = ∅ := by
    ext ⟨s, p⟩
    simp [threeDrafts, Drafts.sets, Drafts.Edit.effect]
  refine ⟨_, _, _, ha, hb, hc, ?_, ?_, ?_, ?_⟩
  · rw [(hequal _ _ _ ha hb hc).1, hsets, hsets, hfirst, hcopy]
  · rw [(hpublished _ ha).2.2.2.1, hsets, hfirst]
    exact ⟨.select, rfl⟩
  · rw [Ne, (hequal _ _ _ ha hc hb).1, hsets, hsets, hfirst, hnone]
    exact Set.singleton_ne_empty _
  · rw [(hpublished _ hc).2.2.2.1, hsets, hnone]
    rintro ⟨p, hp⟩
    exact hp

end Grants

end GrantCatalog
