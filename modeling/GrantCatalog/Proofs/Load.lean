import GrantCatalog.Load
import GrantCatalog.Proofs.Catalog
import GrantCatalog.Proofs.Order

/-!
# A load adds up what the rows say

A load goes through sources, catalogs and rows in three nested loops, may stop at any query, and
builds up one map on the way. What it finds is nevertheless described without any order: **the
union of the decoded rows** that are about grantees asked for.

* `GrantCatalog.Holdings.IsUnion` – the invariant. What was found so far is the union of the rows
  seen so far: row by row `GrantCatalog.Holdings.IsUnion.absorb`, for a list of rows
  `GrantCatalog.Holdings.IsUnion.absorbAll`.
* `GrantCatalog.DataSource.Steady` – what is asked of the sources. A source in general may change
  with every statement it executes, so that there need not be any such thing as *the* rows of a
  catalog; a steady one answers as it would have answered at the beginning.
* `GrantCatalog.Plan.collect_eq` – the loops are one run over the queries, each of them put to
  the source as it was at the beginning.

One thing needs no steady sources: no grantee is left with a scope on which it holds nothing
(`GrantCatalog.Plan.proper_of_load_eq_ok`).
-/

namespace GrantCatalog

/-! ### The union of some rows -/

namespace Holdings

/-- **What was found is the union of the rows seen**: a grantee is known if a row is about it, and
holds what the rows about it grant. -/
structure IsUnion (p : Predicate) (seen : List Catalog.Entry) (found : Holdings) : Prop where
  /-- The grantees known are those asked for that some row is about. -/
  mem_iff : ∀ g, g ∈ found ↔ p.contains g = true ∧ ∃ e ∈ seen, e.grantee = g
  /-- A grantee holds a privilege on a scope if some row about it grants just that. -/
  mem_own_iff : ∀ (g : Grantee) (held : Grants), found[g]? = some held → ∀ s q,
    q ∈ held.own s ↔ ∃ e ∈ seen, e.grantee = g ∧ q ∈ e.grants.own s
  /-- No grantee knows a scope on which it holds nothing. -/
  proper : ∀ (g : Grantee) (held : Grants), found[g]? = some held → held.Proper

variable {p : Predicate} {seen : List Catalog.Entry} {found : Holdings}

theorem isUnion_nil (p : Predicate) : IsUnion p [] ∅ where
  mem_iff := by simp
  mem_own_iff := by simp
  proper := by simp

theorem getElem?_absorb (e : Catalog.Entry) (g : Grantee) :
    (found.absorb p e)[g]? =
      if p.contains e.grantee = true ∧ e.grantee = g then
        some ((found[g]?.getD ∅).merge e.grants)
      else found[g]? := by
  rw [absorb]
  by_cases hp : p.contains e.grantee = true
  · rw [if_pos hp, Std.ExtTreeMap.getElem?_alter]
    by_cases hg : e.grantee = g
    · subst hg
      simp [hp]
    · simp [hp, hg]
  · simp [hp]

/-- No grantee knows a scope on which it holds nothing. -/
def Proper (found : Holdings) : Prop :=
  ∀ (g : Grantee) (held : Grants), found[g]? = some held → held.Proper

theorem proper_empty : Proper ∅ := by
  intro g held h
  simp at h

/-- A row of which the same is true adds no such scope. -/
theorem Proper.absorb (h : found.Proper) {e : Catalog.Entry} (he : e.grants.Proper) :
    (found.absorb p e).Proper := by
  have hold (g : Grantee) : (found[g]?.getD ∅).Proper := by
    cases hf : found[g]? with
    | some held => exact h g held hf
    | none => exact Grants.proper_nothing
  intro g held hheld
  rw [getElem?_absorb] at hheld
  split at hheld
  · obtain rfl := Option.some.inj hheld
    exact (hold g).merge he
  · exact h g held hheld

theorem Proper.absorbAll (h : found.Proper) {es : List Catalog.Entry}
    (hes : ∀ e ∈ es, e.grants.Proper) : (found.absorbAll p es).Proper := by
  induction es generalizing found with
  | nil => exact h
  | cons e es ih =>
    obtain ⟨he, hes⟩ := List.forall_mem_cons.mp hes
    exact ih (h.absorb he) hes

/-- Whoever is known was asked for. -/
theorem IsUnion.contains_of_getElem? (h : IsUnion p seen found) {g : Grantee} {held : Grants}
    (hheld : found[g]? = some held) : p.contains g = true := by
  have hmem : g ∈ found := by
    rw [Std.ExtTreeMap.mem_iff_isSome_getElem?, hheld]
    rfl
  exact ((h.mem_iff g).mp hmem).1

/-- What a grantee holds by the invariant, who need not be known. -/
theorem IsUnion.mem_own_getD_iff (h : IsUnion p seen found) (g : Grantee) (s : Scope)
    (q : Privilege) :
    q ∈ (found[g]?.getD ∅).own s ↔
      p.contains g = true ∧ ∃ e ∈ seen, e.grantee = g ∧ q ∈ e.grants.own s := by
  cases hf : found[g]? with
  | some held =>
    rw [and_iff_right (h.contains_of_getElem? hf)]
    exact h.mem_own_iff g held hf s q
  | none =>
    refine iff_of_false (Grants.not_mem_own_empty s q) ?_
    rintro ⟨hg, e, he, hge, -⟩
    have hmem : g ∈ found := (h.mem_iff g).mpr ⟨hg, e, he, hge⟩
    rw [Std.ExtTreeMap.mem_iff_isSome_getElem?, hf] at hmem
    cases hmem

/-- **One more row** keeps the invariant: it adds to its own grantee, if that is asked for, and to
no other. -/
theorem IsUnion.absorb (h : IsUnion p seen found) {e : Catalog.Entry} (he : e.grants.Proper) :
    IsUnion p (seen ++ [e]) (found.absorb p e) := by
  constructor
  · intro g
    rw [Std.ExtTreeMap.mem_iff_isSome_getElem?, getElem?_absorb]
    split
    · next hg =>
      obtain ⟨hp, rfl⟩ := hg
      simp [hp]
    · next hg =>
      rw [← Std.ExtTreeMap.mem_iff_isSome_getElem?, h.mem_iff]
      refine and_congr_right fun hp => ?_
      have hne : e.grantee ≠ g := fun hge => hg ⟨hge ▸ hp, hge⟩
      simp [hne, or_and_right, exists_or]
  · intro g held hheld s q
    rw [getElem?_absorb] at hheld
    split at hheld
    · next hg =>
      obtain ⟨hp, rfl⟩ := hg
      obtain rfl := Option.some.inj hheld
      rw [Grants.mem_own_merge, h.mem_own_getD_iff, and_iff_right hp]
      simp [or_and_right, exists_or]
    · next hg =>
      -- This grantee is known, so it was asked for: it is not the one the row is about.
      have hp := h.contains_of_getElem? hheld
      have hne : e.grantee ≠ g := fun hge => hg ⟨hge ▸ hp, hge⟩
      rw [h.mem_own_iff g held hheld]
      simp [hne, or_and_right, exists_or]
  · exact Proper.absorb h.proper he

/-- **Some more rows** keep the invariant. -/
theorem IsUnion.absorbAll (h : IsUnion p seen found) {es : List Catalog.Entry}
    (hes : ∀ e ∈ es, e.grants.Proper) : IsUnion p (seen ++ es) (found.absorbAll p es) := by
  induction es generalizing seen found with
  | nil => simpa [Holdings.absorbAll] using h
  | cons e es ih =>
    obtain ⟨he, hes⟩ := List.forall_mem_cons.mp hes
    have hnext := ih (h.absorb he) hes
    rw [List.append_assoc, List.singleton_append] at hnext
    exact hnext

end Holdings

/-! ### Sources that answer in one way -/

namespace DataSource

variable {σ : Type} [DataSource σ]

/-- A source after some statements. -/
def after (s : σ) (statements : List String) : σ :=
  statements.foldl (fun s q => (execute s q).2) s

/-- **A source that answers each of some statements in one way**, whichever of them were executed
on it before. -/
def Steady (statements : List String) (s : σ) : Prop :=
  ∀ before ⊆ statements, ∀ q ∈ statements, (execute (after s before) q).1 = (execute s q).1

theorem after_concat (s : σ) (before : List String) (q : String) :
    after s (before ++ [q]) = (execute (after s before) q).2 := by
  rw [after, List.foldl_concat]
  rfl

end DataSource

namespace Source

theorem after_eq (s : Source) (before : List String) :
    DataSource.after s before = ⟨s.instanceId, s.tables, s.failing, s.executed ++ before⟩ := by
  induction before generalizing s with
  | nil => simp [DataSource.after]
  | cons q before ih =>
    have step : DataSource.after s (q :: before) = DataSource.after (s.execute q).2 before := rfl
    rw [step, ih]
    simp [execute]

/-- A source in memory answers in one way, since executing a statement only records it. -/
theorem steady (s : Source) (statements : List String) : DataSource.Steady statements s := by
  intro before _ q _
  rw [after_eq]
  rfl

end Source

namespace Plan

variable {σ : Type} [DataSource σ] {n : Nat}

/-- The statements of a load for some grantees. -/
def statements (p : Predicate) : List String := Catalog.all.map (·.statement p.render)

theorem statement_mem (p : Predicate) (c : Catalog) : c.statement p.render ∈ statements p :=
  List.mem_map.mpr ⟨c, Catalog.mem_all c, rfl⟩

/-- **What a source says about some grantees** in answer to the query for a catalog: the decoded
rows. A source that does not answer, or whose answer cannot be read, says nothing. -/
def Says (p : Predicate) (s : σ) (c : Catalog) (es : List Catalog.Entry) : Prop :=
  ∃ rows, (DataSource.execute s (c.statement p.render)).1 = .ok rows ∧ c.decode rows = .ok es

/-- The decoded rows, or why there are none. -/
def reading (p : Predicate) (s : σ) (c : Catalog) : Except Error (List Catalog.Entry) :=
  (DataSource.execute s (c.statement p.render)).1 >>= fun rows =>
    (c.decode rows).mapError (.decode c)

theorem reading_eq_ok_iff {p : Predicate} {s : σ} {c : Catalog} {es : List Catalog.Entry} :
    reading p s c = .ok es ↔ Says p s c es := by
  rw [reading, Except.bind_eq_ok_iff, Says]
  simp only [Except.mapError_eq_ok_iff]

theorem mem_queries {plan : Plan n} {i : Fin n} {c : Catalog} :
    (i, c) ∈ plan.queries ↔ i ∈ plan.sources := by
  simp only [queries, List.mem_flatMap, List.mem_map, Prod.mk.injEq]
  constructor
  · rintro ⟨j, hj, c', -, rfl, -⟩
    exact hj
  · intro hi
    exact ⟨i, hi, c, Catalog.mem_all c, rfl, rfl⟩

/-! ### The loops as one run -/

/-- Each source of a fleet is what it was at the start of a load, after some statements of the
load. -/
def Reached (p : Predicate) (start fleet : Fleet σ n) : Prop :=
  ∀ i : Fin n, ∃ before ⊆ statements p, (fleet.get i) = DataSource.after (start.get i) before

variable {p : Predicate} {start fleet : Fleet σ n}

theorem reached_refl (p : Predicate) (start : Fleet σ n) : Reached p start start :=
  fun _ => ⟨[], List.nil_subset _, rfl⟩

theorem ask_fst (i : Fin n) (c : Catalog) : (ask p fleet i c).1 = reading p (fleet.get i) c := rfl

/-- **One more query** asks one source and leaves the others alone. -/
theorem get_ask (i j : Fin n) (c : Catalog) :
    (ask p fleet i c).2.get j =
      if i = j then (DataSource.execute (fleet.get j) (c.statement p.render)).2
      else fleet.get j := by
  have hset : (ask p fleet i c).2 =
      fleet.set i (DataSource.execute (fleet.get i) (c.statement p.render)).2 := rfl
  rw [hset]
  by_cases hij : i = j
  · subst hij
    rw [if_pos rfl]
    exact Vector.getElem_set_self i.isLt
  · have hne : (i : Nat) ≠ j := fun he => hij (Fin.ext he)
    rw [if_neg hij]
    exact Vector.getElem_set_ne i.isLt j.isLt hne

/-- Each source stays what it was, after the statements that were put to it. -/
theorem Reached.ask (h : Reached p start fleet) (i : Fin n) (c : Catalog) :
    Reached p start (ask p fleet i c).2 := by
  intro j
  obtain ⟨before, hbefore, hj⟩ := h j
  rw [get_ask]
  split
  · refine ⟨before ++ [c.statement p.render], ?_, ?_⟩
    · exact List.append_subset.mpr ⟨hbefore, List.cons_subset.mpr
        ⟨statement_mem p c, List.nil_subset _⟩⟩
    · rw [DataSource.after_concat, ← hj]
  · exact ⟨before, hbefore, hj⟩

/-- A steady source says what it said at the start. -/
theorem Reached.reading_eq (h : Reached p start fleet) {i : Fin n}
    (hi : DataSource.Steady (statements p) (start.get i)) (c : Catalog) :
    reading p (fleet.get i) c = reading p (start.get i) c := by
  obtain ⟨before, hbefore, hi'⟩ := h i
  rw [reading, hi', hi before hbefore _ (statement_mem p c)]
  rfl

/-- A query that is answered and can be decoded is followed by the others. -/
theorem collect_cons_of_ok {i : Fin n} {c : Catalog} {es : List Catalog.Entry}
    (h : reading p (fleet.get i) c = .ok es) (found : Holdings) (rest : List (Fin n × Catalog)) :
    collect p found fleet ((i, c) :: rest) =
      collect p (found.absorbAll p es) (Plan.ask p fleet i c).2 rest := by
  rw [collect]
  rcases hask : Plan.ask p fleet i c with ⟨answer, fleet'⟩
  rw [← ask_fst, hask] at h
  obtain rfl : answer = .ok es := h
  rfl

/-- A query that fails is the last. -/
theorem collect_cons_of_error {i : Fin n} {c : Catalog} {e : Error}
    (h : reading p (fleet.get i) c = .error e) (found : Holdings)
    (rest : List (Fin n × Catalog)) :
    collect p found fleet ((i, c) :: rest) = (.error e, (Plan.ask p fleet i c).2) := by
  rw [collect]
  rcases hask : Plan.ask p fleet i c with ⟨answer, fleet'⟩
  rw [← ask_fst, hask] at h
  obtain rfl : answer = .error e := h
  rfl

/-- **The loops are one run over the queries**, each put to its source as it was at the start. -/
theorem collect_eq {queries : List (Fin n × Catalog)}
    (hsteady : ∀ q ∈ queries, DataSource.Steady (statements p) (start.get q.1))
    (h : Reached p start fleet) (found : Holdings) :
    (collect p found fleet queries).1 =
      (queries.mapM fun q => reading p (start.get q.1) q.2).map fun ess =>
        found.absorbAll p ess.flatten := by
  -- The fleet changes with every query; that it was reached from the start is what carries over.
  induction queries generalizing fleet found with
  | nil => rfl
  | cons q queries ih =>
    obtain ⟨i, c⟩ := q
    obtain ⟨hi, hrest⟩ := List.forall_mem_cons.mp hsteady
    have hread : reading p (fleet.get i) c = reading p (start.get i) c := h.reading_eq hi c
    rw [List.mapM_cons, ← hread]
    cases hanswer : reading p (fleet.get i) c with
    | error e =>
      rw [collect_cons_of_error hanswer]
      rfl
    | ok es =>
      rw [collect_cons_of_ok hanswer, ih hrest (h.ask i c)]
      cases queries.mapM fun q => reading p (start.get q.1) q.2 with
      | error e => rfl
      | ok ess =>
        change Except.ok _ = Except.ok _
        simp [Holdings.absorbAll]

/-! ### What a load finds -/

variable {plan : Plan n} {fleet : Fleet σ n}

/-- Without sources a load asks nothing, and the grantees asked for hold nothing. -/
theorem load_of_sources_eq_nil (h : plan.sources = []) :
    plan.load fleet = (.ok (.blank plan.predicate), fleet) := by
  rw [load, if_pos (by simpa using h)]

/-- Without grantees it asks nothing either, and nobody is known. -/
theorem load_of_grantees_eq_nil (hsources : plan.sources ≠ [])
    (h : plan.predicate.grantees = []) : plan.load fleet = (.ok ∅, fleet) := by
  rw [load, if_neg (by simpa using hsources), if_pos (by simpa [Predicate.isEmpty] using h)]

/-- If there is something to ask and someone to ask about, a load makes its queries. -/
theorem load_eq_collect (hsources : plan.sources ≠ []) (hgrantees : plan.predicate.grantees ≠ []) :
    plan.load fleet = collect plan.predicate ∅ fleet plan.queries := by
  rw [load, if_neg (by simpa using hsources), if_neg (by simpa [Predicate.isEmpty] using hgrantees)]

/-- A load succeeds just if every planned source says something about every catalog. -/
theorem exists_load_eq_ok_iff (hsources : plan.sources ≠ [])
    (hgrantees : plan.predicate.grantees ≠ [])
    (hsteady : ∀ i ∈ plan.sources, DataSource.Steady (statements plan.predicate) (fleet.get i)) :
    (∃ found, (plan.load fleet).1 = .ok found) ↔
      ∀ i ∈ plan.sources, ∀ c, ∃ es, Says plan.predicate (fleet.get i) c es := by
  rw [load_eq_collect hsources hgrantees,
    collect_eq (fun q hq => hsteady q.1 (mem_queries.mp hq)) (reached_refl _ _)]
  constructor
  · rintro ⟨found, hfound⟩ i hi c
    obtain ⟨ess, hess, -⟩ := Except.map_eq_ok_iff.mp hfound
    obtain ⟨es, hes⟩ := List.exists_mapM_eq_ok_iff.mp ⟨ess, hess⟩ (i, c) (mem_queries.mpr hi)
    exact ⟨es, reading_eq_ok_iff.mp hes⟩
  · intro hall
    have hess : ∃ ess, (plan.queries.mapM fun q => reading plan.predicate (fleet.get q.1) q.2) =
        .ok ess := by
      refine List.exists_mapM_eq_ok_iff.mpr ?_
      rintro ⟨i, c⟩ hq
      obtain ⟨es, hes⟩ := hall i (mem_queries.mp hq) c
      exact ⟨es, reading_eq_ok_iff.mpr hes⟩
    obtain ⟨ess, hess⟩ := hess
    exact ⟨_, Except.map_eq_ok_iff.mpr ⟨ess, hess, rfl⟩⟩

/-- **What a load finds is the union of what the planned sources say**: the rows seen are those
decoded from some catalog of some planned source. -/
theorem isUnion_of_load_eq_ok (hsources : plan.sources ≠ [])
    (hgrantees : plan.predicate.grantees ≠ [])
    (hsteady : ∀ i ∈ plan.sources, DataSource.Steady (statements plan.predicate) (fleet.get i))
    {found : Holdings} (hfound : (plan.load fleet).1 = .ok found) :
    ∃ seen, Holdings.IsUnion plan.predicate seen found ∧
      ∀ e, e ∈ seen ↔ ∃ i ∈ plan.sources, ∃ c es,
        Says plan.predicate (fleet.get i) c es ∧ e ∈ es := by
  rw [load_eq_collect hsources hgrantees,
    collect_eq (fun q hq => hsteady q.1 (mem_queries.mp hq)) (reached_refl _ _)] at hfound
  obtain ⟨ess, hess, rfl⟩ := Except.map_eq_ok_iff.mp hfound
  have hmem (e : Catalog.Entry) : e ∈ ess.flatten ↔
      ∃ i ∈ plan.sources, ∃ c es, Says plan.predicate (fleet.get i) c es ∧ e ∈ es := by
    rw [List.mem_flatten]
    constructor
    · rintro ⟨es, hes, he⟩
      obtain ⟨⟨i, c⟩, hq, hread⟩ := (List.mem_of_mapM_eq_ok hess).mp hes
      exact ⟨i, mem_queries.mp hq, c, es, reading_eq_ok_iff.mp hread, he⟩
    · rintro ⟨i, hi, c, es, hsays, he⟩
      refine ⟨es, (List.mem_of_mapM_eq_ok hess).mpr ⟨(i, c), mem_queries.mpr hi, ?_⟩, he⟩
      exact reading_eq_ok_iff.mpr hsays
  have hproper : ∀ e ∈ ess.flatten, e.grants.Proper := by
    intro e he
    obtain ⟨i, -, c, es, ⟨rows, -, hdecode⟩, he⟩ := (hmem e).mp he
    exact Catalog.proper_of_mem_decode hdecode he
  have hunion := (Holdings.isUnion_nil plan.predicate).absorbAll hproper
  rw [List.nil_append] at hunion
  exact ⟨ess.flatten, hunion, hmem⟩

/-- What is decoded from a catalog grants on the scopes of that catalog only. -/
theorem catalog_of_says {p : Predicate} {s : σ} {c : Catalog} {es : List Catalog.Entry}
    (h : Says p s c es) {e : Catalog.Entry} (he : e ∈ es) {scope : Scope} {q : Privilege}
    (hq : q ∈ e.grants.own scope) : scope.catalog = c := by
  obtain ⟨rows, -, hdecode⟩ := h
  exact Catalog.catalog_of_mem_decode hdecode he hq

/-- **A grantee holds what the rows for scopes of that kind grant**, of whichever planned source. -/
theorem mem_own_iff_of_load_eq_ok (hsources : plan.sources ≠ [])
    (hgrantees : plan.predicate.grantees ≠ [])
    (hsteady : ∀ i ∈ plan.sources, DataSource.Steady (statements plan.predicate) (fleet.get i))
    {found : Holdings} (hfound : (plan.load fleet).1 = .ok found) (g : Grantee) (scope : Scope)
    (q : Privilege) :
    q ∈ (found[g]?.getD ∅).own scope ↔ plan.predicate.contains g = true ∧
      ∃ i ∈ plan.sources, ∃ es, Says plan.predicate (fleet.get i) scope.catalog es ∧
        ∃ e ∈ es, e.grantee = g ∧ q ∈ e.grants.own scope := by
  obtain ⟨seen, hunion, hseen⟩ := isUnion_of_load_eq_ok hsources hgrantees hsteady hfound
  rw [hunion.mem_own_getD_iff]
  refine and_congr_right fun _ => ?_
  constructor
  · rintro ⟨e, he, hg, hq⟩
    obtain ⟨i, hi, c, es, hsays, he⟩ := (hseen e).mp he
    -- The row may have been seen in any catalog, but only this one grants on such a scope.
    obtain rfl := catalog_of_says hsays he hq
    exact ⟨i, hi, es, hsays, e, he, hg, hq⟩
  · rintro ⟨i, hi, es, hsays, e, he, hg, hq⟩
    exact ⟨e, (hseen e).mpr ⟨i, hi, scope.catalog, es, hsays, he⟩, hg, hq⟩

end Plan

namespace Holdings

/-- Without sources just the grantees asked for are known, and hold nothing. -/
theorem getElem?_blank (p : Predicate) (g : Grantee) :
    (blank p)[g]? = if p.contains g = true then some Grants.nothing else none := by
  rw [blank, getElem?_ofList_map_const]
  simp [Predicate.contains]

theorem proper_blank (p : Predicate) : Proper (blank p) := by
  intro g held hheld
  rw [getElem?_blank] at hheld
  split at hheld
  · obtain rfl := Option.some.inj hheld
    exact Grants.proper_nothing
  · cases hheld

end Holdings

namespace Plan

variable {σ : Type} [DataSource σ] {n : Nat}

/-- Some queries, of whichever sources and however they go on answering, leave no grantee with a
scope on which it holds nothing. -/
theorem proper_of_collect_eq_ok {p : Predicate} {queries : List (Fin n × Catalog)}
    {fleet : Fleet σ n} {found found' : Holdings} (hfound : found.Proper)
    (h : (collect p found fleet queries).1 = .ok found') : found'.Proper := by
  induction queries generalizing fleet found with
  | nil =>
    obtain rfl := Except.ok.inj h
    exact hfound
  | cons q queries ih =>
    obtain ⟨i, c⟩ := q
    cases hread : reading p (fleet.get i) c with
    | error e =>
      rw [collect_cons_of_error hread] at h
      cases h
    | ok es =>
      rw [collect_cons_of_ok hread] at h
      obtain ⟨rows, -, hdecode⟩ := reading_eq_ok_iff.mp hread
      have hes : ∀ e ∈ es, e.grants.Proper := fun e he => Catalog.proper_of_mem_decode hdecode he
      exact ih (hfound.absorbAll hes) h

/-- **No load leaves a grantee with a scope on which it holds nothing.** -/
theorem proper_of_load_eq_ok {plan : Plan n} {fleet : Fleet σ n} {found : Holdings}
    (h : (plan.load fleet).1 = .ok found) : found.Proper := by
  by_cases hsources : plan.sources = []
  · rw [load_of_sources_eq_nil hsources] at h
    obtain rfl := Except.ok.inj h
    exact Holdings.proper_blank plan.predicate
  by_cases hgrantees : plan.predicate.grantees = []
  · rw [load_of_grantees_eq_nil hsources hgrantees] at h
    obtain rfl := Except.ok.inj h
    exact Holdings.proper_empty
  · rw [load_eq_collect hsources hgrantees] at h
    exact proper_of_collect_eq_ok Holdings.proper_empty h

/-- **A load computes the union of the decoded rows.** If there is something to ask and someone to
ask about, it succeeds just if every planned source says something about every catalog. A grantee
is then known if it is asked for and some row of some source is about it; it holds a privilege on a
scope if some row for scopes of that kind grants it; and no other scope is known of it. Without
sources all grantees asked for are known and hold nothing; without grantees nobody is. -/
theorem load_eq_union (plan : Plan n) (fleet : Fleet σ n)
    (hsteady : ∀ i ∈ plan.sources, DataSource.Steady (statements plan.predicate) (fleet.get i)) :
    (plan.sources ≠ [] → plan.predicate.grantees ≠ [] →
      ((∃ found, (plan.load fleet).1 = .ok found) ↔
        ∀ i ∈ plan.sources, ∀ c, ∃ es, Says plan.predicate (fleet.get i) c es) ∧
      ∀ found, (plan.load fleet).1 = .ok found →
        (∀ g, g ∈ found ↔ plan.predicate.contains g = true ∧
          ∃ i ∈ plan.sources, ∃ c es, Says plan.predicate (fleet.get i) c es ∧
            ∃ e ∈ es, e.grantee = g) ∧
        ∀ (g : Grantee) (held : Grants), found[g]? = some held → ∀ scope,
          (∀ q, q ∈ held.own scope ↔
            ∃ i ∈ plan.sources, ∃ es, Says plan.predicate (fleet.get i) scope.catalog es ∧
              ∃ e ∈ es, e.grantee = g ∧ q ∈ e.grants.own scope) ∧
          ((held.find? scope).isSome = true ↔ ∃ q, q ∈ held.own scope)) ∧
    (plan.sources = [] → ∃ found, (plan.load fleet).1 = .ok found ∧
      ∀ g, found[g]? = if plan.predicate.contains g = true then some Grants.nothing else none) ∧
    (plan.sources ≠ [] → plan.predicate.grantees = [] → (plan.load fleet).1 = .ok ∅) := by
  refine ⟨fun hsources hgrantees => ⟨?_, ?_⟩, fun hsources => ?_, fun hsources hgrantees => ?_⟩
  · exact exists_load_eq_ok_iff hsources hgrantees hsteady
  · intro found hfound
    obtain ⟨seen, hunion, hseen⟩ := isUnion_of_load_eq_ok hsources hgrantees hsteady hfound
    refine ⟨fun g => ?_, fun g held hheld scope => ⟨fun q => ?_, ?_⟩⟩
    · rw [hunion.mem_iff]
      refine and_congr_right fun _ => ?_
      constructor
      · rintro ⟨e, he, hg⟩
        obtain ⟨i, hi, c, es, hsays, he⟩ := (hseen e).mp he
        exact ⟨i, hi, c, es, hsays, e, he, hg⟩
      · rintro ⟨i, hi, c, es, hsays, e, he, hg⟩
        exact ⟨e, (hseen e).mpr ⟨i, hi, c, es, hsays, he⟩, hg⟩
    · have hown := mem_own_iff_of_load_eq_ok hsources hgrantees hsteady hfound g scope q
      rw [hheld, Option.getD_some, and_iff_right (hunion.contains_of_getElem? hheld)] at hown
      exact hown
    · exact Grants.isSome_find?_iff (hunion.proper g held hheld)
  · refine ⟨Holdings.blank plan.predicate, ?_, Holdings.getElem?_blank plan.predicate⟩
    rw [load_of_sources_eq_nil hsources]
  · rw [load_of_grantees_eq_nil hsources hgrantees]

/-- The grantee `ann`, on every host. -/
def ann : Grantee := ⟨"ann", "%"⟩

/-- A row that lets `ann` read and fill the table `orders` of the schema `shop`. -/
def shopRows : ResultSet :=
  .ofRows ["User", "Host", "Db", "Table_name", "Table_priv"]
    [[.text "ann", .text "%", .text "shop", .text "orders", .text "Select, Insert"]]

/-- An instance that knows just this row. -/
def shop : Source := ⟨"shop:3306", .ofList [("mysql.tables_priv", shopRows)], false, []⟩

/-- What the row says. -/
def shopEntry : Catalog.Entry :=
  ⟨ann, Grants.nothing.addAll (.table "shop" "orders") [.select, .insert]⟩

/-- The plan that asks an only instance for `ann`. -/
def annPlan : Plan 1 := ⟨[0], ⟨[ann]⟩⟩

/-- The fleet of this instance alone. -/
def shopFleet : Fleet Source 1 := #v[shop]

/-- What `ann` is let do with one table, she is let do nowhere else. -/
theorem load_eq_union_shop :
    (∀ i ∈ annPlan.sources,
        DataSource.Steady (statements annPlan.predicate) (shopFleet.get i)) ∧
      annPlan.sources ≠ [] ∧ annPlan.predicate.grantees ≠ [] ∧
      ∃ found held, (annPlan.load shopFleet).1 = .ok found ∧ found[ann]? = some held ∧
        .insert ∈ held.own (.table "shop" "orders") ∧ ¬.insert ∈ held.own .server := by
  have hsteady : ∀ i ∈ annPlan.sources,
      DataSource.Steady (statements annPlan.predicate) (shopFleet.get i) :=
    fun i _ => Source.steady _ _
  have hsources : annPlan.sources ≠ [] := by decide
  have hgrantees : annPlan.predicate.grantees ≠ [] := by decide
  -- What the three catalogs say: nothing about the server and about schemas, one row about tables.
  have hserver : Says annPlan.predicate shop .server [] :=
    ⟨.empty, by decide +kernel, by decide +kernel⟩
  have hschema : Says annPlan.predicate shop .schema [] :=
    ⟨.empty, by decide +kernel, by decide +kernel⟩
  have htable : Says annPlan.predicate shop .table [shopEntry] :=
    ⟨shopRows, by decide +kernel, by decide +kernel⟩
  obtain ⟨hunion, -, -⟩ := load_eq_union annPlan shopFleet hsteady
  obtain ⟨hok, hfound⟩ := hunion hsources hgrantees
  have hall : ∀ i ∈ annPlan.sources, ∀ c, ∃ es,
      Says annPlan.predicate (shopFleet.get i) c es := by
    intro i hi c
    obtain rfl : i = 0 := by simpa [annPlan] using hi
    cases c with
    | server => exact ⟨_, hserver⟩
    | schema => exact ⟨_, hschema⟩
    | table => exact ⟨_, htable⟩
  obtain ⟨found, hload⟩ := hok.mpr hall
  obtain ⟨hmem, hheld⟩ := hfound found hload
  have hann : ann ∈ found :=
    (hmem ann).mpr ⟨by decide, 0, by decide, .table, [shopEntry], htable, shopEntry, by simp, rfl⟩
  obtain ⟨held, hget⟩ := Option.isSome_iff_exists.mp
    (Std.ExtTreeMap.mem_iff_isSome_getElem?.mp hann)
  refine ⟨hsteady, hsources, hgrantees, found, held, hload, hget, ?_, ?_⟩
  · refine ((hheld ann held hget (.table "shop" "orders")).1 .insert).mpr ?_
    exact ⟨0, by decide, [shopEntry], htable, shopEntry, by simp, rfl, by decide +kernel⟩
  · intro h
    obtain ⟨i, hi, es, hsays, e, he, -, -⟩ := ((hheld ann held hget .server).1 .insert).mp h
    obtain rfl : i = 0 := by simpa [annPlan] using hi
    have hes : Except.ok es = Except.ok [] :=
      (reading_eq_ok_iff.mpr hsays).symm.trans (reading_eq_ok_iff.mpr hserver)
    obtain rfl := Except.ok.inj hes
    cases he

end Plan

end GrantCatalog
