import GrantCatalog.Command.Run
import GrantCatalog.Proofs.Grants
import GrantCatalog.Proofs.Json
import GrantCatalog.Proofs.Order

/-!
# Reports in JSON tell everything

A program that reads a report learns from it what the report was made of. To say so there has to be
a reader, which knows nothing of how reports are made but the names of their fields:
`GrantCatalog.Report.holding?` reads what a grantee holds, and gives back grants.

What is read back are the grants that were printed: the same privileges on the server, and the same
schemas and tables with the same privileges (`GrantCatalog.Grants.Same`), whatever their names are.
Since nothing else can be told of grants, two reports about one grantee have the same text just if
the same was reported (`GrantCatalog.Report.read_back`).
-/

namespace GrantCatalog

theorem Privilege.ofIdentifier?_name (p : Privilege) : ofIdentifier? p.name = some p := by
  cases p <;> rfl

theorem Privilege.ofJson?_toJson (p : Privilege) : ofJson? p.toJson = some p := p.ofIdentifier?_name

/-! ### The same grants -/

namespace Grants

/-- **The same grants**: the same privileges on the server, and the same schemas and tables with the
same privileges. -/
structure Same (a b : Grants) : Prop where
  server : a.own .server = b.own .server
  schema : ∀ s, a.find? (.schema s) = b.find? (.schema s)
  table : ∀ s t, a.find? (.table s t) = b.find? (.table s t)

variable {a b c : Grants}

theorem Same.symm (h : a.Same b) : b.Same a :=
  ⟨h.server.symm, fun s => (h.schema s).symm, fun s t => (h.table s t).symm⟩

theorem Same.trans (h : a.Same b) (h' : b.Same c) : a.Same c :=
  ⟨h.server.trans h'.server, fun s => (h.schema s).trans (h'.schema s),
    fun s t => (h.table s t).trans (h'.table s t)⟩

/-- Under the invariant, the same grants are equal. -/
theorem Same.eq_of_proper (h : a.Same b) (ha : a.Proper) (hb : b.Proper) : a = b := by
  refine (ha.eq_iff hb).mpr fun s p => ?_
  cases s with
  | server => rw [h.server]
  | schema s => rw [own, own, h.schema]
  | table s t => rw [own, own, h.table]

/-- What is entered for some privileges on the server, on schemas and on tables. -/
def parts (server : PrivilegeSet) (schemas : Std.ExtTreeMap String PrivilegeSet)
    (tables : List (String × String × PrivilegeSet)) : List (Scope × PrivilegeSet) :=
  (if server.isEmpty then [] else [(.server, server)]) ++
    (schemas.toList.map fun (s, ps) => (.schema s, ps)) ++
    tables.map fun (s, t, ps) => (.table s t, ps)

/-- The grants made up of these parts. -/
def ofParts (server : PrivilegeSet) (schemas : Std.ExtTreeMap String PrivilegeSet)
    (tables : List (String × String × PrivilegeSet)) : Grants :=
  ⟨.ofList (parts server schemas tables)⟩

section

variable {server ps : PrivilegeSet} {schemas : Std.ExtTreeMap String PrivilegeSet}
variable {tables : List (String × String × PrivilegeSet)}

theorem mem_parts_server :
    (.server, ps) ∈ parts server schemas tables ↔ ¬server.isEmpty = true ∧ ps = server := by
  by_cases h : server.isEmpty = true <;> simp [parts, h]

theorem mem_parts_schema {s : String} :
    (.schema s, ps) ∈ parts server schemas tables ↔ schemas[s]? = some ps := by
  rw [← Std.ExtTreeMap.mem_toList_iff_getElem?_eq_some]
  by_cases h : server.isEmpty = true <;> simp [parts, h]

theorem mem_parts_table {s t : String} :
    (.table s t, ps) ∈ parts server schemas tables ↔ (s, t, ps) ∈ tables := by
  by_cases h : server.isEmpty = true <;> simp [parts, h]

variable (htables : (tables.map fun e => (e.1, e.2.1)).Nodup)
include htables

theorem nodup_parts : ((parts server schemas tables).map Prod.fst).Nodup := by
  have hserver :
      ((if server.isEmpty then [] else [(Scope.server, server)]).map Prod.fst).Nodup := by
    split <;> simp
  have hschemas :
      ((schemas.toList.map fun (s, ps) => (Scope.schema s, ps)).map Prod.fst).Nodup := by
    rw [List.map_map]
    refine List.pairwise_map.mpr (Std.ExtTreeMap.distinct_keys_toList.imp fun hne he => hne ?_)
    exact Std.LawfulEqOrd.compare_eq_iff_eq.mpr (Scope.schema.inj he)
  have htables' : ((tables.map fun (s, t, ps) => (Scope.table s t, ps)).map Prod.fst).Nodup := by
    rw [List.map_map]
    refine List.pairwise_map.mpr ((List.pairwise_map.mp htables).imp fun hne he => hne ?_)
    exact Prod.ext_iff.mpr (Scope.table.inj he)
  rw [parts, List.map_append, List.map_append]
  -- Scopes of different kinds are different.
  refine (hserver.append hschemas ?_).append htables' ?_ <;>
  · intro s hs hs'
    simp only [List.map_map, List.mem_map, Function.comp_apply] at hs'
    obtain ⟨e, -, rfl⟩ := hs'
    split at hs <;> simp at hs

theorem find?_ofParts_iff {s : Scope} :
    (ofParts server schemas tables).find? s = some ps ↔ (s, ps) ∈ parts server schemas tables :=
  getElem?_ofList_iff (nodup_parts htables)

theorem own_ofParts_server : (ofParts server schemas tables).own .server = server := by
  have hfind (ps : PrivilegeSet) : (ofParts server schemas tables).find? .server = some ps ↔
      ¬server.isEmpty = true ∧ ps = server :=
    (find?_ofParts_iff htables).trans mem_parts_server
  by_cases hempty : server.isEmpty = true
  · have hnone : (ofParts server schemas tables).find? .server = none :=
      Option.eq_none_iff_forall_ne_some.mpr fun ps h => ((hfind ps).mp h).1 hempty
    rw [own, hnone]
    exact (Std.ExtTreeSet.isEmpty_iff.mp hempty).symm
  · rw [own, (hfind server).mpr ⟨hempty, rfl⟩]
    rfl

end

/-- Grants put together again from what is listed of them. -/
def rebuilt (a : Grants) : Grants := ofParts (a.own .server) (.ofList a.schemas) a.tables

/-- **Grants put together again are the same.** -/
theorem same_rebuilt (a : Grants) : a.Same a.rebuilt where
  server := (own_ofParts_server a.nodup_tables).symm
  schema s := Option.ext fun ps => by
    rw [rebuilt, find?_ofParts_iff a.nodup_tables, mem_parts_schema,
      getElem?_ofList_iff a.nodup_schemas, mem_schemas]
  table s t := Option.ext fun ps => by
    rw [rebuilt, find?_ofParts_iff a.nodup_tables, mem_parts_table, mem_tables]

/-- Under the invariant, they are equal. -/
theorem rebuilt_eq (ha : a.Proper) : a.rebuilt = a := by
  refine ((same_rebuilt a).eq_of_proper ha fun s ps h => ?_).symm
  rw [rebuilt, find?_ofParts_iff a.nodup_tables] at h
  cases s with
  | server =>
    obtain ⟨hne, rfl⟩ := mem_parts_server.mp h
    exact not_forall_not.mp (mt PrivilegeSet.isEmpty_iff_forall.mpr hne)
  | schema s =>
    rw [mem_parts_schema, getElem?_ofList_iff a.nodup_schemas, mem_schemas] at h
    exact ha _ ps h
  | table s t =>
    rw [mem_parts_table, mem_tables] at h
    exact ha _ ps h

end Grants

namespace Report

/-! ### Reading -/

/-- The set of privileges that a JSON value lists. -/
def set? (j : Json) : Option PrivilegeSet := (j.list? Privilege.ofJson?).map fun ps => .ofList ps

/-- The table that a JSON value is about, and what is held on it. -/
def table? (j : Json) : Option (String × String × PrivilegeSet) :=
  match j.record? ["schema", "table", "privileges"] with
  | some [s, t, ps] => do
    let s ← Json.required? Json.string? s
    let t ← Json.required? Json.string? t
    let ps ← Json.required? set? ps
    return (s, t, ps)
  | _ => none

/-- The grants that a JSON value stands for. -/
def grants? (j : Json) : Option Grants :=
  match j.record? ["global", "schemas", "tables"] with
  | some [server, schemas, tables] => do
    let server ← Json.required? set? server
    let schemas ← Json.required? (Json.map? set?) schemas
    let tables ← Json.required? (Json.list? table?) tables
    return .ofParts server schemas tables
  | _ => none

/-- **What a JSON value says that a grantee holds**, `none` standing for an unknown grantee. -/
def holding? (j : Json) : Option (String × Option Grants) :=
  match j.record? ["grantee", "privileges"] with
  | some [g, held] => do
    let g ← Json.required? Json.string? g
    match held with
    | some .null => return (g, none)
    | held =>
      let held ← Json.required? grants? held
      return (g, some held)
  | _ => none

theorem set?_setJson (ps : PrivilegeSet) : set? (setJson ps) = some ps := by
  rw [set?, setJson, Json.list?_map Privilege.ofJson?_toJson]
  refine congrArg some (Std.ExtTreeSet.ext_mem fun p => ?_)
  rw [Std.ExtTreeSet.mem_ofList, List.contains_iff_mem, List.map_id', Std.ExtTreeSet.mem_toList]

theorem table?_dict (e : String × String × PrivilegeSet) :
    table? (.dict [("privileges", setJson e.2.2), ("schema", .str e.1), ("table", .str e.2.1)]) =
      some e := by
  obtain ⟨s, t, ps⟩ := e
  have hrecord : (Json.dict [("privileges", setJson ps), ("schema", .str s),
      ("table", .str t)]).record? ["schema", "table", "privileges"] =
        some [some (.str s), some (.str t), some (setJson ps)] := rfl
  rw [table?, hrecord]
  simp [Json.required?, Json.string?, Json.str, set?_setJson]

theorem grants?_grantsJson (a : Grants) :
    grants? (grantsJson a) = some a.rebuilt := by
  have hrecord : (grantsJson a).record? ["global", "schemas", "tables"] =
      some [some (setJson (a.own .server)),
        some (.dict (a.schemas.map fun (s, ps) => (s, setJson ps))),
        some (.array (a.tables.map fun (s, t, ps) =>
          .dict [("privileges", setJson ps), ("schema", .str s), ("table", .str t)]))] := rfl
  rw [grants?, hrecord]
  simp [Json.required?, set?_setJson, Json.map?_dict set?_setJson, Json.list?_map table?_dict,
    Grants.rebuilt]

/-- **What a grantee holds is read back.** -/
theorem holding?_holdingsJson (g : Grantee) (held : Option Grants) :
    holding? (holdingsJson g held) = some (g.display, held.map Grants.rebuilt) := by
  have hrecord : (holdingsJson g held).record? ["grantee", "privileges"] =
      some [some (.str g.display), some ((held.map grantsJson).getD .null)] := rfl
  rw [holding?, hrecord]
  cases held with
  | none => rfl
  | some a =>
    change ((Json.required? grants? (some (grantsJson a))).bind fun held =>
      some (g.display, some held)) = _
    rw [Json.required?, Option.bind_some, grants?_grantsJson]
    rfl

/-! ### Printing -/

/-- A verdict printed in JSON is read back, and the line feed after it does not matter. -/
theorem read?_verdict (g : Grantee) (scope : Scope) (required : List Privilege)
    (allowed : Bool) :
    Json.read? ((verdict g scope required allowed).render .json ++ "\n") =
      some (verdictJson g scope required allowed) := by
  have htext : (verdict g scope required allowed).render .json ++ "\n" =
      .ofList (Json.print .compact (verdictJson g scope required allowed) ++ ['\n']) := by
    rw [String.ofList_append]
    rfl
  rw [htext]
  exact Json.read?_print _ .compact rfl

/-- A value with one part to a line is read back. -/
theorem read?_pretty (j : Json) : Json.read? j.pretty = some j := by
  have hread : Json.read? (.ofList (Json.print (.indented 0) j ++ [])) = some j :=
    Json.read?_print j (.indented 0) rfl
  rwa [List.append_nil] at hread

theorem read?_holdings (g : Grantee) (held : Option Grants) :
    Json.read? ((holdings g held).render .json) = some (holdingsJson g held) :=
  read?_pretty _

theorem read?_listing (rows : List (Grantee × Option Grants)) :
    Json.read? ((listing rows).render .json) = some (listingJson rows) :=
  read?_pretty _

/-- The same grants are printed alike. -/
theorem grantsJson_congr {a b : Grants} (h : a.Same b) : grantsJson a = grantsJson b := by
  rw [grantsJson, grantsJson, h.server, Grants.schemas_congr h.schema, Grants.tables_congr h.table]

/-! ### Reports -/

variable {g : Grantee} {held held' : Option Grants}

/-- **Reports about one grantee have the same text just if the same is reported.** -/
theorem render_holdings_eq_iff :
    (holdings g held).render .json = (holdings g held').render .json ↔
      Option.Rel Grants.Same held held' := by
  constructor
  · intro h
    have hjson : holdingsJson g held = holdingsJson g held' := by
      refine Option.some.inj ?_
      rw [← read?_holdings, ← read?_holdings, h]
    have hread : held.map Grants.rebuilt = held'.map Grants.rebuilt := by
      have hboth := congrArg holding? hjson
      rw [holding?_holdingsJson, holding?_holdingsJson] at hboth
      exact (Prod.mk.inj (Option.some.inj hboth)).2
    cases held with
    | none =>
      cases held' with
      | none => exact .none
      | some b => cases hread
    | some a =>
      cases held' with
      | none => cases hread
      | some b =>
        have hrebuilt : a.rebuilt = b.rebuilt := Option.some.inj hread
        exact .some ((hrebuilt ▸ a.same_rebuilt).trans b.same_rebuilt.symm)
  · intro h
    cases h with
    | none => rfl
    | some h =>
      rw [render, render, holdingsJson, holdingsJson, Option.map_some, Option.map_some,
        grantsJson_congr h]

/-- Under the invariant, reports have the same text just if what is reported is equal. -/
theorem render_holdings_inj (hheld : ∀ a, held = some a → a.Proper)
    (hheld' : ∀ a, held' = some a → a.Proper) :
    (holdings g held).render .json = (holdings g held').render .json ↔ held = held' := by
  constructor
  · intro h
    cases render_holdings_eq_iff.mp h with
    | none => rfl
    | some hsame => exact congrArg some (hsame.eq_of_proper (hheld _ rfl) (hheld' _ rfl))
  · rintro rfl
    rfl

/-- What is read back of a report. -/
theorem same_map_rebuilt (held : Option Grants) :
    Option.Rel Grants.Same held (held.map Grants.rebuilt) := by
  cases held with
  | none => exact .none
  | some a => exact .some a.same_rebuilt

theorem map_rebuilt_eq (hheld : ∀ a, held = some a → a.Proper) :
    held.map Grants.rebuilt = held := by
  cases held with
  | none => rfl
  | some a => exact congrArg some (Grants.rebuilt_eq (hheld a rfl))

/-- The items of a list are what the single reports are read back as. -/
theorem reads_rows (rows : List (Grantee × Option Grants)) :
    List.Forall₂ (fun row j => Json.read? ((holdings row.1 row.2).render .json) = some j) rows
      (rows.map fun (g, held) => holdingsJson g held) :=
  List.forall₂_map_right_iff.mpr (List.forall₂_same.mpr fun row _ => read?_holdings row.1 row.2)

/-- **Reports in JSON tell everything.** A report about a grantee is the text of one value, from
which the grantee and the same grants are read back, or that nothing is known; two such reports have
the same text just if the same grants were reported, or equal ones, under the invariant. A list has
the value of each single report, in order and with repetitions, and so has the answer to the command
for it. -/
theorem read_back :
    (∀ g held, ∃ j held', Json.read? ((holdings g held).render .json) = some j ∧
      holding? j = some (g.display, held') ∧ Option.Rel Grants.Same held held' ∧
      ((∀ a, held = some a → a.Proper) → held' = held)) ∧
    (∀ g held held', (holdings g held).render .json = (holdings g held').render .json ↔
      Option.Rel Grants.Same held held') ∧
    (∀ g held held', (∀ a, held = some a → a.Proper) → (∀ a, held' = some a → a.Proper) →
      ((holdings g held).render .json = (holdings g held').render .json ↔ held = held')) ∧
    (∀ rows, ∃ js, Json.read? ((listing rows).render .json) = some (.array js) ∧
      List.Forall₂ (fun row j => Json.read? ((holdings row.1 row.2).render .json) = some j)
        rows js) ∧
    ∀ (users : List User) (p : Provider), ∃ report js, Command.list.report users p = .ok report ∧
      Json.read? (report.render .json) = some (.array js) ∧
      List.Forall₂ (fun u j =>
        Json.read? ((holdings u.grantee (p.find? u.grantee)).render .json) = some j) users js := by
  refine ⟨fun g held => ?_, fun g held held' => render_holdings_eq_iff,
    fun g held held' => render_holdings_inj, fun rows => ?_, fun users p => ?_⟩
  · exact ⟨_, _, read?_holdings g held, holding?_holdingsJson g held, same_map_rebuilt held,
      map_rebuilt_eq⟩
  · exact ⟨_, read?_listing rows, reads_rows rows⟩
  · let rows := users.map fun u => (u.grantee, p.find? u.grantee)
    have hrows := reads_rows rows
    rw [List.forall₂_map_left_iff] at hrows
    exact ⟨.listing rows, _, rfl, read?_listing rows, hrows⟩

/-- Grants on a table with a name that has to be escaped. -/
def quoted : Grants := Grants.nothing.addAll (.table "a\"b" "c\\\n") [.select, .createView]

/-- What is reported of it is read back, and is no report of an unknown grantee. -/
theorem read_back_quoted :
    quoted.Proper ∧ ∃ j, Json.read? ((holdings ⟨"ann", "%"⟩ (some quoted)).render .json) = some j ∧
      holding? j = some ("ann@%", some quoted) ∧
      (holdings ⟨"ann", "%"⟩ (some quoted)).render .json ≠
        (holdings ⟨"ann", "%"⟩ none).render .json := by
  have hproper : quoted.Proper := Grants.proper_nothing.addAll _ _
  obtain ⟨hread, -, hinj, -⟩ := read_back
  obtain ⟨j, held', hj, hholding, -, heq⟩ := hread ⟨"ann", "%"⟩ (some quoted)
  have hall : ∀ a, some quoted = some a → a.Proper := by
    rintro a ⟨⟩
    exact hproper
  have hnone : ∀ a : Grants, none = some a → a.Proper := fun a h => by cases h
  refine ⟨hproper, j, hj, ?_, fun h => ?_⟩
  · rw [hholding, heq hall]
    rfl
  · cases (hinj _ _ _ hall hnone).mp h

end Report

end GrantCatalog
