import GrantCatalog.Proofs.Access
import GrantCatalog.Proofs.CommandLine
import GrantCatalog.Proofs.Report
import GrantCatalog.Proofs.Run

/-!
# What a check asks

Which scope a check is made on is settled in two places: by what its command line says, in any order
and spelling, and by a choice between schema and table in which everything that is not foreseen
becomes the whole server (`GrantCatalog.Scope.selected`). The one thing to know is that the two fit
together: a table without a schema is never read
(`GrantCatalog.Scope.ofParts?_eq_some_iff`), so nothing but a check without a schema and a table is
made on the server.

Questions about narrower scopes are easier to answer with yes. One option more is either refused or
makes the scope of a check narrower (`GrantCatalog.Arguments.parse_oneMore_eq_ok_iff`), and a run
answers a check on a narrower scope from the same grants
(`GrantCatalog.Arguments.exists_run_of_mem_enclosing`). So whoever asks for more detail is not
refused what is permitted in general (`GrantCatalog.Arguments.parse_check_scope`).
-/

namespace GrantCatalog

/-! ### Schemas and tables -/

namespace Scope

variable {schema table : Option String} {scope : Scope} {s t : String}

/-- The scope that a schema and a table select if a table is looked at next to a schema only.
Without a schema it is the whole server. -/
def selected : Option String → Option String → Scope
  | some s, some t => .table s t
  | some s, none => .schema s
  | _, _ => .server

/-- **No table is given without a schema**, where there is a scope at all. -/
theorem ofParts?_eq_some_iff : ofParts? schema table = some scope ↔
    (table ≠ none → schema ≠ none) ∧ scope = selected schema table := by
  cases schema <;> cases table <;> simp [ofParts?, selected, eq_comm]

theorem selected_eq_server_iff (h : table ≠ none → schema ≠ none) :
    selected schema table = server ↔ schema = none ∧ table = none := by
  cases schema <;> cases table <;> simp_all [selected]

theorem selected_eq_schema_iff :
    selected schema table = .schema s ↔ schema = some s ∧ table = none := by
  cases schema <;> cases table <;> simp [selected]

theorem selected_eq_table_iff :
    selected schema table = .table s t ↔ schema = some s ∧ table = some t := by
  cases schema <;> cases table <;> simp [selected]

end Scope

namespace Arguments

variable {a a' : Arguments} {w : Surroundings} {out : Outcome} {who : String} {names : List String}
variable {scope scope' : Scope}

/-! ### Answers -/

/-- What a check prints names its scope. -/
theorem exists_of_run_check (hcommand : a.command = .check who names scope)
    (hrun : a.run w = .ok out) : ∃ users p g required, a.loaded w = .ok (users, p) ∧
      Grantee.parse who = .ok g ∧ names.mapM Privilege.parse = .ok required ∧
      out.allowed = (p.find? g).any (·.permits scope required) ∧
      (a.format = .table → out.output = Report.commas (required.map Privilege.name) ++ " on "
        ++ scope.display ++ " for " ++ g.display ++ ": "
        ++ (if out.allowed then "ALLOWED" else "DENIED") ++ "\n") ∧
      (a.format = .json → ∃ ms, Json.read? out.output = some (.dict ms) ∧
        Json.field? ms "scope" = some (some (.str scope.display))) := by
  obtain ⟨report, hreport, rfl⟩ := run_eq_ok_iff.mp hrun
  obtain ⟨users, p, g, required, hloaded, hg, hrequired, rfl⟩ :=
    (evaluate_eq_ok_iff_of_check hcommand).mp hreport
  refine ⟨users, p, g, required, hloaded, hg, hrequired, rfl, fun hformat => ?_, fun hformat => ?_⟩
  · rw [hformat]
    rfl
  · rw [hformat]
    exact ⟨_, Report.read?_verdict g scope required _, rfl⟩

/-- **A check inside the scope of another one** is answered if that is, and allowed if that is. -/
theorem exists_run_of_mem_enclosing (hcommand : a.command = .check who names scope)
    (hscope : scope ∈ scope'.enclosing) (hrun : a.run w = .ok out) :
    ∃ out', { a with command := .check who names scope' }.run w = .ok out' ∧
      (out.allowed = true → out'.allowed = true) := by
  obtain ⟨report, hreport, rfl⟩ := run_eq_ok_iff.mp hrun
  obtain ⟨users, p, g, required, hloaded, hg, hrequired, rfl⟩ :=
    (evaluate_eq_ok_iff_of_check hcommand).mp hreport
  have hreport' : { a with command := .check who names scope' }.evaluate w = .ok _ :=
    (evaluate_eq_ok_iff_of_check rfl).mpr ⟨users, p, g, required, hloaded, hg, hrequired, rfl⟩
  refine ⟨_, run_eq_ok_iff.mpr ⟨_, hreport', rfl⟩, fun hallowed => ?_⟩
  have hmono (held : Option Grants) (h : held.any (·.permits scope required) = true) :
      held.any (·.permits scope' required) = true := by
    cases held with
    | none => cases h
    | some held => exact Grants.permits_of_mem_enclosing hscope h
  exact hmono _ hallowed

end Arguments

/-! ### Command lines for checks -/

namespace Command

variable {s : Seen} {place : Place} {command : Command} {who : String} {names : List String}
variable {scope : Scope}

theorem place_eq_of_ofSeen (h : ofSeen place s = .ok (.check who names scope)) :
    place = .check := by
  rcases place with _ | _ | _ | _
  · cases h
  · simp only [ofSeen] at h
    split at h <;> cases h
  · rfl
  · cases h

/-- What comes to a check: a grantee, some privileges, and a scope. -/
theorem ofSeen_check_eq_ok_iff : ofSeen .check s = .ok command ↔
    ∃ who names scope, s.words = who :: names ∧ names ≠ [] ∧
      Scope.ofParts? (s.value? .schema) (s.value? .table) = some scope ∧
      command = .check who names scope := by
  constructor
  · intro h
    simp only [ofSeen] at h
    split at h
    · next g p ps scope hwords hscope =>
      exact ⟨g, p :: ps, scope, hwords, List.cons_ne_nil p ps, hscope, (Except.ok.inj h).symm⟩
    · cases h
  · rintro ⟨who, names, scope, hwords, hnames, hscope, rfl⟩
    obtain ⟨p, ps, rfl⟩ := List.exists_cons_of_ne_nil hnames
    simp only [ofSeen]
    rw [hwords, hscope]

end Command

theorem Place.mem_options_check {f : Switch} : f ∈ check.options ↔ f = .schema ∨ f = .table := by
  cases f <;> decide

/-- The options of a check are given once, with any value. -/
theorem Switch.of_mem_options_check {f : Switch} (hf : f ∈ Place.check.options) :
    f.letter? = none ∧ f.repeatable = false ∧ ∀ v, f.accepts v = true := by
  obtain rfl | rfl := Place.mem_options_check.mp hf
  · exact ⟨rfl, rfl, fun _ => rfl⟩
  · exact ⟨rfl, rfl, fun _ => rfl⟩

namespace Arguments

variable {a a' : Arguments} {args top inner inner' words : List String}
variable {outer values : List (Switch × String)} {given : Switch → Option String}
variable {who : String} {names : List String} {scope : Scope} {f : Switch} {v : String}

/-- **What a command line for a check comes to**, given the values of its options. -/
theorem parse_check_eq_ok_iff (htop : "--" ∉ top) (houter : Place.top.Says top outer [])
    (haccepted : Accepted outer) (hinner : Place.check.Says inner values words)
    (hgiven : ∀ f ∈ Place.check.options, ∀ v, given f = some v ↔ (f, v) ∈ values) :
    parse (top ++ "check" :: inner) = .ok a ↔ Accepted values ∧
      ∃ who names scope, words = who :: names ∧ names ≠ [] ∧
        Scope.ofParts? (given .schema) (given .table) = some scope ∧
        a = ofSeen ⟨outer, [], .none⟩ (.check who names scope) := by
  rw [parse_eq_ok_iff_of_said rfl htop houter haccepted hinner]
  refine and_congr_right fun hvalues => ?_
  have hvalue {f : Switch} (hf : f ∈ Place.check.options) :
      Seen.value? ⟨values, words, .none⟩ f = given f := by
    have hrepeatable := (Switch.of_mem_options_check hf).2.1
    refine Option.ext fun v => ?_
    rw [Seen.value?_eq_some_iff hvalues hrepeatable, hgiven f hf v]
  have hroom : Place.check.HasRoom 0 words := fun _ _ => rfl
  have hschema : Switch.schema ∈ Place.check.options := by decide
  have htable : Switch.table ∈ Place.check.options := by decide
  simp only [and_iff_right hroom, Command.ofSeen_check_eq_ok_iff, hvalue hschema, hvalue htable]
  constructor
  · rintro ⟨-, ⟨who, names, scope, hwords, hnames, hscope, rfl⟩, rfl⟩
    exact ⟨who, names, scope, hwords, hnames, hscope, rfl⟩
  · rintro ⟨who, names, scope, hwords, hnames, hscope, rfl⟩
    exact ⟨_, ⟨who, names, scope, hwords, hnames, hscope, rfl⟩, rfl⟩

/-- **A check with one option more** is read just if the option was not given before and the options
still select a scope; everything else is as before. -/
theorem parse_oneMore_eq_ok_iff (htop : "--" ∉ top) (houter : Place.top.Says top outer [])
    (haccepted : Accepted outer) (hinner : Place.check.Says inner values (who :: names))
    (hvalues : Accepted values) (hnames : names ≠ [])
    (hgiven : ∀ f ∈ Place.check.options, ∀ v, given f = some v ↔ (f, v) ∈ values)
    (hmore : Place.check.OneMore f v inner inner') :
    parse (top ++ "check" :: inner') = .ok a ↔ given f = none ∧ ∃ scope,
      Scope.ofParts? (Function.update given f (some v) .schema)
        (Function.update given f (some v) .table) = some scope ∧
      a = ofSeen ⟨outer, [], .none⟩ (.check who names scope) := by
  obtain ⟨-, hrepeatable, haccepts⟩ := Switch.of_mem_options_check hmore.mem_options
  obtain ⟨values', hperm, hinner'⟩ := hinner.oneMore hmore
  have hnone : Accepted values' ↔ given f = none := by
    have hconcat : Accepted values' ↔ Accepted (values ++ [(f, v)]) :=
      ⟨fun h => h.perm hperm.symm, fun h => h.perm hperm⟩
    rw [hconcat, accepted_concat_iff hvalues, and_iff_left (haccepts v),
      Option.eq_none_iff_forall_ne_some]
    simp only [hrepeatable, true_implies, Ne, hgiven f hmore.mem_options]
  have hgiven' (hunset : given f = none) : ∀ f' ∈ Place.check.options, ∀ v',
      Function.update given f (some v) f' = some v' ↔ (f', v') ∈ values' := by
    intro f' hf' v'
    rw [hperm.mem_iff, List.mem_append, List.mem_singleton, ← hgiven f' hf']
    by_cases hsame : f' = f
    · subst hsame
      simp [hunset, eq_comm]
    · simp [hsame]
  constructor
  · intro h
    have hvalues' := ((parse_eq_ok_iff_of_said rfl htop houter haccepted hinner').mp h).1
    have hunset := hnone.mp hvalues'
    obtain ⟨-, who', names', scope, hwords, -, hscope, rfl⟩ :=
      (parse_check_eq_ok_iff htop houter haccepted hinner' (hgiven' hunset)).mp h
    obtain ⟨rfl, rfl⟩ := List.cons.inj hwords
    exact ⟨hunset, scope, hscope, rfl⟩
  · rintro ⟨hunset, scope, hscope, rfl⟩
    exact (parse_check_eq_ok_iff htop houter haccepted hinner' (hgiven' hunset)).mpr
      ⟨hnone.mpr hunset, who, names, scope, rfl, hnames, hscope, rfl⟩

/-- A schema more makes a check on the server one on the schema. -/
theorem ofParts?_schema_eq_some_iff (h : given .table ≠ none → given .schema ≠ none)
    (hunset : given .schema = none) :
    Scope.ofParts? (Function.update given .schema (some v) .schema)
      (Function.update given .schema (some v) .table) = some scope ↔ scope = .schema v := by
  have htable : given .table = none := by
    by_contra hne
    exact h hne hunset
  simp [Scope.ofParts?, htable, eq_comm]

/-- A table more makes a check on a schema one on the table. -/
theorem ofParts?_table_eq_some_iff :
    Scope.ofParts? (Function.update given .table (some v) .schema)
      (Function.update given .table (some v) .table) = some scope ↔
        ∃ s, given .schema = some s ∧ scope = .table s v := by
  cases hschema : given .schema <;> simp [Scope.ofParts?, hschema, eq_comm]

/-- One option more makes the scope narrower. -/
theorem mem_enclosing_of_update {scope' : Scope} (hf : f ∈ Place.check.options)
    (hscope : Scope.ofParts? (given .schema) (given .table) = some scope) (hunset : given f = none)
    (hscope' : Scope.ofParts? (Function.update given f (some v) .schema)
      (Function.update given f (some v) .table) = some scope') : scope ∈ scope'.enclosing := by
  obtain ⟨hrequires, rfl⟩ := Scope.ofParts?_eq_some_iff.mp hscope
  obtain rfl | rfl := Place.mem_options_check.mp hf
  · obtain rfl := (ofParts?_schema_eq_some_iff hrequires hunset).mp hscope'
    rw [hunset]
    exact List.mem_cons_self
  · obtain ⟨s, hs, rfl⟩ := ofParts?_table_eq_some_iff.mp hscope'
    rw [hs, hunset]
    simp [Scope.selected, Scope.enclosing]

/-- What the command line of a check says. -/
theorem exists_says_of_parse_check (hparse : parse args = .ok a)
    (hcommand : a.command = .check who names scope) :
    ∃ top inner outer values, ∃ given : Switch → Option String,
      args = top ++ "check" :: inner ∧ "--" ∉ top ∧ Place.top.Says top outer [] ∧
      Accepted outer ∧ Place.check.Says inner values (who :: names) ∧ Accepted values ∧
      names ≠ [] ∧
      (∀ f ∈ Place.check.options, ∀ v, given f = some v ↔ (f, v) ∈ values) ∧
      Scope.ofParts? (given .schema) (given .table) = some scope ∧
      a = ofSeen ⟨outer, [], .none⟩ (.check who names scope) := by
  obtain ⟨top, word, inner, place, outer, values, words, rfl, hword, htop, houter, haccepted,
    hinner⟩ := exists_says_of_parse_eq_ok hparse
  obtain ⟨hvalues, -, command, hseen, rfl⟩ :=
    (parse_eq_ok_iff_of_said hword htop houter haccepted hinner).mp hparse
  obtain rfl : command = .check who names scope := hcommand
  obtain rfl := Command.place_eq_of_ofSeen hseen
  obtain rfl : word = "check" := by simpa using Place.ofWord?_eq_some_iff.mp hword
  have hgiven : ∀ f ∈ Place.check.options, ∀ v,
      Seen.value? ⟨values, words, .none⟩ f = some v ↔ (f, v) ∈ values :=
    fun f hf v => Seen.value?_eq_some_iff hvalues (Switch.of_mem_options_check hf).2.1
  obtain ⟨-, who', names', scope', hwords, hnames, hscope, ha⟩ :=
    (parse_check_eq_ok_iff htop houter haccepted hinner hgiven).mp hparse
  obtain ⟨rfl, rfl, rfl⟩ : who = who' ∧ names = names' ∧ scope = scope' := by
    simpa [ofSeen] using ha
  subst hwords
  exact ⟨top, inner, outer, values, _, rfl, htop, houter, haccepted, hinner, hvalues, hnames,
    hgiven, hscope, rfl⟩

/-- **A check is made on the scope that is asked for**. Whatever the order and the spelling of its
options, a command line for a check gives a table only next to a schema. The scope is the table if
both are given, the schema if a schema alone is given, and the server if neither is, under the names
in the text. The answer is found on that scope and printed with it. One option more is accepted if
it was not given before, and a table only next to a schema; then the check is the same one on a
narrower scope, and if it was allowed, it still is. -/
theorem parse_check_scope (hparse : parse args = .ok a)
    (hcommand : a.command = .check who names scope) :
    ∃ top inner outer values schema table, args = top ++ "check" :: inner ∧ "--" ∉ top ∧
      Place.top.Says top outer [] ∧ Place.check.Says inner values (who :: names) ∧
      (∀ s, schema = some s ↔ Switch.schema.GivenIn s (inner.takeWhile (· ≠ "--"))) ∧
      (∀ t, table = some t ↔ Switch.table.GivenIn t (inner.takeWhile (· ≠ "--"))) ∧
      (table ≠ none → schema ≠ none) ∧ scope = Scope.selected schema table ∧
      (scope = .server ↔ schema = none ∧ table = none) ∧
      (∀ s, scope = .schema s ↔ schema = some s ∧ table = none) ∧
      (∀ s t, scope = .table s t ↔ schema = some s ∧ table = some t) ∧
      (∀ w out, a.run w = .ok out → ∃ users p g required, a.loaded w = .ok (users, p) ∧
        Grantee.parse who = .ok g ∧ names.mapM Privilege.parse = .ok required ∧
        out.allowed = (p.find? g).any (·.permits scope required) ∧
        (a.format = .table → out.output = Report.commas (required.map Privilege.name) ++ " on "
          ++ scope.display ++ " for " ++ g.display ++ ": "
          ++ (if out.allowed then "ALLOWED" else "DENIED") ++ "\n") ∧
        (a.format = .json → ∃ ms, Json.read? out.output = some (.dict ms) ∧
          Json.field? ms "scope" = some (some (.str scope.display)))) ∧
      (∀ v inner', Place.check.OneMore .schema v inner inner' → ∀ a',
        parse (top ++ "check" :: inner') = .ok a' ↔
          schema = none ∧ a' = { a with command := .check who names (.schema v) }) ∧
      (∀ v inner', Place.check.OneMore .table v inner inner' → ∀ a',
        parse (top ++ "check" :: inner') = .ok a' ↔ table = none ∧
          ∃ s, schema = some s ∧ a' = { a with command := .check who names (.table s v) }) ∧
      ∀ f v inner' a', Place.check.OneMore f v inner inner' →
        parse (top ++ "check" :: inner') = .ok a' → ∀ w out, a.run w = .ok out →
        ∃ out', a'.run w = .ok out' ∧ (out.allowed = true → out'.allowed = true) := by
  obtain ⟨top, inner, outer, values, given, rfl, htop, houter, haccepted, hinner, hvalues, hnames,
    hgiven, hscope, rfl⟩ := exists_says_of_parse_check hparse hcommand
  have hschema : Switch.schema ∈ Place.check.options := by decide
  have htable : Switch.table ∈ Place.check.options := by decide
  obtain ⟨hrequires, rfl⟩ := Scope.ofParts?_eq_some_iff.mp hscope
  have hgivenIn (f : Switch) (hf : f ∈ Place.check.options) (v : String) :
      given f = some v ↔ f.GivenIn v (inner.takeWhile (· ≠ "--")) :=
    (hgiven f hf v).trans (hinner.mem_values_iff (Switch.of_mem_options_check hf).1)
  have hmore {f : Switch} {v : String} {inner' : List String} {a' : Arguments}
      (hmore : Place.check.OneMore f v inner inner') :=
    parse_oneMore_eq_ok_iff (a := a') htop houter haccepted hinner hvalues hnames hgiven hmore
  have hmoreSchema (v : String) (inner' : List String)
      (h : Place.check.OneMore .schema v inner inner') (a' : Arguments) :
      parse (top ++ "check" :: inner') = .ok a' ↔ given .schema = none ∧
        a' = ofSeen ⟨outer, [], .none⟩ (.check who names (.schema v)) := by
    rw [hmore h]
    refine and_congr_right fun hunset => ?_
    simp only [ofParts?_schema_eq_some_iff hrequires hunset, exists_eq_left]
  have hmoreTable (v : String) (inner' : List String)
      (h : Place.check.OneMore .table v inner inner') (a' : Arguments) :
      parse (top ++ "check" :: inner') = .ok a' ↔ given .table = none ∧ ∃ s,
        given .schema = some s ∧
          a' = ofSeen ⟨outer, [], .none⟩ (.check who names (.table s v)) := by
    rw [hmore h]
    refine and_congr_right fun _ => ?_
    simp only [ofParts?_table_eq_some_iff]
    constructor
    · rintro ⟨-, ⟨s, hs, rfl⟩, rfl⟩
      exact ⟨s, hs, rfl⟩
    · rintro ⟨s, hs, rfl⟩
      exact ⟨_, ⟨s, hs, rfl⟩, rfl⟩
  refine ⟨top, inner, outer, values, given .schema, given .table, rfl, htop, houter, hinner,
    hgivenIn .schema hschema, hgivenIn .table htable, hrequires, rfl,
    Scope.selected_eq_server_iff hrequires, fun _ => Scope.selected_eq_schema_iff,
    fun _ _ => Scope.selected_eq_table_iff, fun w out hrun => exists_of_run_check rfl hrun,
    hmoreSchema, hmoreTable, fun f v inner' a' h hparse' w out hrun => ?_⟩
  obtain ⟨hunset, scope', hscope', rfl⟩ := (hmore h).mp hparse'
  have hnarrower := mem_enclosing_of_update h.mem_options hscope hunset hscope'
  exact exists_run_of_mem_enclosing rfl hnarrower hrun

/-- A check on a schema, with options on both sides of the grantee. -/
def schemaLine : List String :=
  ["--provider=ALL_PERMITTED", "-uann", "check", "--schema", "d", "ann", "select"]

/-- The check is allowed, and with a table more it still is. -/
theorem parse_check_scope_schemaLine :
    ∃ a, parse schemaLine = .ok a ∧ a.command = .check "ann" ["select"] (.schema "d") ∧
      a.run ⟨fun _ => none, none⟩ = .ok ⟨true, "SELECT on d.* for ann@%: ALLOWED\n"⟩ ∧
      ∃ top inner, schemaLine = top ++ "check" :: inner ∧
        Switch.schema.GivenIn "d" (inner.takeWhile (· ≠ "--")) ∧
        ∃ a', parse (top ++ "check" :: "--table=t" :: inner) = .ok a' ∧
          a'.command = .check "ann" ["select"] (.table "d" "t") ∧
          ∃ out', a'.run ⟨fun _ => none, none⟩ = .ok out' ∧ out'.allowed = true := by
  have hparse : parse schemaLine = .ok ⟨none, ["ann"], some "ALL_PERMITTED", .table,
      .check "ann" ["select"] (.schema "d")⟩ := by
    decide +kernel
  have hrun : (⟨none, ["ann"], some "ALL_PERMITTED", .table,
      .check "ann" ["select"] (.schema "d")⟩ : Arguments).run ⟨fun _ => none, none⟩ =
        .ok ⟨true, "SELECT on d.* for ann@%: ALLOWED\n"⟩ := by
    decide +kernel
  obtain ⟨top, inner, -, -, schema, table, hline, -, -, -, hschema, -, -, -, -, hscope, -, -, -,
    htable, hallowed⟩ := parse_check_scope hparse rfl
  obtain ⟨rfl, rfl⟩ := (hscope "d").mp rfl
  have hmore : Place.check.OneMore .table "t" inner ("--table=t" :: inner) :=
    .insert (l := []) List.not_mem_nil (fun _ h => by cases h) (by decide) (.attached .name)
  have hparse' := (htable "t" _ hmore _).mpr ⟨rfl, "d", rfl, rfl⟩
  obtain ⟨out', hout', hstill⟩ := hallowed _ _ _ _ hmore hparse' _ _ hrun
  exact ⟨_, hparse, rfl, hrun, top, inner, hline, (hschema "d").mp rfl, _, hparse', rfl, out',
    hout', hstill rfl⟩

end Arguments

end GrantCatalog
