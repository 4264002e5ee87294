import GrantCatalog.Proofs.Bytes
import GrantCatalog.Proofs.Configuration
import GrantCatalog.Proofs.Evidence
import GrantCatalog.Proofs.Predicate
import GrantCatalog.Proofs.Registry
import GrantCatalog.Proofs.Report
import GrantCatalog.Proofs.Run

/-!
# What a check answers

A check goes through many hands: users from three places, a provider by its name, sources by their
instances, statements, rows, an aggregate for each grantee, a scope and the scopes around it, and
at last a line of text. Taken together all of this answers a question that has none of it in it:
is the grantee configured, and does every required privilege stand in **some row** of some instance
(`GrantCatalog.Arguments.run_check`)?

A run is taken apart stage by stage; each stage has its own account of what it does, and the
answer is put together from these. Who is configured is told by the texts of the entries
(`GrantCatalog.UserEntry.Means`), wherever they come from.
-/

namespace GrantCatalog

/-! ### The stages of a run -/

/-- A native provider that is set up without an error serves what the loader found. -/
theorem Provider.find?_of_serve_eq_ok {n : Nat} {fleet : Fleet Source n} {dbs : Databases n}
    {users : List User}
    (h : ((Provider.new .native).serve .setUp fleet dbs users).1 = .ok ()) :
    ∃ found, ((Plan.build fleet dbs users).load fleet).1 = .ok found ∧
      ∀ g, ((Provider.new .native).serve .setUp fleet dbs users).2.1.find? g = found[g]? := by
  let answer := ((Plan.build fleet dbs users).load fleet).1
  have houtcome : ((Provider.new .native).serve .setUp fleet dbs users).1 =
      ((Provider.new .native).publish answer).1 := rfl
  have hprovider : ((Provider.new .native).serve .setUp fleet dbs users).2.1 =
      ((Provider.new .native).publish answer).2 := rfl
  rw [houtcome] at h
  rw [hprovider]
  cases hanswer : answer with
  | error e =>
    rw [hanswer] at h
    cases h
  | ok found => exact ⟨found, hanswer, fun g => rfl⟩

/-- A scope and those around it, by the schema and the table that select it. -/
theorem Scope.exists_enclosing_iff {schema table : Option String} {scope : Scope}
    (h : ofParts? schema table = some scope) (q : Scope → Prop) :
    (∃ around ∈ scope.enclosing, q around) ↔
      q .server ∨ (∃ s, schema = some s ∧ q (.schema s)) ∨
        ∃ s t, schema = some s ∧ table = some t ∧ q (.table s t) := by
  cases schema with
  | none =>
    cases table with
    | none =>
      obtain rfl := Option.some.inj h
      simp [enclosing]
    | some t => cases h
  | some s =>
    cases table with
    | none =>
      obtain rfl := Option.some.inj h
      simp [enclosing]
    | some t =>
      obtain rfl := Option.some.inj h
      simp [enclosing]

/-! ### Checks -/

namespace Arguments

variable {a : Arguments} {w : Surroundings}

/-- What is loaded in a run with a native provider: the users that its entries mean, and what the
planned sources say about them. -/
theorem loaded_native {c : Configuration} (hconfiguration : a.configuration w = .ok c)
    (hnative : Text.sameLetters (a.provider.getD c.settings.provider) "NATIVE" = true)
    {users : List User} {p : Provider} (hloaded : a.loaded w = .ok (users, p)) :
    ∃ parts more, a.users.mapM UserEntry.ofList = .ok parts ∧
      (∀ l, w.users.bind String.fromUTF8? = some l → UserEntry.ofList l = .ok more) ∧
      (w.users.bind String.fromUTF8? = none → more = []) ∧
      List.Forall₂ UserEntry.Means (c.settings.users ++ parts.flatten ++ more) users ∧
      ∃ (o : Configuration.Opened) (found : Holdings), c.opened = .ok o ∧
        ((Plan.build o.fleet o.databases users).load o.fleet).1 = .ok found ∧
        ∀ g, p.find? g = found[g]? := by
  obtain ⟨c', s, provider, o, hc', hs, husers, hprovider, ho, hserve, rfl⟩ :=
    loaded_eq_ok_iff.mp hloaded
  obtain rfl : c = c' := Except.ok.inj (hconfiguration.symm.trans hc')
  obtain ⟨parts, more, hparts, hlist, hnone, rfl⟩ := settings_eq_ok_iff.mp hs
  have hcreate := Registry.create_eq_ok_iff.mpr ⟨.native, hnative, rfl⟩
  obtain rfl := Except.ok.inj (hcreate.symm.trans hprovider)
  obtain ⟨found, hfound, hfind⟩ := Provider.find?_of_serve_eq_ok hserve
  exact ⟨parts, more, hparts, hlist, hnone, husers, o, found, ho, hfound, hfind⟩

/-- **What a check answers.** In a run without an error, with a native provider, the answer is yes
just if the grantee is one of the configured users and every required privilege is shown by some
planned fixture: on the server, on the schema if one is given, or on the table if one is given as
well. What is printed says the same. The configured users are those that the entries of the file
mean, then those of the lists on the command line, and then those of the list in the environment, if
there is a text in it. -/
theorem run_check {c : Configuration} {who : String} {names : List String}
    {schema table : Option String} {scope : Scope} {out : Outcome}
    (hcommand : a.command = .check who names scope)
    (hscope : Scope.ofParts? schema table = some scope) (hnames : names ≠ [])
    (hconfiguration : a.configuration w = .ok c)
    (hnative : Text.sameLetters (a.provider.getD c.settings.provider) "NATIVE" = true)
    (hrun : a.run w = .ok out) :
    ∃ parts more users g required, a.users.mapM UserEntry.ofList = .ok parts ∧
      (∀ l, w.users.bind String.fromUTF8? = some l → UserEntry.ofList l = .ok more) ∧
      (w.users.bind String.fromUTF8? = none → more = []) ∧
      List.Forall₂ UserEntry.Means (c.settings.users ++ parts.flatten ++ more) users ∧
      Grantee.parse who = .ok g ∧ names.mapM Privilege.parse = .ok required ∧
      (out.allowed = true ↔ (∃ u ∈ users, u.grantee = g) ∧ ∀ p ∈ required, ∃ f, c.Planned f ∧
        (f.Shows g p .server ∨ (∃ s, schema = some s ∧ f.Shows g p (.schema s)) ∨
          ∃ s t, schema = some s ∧ table = some t ∧ f.Shows g p (.table s t))) ∧
      (a.format = .table → out.output = Report.commas (required.map Privilege.name) ++ " on "
        ++ scope.display ++ " for " ++ g.display ++ ": "
        ++ (if out.allowed then "ALLOWED" else "DENIED") ++ "\n") ∧
      (a.format = .json → ∃ ms, Json.read? out.output = some (.dict ms) ∧
        Json.field? ms "allowed" = some (some (.bool out.allowed))) := by
  obtain ⟨report, hreport, rfl⟩ := run_eq_ok_iff.mp hrun
  obtain ⟨users, p, g, required, hloaded, hg, hrequired, rfl⟩ :=
    (evaluate_eq_ok_iff_of_check hcommand).mp hreport
  obtain ⟨parts, more, hparts, hlist, hnone, husers, o, found, ho, hfound, hfind⟩ :=
    loaded_native hconfiguration hnative hloaded
  have hne : required ≠ [] := by
    rintro rfl
    exact hnames (List.forall₂_nil_right_iff.mp (List.mapM_eq_ok_iff.mp hrequired))
  refine ⟨parts, more, users, g, required, hparts, hlist, hnone, husers, hg, hrequired,
    ?_, ?_, ?_⟩
  · change (p.find? g).any (·.permits scope required) = true ↔ _
    rw [hfind, Plan.permits_iff hfound hne]
    refine and_congr Predicate.contains_ofUsers_iff (forall₂_congr fun q _ => ?_)
    have hplanned := Configuration.exists_planned_iff ho users
      fun f => ∃ around ∈ scope.enclosing, f.Shows g q around
    simp only [Scope.exists_enclosing_iff hscope] at hplanned ⊢
    exact hplanned
  · intro hformat
    rw [hformat]
    rfl
  · intro hformat
    rw [hformat]
    exact ⟨_, Report.read?_verdict g scope required _, rfl⟩

/-- A row that lets a grantee fill the table `t` of the schema `d`. -/
def fillRow (user host : String) : Json :=
  .dict [("User", .str user), ("Host", .str host), ("Db", .str "d"), ("Table_name", .str "t"),
    ("Table_priv", .str "Insert")]

/-- A configuration with a user, and with one instance that has such rows for four grantees. -/
def fillJson : Json :=
  .dict [("provider", .dict [("users", .array [.dict [("user", .str "root@localhost")]])]),
    ("databases", .dict [("d", .array [.dict [("fixture", .dict [("instance", .str "i"),
      ("tables", .dict [("mysql.tables_priv", .array [fillRow "root" "localhost",
        fillRow "ann" "%", fillRow "eve" "10.%", fillRow "kim" "%"])])])]])])]

/-- The configuration that this stands for. -/
def fillConfiguration : Configuration := (Configuration.ofJson? fillJson).getD {}

/-- Surroundings in which every file holds this configuration, with a user in the environment. -/
def fillSurroundings : Surroundings :=
  ⟨fun _ => some fillJson.pretty.toUTF8, some "eve@10.%".toUTF8⟩

/-- A check on that table, with a user on the command line. -/
def fillCheck (format : Format) (g : Grantee) (required : Privilege) : Arguments :=
  ⟨some "d.json", ["ann:a:b"], some "Native", format,
    .check g.display [required.name] (.table "d" "t")⟩

/-- The users of such a check, from the file, the command line and the environment. -/
def fillUsers : List User :=
  [⟨⟨"root", "localhost"⟩, ""⟩, ⟨⟨"ann", "%"⟩, "a:b"⟩, ⟨⟨"eve", "10.%"⟩, ""⟩]

/-- Checks on the table, with their answers. -/
def fillAnswers : List (Grantee × Privilege × Bool) :=
  [(⟨"root", "localhost"⟩, .insert, true), (⟨"ann", "%"⟩, .insert, true),
    (⟨"eve", "10.%"⟩, .insert, true), (⟨"kim", "%"⟩, .insert, false), (⟨"ann", "%"⟩, .drop, false)]

theorem configuration_fillCheck (format : Format) (g : Grantee) (required : Privilege) :
    (fillCheck format g required).configuration fillSurroundings = .ok fillConfiguration := by
  have hsome : (Configuration.ofJson? fillJson).isSome = true := by
    decide +kernel
  obtain ⟨c, hc⟩ := Option.isSome_iff_exists.mp hsome
  have hread : (Json.read? fillJson.pretty).bind Configuration.ofJson? =
      some fillConfiguration := by
    rw [Report.read?_pretty, Option.bind_some, fillConfiguration, hc, Option.getD_some]
  change Configuration.ofBytes fillJson.pretty.toUTF8 = _
  rw [Configuration.ofBytes, Text.fromUTF8?_toUTF8]
  exact Json.parse_eq_ok_iff.mpr hread

variable {format : Format} {g : Grantee} {required : Privilege} {allowed : Bool}

/-- All checks are answered from the same users and the same provider. -/
theorem exists_loaded_fillCheck : ∃ users p, (∀ format g required,
    (fillCheck format g required).loaded fillSurroundings = .ok (users, p)) ∧
      ∀ answer ∈ fillAnswers,
        (p.find? answer.1).any (·.permits (.table "d" "t") [answer.2.1]) = answer.2.2 := by
  have hall : ((fillCheck .table ⟨"ann", "%"⟩ .drop).loaded fillSurroundings).map (fun loaded =>
      fillAnswers.all fun (g, required, allowed) =>
        (loaded.2.find? g).any (·.permits (.table "d" "t") [required]) == allowed) = .ok true := by
    rw [loaded, configuration_fillCheck]
    decide +kernel
  obtain ⟨⟨users, p⟩, hloaded, hall⟩ := Except.map_eq_ok_iff.mp hall
  refine ⟨users, p, fun _ _ _ => hloaded, fun answer hanswer => ?_⟩
  exact beq_iff_eq.mp (List.all_eq_true.mp hall answer hanswer)

theorem parse_of_mem_fillAnswers (hanswer : (g, required, allowed) ∈ fillAnswers) :
    Grantee.parse g.display = .ok g ∧ [required.name].mapM Privilege.parse = .ok [required] := by
  have hall : ∀ answer ∈ fillAnswers, Grantee.parse answer.1.display = .ok answer.1 ∧
      [answer.2.1.name].mapM Privilege.parse = .ok [answer.2.1] := by
    decide +kernel
  exact hall (g, required, allowed) hanswer

theorem run_fillCheck (hanswer : (g, required, allowed) ∈ fillAnswers) :
    (fillCheck format g required).run fillSurroundings = .ok ⟨allowed,
      (Report.verdict g (.table "d" "t") [required] allowed).render format ++ "\n"⟩ := by
  obtain ⟨users, p, hloaded, hanswers⟩ := exists_loaded_fillCheck
  obtain ⟨hg, hrequired⟩ := parse_of_mem_fillAnswers hanswer
  refine run_eq_ok_iff.mpr ⟨_, (evaluate_eq_ok_iff_of_check rfl).mpr
    ⟨users, p, g, [required], hloaded _ _ _, hg, hrequired, rfl⟩, ?_⟩
  rw [hanswers _ hanswer]
  rfl

/-- Of the four grantees those may fill the table who are configured, be it in the file, on the
command line or in the environment; there is a row behind each answer. Nobody may drop the table,
since there is no row for it. -/
theorem run_check_fill :
    Scope.ofParts? (some "d") (some "t") = some (.table "d" "t") ∧
      (∀ format g required,
        (fillCheck format g required).configuration fillSurroundings = .ok fillConfiguration ∧
          Text.sameLetters ((fillCheck format g required).provider.getD
            fillConfiguration.settings.provider) "NATIVE" = true) ∧
      (fillCheck .json ⟨"root", "localhost"⟩ .insert).run fillSurroundings = .ok ⟨true,
        "\x7b\"allowed\":true,\"grantee\":\"root@localhost\",\"required\":[\"INSERT\"]," ++
        "\"scope\":\"d.t\"\x7d\n"⟩ ∧
      (fillCheck .table ⟨"eve", "10.%"⟩ .insert).run fillSurroundings =
        .ok ⟨true, "INSERT on d.t for eve@10.%: ALLOWED\n"⟩ ∧
      (fillCheck .table ⟨"kim", "%"⟩ .insert).run fillSurroundings =
        .ok ⟨false, "INSERT on d.t for kim@%: DENIED\n"⟩ ∧
      (fillCheck .table ⟨"ann", "%"⟩ .drop).run fillSurroundings =
        .ok ⟨false, "DROP on d.t for ann@%: DENIED\n"⟩ ∧
      ∀ g required allowed, (g, required, allowed) ∈ fillAnswers →
        (allowed = true ↔ (∃ u ∈ fillUsers, u.grantee = g) ∧
          ∃ f, fillConfiguration.Planned f ∧
            ∃ scope ∈ Scope.enclosing (.table "d" "t"), f.Shows g required scope) := by
  have hscope : Scope.ofParts? (some "d") (some "t") = some (.table "d" "t") := rfl
  have hnative (format : Format) (g : Grantee) (required : Privilege) :
      Text.sameLetters ((fillCheck format g required).provider.getD
        fillConfiguration.settings.provider) "NATIVE" = true := by
    change Text.sameLetters "Native" "NATIVE" = true
    decide
  have hroot := @run_fillCheck .json ⟨"root", "localhost"⟩ .insert true (by decide)
  have heve := @run_fillCheck .table ⟨"eve", "10.%"⟩ .insert true (by decide)
  have hkim := @run_fillCheck .table ⟨"kim", "%"⟩ .insert false (by decide)
  have hann := @run_fillCheck .table ⟨"ann", "%"⟩ .drop false (by decide)
  refine ⟨hscope, fun format g required => ⟨configuration_fillCheck format g required,
    hnative format g required⟩, hroot.trans ?_, heve.trans ?_, hkim.trans ?_, hann.trans ?_,
    fun g required allowed hanswer => ?_⟩
  · decide +kernel
  · decide +kernel
  · decide +kernel
  · decide +kernel
  · obtain ⟨parts, more, users, g', required', hparts, hlist, -, husers, hg', hrequired', h, -⟩ :=
      run_check (a := fillCheck .table g required) rfl hscope (List.cons_ne_nil _ [])
        (configuration_fillCheck .table g required) (hnative .table g required)
        (run_fillCheck hanswer)
    obtain ⟨hg, hrequired⟩ := parse_of_mem_fillAnswers hanswer
    obtain rfl : g = g' := Except.ok.inj (hg.symm.trans hg')
    obtain rfl : [required] = required' := Except.ok.inj (hrequired.symm.trans hrequired')
    have hextra : ["ann:a:b"].mapM UserEntry.ofList = .ok [[⟨"ann", "a:b"⟩]] := by
      decide +kernel
    obtain rfl := Except.ok.inj (hextra.symm.trans hparts)
    have hmore : UserEntry.ofList "eve@10.%" = .ok [⟨"eve@10.%", ""⟩] := by
      decide +kernel
    obtain rfl := Except.ok.inj (hmore.symm.trans (hlist _ (Text.fromUTF8?_toUTF8 "eve@10.%")))
    have hresolve : (fillConfiguration.settings.users ++ [[UserEntry.mk "ann" "a:b"]].flatten ++
        [UserEntry.mk "eve@10.%" ""]).mapM UserEntry.resolve = .ok fillUsers := by
      decide +kernel
    obtain rfl := Except.ok.inj
      (hresolve.symm.trans (UserEntry.mapM_resolve_eq_ok_iff.mpr husers))
    simpa only [List.forall_mem_singleton, Scope.exists_enclosing_iff hscope] using h

end Arguments

end GrantCatalog
