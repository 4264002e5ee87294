import GrantCatalog.Proofs.Bytes
import GrantCatalog.Proofs.Json
import GrantCatalog.Proofs.Registry
import GrantCatalog.Proofs.Run
import GrantCatalog.Proofs.Spelling

/-!
# Where a run fails

A run goes through ten stages, and each of them may fail. What it means for a stage to fail is said
here stage by stage, without a word about the run (`GrantCatalog.Arguments.Fails`): the files, texts
and lists that the stage is about are named, and of a list the first element that fails.

A stage may fail although an earlier one has failed already. What a run reports is the failure of
the **first** stage that fails in the order of `GrantCatalog.Stage.all`
(`GrantCatalog.Arguments.evaluate_eq_error_iff`); the stages are put in front of one another by
`GrantCatalog.Arguments.bind_eq_error_iff`, which is all that is needed to know about order.

A run prints at its very end. To say so there has to be a program that could print earlier:
`GrantCatalog.Arguments.perform` goes through the same stages in a monad in which one can print at
any time, and what it prints is compared with the outcome of the run
(`GrantCatalog.Arguments.ends_perform`).
-/

namespace GrantCatalog

/-- Publishing fails just if there was nothing to publish. -/
theorem Provider.publish_eq_error_iff {p : Provider} {entries : Except Error Holdings} {e : Error} :
    (p.publish entries).1 = .error e ↔ entries = .error e := by
  cases entries <;> simp [publish]

/-! ### The stages -/

/-- The stages of a run. -/
inductive Stage where
  /-- The configuration file is read. -/
  | file
  /-- Its text is read as JSON. -/
  | json
  /-- The lists of users on the command line are read. -/
  | lists
  /-- The list of users in the environment is read. -/
  | environment
  /-- The grantees of all users are found. -/
  | users
  /-- A provider is selected. -/
  | provider
  /-- The instances are opened. -/
  | instances
  /-- The provider loads. -/
  | load
  /-- The grantee of the command is read. -/
  | grantee
  /-- The privileges of a check are read. -/
  | privileges
  deriving DecidableEq, Repr

/-- **The stages in order.** -/
def Stage.all : List Stage :=
  [file, json, lists, environment, users, provider, instances, load, grantee, privileges]

theorem Stage.mem_all (s : Stage) : s ∈ all := by
  cases s <;> decide

/-- The grantee that a command names, if it names one. -/
def Command.grantee? : Command → Option String
  | .show who => some who
  | .check who _ _ => some who
  | .list => none

/-- The names of the privileges that a command asks for. -/
def Command.privileges : Command → List String
  | .check _ names _ => names
  | _ => []

/-- The name of the provider in a JSON text for a configuration, if there is one. -/
def Configuration.providerName? (j : Json) : Option String :=
  match j.record? ["provider", "databases"] with
  | some [some p, _] =>
    match p.record? ["type", "users"] with
    | some [some t, _] => t.string?
    | _ => none
  | _ => none

namespace Arguments

/-- The JSON value in the configuration file, if a file is named and there is one in it. -/
def json? (a : Arguments) (w : Surroundings) : Option Json := do
  let path ← a.config
  let bytes ← w.readFile path
  let text ← String.fromUTF8? bytes
  Json.read? text

/-- **The name that selects the provider**: the one on the command line, else the one in the file,
else that of the native provider. -/
def providerName (a : Arguments) (w : Surroundings) : String :=
  (a.provider.or ((a.json? w).bind Configuration.providerName?)).getD ProviderKind.native.name

/-- The entries of all users of a run: first those of the configuration, then those of the lists on
the command line, then those of the environment. -/
structure Lists (a : Arguments) (w : Surroundings) (c : Configuration) (entries : List UserEntry) :
    Prop where
  configuration_eq : a.configuration w = .ok c
  entries_eq : ∃ parts more, a.users.mapM UserEntry.ofList = .ok parts ∧
    (∀ l, w.users.bind String.fromUTF8? = some l → UserEntry.ofList l = .ok more) ∧
    (w.users.bind String.fromUTF8? = none → more = []) ∧
    entries = c.settings.users ++ parts.flatten ++ more

/-- **A stage fails with an error.** Of a list it is the first element that fails. -/
inductive Fails (a : Arguments) (w : Surroundings) : Stage → Error → Prop where
  /-- There is no file. -/
  | noFile {path : String} (hconfig : a.config = some path) (hfile : w.readFile path = none) :
      Fails a w .file (.file .notFound)
  /-- The file is not a text. -/
  | noText {path : String} {bytes : ByteArray} (hconfig : a.config = some path)
      (hfile : w.readFile path = some bytes) (htext : String.fromUTF8? bytes = none) :
      Fails a w .file (.file .notText)
  /-- The text is no JSON text, or not one of a configuration. -/
  | noConfiguration {path text : String} {bytes : ByteArray} (hconfig : a.config = some path)
      (hfile : w.readFile path = some bytes) (htext : String.fromUTF8? bytes = some text)
      (hjson : (Json.read? text).bind Configuration.ofJson? = none) : Fails a w .json .json
  /-- A list on the command line cannot be read. -/
  | list {before after : List String} {l : String} {e : Error}
      (hlists : a.users = before ++ l :: after)
      (hbefore : ∀ b ∈ before, ∃ es, UserEntry.ofList b = .ok es)
      (hl : UserEntry.ofList l = .error e) : Fails a w .lists e
  /-- The list in the environment cannot be read. -/
  | environment {l : String} {e : Error} (hlist : w.users.bind String.fromUTF8? = some l)
      (hl : UserEntry.ofList l = .error e) : Fails a w .environment e
  /-- The name of a user means no grantee. -/
  | user {c : Configuration} {before after : List UserEntry} {u : UserEntry} {e : Error}
      (hlists : a.Lists w c (before ++ u :: after))
      (hbefore : ∀ b ∈ before, ∃ g, Grantee.parse b.user = .ok g)
      (hu : Grantee.parse u.user = .error e) : Fails a w .users e
  /-- There is no provider of the name. -/
  | provider
      (hname : ∀ kind : ProviderKind, Text.sameLetters (a.providerName w) kind.name = false) :
      Fails a w .provider (.unknownProvider (a.providerName w))
  /-- An instance is a server, which cannot be reached. -/
  | server {c : Configuration} {before after : List InstanceConfig} {url : String}
      (hc : a.configuration w = .ok c)
      (hinstances : c.databases.toList.flatMap (·.2) = before ++ .server url :: after)
      (hbefore : ∀ i ∈ before, ∃ source, i = .fixture source) :
      Fails a w .instances (.config (.noConnection url))
  /-- The loader of a native provider fails. -/
  | load {c : Configuration} {entries : List UserEntry} {users : List User}
      {o : Configuration.Opened} {e : Error} (hlists : a.Lists w c entries)
      (husers : List.Forall₂ UserEntry.Means entries users) (hopened : c.opened = .ok o)
      (hnative : Text.sameLetters (a.providerName w) ProviderKind.native.name = true)
      (hload : ((Plan.build o.fleet o.databases users).load o.fleet).1 = .error e) :
      Fails a w .load e
  /-- The grantee of the command is none. -/
  | grantee {who : String} {e : Error} (hwho : a.command.grantee? = some who)
      (hg : Grantee.parse who = .error e) : Fails a w .grantee e
  /-- A name means no privilege. -/
  | privilege {before after : List String} {name : String}
      (hnames : a.command.privileges = before ++ name :: after)
      (hbefore : ∀ b ∈ before, ∃ p, Privilege.ofName? b = some p)
      (hname : Privilege.ofName? name = none) : Fails a w .privileges (.unknownPrivilege name)

variable {a : Arguments} {w : Surroundings}

/-- A stage does not fail. -/
def Passes (a : Arguments) (w : Surroundings) (s : Stage) : Prop := ∀ e, ¬a.Fails w s e

/-- **The first of some stages that fails** does so with an error. -/
def FailsFirst (a : Arguments) (w : Surroundings) (stages : List Stage) (e : Error) : Prop :=
  ∃ before s after, stages = before ++ s :: after ∧ (∀ t ∈ before, a.Passes w t) ∧ a.Fails w s e

theorem failsFirst_nil {e : Error} : ¬a.FailsFirst w [] e := List.not_exists_first_nil

theorem failsFirst_cons {s : Stage} {stages : List Stage} {e : Error} :
    a.FailsFirst w (s :: stages) e ↔
      a.Fails w s e ∨ (a.Passes w s ∧ a.FailsFirst w stages e) :=
  List.exists_first_cons_iff

/-- Some stage is the first that fails, unless all of them pass. -/
theorem exists_failsFirst_iff {stages : List Stage} :
    (∃ e, a.FailsFirst w stages e) ↔ ¬∀ s ∈ stages, a.Passes w s := by
  constructor
  · rintro ⟨e, before, s, after, rfl, -, hs⟩ h
    exact h s (List.mem_append_right _ List.mem_cons_self) e hs
  · intro h
    obtain ⟨before, s, after, hstages, hbefore, hs⟩ := List.exists_first_of_not_forall h
    obtain ⟨e, he⟩ := not_forall_not.mp hs
    exact ⟨e, before, s, after, hstages, hbefore, he⟩

/-- **One stage and those after it**: if the errors of a step are the failures of a stage, and the
errors of what follows it those of other stages, then together they fail as the stages do in this
order. -/
theorem bind_eq_error_iff {α β : Type} {x : Except Error α} {f : α → Except Error β} {s : Stage}
    {stages : List Stage} {e : Error} (hx : ∀ d, x = .error d ↔ a.Fails w s d)
    (hf : ∀ v, x = .ok v → (f v = .error e ↔ a.FailsFirst w stages e)) :
    x >>= f = .error e ↔ a.FailsFirst w (s :: stages) e := by
  rw [Except.bind_eq_error_iff, failsFirst_cons, hx]
  refine or_congr_right ⟨?_, ?_⟩
  · rintro ⟨v, hv, h⟩
    refine ⟨fun d hd => ?_, (hf v hv).mp h⟩
    cases hv.symm.trans ((hx d).mpr hd)
  · rintro ⟨hpasses, h⟩
    cases hv : x with
    | error d => exact absurd ((hx d).mp hv) (hpasses d)
    | ok v => exact ⟨v, rfl, (hf v hv).mpr h⟩

/-! ### Stage by stage -/

/-- The text of the configuration file, if one is named. -/
def fileText (a : Arguments) (w : Surroundings) : Except Error (Option String) :=
  match a.config with
  | none => .ok none
  | some path =>
    match w.readFile path with
    | none => .error (.file .notFound)
    | some bytes =>
      match String.fromUTF8? bytes with
      | none => .error (.file .notText)
      | some text => .ok (some text)

/-- The configuration in a text, an empty one if there is no text. -/
def ofText : Option String → Except Error Configuration
  | none => .ok {}
  | some text => Json.parse Configuration.ofJson? text

/-- A configuration is read in two stages. -/
theorem configuration_eq : a.configuration w = a.fileText w >>= ofText := by
  rw [configuration, fileText]
  cases hconfig : a.config with
  | none => rfl
  | some path =>
    cases hfile : w.readFile path with
    | none =>
      simp only [hfile]
      rfl
    | some bytes =>
      simp only [hfile, Configuration.ofBytes]
      cases htext : String.fromUTF8? bytes with
      | none => rfl
      | some text => rfl

theorem fileText_eq_error_iff {e : Error} : a.fileText w = .error e ↔ a.Fails w .file e := by
  rw [fileText]
  constructor
  · intro h
    split at h
    · cases h
    · next path hconfig =>
      split at h
      · next hfile =>
        cases h
        exact .noFile hconfig hfile
      · next bytes hfile =>
        split at h
        · next htext =>
          cases h
          exact .noText hconfig hfile htext
        · cases h
  · rintro (⟨hconfig, hfile⟩ | ⟨hconfig, hfile, htext⟩)
    · simp only [hconfig, hfile]
    · simp only [hconfig, hfile, htext]

theorem fileText_eq_some_iff {text : String} : a.fileText w = .ok (some text) ↔
    ∃ path bytes, a.config = some path ∧ w.readFile path = some bytes ∧
      String.fromUTF8? bytes = some text := by
  rw [fileText]
  constructor
  · intro h
    split at h
    · cases h
    · next path hconfig =>
      split at h
      · cases h
      · next bytes hfile =>
        split at h
        · cases h
        · next htext =>
          cases h
          exact ⟨path, bytes, hconfig, hfile, htext⟩
  · rintro ⟨path, bytes, hconfig, hfile, htext⟩
    simp only [hconfig, hfile, htext]

theorem config_eq_none (h : a.fileText w = .ok none) : a.config = none := by
  rw [fileText] at h
  split at h
  · next hconfig => exact hconfig
  · split at h
    · cases h
    · split at h <;> cases h

theorem ofText_eq_error_iff {text : Option String} (htext : a.fileText w = .ok text) {e : Error} :
    ofText text = .error e ↔ a.Fails w .json e := by
  cases text with
  | none =>
    refine iff_of_false (fun h => by cases h) fun h => ?_
    cases h with
    | noConfiguration hconfig hfile htext' _ =>
      cases htext.symm.trans (fileText_eq_some_iff.mpr ⟨_, _, hconfig, hfile, htext'⟩)
  | some text =>
    rw [ofText, Json.parse_eq_error_iff]
    constructor
    · rintro ⟨hjson, rfl⟩
      obtain ⟨path, bytes, hconfig, hfile, htext⟩ := fileText_eq_some_iff.mp htext
      exact .noConfiguration hconfig hfile htext hjson
    · intro h
      cases h with
      | noConfiguration hconfig hfile htext' hjson =>
        have hsame := htext.symm.trans (fileText_eq_some_iff.mpr ⟨_, _, hconfig, hfile, htext'⟩)
        obtain rfl := Option.some.inj (Except.ok.inj hsame)
        exact ⟨hjson, rfl⟩

/-- What selects the provider of a configuration is the name in its text, if there is one. -/
theorem provider_of_ofJson? {j : Json} {c : Configuration} (h : Configuration.ofJson? j = some c) :
    c.settings.provider =
      (Configuration.providerName? j).getD ProviderKind.native.name := by
  rw [Configuration.ofJson?] at h
  split at h
  · next p d hrecord =>
    obtain ⟨settings, hsettings, h⟩ := Option.bind_eq_some_iff.mp h
    obtain ⟨databases, -, h⟩ := Option.bind_eq_some_iff.mp h
    obtain rfl := Option.some.inj h
    rw [Configuration.providerName?, hrecord]
    cases p with
    | none =>
      obtain rfl := Option.some.inj hsettings
      rfl
    | some p =>
      rw [Json.optional?, Settings.ofJson?] at hsettings
      split at hsettings
      · next t u hrecord =>
        obtain ⟨name, hname, h⟩ := Option.bind_eq_some_iff.mp hsettings
        obtain ⟨users, -, h⟩ := Option.bind_eq_some_iff.mp h
        obtain rfl := Option.some.inj h
        simp only [hrecord]
        cases t with
        | none =>
          obtain rfl := Option.some.inj hname
          rfl
        | some t =>
          have hname : t.string? = some name := hname
          simp only [hname, Option.getD_some]
      · cases hsettings
  · cases h

/-- **The provider of a run** is selected by the name on the command line, in the file, or that of
the native one. -/
theorem getD_provider_eq {c : Configuration} (hc : a.configuration w = .ok c) :
    a.provider.getD c.settings.provider = a.providerName w := by
  have hfile : c.settings.provider =
      ((a.json? w).bind Configuration.providerName?).getD ProviderKind.native.name := by
    rw [configuration_eq] at hc
    obtain ⟨text, htext, hc⟩ := Except.bind_eq_ok_iff.mp hc
    cases text with
    | none =>
      obtain rfl := Except.ok.inj hc
      rw [json?, config_eq_none htext]
      rfl
    | some text =>
      obtain ⟨path, bytes, hconfig, hbytes, htext⟩ := fileText_eq_some_iff.mp htext
      have hjson : a.json? w = Json.read? text := by
        simp [json?, hconfig, hbytes, htext]
      obtain ⟨j, hread, hj⟩ := Option.bind_eq_some_iff.mp (Json.parse_eq_ok_iff.mp hc)
      rw [hjson, hread, Option.bind_some]
      exact provider_of_ofJson? hj
  rw [providerName, hfile]
  cases a.provider with
  | none => rfl
  | some name => rfl

theorem mapM_ofList_eq_error_iff {e : Error} :
    a.users.mapM UserEntry.ofList = .error e ↔ a.Fails w .lists e := by
  rw [List.mapM_eq_error_iff]
  constructor
  · rintro ⟨before, l, after, hlists, hbefore, hl⟩
    exact .list hlists hbefore hl
  · intro h
    cases h with
    | list hlists hbefore hl => exact ⟨_, _, _, hlists, hbefore, hl⟩

theorem environment_eq_error_iff {e : Error} :
    environmentUsers w.users = .error e ↔ a.Fails w .environment e := by
  rw [environmentUsers_eq_error_iff]
  constructor
  · rintro ⟨l, hlist, hl⟩
    exact .environment hlist hl
  · intro h
    cases h with
    | environment hlist hl => exact ⟨_, hlist, hl⟩

/-- **The entries of a run** are what its lists come to. -/
theorem lists_iff {c : Configuration} {entries : List UserEntry} : a.Lists w c entries ↔
    a.configuration w = .ok c ∧ ∃ parts more, a.users.mapM UserEntry.ofList = .ok parts ∧
      environmentUsers w.users = .ok more ∧
      entries = c.settings.users ++ parts.flatten ++ more := by
  simp only [environmentUsers_eq_ok_iff, and_assoc]
  constructor
  · rintro ⟨hc, hentries⟩
    exact ⟨hc, hentries⟩
  · rintro ⟨hc, hentries⟩
    exact ⟨hc, hentries⟩

/-- The entries of a run are determined by it. -/
theorem Lists.unique {c c' : Configuration} {entries entries' : List UserEntry}
    (h : a.Lists w c entries) (h' : a.Lists w c' entries') : c = c' ∧ entries = entries' := by
  obtain ⟨hc, parts, more, hparts, hmore, rfl⟩ := lists_iff.mp h
  obtain ⟨hc', parts', more', hparts', hmore', rfl⟩ := lists_iff.mp h'
  obtain rfl := Except.ok.inj (hc.symm.trans hc')
  obtain rfl := Except.ok.inj (hparts.symm.trans hparts')
  obtain rfl := Except.ok.inj (hmore.symm.trans hmore')
  exact ⟨rfl, rfl⟩

theorem resolve_eq_error_iff {c : Configuration} {entries : List UserEntry}
    (hlists : a.Lists w c entries) {e : Error} :
    entries.mapM UserEntry.resolve = .error e ↔ a.Fails w .users e := by
  rw [List.mapM_eq_error_iff]
  simp only [UserEntry.resolve_eq_error_iff, UserEntry.exists_resolve_eq_ok_iff]
  constructor
  · rintro ⟨before, u, after, rfl, hbefore, hu⟩
    exact .user hlists hbefore hu
  · intro h
    cases h with
    | user hlists' hbefore hu =>
      obtain ⟨-, rfl⟩ := hlists.unique hlists'
      exact ⟨_, _, _, rfl, hbefore, hu⟩

theorem create_eq_error_iff {e : Error} :
    Registry.defaults.create (a.providerName w) = .error e ↔ a.Fails w .provider e := by
  rw [Registry.create_eq_error_iff]
  constructor
  · rintro ⟨hname, rfl⟩
    exact .provider hname
  · intro h
    cases h with
    | provider hname => exact ⟨hname, rfl⟩

/-- All instances are opened in the order of the databases, and in each database in the order of its
list. -/
theorem opened_eq_error_iff_mapM {c : Configuration} {e : Error} : c.opened = .error e ↔
    (c.databases.toList.flatMap (·.2)).mapM InstanceConfig.toSource = .error e := by
  rw [Configuration.opened]
  generalize c.databases.toList = dbs
  induction dbs with
  | nil => exact iff_of_false (fun h => by cases h) fun h => by cases h
  | cons d dbs ih =>
    obtain ⟨name, instances⟩ := d
    rw [List.flatMap_cons, List.mapM_append_eq_error_iff, ← ih, List.mapM_cons,
      Except.bind_eq_error_iff, Except.bind_pure_eq_error_iff]
    simp only [Except.bind_pure_eq_error_iff]
    refine or_congr_right ⟨?_, ?_⟩
    · rintro ⟨opened, h, hrest⟩
      obtain ⟨sources, hsources, -⟩ := Except.bind_eq_ok_iff.mp h
      exact ⟨⟨sources, hsources⟩, hrest⟩
    · rintro ⟨⟨sources, hsources⟩, hrest⟩
      exact ⟨(name, sources), Except.bind_eq_ok_iff.mpr ⟨sources, hsources, rfl⟩, hrest⟩

theorem toSource_eq_error_iff {i : InstanceConfig} {e : Error} :
    i.toSource = .error e ↔ ∃ url, i = .server url ∧ e = .config (.noConnection url) := by
  cases i <;> simp [InstanceConfig.toSource, eq_comm]

theorem exists_toSource_eq_ok_iff {i : InstanceConfig} :
    (∃ source, i.toSource = .ok source) ↔ ∃ source, i = .fixture source := by
  cases i <;> simp [InstanceConfig.toSource]

theorem opened_eq_error_iff {c : Configuration} (hc : a.configuration w = .ok c) {e : Error} :
    c.opened = .error e ↔ a.Fails w .instances e := by
  rw [opened_eq_error_iff_mapM, List.mapM_eq_error_iff]
  simp only [toSource_eq_error_iff, exists_toSource_eq_ok_iff]
  constructor
  · rintro ⟨before, i, after, hinstances, hbefore, url, rfl, rfl⟩
    exact .server hc hinstances hbefore
  · intro h
    cases h with
    | server hc' hinstances hbefore =>
      obtain rfl := Except.ok.inj (hc.symm.trans hc')
      exact ⟨_, _, _, hinstances, hbefore, _, rfl, rfl⟩

theorem serve_eq_error_iff {c : Configuration} {entries : List UserEntry} {users : List User}
    {o : Configuration.Opened} {p : Provider} (hlists : a.Lists w c entries)
    (husers : entries.mapM UserEntry.resolve = .ok users) (hopened : c.opened = .ok o)
    (hp : Registry.defaults.create (a.providerName w) = .ok p) {e : Error} :
    (p.serve .setUp o.fleet o.databases users).1 = .error e ↔ a.Fails w .load e := by
  obtain ⟨kind, hkind, rfl⟩ := Registry.create_eq_ok_iff.mp hp
  constructor
  · intro h
    cases kind with
    | native =>
      refine .load hlists (UserEntry.mapM_resolve_eq_ok_iff.mp husers) hopened hkind ?_
      exact Provider.publish_eq_error_iff.mp h
    | allPermitted => cases h
  · intro h
    cases h with
    | load hlists' husers' hopened' hnative hload =>
      obtain ⟨rfl, rfl⟩ := hlists.unique hlists'
      replace husers' := UserEntry.mapM_resolve_eq_ok_iff.mpr husers'
      obtain rfl := Except.ok.inj (husers.symm.trans husers')
      obtain rfl := Except.ok.inj (hopened.symm.trans hopened')
      cases kind with
      | native => exact Provider.publish_eq_error_iff.mpr hload
      | allPermitted => exact absurd hnative (Registry.not_native_of_allPermitted hkind)

theorem grantee_eq_error_iff {who : String} (hwho : a.command.grantee? = some who) {e : Error} :
    Grantee.parse who = .error e ↔ a.Fails w .grantee e := by
  constructor
  · intro h
    exact .grantee hwho h
  · intro h
    cases h with
    | grantee hwho' hg =>
      obtain rfl := Option.some.inj (hwho.symm.trans hwho')
      exact hg

theorem privileges_eq_error_iff {e : Error} :
    a.command.privileges.mapM Privilege.parse = .error e ↔ a.Fails w .privileges e := by
  rw [List.mapM_eq_error_iff]
  simp only [Privilege.parse_eq_error_iff, Privilege.parse_eq_ok_iff]
  constructor
  · rintro ⟨before, name, after, hnames, hbefore, hname, rfl⟩
    exact .privilege hnames hbefore hname
  · intro h
    cases h with
    | privilege hnames hbefore hname => exact ⟨_, _, _, hnames, hbefore, hname, rfl⟩

/-- What a command answers is found in the last two stages. -/
theorem report_eq_error_iff (users : List User) (p : Provider) {e : Error} :
    a.command.report users p = .error e ↔ a.FailsFirst w [.grantee, .privileges] e := by
  have hgrantee {who : String} (hwho : a.command.grantee? = some who) (d : Error) :
      Grantee.parse who = .error d ↔ a.Fails w .grantee d := grantee_eq_error_iff hwho
  have hnone (hnames : a.command.privileges = []) : ¬a.FailsFirst w [.privileges] e := by
    rw [failsFirst_cons, or_iff_left fun h => failsFirst_nil h.2, ← privileges_eq_error_iff, hnames]
    intro h
    cases h
  rcases hcommand : a.command with who | ⟨who, names, scope⟩ | _
  · refine bind_eq_error_iff (hgrantee (congrArg Command.grantee? hcommand)) fun g _ => ?_
    exact iff_of_false (fun h => by cases h) (hnone (congrArg Command.privileges hcommand))
  · refine bind_eq_error_iff (hgrantee (congrArg Command.grantee? hcommand)) fun g _ => ?_
    refine bind_eq_error_iff (fun d => ?_) fun required _ => ?_
    · rw [← privileges_eq_error_iff, hcommand]
      rfl
    · exact iff_of_false (fun h => by cases h) failsFirst_nil
  · refine iff_of_false (fun h => by cases h) ?_
    rw [failsFirst_cons]
    rintro (h | ⟨-, h⟩)
    · cases h with
      | grantee hwho => cases hwho.symm.trans (congrArg Command.grantee? hcommand)
    · exact hnone (congrArg Command.privileges hcommand) h

/-- A run up to its report, stage by stage. -/
theorem evaluate_eq : a.evaluate w = (do
    let text ← a.fileText w
    let c ← ofText text
    let parts ← a.users.mapM UserEntry.ofList
    let more ← environmentUsers w.users
    let users ← (c.settings.users ++ parts.flatten ++ more).mapM UserEntry.resolve
    let p ← Registry.defaults.create (a.provider.getD c.settings.provider)
    let o ← c.opened
    (p.serve .setUp o.fleet o.databases users).1
    a.command.report users (p.serve .setUp o.fleet o.databases users).2.1) := by
  have hmap {α β γ : Type} (x : Except Error α) (f : α → β) (g : β → Except Error γ) :
      x.map f >>= g = x >>= fun v => g (f v) := by
    cases x <;> rfl
  simp only [evaluate, configuration_eq, settings, UserEntry.ofLists, bind_assoc, pure_bind, hmap]
  rfl

/-- **A run fails just as the first stage does that fails.** -/
theorem evaluate_eq_error_iff {e : Error} :
    a.evaluate w = .error e ↔ a.FailsFirst w Stage.all e := by
  rw [evaluate_eq]
  refine bind_eq_error_iff (fun d => fileText_eq_error_iff) fun text htext => ?_
  refine bind_eq_error_iff (fun d => ofText_eq_error_iff htext) fun c hread => ?_
  have hc : a.configuration w = .ok c := by
    rw [configuration_eq]
    exact Except.bind_eq_ok_iff.mpr ⟨text, htext, hread⟩
  refine bind_eq_error_iff (fun d => mapM_ofList_eq_error_iff) fun parts hparts => ?_
  refine bind_eq_error_iff (fun d => environment_eq_error_iff) fun more hmore => ?_
  have hlists : a.Lists w c (c.settings.users ++ parts.flatten ++ more) :=
    lists_iff.mpr ⟨hc, parts, more, hparts, hmore, rfl⟩
  refine bind_eq_error_iff (fun d => resolve_eq_error_iff hlists) fun users husers => ?_
  rw [getD_provider_eq hc]
  refine bind_eq_error_iff (fun d => create_eq_error_iff) fun p hp => ?_
  refine bind_eq_error_iff (fun d => opened_eq_error_iff hc) fun o ho => ?_
  refine bind_eq_error_iff (fun d => serve_eq_error_iff hlists husers ho hp) fun _ _ => ?_
  exact report_eq_error_iff users _

end Arguments

/-! ### Printing -/

/-- A program that may fail, and that may print at any time. -/
abbrev Printing := ExceptT Error (StateM String)

namespace Printing

variable {α : Type}

/-- Prints a line. -/
def line (s : String) : Printing Unit := modify (· ++ (s ++ "\n"))

/-- The result of a program, and all that is printed at its end, given what was printed before. -/
def result (m : Printing α) (printed : String) : Except Error α × String :=
  (m.run.run printed).run

/-- **A program ends as an outcome says.** If it fails, then nothing was printed. -/
def Ends (m : Printing Bool) (x : Except Error Outcome) : Prop :=
  ∀ printed, m.result printed =
    match x with
    | .ok o => (.ok o.allowed, printed ++ o.output)
    | .error e => (.error e, printed)

/-- A step that prints nothing. -/
theorem Ends.bind {x : Except Error α} {f : α → Printing Bool} {g : α → Except Error Outcome}
    (h : ∀ v, x = .ok v → Ends (f v) (g v)) : Ends (liftM x >>= f) (x >>= g) := by
  intro printed
  cases x with
  | error e => rfl
  | ok v => exact h v rfl printed

/-- The last step prints a line. -/
theorem ends_line (s : String) (allowed : Bool) :
    Ends (do line s; return allowed) (.ok ⟨allowed, s ++ "\n"⟩) :=
  fun _ => rfl

end Printing

/-- **Carries out a command** and prints its report. -/
def Command.perform (format : Format) (users : List User) (p : Provider) :
    Command → Printing Bool
  | .show who => do
    let g ← Grantee.parse who
    Printing.line ((Report.holdings g (p.find? g)).render format)
    return true
  | .check who names scope => do
    let g ← Grantee.parse who
    let required ← (names.mapM Privilege.parse : Except Error (List Privilege))
    let allowed := (p.find? g).any (·.permits scope required)
    Printing.line ((Report.verdict g scope required allowed).render format)
    return allowed
  | .list => do
    let rows := users.map fun u => (u.grantee, p.find? u.grantee)
    Printing.line ((Report.listing rows).render format)
    return true

namespace Arguments

/-- **Carries out a command line** in a monad in which one can print. -/
def perform (a : Arguments) (w : Surroundings) : Printing Bool := do
  let configuration ← a.configuration w
  let settings ← a.settings w configuration
  let users ← settings.resolve
  let provider ← Registry.defaults.create settings.provider
  let opened ← configuration.opened
  let (outcome, provider, _) := provider.serve .setUp opened.fleet opened.databases users
  outcome
  a.command.perform a.format users provider

theorem ends_command (format : Format) (users : List User) (p : Provider) (command : Command) :
    Printing.Ends (command.perform format users p) (do
      let report ← command.report users p
      return ⟨report.allowed, report.render format ++ "\n"⟩) := by
  rcases command with who | ⟨who, names, scope⟩ | _
  · rw [Command.report, bind_assoc]
    exact .bind fun g _ => Printing.ends_line _ _
  · rw [Command.report, bind_assoc]
    refine .bind fun g _ => ?_
    rw [bind_assoc]
    exact .bind fun required _ => Printing.ends_line _ _
  · exact Printing.ends_line _ _

variable {a : Arguments} {w : Surroundings}

/-- **A run prints at its end**, and only if it does not fail. -/
theorem ends_perform : Printing.Ends (a.perform w) (a.run w) := by
  rw [perform, run, evaluate, bind_assoc]
  refine .bind fun c _ => ?_
  rw [bind_assoc]
  refine .bind fun settings _ => ?_
  rw [bind_assoc]
  refine .bind fun users _ => ?_
  rw [bind_assoc]
  refine .bind fun p _ => ?_
  rw [bind_assoc]
  refine .bind fun o _ => ?_
  rw [bind_assoc]
  exact .bind fun _ _ => ends_command _ _ _ _

/-! ### Whole runs -/

theorem run_eq_error_iff {e : Error} : a.run w = .error e ↔ a.FailsFirst w Stage.all e := by
  rw [run, Except.bind_pure_eq_error_iff, evaluate_eq_error_iff]

/-- A report that is a refusal is the verdict of a check. -/
theorem allowed_eq_false_iff {users : List User} {p : Provider} {report : Report}
    (h : a.command.report users p = .ok report) : report.allowed = false ↔
      ∃ who names scope g required, a.command = .check who names scope ∧
        report = .verdict g scope required false := by
  constructor
  · intro hallowed
    rcases hcommand : a.command with who | ⟨who, names, scope⟩ | _
    · rw [hcommand] at h
      obtain ⟨g, -, h⟩ := Except.bind_eq_ok_iff.mp h
      obtain rfl := Except.ok.inj h
      cases hallowed
    · rw [hcommand] at h
      obtain ⟨g, required, -, -, rfl⟩ := Command.report_check_eq_ok_iff.mp h
      have hallowed : (p.find? g).any (·.permits scope required) = false := hallowed
      exact ⟨who, names, scope, g, required, rfl, by rw [hallowed]⟩
    · rw [hcommand] at h
      obtain rfl := Except.ok.inj h
      cases hallowed
  · rintro ⟨who, names, scope, g, required, -, rfl⟩
    rfl

/-- **What a run reports.** A run fails just if some stage does, with the error of the first of
them, and then nothing is printed. Otherwise the report on the command is printed once, with a line
feed after it, and the answer is no just if it is the verdict of a check that is denied. -/
theorem run_stages (a : Arguments) (w : Surroundings) :
    (∀ e, a.run w = .error e ↔ ∃ before s after, Stage.all = before ++ s :: after ∧
        (∀ t ∈ before, a.Passes w t) ∧ a.Fails w s e) ∧
      ((∃ out, a.run w = .ok out) ↔ ∀ s, a.Passes w s) ∧
      (∀ e, a.run w = .error e → ∀ printed, (a.perform w).result printed = (.error e, printed)) ∧
      ∀ out, a.run w = .ok out → ∃ users p report, a.command.report users p = .ok report ∧
        out.output = report.render a.format ++ "\n" ∧
        (∀ printed, (a.perform w).result printed = (.ok out.allowed, printed ++ out.output)) ∧
        (out.allowed = false ↔ ∃ who names scope g required,
          a.command = .check who names scope ∧ report = .verdict g scope required false) := by
  refine ⟨fun e => run_eq_error_iff, ?_, fun e he printed => ?_, fun out hout => ?_⟩
  · have hfails : (∃ e, a.run w = .error e) ↔ ¬∀ s ∈ Stage.all, a.Passes w s := by
      simp only [run_eq_error_iff, exists_failsFirst_iff]
    rw [Except.exists_eq_error_iff, not_iff_not] at hfails
    exact hfails.trans ⟨fun h s => h s s.mem_all, fun h s _ => h s⟩
  · rw [ends_perform printed, he]
  · have hprinted (printed : String) := ends_perform (a := a) (w := w) printed
    rw [hout] at hprinted
    obtain ⟨report, hreport, rfl⟩ := run_eq_ok_iff.mp hout
    obtain ⟨users, p, -, h⟩ := evaluate_eq_ok_iff.mp hreport
    exact ⟨users, p, report, h, rfl, hprinted, allowed_eq_false_iff h⟩

/-- Surroundings without files and without users in the environment. -/
def bareSurroundings : Surroundings := ⟨fun _ => none, none⟩

/-- A command line with a list without a user, an unknown provider, and no grantee. -/
def flawed : Arguments := ⟨none, ["ann", " :x"], some "LDAP", .table, .show "@"⟩

/-- A command line with a user who is no grantee. -/
def nameless : Arguments := ⟨none, ["ann;@h"], none, .table, .list⟩

/-- Surroundings without files, with a list without a user in the environment. -/
def flawedSurroundings : Surroundings := ⟨fun _ => none, some " :x".toUTF8⟩

/-- A check of someone who is not configured. -/
def stranger : Arguments :=
  ⟨none, ["ann"], some "all_permitted", .table, .check "bob" ["select"] .server⟩

/-- Of three failures the first one is reported, and that of a list in the environment before that
of a user on the command line; a stranger is refused, and told so. -/
theorem run_stages_flawed :
    (∀ t ∈ [Stage.file, .json], flawed.Passes bareSurroundings t) ∧
      flawed.Fails bareSurroundings .lists (.config (.noUser ":x")) ∧
      flawed.Fails bareSurroundings .provider (.unknownProvider "LDAP") ∧
      flawed.Fails bareSurroundings .grantee (.badGrantee (.noUsername "")) ∧
      flawed.run bareSurroundings = .error (.config (.noUser ":x")) ∧
      (flawed.perform bareSurroundings).result "" = (.error (.config (.noUser ":x")), "") ∧
      nameless.Fails bareSurroundings .users (.badGrantee (.noUsername "h")) ∧
      nameless.run bareSurroundings = .error (.badGrantee (.noUsername "h")) ∧
      nameless.Fails flawedSurroundings .environment (.config (.noUser ":x")) ∧
      nameless.run flawedSurroundings = .error (.config (.noUser ":x")) ∧
      stranger.run bareSurroundings = .ok ⟨false, "SELECT on *.* for bob@%: DENIED\n"⟩ ∧
      (stranger.perform bareSurroundings).result "" =
        (.ok false, "SELECT on *.* for bob@%: DENIED\n") ∧
      ∃ who names scope, stranger.command = .check who names scope := by
  obtain ⟨hfails, -, hprints, -⟩ := run_stages flawed bareSurroundings
  obtain ⟨-, -, -, hreports⟩ := run_stages stranger bareSurroundings
  have hpasses : ∀ t ∈ [Stage.file, .json], flawed.Passes bareSurroundings t := by
    refine List.forall_mem_cons.mpr ⟨fun e h => ?_, List.forall_mem_singleton.mpr fun e h => ?_⟩
    · cases h with
      | noFile hconfig hfile => cases hconfig
      | noText hconfig hfile htext => cases hconfig
    · cases h with
      | noConfiguration hconfig hfile htext hjson => cases hconfig
  have hann : ∀ b ∈ ["ann"], ∃ es, UserEntry.ofList b = .ok es :=
    List.forall_mem_singleton.mpr ⟨[⟨"ann", ""⟩], by decide +kernel⟩
  have hlists : flawed.Fails bareSurroundings .lists (.config (.noUser ":x")) :=
    .list rfl hann (by decide +kernel)
  have hprovider : flawed.Fails bareSurroundings .provider (.unknownProvider "LDAP") :=
    .provider fun kind => by cases kind <;> decide
  have hgrantee : flawed.Fails bareSurroundings .grantee (.badGrantee (.noUsername "")) :=
    .grantee rfl (by decide +kernel)
  have hrun : flawed.run bareSurroundings = .error (.config (.noUser ":x")) :=
    (hfails _).mpr ⟨_, _, _, rfl, hpasses, hlists⟩
  have hnameless : nameless.Fails bareSurroundings .users (.badGrantee (.noUsername "h")) := by
    have hlists : nameless.Lists bareSurroundings {} ([⟨"ann", ""⟩] ++ [⟨"@h", ""⟩]) :=
      lists_iff.mpr ⟨rfl, [[⟨"ann", ""⟩, ⟨"@h", ""⟩]], [], by decide +kernel, rfl, rfl⟩
    refine .user hlists (List.forall_mem_singleton.mpr ⟨⟨"ann", "%"⟩, ?_⟩) ?_
    · decide +kernel
    · decide +kernel
  have henvironment : nameless.Fails flawedSurroundings .environment (.config (.noUser ":x")) :=
    .environment (Text.fromUTF8?_toUTF8 " :x") (by decide +kernel)
  have hstranger : stranger.run bareSurroundings =
      .ok ⟨false, "SELECT on *.* for bob@%: DENIED\n"⟩ := by
    decide +kernel
  obtain ⟨users, p, report, hreport, -, hprinted, hrefused⟩ := hreports _ hstranger
  obtain ⟨who, names, scope, -, -, hcommand, -⟩ := hrefused.mp rfl
  exact ⟨hpasses, hlists, hprovider, hgrantee, hrun, hprints _ hrun "", hnameless,
    by decide +kernel, henvironment, by decide +kernel, hstranger, hprinted "",
    who, names, scope, hcommand⟩

end Arguments

end GrantCatalog
