import GrantCatalog.Command.Run
import GrantCatalog.Proofs.Result

/-!
# Runs that come to a report

A run goes through its stages one after the other and ends with the first that fails. So a run that
comes to a report has come through each of them. The stages before the command leave behind users
and a loaded provider (`GrantCatalog.Arguments.loaded_eq_ok_iff`), and from these the command is
answered (`GrantCatalog.Arguments.evaluate_eq_ok_iff`); the answer to a check is told by
`GrantCatalog.Arguments.evaluate_eq_ok_iff_of_check`.

The users of a run are told by what was put in, and not by the functions that read it: an entry
means a user (`GrantCatalog.UserEntry.Means`) if its text names the grantee, and the environment
counts if it holds a text (`GrantCatalog.environmentUsers_eq_ok_iff`).

Whoever asks about a run starts from these statements, and does not take the run apart again.
-/

namespace GrantCatalog

/-! ### Users -/

namespace UserEntry

variable {e : UserEntry} {es : List UserEntry} {u : User} {us : List User} {error : Error}

/-- **The user that an entry means**: the grantee that its text names, with its password. -/
structure Means (e : UserEntry) (u : User) : Prop where
  grantee_eq : Grantee.parse e.user = .ok u.grantee
  password_eq : u.password = e.password

/-- **Resolving an entry** comes to the user that it means. -/
theorem resolve_eq_ok_iff : e.resolve = .ok u ↔ e.Means u := by
  rw [resolve, Except.map_eq_ok_iff]
  constructor
  · rintro ⟨g, hg, rfl⟩
    exact ⟨hg, rfl⟩
  · rintro ⟨hg, hpassword⟩
    exact ⟨u.grantee, hg, congrArg (User.mk u.grantee) hpassword.symm⟩

/-- An entry cannot be resolved just if its text names no grantee, and for this reason. -/
theorem resolve_eq_error_iff : e.resolve = .error error ↔ Grantee.parse e.user = .error error :=
  Except.map_eq_error_iff

theorem exists_resolve_eq_ok_iff :
    (∃ u, e.resolve = .ok u) ↔ ∃ g, Grantee.parse e.user = .ok g := by
  simp only [resolve, Except.map_eq_ok_iff]
  constructor
  · rintro ⟨u, g, hg, -⟩
    exact ⟨g, hg⟩
  · rintro ⟨g, hg⟩
    exact ⟨_, g, hg, rfl⟩

/-- Resolving some entries comes to the users that they mean, in order. -/
theorem mapM_resolve_eq_ok_iff : es.mapM resolve = .ok us ↔ List.Forall₂ Means es us := by
  simp only [List.mapM_eq_ok_iff, resolve_eq_ok_iff]

/-- Some lists come to the users that they name, list by list. -/
theorem ofLists_eq_ok_iff {lists : List String} : ofLists lists = .ok es ↔
    ∃ parts, lists.mapM ofList = .ok parts ∧ parts.flatten = es :=
  Except.map_eq_ok_iff

end UserEntry

section Environment

variable {value : Option ByteArray} {more : List UserEntry} {error : Error}

/-- **The users of the environment** are those of the list in it, if it holds a text; otherwise
there are none. -/
theorem environmentUsers_eq_ok_iff : environmentUsers value = .ok more ↔
    (∀ l, value.bind String.fromUTF8? = some l → UserEntry.ofList l = .ok more) ∧
      (value.bind String.fromUTF8? = none → more = []) := by
  rw [environmentUsers]
  cases value.bind String.fromUTF8? with
  | none => simp [eq_comm]
  | some l => simp

/-- The environment fails just if it holds a list that cannot be read. -/
theorem environmentUsers_eq_error_iff : environmentUsers value = .error error ↔
    ∃ l, value.bind String.fromUTF8? = some l ∧ UserEntry.ofList l = .error error := by
  rw [environmentUsers]
  cases value.bind String.fromUTF8? with
  | none => simp
  | some l => simp

end Environment

/-! ### Stages -/

/-- **The answer to a check** is a verdict on the privileges that its names mean. -/
theorem Command.report_check_eq_ok_iff {users : List User} {p : Provider} {report : Report}
    {who : String} {names : List String} {scope : Scope} :
    (check who names scope).report users p = .ok report ↔ ∃ g required,
      Grantee.parse who = .ok g ∧ names.mapM Privilege.parse = .ok required ∧
      report = .verdict g scope required ((p.find? g).any (·.permits scope required)) := by
  rw [Command.report, Except.bind_eq_ok_iff]
  simp only [Except.bind_pure_eq_ok_iff, exists_and_left]

namespace Arguments

variable {a : Arguments} {w : Surroundings}

/-- **The settings of a run** are those of its configuration, with the provider of the command
line. Behind the users of the file come those of the lists on the command line, list by list, and
then those of the environment. -/
theorem settings_eq_ok_iff {c : Configuration} {s : Settings} : a.settings w c = .ok s ↔
    ∃ parts more, a.users.mapM UserEntry.ofList = .ok parts ∧
      (∀ l, w.users.bind String.fromUTF8? = some l → UserEntry.ofList l = .ok more) ∧
      (w.users.bind String.fromUTF8? = none → more = []) ∧
      s = ⟨a.provider.getD c.settings.provider, c.settings.users ++ parts.flatten ++ more⟩ := by
  rw [settings, Except.bind_eq_ok_iff]
  simp only [Except.bind_pure_eq_ok_iff, UserEntry.ofLists_eq_ok_iff, environmentUsers_eq_ok_iff]
  constructor
  · rintro ⟨_, ⟨parts, hparts, rfl⟩, more, ⟨hlist, hnone⟩, rfl⟩
    exact ⟨parts, more, hparts, hlist, hnone, rfl⟩
  · rintro ⟨parts, more, hparts, hlist, hnone, rfl⟩
    exact ⟨_, ⟨parts, hparts, rfl⟩, more, ⟨hlist, hnone⟩, rfl⟩

/-- The users and the provider with which a command is answered. -/
def loaded (a : Arguments) (w : Surroundings) : Except Error (List User × Provider) := do
  let configuration ← a.configuration w
  let settings ← a.settings w configuration
  let users ← settings.resolve
  let provider ← Registry.defaults.create settings.provider
  let opened ← configuration.opened
  let (outcome, provider, _) := provider.serve .setUp opened.fleet opened.databases users
  outcome
  return (users, provider)

theorem evaluate_eq_bind (a : Arguments) (w : Surroundings) : a.evaluate w =
    a.loaded w >>= fun (users, p) => a.command.report users p := by
  simp only [evaluate, loaded, bind_assoc, pure_bind]

/-- **What is loaded** is what all stages before the command come to. -/
theorem loaded_eq_ok_iff {users : List User} {q : Provider} : a.loaded w = .ok (users, q) ↔
    ∃ c s p o, a.configuration w = .ok c ∧ a.settings w c = .ok s ∧
      List.Forall₂ UserEntry.Means s.users users ∧ Registry.defaults.create s.provider = .ok p ∧
      c.opened = .ok o ∧ (p.serve .setUp o.fleet o.databases users).1 = .ok () ∧
      (p.serve .setUp o.fleet o.databases users).2.1 = q := by
  constructor
  · intro h
    obtain ⟨c, hc, h⟩ := Except.bind_eq_ok_iff.mp h
    obtain ⟨s, hs, h⟩ := Except.bind_eq_ok_iff.mp h
    obtain ⟨users', husers, h⟩ := Except.bind_eq_ok_iff.mp h
    obtain ⟨p, hp, h⟩ := Except.bind_eq_ok_iff.mp h
    obtain ⟨o, ho, h⟩ := Except.bind_eq_ok_iff.mp h
    obtain ⟨⟨⟩, hserve, h⟩ := Except.bind_eq_ok_iff.mp h
    obtain ⟨rfl, rfl⟩ := Prod.mk.inj (Except.ok.inj h)
    exact ⟨c, s, p, o, hc, hs, UserEntry.mapM_resolve_eq_ok_iff.mp husers, hp, ho, hserve, rfl⟩
  · rintro ⟨c, s, p, o, hc, hs, husers, hp, ho, hserve, rfl⟩
    replace husers : s.resolve = .ok users := UserEntry.mapM_resolve_eq_ok_iff.mpr husers
    refine Except.bind_eq_ok_iff.mpr ⟨c, hc, Except.bind_eq_ok_iff.mpr ⟨s, hs, ?_⟩⟩
    refine Except.bind_eq_ok_iff.mpr ⟨users, husers, Except.bind_eq_ok_iff.mpr ⟨p, hp, ?_⟩⟩
    exact Except.bind_eq_ok_iff.mpr ⟨o, ho, Except.bind_eq_ok_iff.mpr ⟨(), hserve, rfl⟩⟩

/-- **A run that comes to a report** answers its command from what is loaded. -/
theorem evaluate_eq_ok_iff {report : Report} : a.evaluate w = .ok report ↔
    ∃ users p, a.loaded w = .ok (users, p) ∧ a.command.report users p = .ok report := by
  rw [evaluate_eq_bind, Except.bind_eq_ok_iff]
  exact Prod.exists

/-- **The answer to a check** is found on its scope. -/
theorem evaluate_eq_ok_iff_of_check {who : String} {names : List String} {scope : Scope}
    {report : Report} (hcommand : a.command = .check who names scope) : a.evaluate w = .ok report ↔
      ∃ users p g required, a.loaded w = .ok (users, p) ∧
      Grantee.parse who = .ok g ∧ names.mapM Privilege.parse = .ok required ∧
      report = .verdict g scope required ((p.find? g).any (·.permits scope required)) := by
  rw [evaluate_eq_ok_iff, hcommand]
  simp only [Command.report_check_eq_ok_iff, exists_and_left]

/-- What a run ends with is its report, printed. -/
theorem run_eq_ok_iff {out : Outcome} : a.run w = .ok out ↔ ∃ report, a.evaluate w = .ok report ∧
    out = ⟨report.allowed, report.render a.format ++ "\n"⟩ := by
  rw [run, Except.bind_pure_eq_ok_iff]

end Arguments

end GrantCatalog
