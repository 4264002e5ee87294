import GrantCatalog.Provider.Registry
import GrantCatalog.Proofs.Order
import GrantCatalog.Proofs.Result
import GrantCatalog.Proofs.Text

/-!
# Providers by name

A registry finds what was registered under a name in any case, the last registration first
(`GrantCatalog.Registry.find_register`). The names of the two kinds of providers are different in
every case, so a name selects the kind that it spells (`GrantCatalog.Registry.create_eq_ok_iff`),
and a name that spells neither selects none (`GrantCatalog.Registry.create_eq_error_iff`).

After any number of registrations a registry is no more than the list of them, read from its end
(`GrantCatalog.Registry.LastUnder`): later ones hide earlier ones under the same letters, and the
names that it lists are the letters of all of them. `GrantCatalog.Registry.LastWins` says so of
anything that is made by name; providers are made in that way
(`GrantCatalog.Registry.create_lastWins`).
-/

namespace GrantCatalog

namespace Registry

/-- **A registration is found under its name** in any case, and others are found as before. -/
theorem find_register {α : Type} (r : Registry α) (name : String) (maker : α) (t : String) :
    (r.register name maker).find t =
      if Text.sameLetters t name = true then .ok maker else r.find t := by
  have hkey : compare (Text.uppered name) (Text.uppered t) = .eq ↔
      Text.sameLetters t name = true := by
    rw [Std.LawfulEqOrd.compare_eq_iff_eq, Text.sameLetters, beq_iff_eq, eq_comm]
    exact ⟨fun h => String.ofList_injective h, fun h => congrArg String.ofList h⟩
  rw [find, register, Std.ExtTreeMap.getElem?_insert]
  by_cases h : Text.sameLetters t name = true
  · rw [if_pos (hkey.mpr h), if_pos h]
  · rw [if_neg (mt hkey.mp h), if_neg h, find]

theorem create_eq (name : String) : defaults.create name =
    if Text.sameLetters name ProviderKind.allPermitted.name = true then .ok (.new .allPermitted)
    else if Text.sameLetters name ProviderKind.native.name = true then .ok (.new .native)
    else .error (.unknownProvider name) := by
  have hdefaults : defaults = (empty.register ProviderKind.native.name .native).register
      ProviderKind.allPermitted.name .allPermitted := rfl
  have hempty : (empty : Registry ProviderKind).find name = .error (.unknownProvider name) := by
    rw [find, empty, Std.ExtTreeMap.getElem?_empty]
  rw [create, hdefaults, find_register, find_register, hempty]
  split
  · rfl
  · split <;> rfl

/-- No name spells both kinds of providers. -/
theorem not_native_of_allPermitted {name : String}
    (h : Text.sameLetters name ProviderKind.allPermitted.name = true) :
    ¬Text.sameLetters name ProviderKind.native.name = true := by
  intro h'
  rw [Text.sameLetters, beq_iff_eq] at h h'
  rw [h] at h'
  revert h'
  decide

/-- **A name selects the kind of provider** that it spells. -/
theorem create_eq_ok_iff {name : String} {p : Provider} : defaults.create name = .ok p ↔
    ∃ kind : ProviderKind, Text.sameLetters name kind.name = true ∧ p = .new kind := by
  rw [create_eq]
  split
  · next hall =>
    constructor
    · rintro ⟨⟩
      exact ⟨_, hall, rfl⟩
    · rintro ⟨kind, hkind, rfl⟩
      cases kind with
      | allPermitted => rfl
      | native => exact absurd hkind (not_native_of_allPermitted hall)
  · next hall =>
    split
    · next hnative =>
      constructor
      · rintro ⟨⟩
        exact ⟨_, hnative, rfl⟩
      · rintro ⟨kind, hkind, rfl⟩
        cases kind with
        | allPermitted => exact absurd hkind hall
        | native => rfl
    · next hnative =>
      refine iff_of_false (fun h => by cases h) ?_
      rintro ⟨kind, hkind, -⟩
      cases kind with
      | allPermitted => exact hall hkind
      | native => exact hnative hkind

/-- A name that spells no kind of provider selects none. -/
theorem create_eq_error_iff {name : String} {e : Error} : defaults.create name = .error e ↔
    (∀ kind : ProviderKind, Text.sameLetters name kind.name = false) ∧
      e = .unknownProvider name := by
  rw [create_eq]
  split
  · next hall =>
    refine iff_of_false (fun h => by cases h) fun h => ?_
    rw [h.1 .allPermitted] at hall
    cases hall
  · next hall =>
    split
    · next hnative =>
      refine iff_of_false (fun h => by cases h) fun h => ?_
      rw [h.1 .native] at hnative
      cases hnative
    · next hnative =>
      constructor
      · rintro ⟨⟩
        refine ⟨fun kind => ?_, rfl⟩
        cases kind with
        | allPermitted => exact Bool.eq_false_iff.mpr hall
        | native => exact Bool.eq_false_iff.mpr hnative
      · rintro ⟨-, rfl⟩
        rfl

/-! ### Registrations in a row -/

section Registrations

variable {α β : Type} {entries : List (String × α)} {name t : String} {maker : α}

/-- **The last registration under a name**, in any case. -/
def LastUnder (entries : List (String × α)) (t : String) (maker : α) : Prop :=
  ∃ before name after, entries = before ++ (name, maker) :: after ∧
    Text.sameLetters t name = true ∧ ∀ entry ∈ after, Text.sameLetters t entry.1 = false

/-- A registration is the last one under its name, and hides none under another. -/
theorem lastUnder_concat_iff {found : α} :
    LastUnder (entries ++ [(name, maker)]) t found ↔
      if Text.sameLetters t name = true then maker = found else LastUnder entries t found := by
  constructor
  · rintro ⟨before, name', after, hentries, hname', hafter⟩
    -- Either nothing is registered behind it, or the new registration is.
    rcases List.eq_nil_or_concat' after with rfl | ⟨after, entry, rfl⟩
    · obtain ⟨-, hlast⟩ := List.append_inj' hentries rfl
      cases hlast
      rw [if_pos hname']
    · rw [← List.cons_append, ← List.append_assoc] at hentries
      obtain ⟨hfront, hlast⟩ := List.append_inj' hentries rfl
      cases hlast
      have hno : Text.sameLetters t name = false := hafter (name, maker) (by simp)
      rw [if_neg (by simp [hno])]
      exact ⟨before, name', after, hfront, hname', fun entry h => hafter entry (by simp [h])⟩
  · intro h
    split at h
    · next hname =>
      subst h
      exact ⟨entries, name, [], rfl, hname, fun _ h => absurd h List.not_mem_nil⟩
    · next hname =>
      obtain ⟨before, name', after, rfl, hname', hafter⟩ := h
      refine ⟨before, name', after ++ [(name, maker)], by simp, hname', fun entry hentry => ?_⟩
      rcases List.mem_append.mp hentry with hentry | hentry
      · exact hafter entry hentry
      · obtain rfl := List.mem_singleton.mp hentry
        exact Bool.eq_false_iff.mpr hname

theorem registerAll_concat (r : Registry α) :
    r.registerAll (entries ++ [(name, maker)]) = (r.registerAll entries).register name maker := by
  rw [registerAll, List.foldl_append]
  rfl

theorem registerAll_append (r : Registry α) (entries later : List (String × α)) :
    (r.registerAll entries).registerAll later = r.registerAll (entries ++ later) := by
  rw [registerAll, registerAll, registerAll, List.foldl_append]

/-- **The last registration under a name is found.** -/
theorem find_registerAll_eq_ok_iff :
    (empty.registerAll entries).find t = .ok maker ↔ LastUnder entries t maker := by
  induction entries using List.reverseRecOn with
  | nil =>
    refine iff_of_false (fun h => ?_) ?_
    · rw [registerAll, List.foldl_nil, find, empty, Std.ExtTreeMap.getElem?_empty] at h
      cases h
    · rintro ⟨before, name, after, h, -⟩
      exact absurd h.symm (List.append_ne_nil_of_right_ne_nil before (List.cons_ne_nil _ after))
  | append_singleton entries entry ih =>
    rw [registerAll_concat, find_register, lastUnder_concat_iff]
    split
    · exact ⟨Except.ok.inj, congrArg Except.ok⟩
    · exact ih

/-- **Nothing is found under a name that was not registered**, and the error has the name as it was
given. -/
theorem find_registerAll_eq_error_iff {e : Error} :
    (empty.registerAll entries).find t = .error e ↔
      (∀ entry ∈ entries, Text.sameLetters t entry.1 = false) ∧ e = .unknownProvider t := by
  induction entries using List.reverseRecOn with
  | nil =>
    rw [registerAll, List.foldl_nil, find, empty, Std.ExtTreeMap.getElem?_empty]
    exact ⟨fun h => ⟨fun _ hentry => absurd hentry List.not_mem_nil, (Except.error.inj h).symm⟩,
      fun h => congrArg Except.error h.2.symm⟩
  | append_singleton entries entry ih =>
    obtain ⟨name, maker⟩ := entry
    rw [registerAll_concat, find_register, List.forall_mem_append, List.forall_mem_singleton]
    split
    · next hname => simp [hname]
    · next hname => rw [ih, and_iff_left (Bool.eq_false_iff.mpr hname)]

/-- Names are listed in the order of their bytes, and so without repetitions. -/
theorem pairwise_names (r : Registry α) :
    r.names.Pairwise fun a b => Text.bytes a < Text.bytes b :=
  (Std.ExtTreeMap.ordered_keys (t := r.makers)).imp Text.compare_eq_lt_iff.mp

theorem mem_names_register (r : Registry α) :
    t ∈ (r.register name maker).names ↔ t = Text.uppered name ∨ t ∈ r.names := by
  rw [names, register, Std.ExtTreeMap.mem_keys, Std.ExtTreeMap.mem_insert, names,
    Std.ExtTreeMap.mem_keys, Std.LawfulEqOrd.compare_eq_iff_eq, eq_comm]

/-- The names are the registered ones in upper case. -/
theorem mem_names_registerAll_iff :
    t ∈ (empty.registerAll entries).names ↔ ∃ entry ∈ entries, t = Text.uppered entry.1 := by
  induction entries using List.reverseRecOn with
  | nil => simp [registerAll, names, empty]
  | append_singleton entries entry ih =>
    rw [registerAll_concat, mem_names_register, ih]
    simp [or_and_right, exists_or, or_comm]

/-- **What is made by name is made as the registrations say**, the last one under a name having the
word. -/
structure LastWins (entries : List (String × α)) (build : α → β) (make : String → Except Error β)
    (names : List String) : Prop where
  /-- It is made by the last registration under the name, in any case. -/
  made (t : String) (b : β) :
    make t = .ok b ↔ ∃ maker, LastUnder entries t maker ∧ build maker = b
  /-- Nothing is made under a name that was not registered, and the error has that name. -/
  unknown (t : String) (e : Error) :
    make t = .error e ↔
      (∀ entry ∈ entries, Text.sameLetters t entry.1 = false) ∧ e = .unknownProvider t
  /-- The names are in the order of their bytes. -/
  ordered : names.Pairwise fun a b => Text.bytes a < Text.bytes b
  /-- They are the registered names in upper case. -/
  listed (n : String) : n ∈ names ↔ ∃ entry ∈ entries, n = Text.uppered entry.1
  /-- Under each of them, in any case, something is made. -/
  available (n : String) (hn : n ∈ names) (t : String) (ht : Text.sameLetters t n = true) :
    ∃ b, make t = .ok b

/-- The last registration wins, whatever is registered and built. -/
theorem lastWins_registerAll (entries : List (String × α)) (build : α → β) :
    LastWins entries build (fun t => ((empty.registerAll entries).find t).map build)
      (empty.registerAll entries).names where
  made t b := by
    rw [Except.map_eq_ok_iff]
    simp only [find_registerAll_eq_ok_iff]
  unknown t e := by
    rw [Except.map_eq_error_iff, find_registerAll_eq_error_iff]
  ordered := pairwise_names _
  listed n := mem_names_registerAll_iff
  available n hn t ht := by
    obtain ⟨entry, hentry, rfl⟩ := mem_names_registerAll_iff.mp hn
    -- A name and its capitals have the same letters.
    rw [Text.sameLetters_uppered] at ht
    cases hfound : (empty.registerAll entries).find t with
    | ok maker => exact ⟨build maker, rfl⟩
    | error e =>
      have hno := (find_registerAll_eq_error_iff.mp hfound).1 entry hentry
      rw [hno] at ht
      cases ht

end Registrations

/-- The registrations that the default registry consists of. -/
def builtIn : List (String × ProviderKind) :=
  [("NATIVE", .native), ("ALL_PERMITTED", .allPermitted)]

/-- **A registry of providers is a map from names in any case, in which the last registration
wins**, on top of the empty registry and on top of the default one. So is a registry of any other
ways to make a provider, whatever had been registered to begin with. -/
theorem create_lastWins (entries : List (String × ProviderKind)) :
    LastWins entries Provider.new (empty.registerAll entries).create
        (empty.registerAll entries).names ∧
      LastWins (builtIn ++ entries) Provider.new (defaults.registerAll entries).create
        (defaults.registerAll entries).names ∧
      ∀ {α : Type} (before entries : List (String × α)) (build : α → Provider),
        LastWins (before ++ entries) build
          (fun t => (((empty.registerAll before).registerAll entries).find t).map build)
          ((empty.registerAll before).registerAll entries).names := by
  -- The default registry is one more run of registrations, and two runs are one.
  have hdefaults : defaults = empty.registerAll builtIn := rfl
  refine ⟨lastWins_registerAll entries Provider.new, ?_, fun before entries build => ?_⟩
  · rw [hdefaults, registerAll_append]
    exact lastWins_registerAll (builtIn ++ entries) Provider.new
  · rw [registerAll_append]
    exact lastWins_registerAll (before ++ entries) build

/-- A registration under a default name in another case hides the default. -/
theorem create_lastWins_native :
    (defaults.registerAll [("native", .allPermitted), ("Größe", .native)]).create "Native" =
        .ok (.new .allPermitted) ∧
      (defaults.registerAll [("native", .allPermitted), ("Größe", .native)]).create "GRÖSSE" =
        .error (.unknownProvider "GRÖSSE") := by
  obtain ⟨-, hdefaults, -⟩ := create_lastWins [("native", .allPermitted), ("Größe", .native)]
  refine ⟨(hdefaults.made _ _).mpr ⟨_, ?_, rfl⟩, (hdefaults.unknown _ _).mpr ⟨?_, rfl⟩⟩
  · refine ⟨builtIn, "native", [("Größe", .native)], rfl, by decide +kernel, fun entry h => ?_⟩
    obtain rfl := List.mem_singleton.mp h
    decide +kernel
  · decide +kernel

end Registry

end GrantCatalog
