import GrantCatalog.Command.Option
import GrantCatalog.Proofs.Text
import Mathlib.Data.List.Pairwise

/-!
# What arguments say

Options may be written in five ways, anywhere between the words. None of this is in what some
arguments say: a list of options with their values, and a list of words
(`GrantCatalog.Place.Says`).

* What is said of an option without a letter can be read off the text: it is there with its value in
  one argument, or in two that follow one another, in front of two dashes
  (`GrantCatalog.Place.Says.mem_values_iff`).
* An option can be inserted anywhere, but not after two dashes, and not between another option and
  its value (`GrantCatalog.Place.Says.oneMore`).

No argument can be read in two ways: what begins with a dash is an option, with its value
(`GrantCatalog.Switch.Carries`) or without it (`GrantCatalog.Switch.Announces`), and nothing is
both.
-/

namespace GrantCatalog

/-- What is found by a key that tells everything apart is what has the key. -/
theorem find?_key_eq_some_iff {α β : Type} [BEq β] [LawfulBEq β] (key : α → β) {k : β} {l : List α}
    {a : α} (hkey : ∀ b, key b = k → key a = k → b = a) :
    l.find? (key · == k) = some a ↔ a ∈ l ∧ key a = k := by
  constructor
  · intro h
    exact ⟨List.mem_of_find?_eq_some h, by simpa using List.find?_some h⟩
  · rintro ⟨ha, hk⟩
    have hfound : (l.find? (key · == k)).isSome = true :=
      List.find?_isSome.mpr ⟨a, ha, beq_iff_eq.mpr hk⟩
    obtain ⟨b, hb⟩ := Option.isSome_iff_exists.mp hfound
    obtain rfl := hkey b (by simpa using List.find?_some hb) hk
    exact hb

/-! ### Names and letters of options -/

namespace Switch

variable {f f' : Switch} {place : Place}

theorem name_injective (h : f.name = f'.name) : f = f' := by
  cases f <;> cases f' <;> first | rfl | exact absurd h (by decide)

theorem letter_injective {c : Char} (h : f.letter? = some c) (h' : f'.letter? = some c) :
    f = f' := by
  have hsame : f.letter? = f'.letter? := h.trans h'.symm
  cases f <;> cases f' <;> simp_all [letter?]

theorem name_ne_nil (f : Switch) : f.name.toList ≠ [] := by
  cases f <;> decide

theorem equals_not_mem_name (f : Switch) : '=' ∉ f.name.toList := by
  cases f <;> decide

theorem letter_ne_dash {c : Char} (h : f.letter? = some c) : c ≠ '-' := by
  rintro rfl
  cases f <;> simp [letter?] at h

theorem find?_name_eq_some_iff {name : List Char} :
    place.switches.find? (·.name.toList == name) = some f ↔
      f ∈ place.switches ∧ f.name.toList = name := by
  refine find?_key_eq_some_iff (fun f : Switch => f.name.toList) fun g hg hf => ?_
  exact name_injective (String.toList_injective (hg.trans hf.symm))

theorem find?_letter_eq_some_iff {c : Char} :
    place.switches.find? (·.letter? == some c) = some f ↔
      f ∈ place.switches ∧ f.letter? = some c :=
  find?_key_eq_some_iff letter? fun _ hg hf => letter_injective hg hf

end Switch

/-! ### What arguments say -/

/-- An argument that is no option: it does not begin with a dash, or it is a dash alone. -/
def Plain (arg : String) : Prop := ∀ c rest, arg.toList ≠ '-' :: c :: rest

/-- **An argument that is an option with its value.** -/
inductive Switch.Carries (f : Switch) (v : String) : String → Prop where
  /-- `--name=value`. -/
  | name : Carries f v ("--" ++ f.name ++ "=" ++ v)
  /-- `-n=value`. -/
  | equals {c : Char} (hc : f.letter? = some c) :
      Carries f v (.ofList ('-' :: c :: '=' :: v.toList))
  /-- `-nvalue`. -/
  | letter {c d : Char} {rest : List Char} (hc : f.letter? = some c) (hv : v.toList = d :: rest)
      (hd : d ≠ '=') : Carries f v (.ofList ('-' :: c :: v.toList))

/-- **An argument that is an option** whose value is to come. -/
inductive Switch.Announces (f : Switch) : String → Prop where
  /-- `--name`. -/
  | name : Announces f ("--" ++ f.name)
  /-- `-n`. -/
  | letter {c : Char} (hc : f.letter? = some c) : Announces f (.ofList ['-', c])

/-- **The ways to write an option with its value**, in one argument or in two. -/
inductive Switch.Spells (f : Switch) (v : String) : List String → Prop where
  /-- The value is attached to the option. -/
  | attached {arg : String} (h : f.Carries v arg) : Spells f v [arg]
  /-- The value is the next argument. -/
  | apart {arg : String} (h : f.Announces arg) (hv : Plain v) : Spells f v [arg, v]

/-- The options with a value at a place. -/
def Place.options (place : Place) : List Switch := place.switches.filter (·.request?.isNone)

/-- **What arguments say**: options with their values, and words. -/
inductive Place.Says (place : Place) :
    List String → List (Switch × String) → List String → Prop where
  /-- Nothing. -/
  | nil : Says place [] [] []
  /-- An option with its value, in any spelling. -/
  | option {f : Switch} {v : String} {piece rest : List String} {values : List (Switch × String)}
      {words : List String} (hf : f ∈ place.options) (h : f.Spells v piece)
      (hrest : Says place rest values words) :
      Says place (piece ++ rest) ((f, v) :: values) words
  /-- A word. -/
  | word {w : String} {rest : List String} {values : List (Switch × String)} {words : List String}
      (h : Plain w) (hrest : Says place rest values words) :
      Says place (w :: rest) values (w :: words)
  /-- After two dashes there are words only. -/
  | dashes (words : List String) : Says place ("--" :: words) [] words

/-- **Options that may be given together**: none is repeated that may not be, and each accepts its
value. -/
def Accepted (values : List (Switch × String)) : Prop :=
  values.Pairwise (fun e e' => e.1 = e'.1 → e.1.repeatable = true) ∧
    ∀ e ∈ values, e.1.accepts e.2 = true

/-- There is room for some more words at a place. -/
def Place.HasRoom (place : Place) (n : Nat) (words : List String) : Prop :=
  ∀ k < words.length, place.takesWord (n + k) = true

theorem Switch.mem_options {f : Switch} {place : Place} :
    f ∈ place.options ↔ f ∈ place.switches ∧ f.request? = none := by
  rw [Place.options, List.mem_filter, Option.isNone_iff_eq_none]

theorem not_plain_dashes (body : String) : ¬Plain ("--" ++ body) := by
  intro h
  refine h '-' body.toList ?_
  rw [String.toList_append]
  rfl

namespace Switch

variable {f : Switch} {v arg : String} {c : Char} {body rest : List Char}

theorem carries_dashes_iff (h : arg.toList = '-' :: '-' :: body) :
    f.Carries v arg ↔ body = f.name.toList ++ '=' :: v.toList := by
  constructor
  · rintro (- | ⟨hc⟩ | ⟨hc, -, -⟩)
    · simpa using h.symm
    · simp only [String.toList_ofList, List.cons.injEq, true_and] at h
      exact absurd h.1 (letter_ne_dash hc)
    · simp only [String.toList_ofList, List.cons.injEq, true_and] at h
      exact absurd h.1 (letter_ne_dash hc)
  · rintro rfl
    obtain rfl : "--" ++ f.name ++ "=" ++ v = arg := String.toList_injective (by simp [h])
    exact .name

theorem carries_letter_iff (h : arg.toList = '-' :: c :: rest) (hdash : c ≠ '-') :
    f.Carries v arg ↔ f.letter? = some c ∧
      (rest = '=' :: v.toList ∨ rest = v.toList ∧ ∃ d r, rest = d :: r ∧ d ≠ '=') := by
  constructor
  · rintro (- | ⟨hc⟩ | ⟨hc, hv, hd⟩)
    · rw [String.toList_append, String.toList_append, String.toList_append] at h
      exact absurd (List.cons.inj (List.cons.inj h).2).1.symm hdash
    · simp only [String.toList_ofList, List.cons.injEq, true_and] at h
      obtain ⟨rfl, rfl⟩ := h
      exact ⟨hc, .inl rfl⟩
    · simp only [String.toList_ofList, List.cons.injEq, true_and] at h
      obtain ⟨rfl, rfl⟩ := h
      exact ⟨hc, .inr ⟨rfl, _, _, hv, hd⟩⟩
  · rintro ⟨hc, rfl | ⟨rfl, d, r, hv, hd⟩⟩
    · obtain rfl : String.ofList ('-' :: c :: '=' :: v.toList) = arg := by
        rw [← h, String.ofList_toList]
      exact .equals hc
    · obtain rfl : String.ofList ('-' :: c :: v.toList) = arg := by
        rw [← h, String.ofList_toList]
      exact .letter hc hv hd

theorem announces_dashes_iff (h : arg.toList = '-' :: '-' :: body) :
    f.Announces arg ↔ body = f.name.toList := by
  constructor
  · rintro (- | ⟨hc⟩)
    · simpa using h.symm
    · simp only [String.toList_ofList, List.cons.injEq, true_and] at h
      exact absurd h.1 (letter_ne_dash hc)
  · rintro rfl
    obtain rfl : "--" ++ f.name = arg := String.toList_injective (by simp [h])
    exact .name

theorem announces_letter_iff (h : arg.toList = '-' :: c :: rest) (hdash : c ≠ '-') :
    f.Announces arg ↔ f.letter? = some c ∧ rest = [] := by
  constructor
  · rintro (- | ⟨hc⟩)
    · rw [String.toList_append] at h
      exact absurd (List.cons.inj (List.cons.inj h).2).1.symm hdash
    · simp only [String.toList_ofList, List.cons.injEq, true_and] at h
      obtain ⟨rfl, rfl⟩ := h
      exact ⟨hc, rfl⟩
  · rintro ⟨hc, rfl⟩
    obtain rfl : String.ofList ['-', c] = arg := by
      rw [← h, String.ofList_toList]
    exact .letter hc

/-- An option is no plain argument. -/
theorem Carries.not_plain (h : f.Carries v arg) : ¬Plain arg := by
  intro hplain
  cases h with
  | name => exact hplain '-' (f.name.toList ++ '=' :: v.toList) (by simp)
  | equals hc => exact hplain _ _ String.toList_ofList
  | letter hc hv hd => exact hplain _ _ String.toList_ofList

theorem Announces.not_plain (h : f.Announces arg) : ¬Plain arg := by
  intro hplain
  cases h with
  | name => exact hplain '-' f.name.toList (by simp)
  | letter hc => exact hplain _ _ String.toList_ofList

theorem Carries.ne_dashes (h : f.Carries v arg) : arg ≠ "--" := by
  rintro rfl
  have hbody : [] = f.name.toList ++ '=' :: v.toList := (carries_dashes_iff rfl).mp h
  simp at hbody

theorem Announces.ne_dashes (h : f.Announces arg) : arg ≠ "--" := by
  rintro rfl
  exact f.name_ne_nil ((announces_dashes_iff rfl).mp h).symm

/-- Two dashes alone are no part of an option. -/
theorem Spells.ne_dashes {piece : List String} (h : f.Spells v piece) : "--" ∉ piece := by
  intro hmem
  cases h with
  | attached h => exact h.ne_dashes (List.mem_singleton.mp hmem).symm
  | apart h hv =>
    rcases List.mem_cons.mp hmem with hmem | hmem
    · exact h.ne_dashes hmem.symm
    · rw [← List.mem_singleton.mp hmem] at hv
      exact hv '-' [] rfl

end Switch

/-! ### Options in the text -/

/-- **An option is given a value** in one of some arguments, or in two that follow one another. -/
def Switch.GivenIn (f : Switch) (v : String) (args : List String) : Prop :=
  "--" ++ f.name ++ "=" ++ v ∈ args ∨ ["--" ++ f.name, v] <:+: args

namespace Switch

variable {f f' : Switch} {v v' arg : String} {rest : List String}

theorem toList_named : ("--" ++ f.name ++ "=" ++ v).toList =
    '-' :: '-' :: (f.name.toList ++ '=' :: v.toList) := by
  simp

theorem toList_announced : ("--" ++ f.name).toList = '-' :: '-' :: f.name.toList := by
  simp

theorem carries_named_iff : f'.Carries v' ("--" ++ f.name ++ "=" ++ v) ↔ f' = f ∧ v' = v := by
  rw [carries_dashes_iff toList_named]
  constructor
  · intro h
    have hcut := Text.cutFirst_append f.equals_not_mem_name v.toList
    rw [h, Text.cutFirst_append f'.equals_not_mem_name] at hcut
    obtain ⟨hname, hv⟩ := Prod.mk.inj (Option.some.inj hcut)
    exact ⟨name_injective (String.toList_injective hname), String.toList_injective hv⟩
  · rintro ⟨rfl, rfl⟩
    rfl

theorem announces_name_iff : f'.Announces ("--" ++ f.name) ↔ f' = f := by
  rw [announces_dashes_iff toList_announced]
  constructor
  · intro h
    exact name_injective (String.toList_injective h.symm)
  · rintro rfl
    rfl

theorem not_announces_named : ¬f'.Announces ("--" ++ f.name ++ "=" ++ v) := by
  rw [announces_dashes_iff toList_named]
  intro h
  exact f'.equals_not_mem_name (h ▸ by simp)

theorem not_carries_name : ¬f'.Carries v' ("--" ++ f.name) := by
  rw [carries_dashes_iff toList_announced]
  intro h
  exact f.equals_not_mem_name (h ▸ by simp)

/-- An option without a letter is written with its name. -/
theorem Carries.eq_named (h : f.Carries v arg) (hletter : f.letter? = none) :
    arg = "--" ++ f.name ++ "=" ++ v := by
  cases h with
  | name => rfl
  | equals hc => cases hletter.symm.trans hc
  | letter hc => cases hletter.symm.trans hc

theorem Announces.eq_name (h : f.Announces arg) (hletter : f.letter? = none) :
    arg = "--" ++ f.name := by
  cases h with
  | name => rfl
  | letter hc => cases hletter.symm.trans hc

/-- An argument is read in one way only. -/
theorem Carries.unique (h : f.Carries v arg) (h' : f'.Carries v' arg) : f' = f ∧ v' = v := by
  cases h with
  | name => exact carries_named_iff.mp h'
  | equals hc =>
    obtain ⟨hc', hrest⟩ := (carries_letter_iff String.toList_ofList (letter_ne_dash hc)).mp h'
    obtain rfl := letter_injective hc' hc
    rcases hrest with hrest | ⟨-, d, r, hrest, hd⟩
    · exact ⟨rfl, String.toList_injective (List.cons.inj hrest).2.symm⟩
    · exact absurd (List.cons.inj hrest).1.symm hd
  | letter hc hv hd =>
    obtain ⟨hc', hrest⟩ := (carries_letter_iff String.toList_ofList (letter_ne_dash hc)).mp h'
    obtain rfl := letter_injective hc' hc
    rcases hrest with hrest | ⟨hrest, -⟩
    · exact absurd (List.cons.inj (hv.symm.trans hrest)).1 hd
    · exact ⟨rfl, String.toList_injective hrest.symm⟩

theorem Carries.not_announces (h : f.Carries v arg) : ¬f'.Announces arg := by
  intro h'
  cases h with
  | name => exact not_announces_named h'
  | equals hc =>
    cases ((announces_letter_iff String.toList_ofList (letter_ne_dash hc)).mp h').2
  | letter hc hv =>
    cases hv.symm.trans ((announces_letter_iff String.toList_ofList (letter_ne_dash hc)).mp h').2

theorem Announces.unique (h : f.Announces arg) (h' : f'.Announces arg) : f' = f := by
  cases h with
  | name => exact announces_name_iff.mp h'
  | letter hc =>
    have hc' := ((announces_letter_iff String.toList_ofList (letter_ne_dash hc)).mp h').1
    exact letter_injective hc' hc

theorem givenIn_cons_iff : f.GivenIn v (arg :: rest) ↔ arg = "--" ++ f.name ++ "=" ++ v ∨
    (arg = "--" ++ f.name ∧ ∃ rest', rest = v :: rest') ∨ f.GivenIn v rest := by
  have hfirst : ["--" ++ f.name, v] <+: arg :: rest ↔
      arg = "--" ++ f.name ∧ ∃ rest', rest = v :: rest' := by
    rw [List.cons_prefix_cons, eq_comm]
    refine and_congr_right fun _ => ?_
    constructor
    · rintro ⟨rest', h⟩
      exact ⟨rest', h.symm⟩
    · rintro ⟨rest', h⟩
      exact ⟨rest', h.symm⟩
  rw [GivenIn, GivenIn, List.mem_cons, List.infix_cons_iff, hfirst, eq_comm]
  tauto

/-- In front of other arguments, a word gives no option a value. -/
theorem givenIn_cons_of_plain (h : Plain arg) :
    f.GivenIn v (arg :: rest) ↔ f.GivenIn v rest := by
  have hnamed : arg ≠ "--" ++ f.name ++ "=" ++ v := by
    rintro rfl
    rw [String.append_assoc, String.append_assoc] at h
    exact not_plain_dashes _ h
  have hname : arg ≠ "--" ++ f.name := by
    rintro rfl
    exact not_plain_dashes _ h
  simp [givenIn_cons_iff, hnamed, hname]

/-- An option gives itself its value, and no other. -/
theorem Spells.givenIn_append_iff {piece : List String} (h : f'.Spells v' piece)
    (hletter : f.letter? = none) :
    f.GivenIn v (piece ++ rest) ↔ (f = f' ∧ v = v') ∨ f.GivenIn v rest := by
  cases h with
  | @attached arg h =>
    have hname : arg ≠ "--" ++ f.name := by
      rintro rfl
      exact not_carries_name h
    have hnamed : arg = "--" ++ f.name ++ "=" ++ v ↔ f = f' ∧ v = v' := by
      constructor
      · rintro rfl
        obtain ⟨rfl, rfl⟩ := carries_named_iff.mp h
        exact ⟨rfl, rfl⟩
      · rintro ⟨rfl, rfl⟩
        exact h.eq_named hletter
    rw [List.singleton_append, givenIn_cons_iff, hnamed]
    simp [hname]
  | @apart arg h hv =>
    have hnamed : arg ≠ "--" ++ f.name ++ "=" ++ v := by
      rintro rfl
      exact not_announces_named h
    have hname : arg = "--" ++ f.name ↔ f = f' := by
      constructor
      · rintro rfl
        exact (announces_name_iff.mp h).symm
      · rintro rfl
        exact h.eq_name hletter
    have hvalue : (∃ rest', v' :: rest = v :: rest') ↔ v = v' := by simp [eq_comm]
    rw [List.cons_append, List.singleton_append, givenIn_cons_iff, givenIn_cons_of_plain hv, hname,
      hvalue]
    simp [hnamed]

end Switch

/-- **What arguments say of an option without a letter** can be seen in their text, up to two
dashes. -/
theorem Place.Says.mem_values_iff {place : Place} {args words : List String}
    {values : List (Switch × String)} (h : place.Says args values words) {f : Switch} {v : String}
    (hletter : f.letter? = none) :
    (f, v) ∈ values ↔ f.GivenIn v (args.takeWhile (· ≠ "--")) := by
  induction h with
  | nil => simp [Switch.GivenIn]
  | @option f' v' piece rest values words _ hspells _ ih =>
    have hpiece : ∀ arg ∈ piece, decide (arg ≠ "--") = true := by
      intro arg harg
      refine decide_eq_true ?_
      rintro rfl
      exact hspells.ne_dashes harg
    rw [List.mem_cons, Prod.mk.injEq, ih, List.takeWhile_append_of_pos hpiece,
      hspells.givenIn_append_iff hletter]
  | @word w rest values words hw _ ih =>
    have hne : decide (w ≠ "--") = true := by
      refine decide_eq_true ?_
      rintro rfl
      exact not_plain_dashes "" hw
    rw [ih, List.takeWhile_cons, if_pos hne, Switch.givenIn_cons_of_plain hw]
  | dashes words => simp [Switch.GivenIn]

/-! ### One option more -/

/-- Arguments that begin with an option are not cut inside it, unless its value is to come. -/
theorem Switch.Spells.exists_eq_append {f : Switch} {v : String} {piece rest l r : List String}
    (h : f.Spells v piece) (hargs : l ++ r = piece ++ rest) (hl : l ≠ [])
    (hcomplete : ∀ arg ∈ l.getLast?, ¬f.Announces arg) :
    ∃ l', l = piece ++ l' ∧ l' ++ r = rest := by
  obtain ⟨arg, l, rfl⟩ := List.exists_cons_of_ne_nil hl
  cases h with
  | attached h =>
    obtain ⟨rfl, rfl⟩ := List.cons.inj hargs
    exact ⟨l, rfl, rfl⟩
  | apart h hv =>
    rw [List.cons_append, List.cons_append, List.cons.injEq] at hargs
    obtain ⟨rfl, hargs⟩ := hargs
    cases l with
    | nil => exact absurd h (hcomplete _ rfl)
    | cons w l =>
      rw [List.cons_append, List.cons_append, List.cons.injEq] at hargs
      obtain ⟨rfl, rfl⟩ := hargs
      exact ⟨l, rfl, rfl⟩

/-- **One option more**, in any spelling, anywhere but after two dashes and between another option
and its value. -/
inductive Place.OneMore (place : Place) (f : Switch) (v : String) :
    List String → List String → Prop where
  | insert {l piece r : List String} (hl : "--" ∉ l)
      (hcomplete : ∀ arg ∈ l.getLast?, ∀ f' ∈ place.options, ¬f'.Announces arg)
      (hf : f ∈ place.options) (hspells : f.Spells v piece) :
      OneMore place f v (l ++ r) (l ++ piece ++ r)

theorem Place.OneMore.mem_options {place : Place} {f : Switch} {v : String}
    {args args' : List String} (h : place.OneMore f v args args') : f ∈ place.options := by
  cases h with
  | insert _ _ hf _ => exact hf

/-- **One option more is said**, and everything else as before. -/
theorem Place.Says.oneMore {place : Place} {args args' words : List String} {f : Switch}
    {v : String} {values : List (Switch × String)} (h : place.Says args values words)
    (hmore : place.OneMore f v args args') :
    ∃ values', values'.Perm (values ++ [(f, v)]) ∧ place.Says args' values' words := by
  rcases hmore with @⟨l, piece, r, hl, hcomplete, hf, hspells⟩
  have hfront {rest words : List String} {values : List (Switch × String)}
      (h : place.Says rest values words) :
      ∃ values', values'.Perm (values ++ [(f, v)]) ∧ place.Says (piece ++ rest) values' words :=
    ⟨(f, v) :: values, (List.perm_append_singleton _ _).symm, .option hf hspells h⟩
  generalize hargs : l ++ r = args at h
  induction h generalizing l with
  | nil =>
    obtain ⟨rfl, rfl⟩ := List.append_eq_nil_iff.mp hargs
    exact hfront .nil
  | @option f' v' piece' rest values words hf' hspells' hrest ih =>
    by_cases hnil : l = []
    · subst hnil hargs
      exact hfront (.option hf' hspells' hrest)
    · obtain ⟨l, rfl, hlr⟩ := hspells'.exists_eq_append hargs hnil
        fun arg harg => hcomplete arg harg f' hf'
      have hcomplete' : ∀ arg ∈ l.getLast?, ∀ f' ∈ place.options, ¬f'.Announces arg :=
        fun arg harg => hcomplete arg (List.mem_getLast?_append_of_mem_getLast? harg)
      obtain ⟨values', hperm, hsaid⟩ :=
        ih (fun hmem => hl (List.mem_append_right _ hmem)) hcomplete' hlr
      refine ⟨(f', v') :: values', hperm.cons _, ?_⟩
      rw [List.append_assoc piece', List.append_assoc piece']
      exact .option hf' hspells' hsaid
  | word hw hrest ih =>
    cases l with
    | nil =>
      subst hargs
      exact hfront (.word hw hrest)
    | cons w l =>
      obtain ⟨rfl, hlr⟩ := List.cons.inj hargs
      obtain ⟨values', hperm, hsaid⟩ := ih (fun hmem => hl (List.mem_cons_of_mem _ hmem))
        (fun arg harg => hcomplete arg (List.mem_getLast?_cons harg)) hlr
      exact ⟨values', hperm, .word hw hsaid⟩
  | dashes words =>
    cases l with
    | nil =>
      subst hargs
      exact hfront (.dashes words)
    | cons arg l =>
      obtain ⟨rfl, -⟩ := List.cons.inj hargs
      exact absurd List.mem_cons_self hl

theorem Place.hasRoom_nil (place : Place) (n : Nat) : place.HasRoom n [] :=
  fun _ hk => absurd hk (Nat.not_lt_zero _)

theorem Place.hasRoom_cons_iff {place : Place} {n : Nat} {w : String} {words : List String} :
    place.HasRoom n (w :: words) ↔ place.takesWord n = true ∧ place.HasRoom (n + 1) words := by
  constructor
  · intro h
    refine ⟨h 0 (Nat.succ_pos _), fun k hk => ?_⟩
    rw [Nat.add_right_comm]
    exact h (k + 1) (Nat.succ_lt_succ hk)
  · rintro ⟨hfirst, h⟩ k hk
    cases k with
    | zero => exact hfirst
    | succ k =>
      rw [← Nat.add_assoc, Nat.add_right_comm]
      exact h k (Nat.lt_of_succ_lt_succ hk)

theorem Accepted.nil : Accepted [] := ⟨.nil, fun _ h => absurd h List.not_mem_nil⟩

theorem Accepted.of_append {values more : List (Switch × String)} (h : Accepted (values ++ more)) :
    Accepted values :=
  ⟨(List.pairwise_append.mp h.1).1, fun e he => h.2 e (List.mem_append_left _ he)⟩

theorem accepted_concat_iff {values : List (Switch × String)} {f : Switch} {v : String}
    (h : Accepted values) : Accepted (values ++ [(f, v)]) ↔
      (f.repeatable = false → ∀ v', (f, v') ∉ values) ∧ f.accepts v = true := by
  constructor
  · rintro ⟨hpairs, haccepts⟩
    refine ⟨fun hf v' hv' => ?_, haccepts (f, v) (by simp)⟩
    have hrep : f.repeatable = true :=
      (List.pairwise_append.mp hpairs).2.2 (f, v') hv' (f, v) (by simp) rfl
    rw [hf] at hrep
    cases hrep
  · rintro ⟨honce, haccepts⟩
    refine ⟨List.pairwise_append.mpr ⟨h.1, List.pairwise_singleton _ _, ?_⟩, ?_⟩
    · rintro ⟨f', v'⟩ he e he' rfl
      obtain rfl := List.mem_singleton.mp he'
      by_contra hrep
      exact honce (by simpa using hrep) v' he
    · intro e he
      rcases List.mem_append.mp he with he | he
      · exact h.2 e he
      · obtain rfl := List.mem_singleton.mp he
        exact haccepts

instance : Std.Symm fun e e' : Switch × String => e.1 = e'.1 → e.1.repeatable = true where
  symm e e' hrep he := by
    rw [he]
    exact hrep he.symm

/-- The order of options makes no difference. -/
theorem Accepted.perm {values values' : List (Switch × String)} (h : Accepted values)
    (hperm : values'.Perm values) : Accepted values' :=
  ⟨(hperm.symm.pairwise_iff (Std.Symm.symm _ _)).mp h.1, fun e he => h.2 e (hperm.subset he)⟩

/-- An option that may not be repeated has one value. -/
theorem Accepted.eq_of_mem {values : List (Switch × String)} {f : Switch} {v v' : String}
    (h : Accepted values) (hf : f.repeatable = false) (hv : (f, v) ∈ values)
    (hv' : (f, v') ∈ values) : v = v' := by
  by_contra hne
  have hrep : f.repeatable = true := h.1.forall hv hv' (by simp [hne]) rfl
  rw [hf] at hrep
  cases hrep

end GrantCatalog
