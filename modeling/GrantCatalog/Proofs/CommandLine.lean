import GrantCatalog.Command.Arguments
import GrantCatalog.Proofs.Options
import GrantCatalog.Proofs.Result

/-!
# Command lines are read as what they say

Reading arguments keeps an option open until its value has come and something else begins. An option
that is open is a detour: its value comes next
(`GrantCatalog.Seen.takeAll_awaiting_eq_ok_iff`), and it does not matter when that value is looked
at (`GrantCatalog.Seen.takeAll_eq_ok_iff_settle`). Without detours, reading follows what is said.

* Arguments are read just if they say something, no option is repeated that may not be, each value
  is accepted, and there is room for the words (`GrantCatalog.Seen.takeAll_eq_ok_iff`).
* A command line is read just if it says options in front of the word for a subcommand, and what
  comes after that word is read (`GrantCatalog.Arguments.exists_says_of_parse_eq_ok` and
  `GrantCatalog.Arguments.parse_eq_ok_iff_of_said`).
-/

namespace GrantCatalog

namespace Seen

variable {s t : Seen} {place : Place} {f : Switch} {v arg : String} {rest : List String}

/-! ### One argument -/

theorem mem_valuesOf : v ∈ s.valuesOf f ↔ (f, v) ∈ s.values := by
  rw [valuesOf, List.mem_filterMap]
  constructor
  · rintro ⟨⟨f', v'⟩, hmem, h⟩
    by_cases hf : f' = f
    · obtain rfl := hf
      obtain rfl : v' = v := by simpa using h
      exact hmem
    · simp [hf] at h
  · intro h
    exact ⟨(f, v), h, if_pos rfl⟩

/-- The value of an option that may not be repeated is the one that was seen. -/
theorem value?_eq_some_iff (hs : Accepted s.values) (hf : f.repeatable = false) :
    s.value? f = some v ↔ (f, v) ∈ s.values := by
  rw [value?, ← mem_valuesOf]
  constructor
  · exact List.mem_of_mem_head?
  · intro hv
    obtain ⟨v', hv'⟩ : ∃ v', (s.valuesOf f).head? = some v' :=
      ⟨_, List.head?_eq_some_head (List.ne_nil_of_mem hv)⟩
    have hmem := mem_valuesOf.mp (List.mem_of_mem_head? hv')
    rw [hv', hs.eq_of_mem hf hmem (mem_valuesOf.mp hv)]

theorem accept_eq_ok_iff (hs : Accepted s.values) : s.accept f v = .ok t ↔
    Accepted (s.values ++ [(f, v)]) ∧ t = ⟨s.values ++ [(f, v)], s.words, .none⟩ := by
  have hrepeated : (!f.repeatable && !(s.valuesOf f).isEmpty) = true ↔
      ¬(f.repeatable = false → ∀ v', (f, v') ∉ s.values) := by
    rw [Bool.and_eq_true, Bool.not_eq_true', Bool.not_eq_true',
      List.isEmpty_eq_false_iff_exists_mem]
    simp only [mem_valuesOf, Classical.not_imp, not_forall, not_not]
  rw [accepted_concat_iff hs, accept]
  by_cases hrep : (!f.repeatable && !(s.valuesOf f).isEmpty) = true
  · rw [if_pos hrep]
    exact iff_of_false (fun h => by cases h) fun h => hrepeated.mp hrep h.1.1
  · rw [if_neg hrep]
    have honce := not_not.mp (mt hrepeated.mpr hrep)
    cases haccepts : f.accepts v with
    | false => exact iff_of_false (fun h => by cases h) fun h => by cases h.1.2
    | true => exact ⟨fun h => ⟨⟨honce, rfl⟩, (Except.ok.inj h).symm⟩, fun h => h.2 ▸ rfl⟩

/-- An option with a value attached is taken once the option before it is complete. -/
theorem begin_some_eq_ok_iff : s.begin f (some v) = .ok t ↔
    f.request? = none ∧ ∃ s', s.settle = .ok s' ∧ s'.accept f v = .ok t := by
  unfold Seen.begin
  cases f.request? with
  | none => simp [Except.bind_eq_ok_iff]
  | some request => simp

/-- An option without a value attached is open once the option before it is complete. -/
theorem begin_none_eq_ok_iff : s.begin f none = .ok t ↔
    f.request? = none ∧ ∃ s', s.settle = .ok s' ∧ t = ⟨s'.values, s'.words, .awaiting f⟩ := by
  unfold Seen.begin
  cases f.request? with
  | none => simp only [Except.bind_pure_eq_ok_iff, true_and]
  | some request =>
    simp only [Except.bind_eq_ok_iff]
    refine iff_of_false ?_ fun h => by cases h.1
    rintro ⟨-, -, h⟩
    cases h

theorem takeWord_eq_ok_iff : s.takeWord place arg = .ok t ↔
    place.takesWord s.words.length = true ∧
      ∃ s', s.settle = .ok s' ∧ t = ⟨s'.values, s'.words ++ [arg], .none⟩ := by
  rw [takeWord]
  split
  · next h => simp only [Except.bind_pure_eq_ok_iff, h, true_and]
  · next h => exact iff_of_false (fun h => by cases h) fun h' => h h'.1

theorem takeLong_eq_ok_iff {body : List Char} : s.takeLong place body = .ok t ↔
    (∃ f ∈ place.switches, ∃ v : String, body = f.name.toList ++ '=' :: v.toList ∧
      s.begin f (some v) = .ok t) ∨
    ∃ f ∈ place.switches, body = f.name.toList ∧ s.begin f none = .ok t := by
  unfold takeLong
  cases hcut : Text.cutFirst '=' body with
  | none =>
    have hequals : '=' ∉ body := Text.cutFirst_eq_none_iff.mp hcut
    constructor
    · intro h
      dsimp only at h
      split at h
      · next f hf =>
        obtain ⟨hmem, hname⟩ := Switch.find?_name_eq_some_iff.mp hf
        exact .inr ⟨f, hmem, hname.symm, h⟩
      · cases h
    · rintro (⟨f, -, v, rfl, -⟩ | ⟨f, hmem, hname, h⟩)
      · simp at hequals
      · dsimp only
        rw [Switch.find?_name_eq_some_iff.mpr ⟨hmem, hname.symm⟩]
        exact h
  | some parts =>
    obtain ⟨name, value⟩ := parts
    obtain ⟨rfl, hequals⟩ := Text.cutFirst_eq_some_iff.mp hcut
    constructor
    · intro h
      dsimp only at h
      split at h
      · next f hf =>
        obtain ⟨hmem, hname⟩ := Switch.find?_name_eq_some_iff.mp hf
        exact .inl ⟨f, hmem, .ofList value, by rw [hname, String.toList_ofList], h⟩
      · cases h
    · rintro (⟨f, hmem, v, hbody, h⟩ | ⟨f, -, hbody, -⟩)
      · -- A text is cut at its first equals sign in one way only.
        rw [hbody, Text.cutFirst_append f.equals_not_mem_name] at hcut
        obtain ⟨rfl, rfl⟩ := Prod.mk.inj (Option.some.inj hcut)
        dsimp only
        rw [Switch.find?_name_eq_some_iff.mpr ⟨hmem, rfl⟩, String.ofList_toList]
        exact h
      · exact absurd (by rw [← hbody]; simp) f.equals_not_mem_name

theorem takeShort_eq_ok_iff {c : Char} {rest : List Char} : s.takeShort place c rest = .ok t ↔
    (∃ f ∈ place.switches, ∃ v : String, (f.letter? = some c ∧ (rest = '=' :: v.toList ∨
      rest = v.toList ∧ ∃ d r, rest = d :: r ∧ d ≠ '=')) ∧ s.begin f (some v) = .ok t) ∨
    ∃ f ∈ place.switches, (f.letter? = some c ∧ rest = []) ∧ s.begin f none = .ok t := by
  unfold takeShort
  constructor
  · intro h
    split at h
    · next f hf =>
      obtain ⟨hmem, hletter⟩ := Switch.find?_letter_eq_some_iff.mp hf
      split at h
      · next hrequest =>
        rw [(begin_none_eq_ok_iff.mp h).1] at hrequest
        cases hrequest
      · split at h
        · exact .inr ⟨f, hmem, ⟨hletter, rfl⟩, h⟩
        · next value =>
          exact .inl ⟨f, hmem, .ofList value, ⟨hletter, .inl (by rw [String.toList_ofList])⟩, h⟩
        · next hne hequals =>
          obtain ⟨d, r, rfl⟩ := List.exists_cons_of_ne_nil hne
          have hd : d ≠ '=' := by
            rintro rfl
            exact hequals r rfl
          refine .inl ⟨f, hmem, .ofList (d :: r), ⟨hletter, .inr ⟨?_, d, r, rfl, hd⟩⟩, h⟩
          rw [String.toList_ofList]
    · cases h
  · rintro (⟨f, hmem, v, ⟨hletter, hrest⟩, h⟩ | ⟨f, hmem, ⟨hletter, rfl⟩, h⟩)
    · rw [Switch.find?_letter_eq_some_iff.mpr ⟨hmem, hletter⟩]
      simp only [(begin_some_eq_ok_iff.mp h).1, Option.isSome_none]
      rcases hrest with rfl | ⟨hrest, d, r, rfl, hd⟩
      · simpa using h
      · have hvalue : String.ofList (d :: r) = v := by rw [hrest, String.ofList_toList]
        simpa [hd, hvalue] using h
    · rw [Switch.find?_letter_eq_some_iff.mpr ⟨hmem, hletter⟩]
      simp only [(begin_none_eq_ok_iff.mp h).1, Option.isSome_none]
      exact h

/-- **Taking an argument**: an option with its value, an option without it, or anything else. -/
theorem take_eq_ok_iff : s.take place arg = .ok t ↔
    ((∃ f ∈ place.switches, ∃ v, f.Carries v arg ∧ s.begin f (some v) = .ok t) ∨
      ∃ f ∈ place.switches, f.Announces arg ∧ s.begin f none = .ok t) ∨
      Plain arg ∧ ((∃ f, s.pending = .awaiting f ∧ t = ⟨s.values, s.words, .given f arg⟩) ∨
        (∀ f, s.pending ≠ .awaiting f) ∧ s.takeWord place arg = .ok t) := by
  unfold take
  split
  · next body harg =>
    have hplain : ¬Plain arg := fun h => h _ _ harg
    simp only [takeLong_eq_ok_iff, Switch.carries_dashes_iff harg, Switch.announces_dashes_iff harg,
      hplain, false_and, or_false]
  · next c rest hdash harg =>
    have hne : c ≠ '-' := by
      rintro rfl
      exact hdash rfl
    have hplain : ¬Plain arg := fun h => h _ _ harg
    simp only [takeShort_eq_ok_iff, Switch.carries_letter_iff harg hne,
      Switch.announces_letter_iff harg hne, hplain, false_and, or_false]
  · next hdashes hletter =>
    have hplain : Plain arg := fun c rest h => hletter c rest h
    have hcarries (f : Switch) (v : String) : ¬f.Carries v arg := fun h => h.not_plain hplain
    have hannounces (f : Switch) : ¬f.Announces arg := fun h => h.not_plain hplain
    simp only [hcarries, hannounces, hplain, false_and, and_false, exists_false, false_or, true_and]
    split
    · next f hpending => simp [hpending, eq_comm]
    · next hpending =>
      constructor
      · intro h
        exact .inr ⟨hpending, h⟩
      · rintro (⟨f, hf, -⟩ | ⟨-, h⟩)
        · exact absurd hf (hpending f)
        · exact h

/-! ### Options that are not complete -/

theorem pending_of_accept_eq_ok {s' : Seen} (h : s.accept f v = .ok s') :
    s'.pending = .none ∧ s'.words = s.words := by
  unfold accept at h
  split at h
  · cases h
  · split at h
    · cases h
    · obtain rfl := Except.ok.inj h
      exact ⟨rfl, rfl⟩

/-- What settling leaves is settled. -/
theorem pending_of_settle_eq_ok {s' : Seen} (h : s.settle = .ok s') :
    s'.pending = .none ∧ s'.words = s.words := by
  unfold settle at h
  split at h
  · next hpending =>
    obtain rfl := Except.ok.inj h
    exact ⟨hpending, rfl⟩
  · cases h
  · exact pending_of_accept_eq_ok h

/-- Nothing is settled while a value is to come. -/
theorem settle_ne_ok {s' : Seen} (hs : s.pending = .awaiting f) : s.settle ≠ .ok s' := by
  intro h
  rw [settle, hs] at h
  cases h

theorem settle_of_pending (h : s.pending = .none) : s.settle = .ok s := by
  rw [settle, h]

/-- **What one more argument adds**, if every option before it is complete. -/
inductive Adds (place : Place) (s : Seen) (arg : String) : Seen → Prop where
  /-- It is an option with its value. -/
  | option {f : Switch} {v : String} {t : Seen} (hf : f ∈ place.options) (h : f.Carries v arg)
      (haccept : s.accept f v = .ok t) : Adds place s arg t
  /-- It is an option whose value is to come. -/
  | opening {f : Switch} (hf : f ∈ place.options) (h : f.Announces arg) :
      Adds place s arg ⟨s.values, s.words, .awaiting f⟩
  /-- It is a word, and there is room for it. -/
  | word (h : Plain arg) (hroom : place.takesWord s.words.length = true) :
      Adds place s arg ⟨s.values, s.words ++ [arg], .none⟩

/-- Where a value may come, it comes. -/
theorem take_awaiting_eq_ok_iff (hs : s.pending = .awaiting f) : s.take place arg = .ok t ↔
    Plain arg ∧ t = ⟨s.values, s.words, .given f arg⟩ := by
  simp only [take_eq_ok_iff, begin_some_eq_ok_iff, begin_none_eq_ok_iff, settle_ne_ok hs, false_and,
    exists_false, and_false, or_self, false_or, hs, Pending.awaiting.injEq, ne_eq]
  refine and_congr_right fun _ => ⟨?_, fun h => .inl ⟨f, rfl, h⟩⟩
  rintro (⟨f', rfl, h⟩ | ⟨h, -⟩)
  · exact h
  · exact absurd rfl (h f)

/-- Elsewhere what is not complete is looked at first. -/
theorem take_eq_ok_iff_adds (hs : ∀ f, s.pending ≠ .awaiting f) : s.take place arg = .ok t ↔
    ∃ s', s.settle = .ok s' ∧ s'.Adds place arg t := by
  rw [take_eq_ok_iff]
  constructor
  · rintro ((⟨f, hmem, v, hcarries, h⟩ | ⟨f, hmem, hannounces, h⟩) | ⟨hplain, ⟨f, hf, -⟩ | ⟨-, h⟩⟩)
    · obtain ⟨hrequest, s', hsettle, haccept⟩ := begin_some_eq_ok_iff.mp h
      exact ⟨s', hsettle, .option (Switch.mem_options.mpr ⟨hmem, hrequest⟩) hcarries haccept⟩
    · obtain ⟨hrequest, s', hsettle, rfl⟩ := begin_none_eq_ok_iff.mp h
      exact ⟨s', hsettle, .opening (Switch.mem_options.mpr ⟨hmem, hrequest⟩) hannounces⟩
    · exact absurd hf (hs f)
    · obtain ⟨hroom, s', hsettle, rfl⟩ := takeWord_eq_ok_iff.mp h
      rw [← (pending_of_settle_eq_ok hsettle).2] at hroom
      exact ⟨s', hsettle, .word hplain hroom⟩
  · rintro ⟨s', hsettle, h⟩
    rcases h with ⟨hf, hcarries, haccept⟩ | ⟨hf, hannounces⟩ | ⟨hplain, hroom⟩
    · obtain ⟨hmem, hrequest⟩ := Switch.mem_options.mp hf
      exact .inl (.inl ⟨_, hmem, _, hcarries,
        begin_some_eq_ok_iff.mpr ⟨hrequest, s', hsettle, haccept⟩⟩)
    · obtain ⟨hmem, hrequest⟩ := Switch.mem_options.mp hf
      exact .inl (.inr ⟨_, hmem, hannounces,
        begin_none_eq_ok_iff.mpr ⟨hrequest, s', hsettle, rfl⟩⟩)
    · rw [(pending_of_settle_eq_ok hsettle).2] at hroom
      exact .inr ⟨hplain, .inr ⟨hs, takeWord_eq_ok_iff.mpr ⟨hroom, s', hsettle, rfl⟩⟩⟩

theorem take_settled_eq_ok_iff (hs : s.pending = .none) :
    s.take place arg = .ok t ↔ s.Adds place arg t := by
  rw [take_eq_ok_iff_adds (by simp [hs]), settle_of_pending hs]
  simp

/-- What an argument adds is determined by the way in which it is read. -/
theorem adds_iff_of_carries (hf : f ∈ place.options) (h : f.Carries v arg) :
    s.Adds place arg t ↔ s.accept f v = .ok t := by
  constructor
  · rintro (⟨-, h', haccept⟩ | ⟨-, h'⟩ | ⟨h', -⟩)
    · obtain ⟨rfl, rfl⟩ := h.unique h'
      exact haccept
    · exact absurd h' h.not_announces
    · exact absurd h' h.not_plain
  · exact .option hf h

theorem adds_iff_of_announces (hf : f ∈ place.options) (h : f.Announces arg) :
    s.Adds place arg t ↔ t = ⟨s.values, s.words, .awaiting f⟩ := by
  constructor
  · rintro (⟨-, h', -⟩ | ⟨-, h'⟩ | ⟨h', -⟩)
    · exact absurd h h'.not_announces
    · obtain rfl := h.unique h'
      rfl
    · exact absurd h' h.not_plain
  · rintro rfl
    exact .opening hf h

theorem adds_iff_of_plain (h : Plain arg) : s.Adds place arg t ↔
    place.takesWord s.words.length = true ∧ t = ⟨s.values, s.words ++ [arg], .none⟩ := by
  constructor
  · rintro (⟨-, h', -⟩ | ⟨-, h'⟩ | ⟨-, hroom⟩)
    · exact absurd h h'.not_plain
    · exact absurd h h'.not_plain
    · exact ⟨hroom, rfl⟩
  · rintro ⟨hroom, rfl⟩
    exact .word h hroom

/-! ### All arguments -/

/-- Words alone are taken if there is room for them. -/
theorem foldlM_takeWord_eq_ok_iff {words : List String} :
    (do let s ← words.foldlM (fun s w => takeWord s place w) s; s.settle) = .ok t ↔
      place.HasRoom s.words.length words ∧
        ∃ s', s.settle = .ok s' ∧ t = ⟨s'.values, s'.words ++ words, .none⟩ := by
  induction words generalizing s with
  | nil =>
    have hsettle : s.settle = .ok t ↔ ∃ s', s.settle = .ok s' ∧ t = s' :=
      ⟨fun h => ⟨t, h, rfl⟩, fun ⟨s', h, ht⟩ => ht ▸ h⟩
    refine hsettle.trans ((exists_congr fun s' => and_congr_right fun h => ?_).trans
      (and_iff_right (place.hasRoom_nil _)).symm)
    rw [List.append_nil, ← (pending_of_settle_eq_ok h).1]
  | cons w words ih =>
    rw [List.foldlM_cons, bind_assoc, Except.bind_eq_ok_iff]
    simp only [ih, takeWord_eq_ok_iff, Place.hasRoom_cons_iff]
    constructor
    · rintro ⟨-, ⟨hfirst, s', hsettle, rfl⟩, hroom, s'', hsettle', rfl⟩
      obtain rfl := Except.ok.inj hsettle'
      rw [List.length_append, (pending_of_settle_eq_ok hsettle).2] at hroom
      exact ⟨⟨hfirst, hroom⟩, s', hsettle, by simp⟩
    · rintro ⟨⟨hfirst, hroom⟩, s', hsettle, rfl⟩
      refine ⟨_, ⟨hfirst, s', hsettle, rfl⟩, ?_, _, rfl, by simp⟩
      rw [List.length_append, (pending_of_settle_eq_ok hsettle).2]
      exact hroom

theorem takeAll_cons_eq_ok_iff (harg : arg ≠ "--") : s.takeAll place (arg :: rest) = .ok t ↔
    ∃ s', s.take place arg = .ok s' ∧ s'.takeAll place rest = .ok t := by
  rw [takeAll, if_neg harg, Except.bind_eq_ok_iff]

theorem takeAll_dashes_eq_ok_iff : s.takeAll place ("--" :: rest) = .ok t ↔
    place.HasRoom s.words.length rest ∧
      ∃ s', s.settle = .ok s' ∧ t = ⟨s'.values, s'.words ++ rest, .none⟩ := by
  rw [takeAll, if_pos rfl]
  exact foldlM_takeWord_eq_ok_iff

/-- It does not matter when an option with its value is looked at. -/
theorem takeAll_eq_ok_iff_settle {args : List String} (hs : ∀ f, s.pending ≠ .awaiting f) :
    s.takeAll place args = .ok t ↔
      ∃ s', s.settle = .ok s' ∧ s'.takeAll place args = .ok t := by
  have hsettled {s' : Seen} (h : s.settle = .ok s') : s'.settle = .ok s' :=
    settle_of_pending (pending_of_settle_eq_ok h).1
  cases args with
  | nil =>
    constructor
    · intro h
      exact ⟨t, h, hsettled h⟩
    · rintro ⟨s', h, h'⟩
      rw [takeAll, hsettled h] at h'
      rw [takeAll, h, h']
  | cons arg rest =>
    by_cases harg : arg = "--"
    · subst harg
      simp only [takeAll_dashes_eq_ok_iff]
      constructor
      · rintro ⟨hroom, s', h, rfl⟩
        rw [← (pending_of_settle_eq_ok h).2] at hroom
        exact ⟨s', h, hroom, s', hsettled h, rfl⟩
      · rintro ⟨s', h, hroom, s'', h', rfl⟩
        obtain rfl := Except.ok.inj ((hsettled h).symm.trans h')
        rw [(pending_of_settle_eq_ok h).2] at hroom
        exact ⟨hroom, s', h, rfl⟩
    · simp only [takeAll_cons_eq_ok_iff harg, take_eq_ok_iff_adds hs]
      constructor
      · rintro ⟨s'', ⟨s', h, hadds⟩, hrest⟩
        exact ⟨s', h, s'', (take_settled_eq_ok_iff (pending_of_settle_eq_ok h).1).mpr hadds, hrest⟩
      · rintro ⟨s', h, s'', htake, hrest⟩
        have hadds := (take_settled_eq_ok_iff (pending_of_settle_eq_ok h).1).mp htake
        exact ⟨s'', ⟨s', h, hadds⟩, hrest⟩

/-- An option without its value is completed by the next argument, which is no option. -/
theorem takeAll_awaiting_eq_ok_iff {args : List String} (hs : s.pending = .awaiting f) :
    s.takeAll place args = .ok t ↔ ∃ v rest, args = v :: rest ∧ Plain v ∧
      ∃ s', s.accept f v = .ok s' ∧ s'.takeAll place rest = .ok t := by
  cases args with
  | nil =>
    refine iff_of_false (settle_ne_ok hs) ?_
    rintro ⟨v, rest, h, -⟩
    cases h
  | cons arg rest =>
    simp only [List.cons.injEq]
    by_cases harg : arg = "--"
    · subst harg
      simp only [takeAll_dashes_eq_ok_iff, settle_ne_ok hs]
      refine iff_of_false (by simp) ?_
      rintro ⟨v, rest, ⟨rfl, rfl⟩, hplain, -⟩
      exact not_plain_dashes "" hplain
    · simp only [takeAll_cons_eq_ok_iff harg, take_awaiting_eq_ok_iff hs]
      constructor
      · rintro ⟨-, ⟨hplain, rfl⟩, h⟩
        rw [takeAll_eq_ok_iff_settle (by simp)] at h
        exact ⟨arg, rest, ⟨rfl, rfl⟩, hplain, h⟩
      · rintro ⟨v, rest', ⟨rfl, rfl⟩, hplain, h⟩
        refine ⟨_, ⟨hplain, rfl⟩, ?_⟩
        rw [takeAll_eq_ok_iff_settle (by simp)]
        exact h

/-- **An option is taken**, in any spelling, if it is accepted with its value. -/
theorem takeAll_option_eq_ok_iff {piece : List String} (hs : s.pending = .none)
    (hf : f ∈ place.options) (hspells : f.Spells v piece) :
    s.takeAll place (piece ++ rest) = .ok t ↔
      ∃ s', s.accept f v = .ok s' ∧ s'.takeAll place rest = .ok t := by
  cases hspells with
  | attached h =>
    rw [List.singleton_append, takeAll_cons_eq_ok_iff h.ne_dashes]
    simp only [take_settled_eq_ok_iff hs, adds_iff_of_carries hf h]
  | apart h hv =>
    rw [List.cons_append, List.singleton_append, takeAll_cons_eq_ok_iff h.ne_dashes]
    simp only [take_settled_eq_ok_iff hs, adds_iff_of_announces hf h, exists_eq_left]
    rw [takeAll_awaiting_eq_ok_iff rfl]
    constructor
    · rintro ⟨v', rest', hrest, -, h⟩
      obtain ⟨rfl, rfl⟩ := List.cons.inj hrest
      exact h
    · intro h
      exact ⟨v, rest, rfl, hv, h⟩

/-- A word is taken if there is room for it. -/
theorem takeAll_word_eq_ok_iff (hs : s.pending = .none) (harg : Plain arg) :
    s.takeAll place (arg :: rest) = .ok t ↔ place.takesWord s.words.length = true ∧
      (⟨s.values, s.words ++ [arg], .none⟩ : Seen).takeAll place rest = .ok t := by
  have hne : arg ≠ "--" := by
    rintro rfl
    exact not_plain_dashes "" harg
  rw [takeAll_cons_eq_ok_iff hne]
  simp only [take_settled_eq_ok_iff hs, adds_iff_of_plain harg, and_assoc, exists_and_left,
    exists_eq_left]

/-- **Arguments that say something are read just if it is acceptable** after what was seen before,
and it is added to that. -/
theorem takeAll_eq_ok_iff_of_said {args words : List String} {values : List (Switch × String)}
    (hs : s.pending = .none) (haccepted : Accepted s.values)
    (hsaid : place.Says args values words) :
    s.takeAll place args = .ok t ↔ Accepted (s.values ++ values) ∧
      place.HasRoom s.words.length words ∧ t = ⟨s.values ++ values, s.words ++ words, .none⟩ := by
  induction hsaid generalizing s with
  | nil =>
    rw [takeAll, settle_of_pending hs, List.append_nil, List.append_nil, ← hs, Except.ok.injEq,
      eq_comm, and_iff_right haccepted, and_iff_right (place.hasRoom_nil _)]
  | @option f v piece rest values words hf hspells _ ih =>
    rw [takeAll_option_eq_ok_iff hs hf hspells, List.append_cons]
    simp only [accept_eq_ok_iff haccepted]
    constructor
    · rintro ⟨s', ⟨haccepted', rfl⟩, h⟩
      exact (ih rfl haccepted').mp h
    · intro h
      exact ⟨_, ⟨h.1.of_append, rfl⟩, (ih rfl h.1.of_append).mpr h⟩
  | @word w rest values words hplain _ ih =>
    have hrest := ih (s := ⟨s.values, s.words ++ [w], .none⟩) rfl haccepted
    rw [List.length_append, List.append_assoc] at hrest
    rw [takeAll_word_eq_ok_iff hs hplain, hrest, Place.hasRoom_cons_iff, and_assoc]
    exact and_left_comm
  | dashes words =>
    rw [takeAll_dashes_eq_ok_iff, settle_of_pending hs, List.append_nil]
    simp [haccepted]

/-- Arguments that are read say something. -/
theorem exists_says_of_takeAll_eq_ok {args : List String} (hs : s.pending = .none)
    (h : s.takeAll place args = .ok t) : ∃ values words, place.Says args values words := by
  -- Two arguments may be taken at once, so the induction is on the number of arguments.
  induction hn : args.length using Nat.strongRecOn generalizing s args with
  | ind n ih =>
    subst hn
    cases args with
    | nil => exact ⟨[], [], .nil⟩
    | cons arg rest =>
      by_cases harg : arg = "--"
      · subst harg
        exact ⟨[], rest, .dashes rest⟩
      · obtain ⟨s', htake, hrest⟩ := (takeAll_cons_eq_ok_iff harg).mp h
        rcases (take_settled_eq_ok_iff hs).mp htake with
          ⟨hf, hcarries, haccept⟩ | ⟨hf, hannounces⟩ | ⟨hplain, hfirst⟩
        · have hs' := pending_of_accept_eq_ok haccept
          obtain ⟨values, words, hsaid⟩ := ih rest.length (Nat.lt_succ_self _) hs'.1 hrest rfl
          exact ⟨_, words, .option hf (.attached hcarries) hsaid⟩
        · obtain ⟨v, rest, rfl, hv, s', haccept, hrest⟩ :=
            (takeAll_awaiting_eq_ok_iff rfl).mp hrest
          have hs' := pending_of_accept_eq_ok haccept
          obtain ⟨values, words, hsaid⟩ :=
            ih rest.length (Nat.lt_succ_of_lt (Nat.lt_succ_self _)) hs'.1 hrest rfl
          exact ⟨_, words, .option hf (.apart hannounces hv) hsaid⟩
        · obtain ⟨values, words, hsaid⟩ := ih rest.length (Nat.lt_succ_self _) rfl hrest rfl
          exact ⟨values, arg :: words, .word hplain hsaid⟩

/-- **What is read of arguments is what they say.** -/
theorem takeAll_eq_ok_iff {args : List String} : Seen.takeAll {} place args = .ok t ↔
    ∃ values words, place.Says args values words ∧ Accepted values ∧ place.HasRoom 0 words ∧
      t = ⟨values, words, .none⟩ := by
  constructor
  · intro h
    obtain ⟨values, words, hsaid⟩ := exists_says_of_takeAll_eq_ok rfl h
    exact ⟨values, words, hsaid, (takeAll_eq_ok_iff_of_said rfl .nil hsaid).mp h⟩
  · rintro ⟨values, words, hsaid, h⟩
    exact (takeAll_eq_ok_iff_of_said rfl .nil hsaid).mpr h

end Seen

/-! ### The whole command line -/

theorem Place.ofWord?_eq_some_iff {place : Place} {w : String} : ofWord? w = some place ↔
    (w = "show" ∧ place = .show) ∨ (w = "check" ∧ place = .check) ∨
      (w = "list" ∧ place = .list) := by
  unfold ofWord?
  split_ifs <;> simp_all [eq_comm]

/-- The words for subcommands are no options. -/
theorem Place.plain_of_ofWord?_eq_some {place : Place} {w : String} (h : ofWord? w = some place) :
    Plain w := by
  intro c rest hw
  rcases ofWord?_eq_some_iff.mp h with ⟨rfl, -⟩ | ⟨rfl, -⟩ | ⟨rfl, -⟩ <;> cases hw

namespace Arguments

variable {s : Seen} {a : Arguments}

theorem noSubcommand_ne_ok : noSubcommand s ≠ .ok a := by
  intro h
  obtain ⟨s', -, hthrow⟩ := Except.bind_eq_ok_iff.mp h
  cases hthrow

/-- Whether a value is to come. -/
theorem isAwaiting_eq_true_iff : s.isAwaiting = true ↔ ∃ f, s.pending = .awaiting f := by
  unfold Seen.isAwaiting
  cases s.pending <;> simp

theorem isAwaiting_of_settle_eq_ok {s' : Seen} (h : s.settle = .ok s') : s.isAwaiting = false := by
  rw [Bool.eq_false_iff, Ne, isAwaiting_eq_true_iff]
  rintro ⟨f, hf⟩
  exact Seen.settle_ne_ok hf h

/-- No word is taken in front of the subcommand. -/
theorem not_plain_of_take_top {arg : String} {t : Seen} (hs : s.isAwaiting = false)
    (h : s.take .top arg = .ok t) : ¬Plain arg := by
  have hopen : ∀ f, s.pending ≠ .awaiting f := fun f hf => by
    rw [isAwaiting_eq_true_iff.mpr ⟨f, hf⟩] at hs
    cases hs
  obtain ⟨s', -, hadds⟩ := (Seen.take_eq_ok_iff_adds hopen).mp h
  rcases hadds with ⟨-, hcarries, -⟩ | ⟨-, hannounces⟩ | ⟨-, hroom⟩
  · exact hcarries.not_plain
  · exact hannounces.not_plain
  · cases hroom

/-- Unless a value is to come, a subcommand begins with its word, and the rest is read for it. -/
theorem parseFrom_word_eq_ok_iff {arg : String} {rest : List String} {place : Place}
    (hs : s.isAwaiting = false) (hplace : Place.ofWord? arg = some place) :
    parseFrom s (arg :: rest) = .ok a ↔ ∃ seen command before,
      Seen.takeAll {} place rest = .ok seen ∧ Command.ofSeen place seen = .ok command ∧
        s.settle = .ok before ∧ a = ofSeen before command := by
  have hhelp : arg ≠ "help" := by
    rintro rfl
    cases hplace
  rw [parseFrom.eq_def]
  simp only [hhelp, false_and, if_false, hs, Bool.false_eq_true, hplace, Except.bind_eq_ok_iff,
    Except.pure_eq_ok_iff, exists_and_left]

/-- Anything else is an argument in front of the subcommand, unless it asks for help. -/
theorem parseFrom_other_eq_ok_iff {arg : String} {rest : List String}
    (hother : s.isAwaiting = true ∨ arg ≠ "help" ∧ Place.ofWord? arg = none) :
    parseFrom s (arg :: rest) = .ok a ↔
      arg ≠ "--" ∧ ∃ s', s.take .top arg = .ok s' ∧ parseFrom s' rest = .ok a := by
  have hhelp : ¬(arg = "help" ∧ (!s.isAwaiting) = true) := by
    rintro ⟨rfl, hs⟩
    rcases hother with h | ⟨h, -⟩
    · rw [h] at hs
      cases hs
    · exact h rfl
  have hword : (if s.isAwaiting = true then none else Place.ofWord? arg) = none := by
    rcases hother with h | ⟨-, h⟩
    · exact if_pos h
    · rw [h, ite_self]
  rw [parseFrom.eq_def]
  dsimp only
  rw [if_neg hhelp, hword]
  by_cases harg : arg = "--"
  · rw [if_pos harg]
    refine iff_of_false ?_ fun h => h.1 harg
    cases rest with
    | nil => exact noSubcommand_ne_ok
    | cons w _ => exact fun h => by cases h
  · rw [if_neg harg, Except.bind_eq_ok_iff, and_iff_right harg]

/-- What comes before the subcommand, argument by argument. -/
theorem parseFrom_cons_eq_ok_iff {arg : String} {rest : List String} :
    parseFrom s (arg :: rest) = .ok a ↔
      (∃ place, Place.ofWord? arg = some place ∧ ∃ seen command before,
        Seen.takeAll {} place rest = .ok seen ∧ Command.ofSeen place seen = .ok command ∧
          s.settle = .ok before ∧ a = ofSeen before command) ∨
        arg ≠ "--" ∧ ∃ s', s.take .top arg = .ok s' ∧ parseFrom s' rest = .ok a := by
  cases hs : s.isAwaiting with
  | true =>
    -- No subcommand begins where a value is to come.
    rw [parseFrom_other_eq_ok_iff (.inl hs), or_iff_right]
    rintro ⟨-, -, -, -, before, -, -, hsettle, -⟩
    rw [isAwaiting_of_settle_eq_ok hsettle] at hs
    cases hs
  | false =>
    -- And otherwise no word is an argument.
    have htop (harg : Plain arg) :
        ¬(arg ≠ "--" ∧ ∃ s', s.take .top arg = .ok s' ∧ parseFrom s' rest = .ok a) := by
      rintro ⟨-, s', htake, -⟩
      exact not_plain_of_take_top hs htake harg
    cases hplace : Place.ofWord? arg with
    | some place =>
      rw [parseFrom_word_eq_ok_iff hs hplace,
        or_iff_left (htop (Place.plain_of_ofWord?_eq_some hplace))]
      simp only [Option.some.injEq, exists_eq_left']
    | none =>
      rw [or_iff_right (by rintro ⟨place, h, -⟩; cases h)]
      by_cases hhelp : arg = "help"
      · subst hhelp
        have hplain : Plain "help" := fun c rest h => by cases h
        refine iff_of_false ?_ (htop hplain)
        rw [parseFrom.eq_def]
        dsimp only
        rw [if_pos ⟨rfl, by rw [hs]; rfl⟩]
        exact fun h => by cases h
      · exact parseFrom_other_eq_ok_iff (.inr ⟨hhelp, hplace⟩)

/-- After what is read in front of the subcommand, the rest is read by itself. -/
theorem parseFrom_append_eq_ok_iff {top inner : List String} {word : String} {place : Place}
    {before : Seen} (hword : Place.ofWord? word = some place) (htop : "--" ∉ top)
    (hbefore : s.takeAll .top top = .ok before) :
    parseFrom s (top ++ word :: inner) = .ok a ↔ ∃ seen command,
      Seen.takeAll {} place inner = .ok seen ∧ Command.ofSeen place seen = .ok command ∧
        a = ofSeen before command := by
  induction top generalizing s with
  | nil =>
    have hs : s.isAwaiting = false := isAwaiting_of_settle_eq_ok hbefore
    rw [List.nil_append, parseFrom_cons_eq_ok_iff]
    constructor
    · rintro (⟨place', hplace, seen, command, before', hseen, hcommand, hbefore', rfl⟩ |
        ⟨-, s', htake, -⟩)
      · obtain rfl := Option.some.inj (hword.symm.trans hplace)
        obtain rfl := Except.ok.inj (hbefore.symm.trans hbefore')
        exact ⟨seen, command, hseen, hcommand, rfl⟩
      · exact absurd (Place.plain_of_ofWord?_eq_some hword) (not_plain_of_take_top hs htake)
    · rintro ⟨seen, command, hseen, hcommand, rfl⟩
      exact .inl ⟨place, hword, seen, command, before, hseen, hcommand, hbefore, rfl⟩
  | cons arg top ih =>
    have harg : arg ≠ "--" := fun h => htop (h ▸ List.mem_cons_self)
    obtain ⟨s', htake, hbefore⟩ := (Seen.takeAll_cons_eq_ok_iff harg).mp hbefore
    rw [← ih (fun hmem => htop (List.mem_cons_of_mem _ hmem)) hbefore, List.cons_append,
      parseFrom_cons_eq_ok_iff]
    constructor
    · rintro (⟨place', hplace, -, -, before', -, -, hsettle, -⟩ | ⟨-, s'', htake', h⟩)
      · exact absurd (Place.plain_of_ofWord?_eq_some hplace)
          (not_plain_of_take_top (isAwaiting_of_settle_eq_ok hsettle) htake)
      · obtain rfl := Except.ok.inj (htake.symm.trans htake')
        exact h
    · intro h
      exact .inr ⟨harg, s', htake, h⟩

/-- In front of the subcommand there are options only. -/
theorem exists_of_parseFrom_eq_ok {args : List String} (h : parseFrom s args = .ok a) :
    ∃ top word inner place before, args = top ++ word :: inner ∧
      Place.ofWord? word = some place ∧ "--" ∉ top ∧ s.takeAll .top top = .ok before := by
  induction args generalizing s with
  | nil => exact absurd h noSubcommand_ne_ok
  | cons arg rest ih =>
    rcases parseFrom_cons_eq_ok_iff.mp h with
      ⟨place, hplace, -, -, before, -, -, hbefore, -⟩ | ⟨harg, s', htake, h⟩
    · exact ⟨[], arg, rest, place, before, rfl, hplace, List.not_mem_nil, hbefore⟩
    · obtain ⟨top, word, inner, place, before, rfl, hword, htop, hbefore⟩ := ih h
      exact ⟨arg :: top, word, inner, place, before, rfl, hword,
        List.not_mem_cons_of_ne_of_not_mem harg.symm htop,
        (Seen.takeAll_cons_eq_ok_iff harg).mpr ⟨s', htake, hbefore⟩⟩

/-- **A command line is read** if it says options, a subcommand, and something after it; what it
amounts to is determined by what it says. -/
theorem parse_eq_ok_iff_of_said {top inner words : List String} {word : String} {place : Place}
    {outer values : List (Switch × String)} (hword : Place.ofWord? word = some place)
    (htop : "--" ∉ top) (houter : Place.top.Says top outer []) (haccepted : Accepted outer)
    (hinner : place.Says inner values words) :
    parse (top ++ word :: inner) = .ok a ↔ Accepted values ∧ place.HasRoom 0 words ∧ ∃ command,
      Command.ofSeen place ⟨values, words, .none⟩ = .ok command ∧
        a = ofSeen ⟨outer, [], .none⟩ command := by
  have hbefore : Seen.takeAll {} .top top = .ok ⟨outer, [], .none⟩ :=
    Seen.takeAll_eq_ok_iff.mpr ⟨outer, [], houter, haccepted, Place.hasRoom_nil _ _, rfl⟩
  rw [parse, parseFrom_append_eq_ok_iff hword htop hbefore]
  have hseen (seen : Seen) : Seen.takeAll {} place inner = .ok seen ↔
      Accepted values ∧ place.HasRoom 0 words ∧ seen = ⟨values, words, .none⟩ :=
    Seen.takeAll_eq_ok_iff_of_said rfl .nil hinner
  simp only [hseen]
  constructor
  · rintro ⟨-, command, ⟨hvalues, hroom, rfl⟩, h⟩
    exact ⟨hvalues, hroom, command, h⟩
  · rintro ⟨hvalues, hroom, command, h⟩
    exact ⟨_, command, ⟨hvalues, hroom, rfl⟩, h⟩

/-- A command line that is read says options, a subcommand, and something after it. -/
theorem exists_says_of_parse_eq_ok {args : List String} (h : parse args = .ok a) :
    ∃ top word inner place outer values words, args = top ++ word :: inner ∧
      Place.ofWord? word = some place ∧ "--" ∉ top ∧ Place.top.Says top outer [] ∧
      Accepted outer ∧ place.Says inner values words := by
  obtain ⟨top, word, inner, place, before, rfl, hword, htop, hbefore⟩ :=
    exists_of_parseFrom_eq_ok h
  obtain ⟨seen, -, hseen, -, -⟩ := (parseFrom_append_eq_ok_iff hword htop hbefore).mp h
  obtain ⟨values, words, hinner, -⟩ := Seen.takeAll_eq_ok_iff.mp hseen
  obtain ⟨outer, none, houter, haccepted, hroom, -⟩ := Seen.takeAll_eq_ok_iff.mp hbefore
  -- There is no room for a word in front of the subcommand.
  obtain rfl : none = [] := by
    by_contra hne
    cases hroom 0 (List.length_pos_iff.mpr hne)
  exact ⟨top, word, inner, place, outer, values, words, rfl, hword, htop, houter, haccepted, hinner⟩

end Arguments

end GrantCatalog
