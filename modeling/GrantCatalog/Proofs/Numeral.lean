import GrantCatalog.Json.Literal
import Mathlib.Data.Option.Basic
import Mathlib.Tactic.Common

/-!
# The grammar of numbers

A number is an optional minus sign, some digits without a superfluous zero, an optional fraction and
an optional exponent. It is an **integer** only if it is written as one: without a fraction, without
an exponent and not as `-0` (`GrantCatalog.Json.Numeral`). There is no bound to its digits.

The recursions that skip the parts of a number take as much as they can. So they find the parts that
the grammar asks for, as no part begins in a way in which the part before it could go on:
`GrantCatalog.Json.number?_eq_some_iff`.
-/

namespace GrantCatalog.Json

variable {s w r ds : List Char} {j : Json}

/-! ### The grammar -/

/-- A non-empty run of digits. -/
def Digits (ds : List Char) : Prop := ds ≠ [] ∧ ds.all Char.isDigit = true

/-- Digits without a superfluous zero. -/
structure Whole (ds : List Char) : Prop where
  digits : Digits ds
  /-- A zero in front is all there is. -/
  zero : ds.head? = some '0' → ds = ['0']

/-- An optional fraction. -/
inductive Fraction : List Char → Prop where
  | none : Fraction []
  | some {ds : List Char} (h : Digits ds) : Fraction ('.' :: ds)

/-- An optional exponent. -/
inductive Exponent : List Char → Prop where
  | none : Exponent []
  | some {e : Char} {sign ds : List Char} (he : e = 'e' ∨ e = 'E')
      (hsign : sign ∈ [[], ['+'], ['-']]) (h : Digits ds) : Exponent (e :: (sign ++ ds))

/-- The number that digits denote. -/
def value (ds : List Char) : Nat := Nat.ofDigitChars 10 ds 0

/-- **A number and its value**, which is of interest for integers only. -/
inductive Numeral : List Char → Json → Prop where
  | natural {ds : List Char} (h : Whole ds) : Numeral ds (.integer (value ds))
  | negative {ds : List Char} (h : Whole ds) (hne : value ds ≠ 0) :
      Numeral ('-' :: ds) (.integer (-value ds))
  /-- The zero with a sign is no integer. -/
  | minusZero {ds : List Char} (h : Whole ds) (hzero : value ds = 0) : Numeral ('-' :: ds) .real
  /-- Nor is a number with a fraction or an exponent. -/
  | real {sign ds f e : List Char} (hsign : sign ∈ [[], ['-']]) (h : Whole ds) (hf : Fraction f)
      (he : Exponent e) (hne : f ++ e ≠ []) : Numeral (sign ++ (ds ++ (f ++ e))) .real

/-! ### Runs of digits -/

/-- No run of digits goes on into this text. -/
def NoDigit (r : List Char) : Prop := ∀ c ∈ r.head?, c.isDigit = false

theorem noDigit_nil : NoDigit [] := fun _ h => by cases h

theorem NoDigit.append (h : NoDigit r) (h' : NoDigit s) : NoDigit (r ++ s) := by
  cases r with
  | nil => exact h'
  | cons c r => exact h

theorem noDigit_dropWhile (s : List Char) : NoDigit (s.dropWhile Char.isDigit) := by
  intro c hc
  have hfirst := List.head?_dropWhile_not Char.isDigit s
  rw [hc] at hfirst
  exact hfirst

/-- Digits in front of something else are what is taken in. -/
theorem takeWhile_dropWhile_eq_iff :
    s.takeWhile Char.isDigit = ds ∧ s.dropWhile Char.isDigit = r ↔
      s = ds ++ r ∧ ds.all Char.isDigit = true ∧ NoDigit r := by
  constructor
  · rintro ⟨rfl, rfl⟩
    exact ⟨List.takeWhile_append_dropWhile.symm, List.all_takeWhile, noDigit_dropWhile s⟩
  · rintro ⟨rfl, hds, hr⟩
    have hall : ∀ c ∈ ds, c.isDigit = true := List.all_eq_true.mp hds
    rw [List.takeWhile_append_of_pos hall, List.dropWhile_append_of_pos hall]
    cases r with
    | nil => simp
    | cons c r =>
      have hc : ¬c.isDigit = true := by rw [hr c rfl]; exact Bool.false_ne_true
      rw [List.takeWhile_cons_of_neg hc, List.dropWhile_cons_of_neg hc, List.append_nil]
      exact ⟨rfl, rfl⟩

theorem skipDigits?_eq_some_iff :
    skipDigits? s = some r ↔ ∃ ds, s = ds ++ r ∧ Digits ds ∧ NoDigit r := by
  have hskip : skipDigits? s = some r ↔
      s.takeWhile Char.isDigit ≠ [] ∧ s.dropWhile Char.isDigit = r := by
    cases s with
    | nil => simp [skipDigits?]
    | cons c s =>
      by_cases hc : c.isDigit = true
      · simp [skipDigits?, hc]
      · simp [skipDigits?, hc]
  rw [hskip]
  constructor
  · rintro ⟨hne, hr⟩
    obtain ⟨hs, hall, hend⟩ := takeWhile_dropWhile_eq_iff.mp ⟨rfl, hr⟩
    exact ⟨_, hs, ⟨hne, hall⟩, hend⟩
  · rintro ⟨ds, hs, ⟨hne, hall⟩, hend⟩
    obtain ⟨hds, hr⟩ := takeWhile_dropWhile_eq_iff.mpr ⟨hs, hall, hend⟩
    exact ⟨hds ▸ hne, hr⟩

theorem skipDigits?_eq_nil_iff : skipDigits? s = some [] ↔ Digits s := by
  rw [skipDigits?_eq_some_iff]
  constructor
  · rintro ⟨ds, rfl, hds, -⟩
    rwa [List.append_nil]
  · intro h
    exact ⟨s, (List.append_nil s).symm, h, noDigit_nil⟩

theorem not_digits_cons {c : Char} (hc : c.isDigit = false) : ¬Digits (c :: ds) := by
  rintro ⟨-, h⟩
  rw [List.all_cons, hc] at h
  cases h

/-! ### Fractions and exponents -/

theorem exponent_cons_iff {e : Char} (he : e = 'e' ∨ e = 'E') : Exponent (e :: r) ↔
    Digits r ∨ (∃ ds, r = '+' :: ds ∧ Digits ds) ∨ ∃ ds, r = '-' :: ds ∧ Digits ds := by
  constructor
  · intro h
    cases h with
    | @some _ sign ds _ hsign h =>
      simp only [List.mem_cons, List.not_mem_nil, or_false] at hsign
      rcases hsign with rfl | rfl | rfl
      · exact .inl h
      · exact .inr (.inl ⟨ds, rfl, h⟩)
      · exact .inr (.inr ⟨ds, rfl, h⟩)
  · rintro (h | ⟨ds, rfl, h⟩ | ⟨ds, rfl, h⟩)
    · exact @Exponent.some e [] r he (by simp) h
    · exact @Exponent.some e ['+'] ds he (by simp) h
    · exact @Exponent.some e ['-'] ds he (by simp) h

theorem skipExponent?_eq_nil_iff : skipExponent? s = some [] ↔ Exponent s := by
  cases s with
  | nil => exact iff_of_true rfl .none
  | cons e r =>
    by_cases he : e = 'e' ∨ e = 'E'
    · rw [exponent_cons_iff he, skipExponent?.eq_def]
      simp only [if_pos he]
      -- No sign is a digit, so the three ways to go on exclude each other.
      split <;> rw [skipDigits?_eq_nil_iff]
      · simp [not_digits_cons]
      · simp [not_digits_cons]
      · next hplus hminus =>
        refine ⟨.inl, ?_⟩
        rintro (h | ⟨ds, h, -⟩ | ⟨ds, h, -⟩)
        · exact h
        · exact (hplus ds h).elim
        · exact (hminus ds h).elim
    · rw [skipExponent?.eq_def]
      simp only [if_neg he]
      refine iff_of_false (by simp) fun h => ?_
      cases h with
      | some h _ _ => exact he h

theorem Exponent.noDigit (h : Exponent s) : NoDigit s := by
  cases h with
  | none => exact noDigit_nil
  | some he _ _ =>
    rintro c ⟨⟩
    rcases he with rfl | rfl <;> rfl

/-- An exponent is no fraction. -/
theorem skipFraction?_exponent (h : Exponent s) : skipFraction? s = some s := by
  cases h with
  | none => rfl
  | some he _ _ => rcases he with rfl | rfl <;> rfl

/-- What is skipped as a fraction and as an exponent. -/
theorem exists_skipFraction?_iff : (∃ r, skipFraction? s = some r ∧ Exponent r) ↔
    ∃ f e, s = f ++ e ∧ Fraction f ∧ Exponent e := by
  constructor
  · rintro ⟨r, hskip, he⟩
    unfold skipFraction? at hskip
    split at hskip
    · obtain ⟨ds, rfl, hds, -⟩ := skipDigits?_eq_some_iff.mp hskip
      exact ⟨'.' :: ds, r, rfl, .some hds, he⟩
    · -- Without a point nothing is skipped.
      cases hskip
      exact ⟨[], _, rfl, .none, he⟩
  · rintro ⟨f, e, rfl, hf, he⟩
    refine ⟨e, ?_, he⟩
    cases hf with
    | none => exact skipFraction?_exponent he
    | some hds => exact skipDigits?_eq_some_iff.mpr ⟨_, rfl, hds, he.noDigit⟩

theorem Fraction.noDigit (h : Fraction s) : NoDigit s := by
  cases h with
  | none => exact noDigit_nil
  | some _ =>
    rintro c ⟨⟩
    rfl

/-! ### Numbers -/

theorem isWhole_iff (h : ds.all Char.isDigit = true) : isWhole ds = true ↔ Whole ds := by
  constructor
  · intro hwhole
    match ds, h, hwhole with
    | [c], h, _ => exact ⟨⟨by simp, h⟩, fun hc => congrArg (· :: []) (Option.some.inj hc)⟩
    | c :: d :: ds, h, hwhole =>
      -- There are more digits, so the first is no zero.
      refine ⟨⟨by simp, h⟩, fun hc => ?_⟩
      obtain rfl := Option.some.inj hc
      cases hwhole
  · rintro ⟨⟨hne, -⟩, hzero⟩
    match ds, hne, hzero with
    | [c], _, _ => rfl
    | c :: d :: ds, _, hzero =>
      have hc : c ≠ '0' := by
        rintro rfl
        cases hzero rfl
      exact bne_iff_ne.mpr hc

/-- What digits alone are behind a sign. -/
def signed (negative : Bool) (n : Nat) : Json :=
  if negative then if n = 0 then .real else .integer (-n) else .integer n

/-- What is read from a fraction and an exponent, of which there is at least one. -/
theorem skip_eq_some_iff (r : List Char) : (do
    let rest ← skipFraction? r
    let rest ← skipExponent? rest
    guard rest.isEmpty
    return Json.real) = some j ↔ (∃ f e, r = f ++ e ∧ Fraction f ∧ Exponent e) ∧ .real = j := by
  rw [← exists_skipFraction?_iff, Option.bind_eq_bind, Option.bind_eq_some_iff, ← exists_and_right]
  refine exists_congr fun rest => ?_
  rw [and_assoc, ← skipExponent?_eq_nil_iff, Option.bind_eq_bind, Option.bind_eq_some_iff]
  refine and_congr_right fun _ => ⟨?_, fun h => ⟨[], h.1, congrArg some h.2⟩⟩
  rintro ⟨rest, hrest, h⟩
  cases rest with
  | nil => exact ⟨hrest, Option.some.inj h⟩
  | cons _ _ => cases h

/-- What is read from some digits and what follows them. -/
theorem unsigned?_append {negative : Bool} (hds : ds.all Char.isDigit = true) (hr : NoDigit r) :
    unsigned? negative (ds ++ r) = some j ↔ Whole ds ∧
      (r = [] ∧ signed negative (value ds) = j ∨
        r ≠ [] ∧ (∃ f e, r = f ++ e ∧ Fraction f ∧ Exponent e) ∧ .real = j) := by
  obtain ⟨htake, hdrop⟩ := takeWhile_dropWhile_eq_iff.mpr ⟨rfl, hds, hr⟩
  rw [unsigned?, htake, hdrop, ← isWhole_iff hds, ← skip_eq_some_iff]
  cases hwhole : isWhole ds with
  | false => exact iff_of_false (fun h => by cases h) fun h => by cases h.1
  | true =>
    rw [and_iff_right rfl]
    cases r with
    | nil =>
      rw [and_iff_right rfl, or_iff_left fun h => h.1 rfl]
      exact ⟨fun h => Option.some.inj h, fun h => congrArg some h⟩
    | cons c r =>
      rw [or_iff_right fun h => List.cons_ne_nil c r h.1, and_iff_right (List.cons_ne_nil c r)]
      rfl

/-- **What is read behind the sign**: digits alone are an integer, unless they are zero behind a
minus sign, and with more than digits there is none. -/
theorem unsigned?_eq_some_iff {negative : Bool} : unsigned? negative s = some j ↔
    Whole s ∧ signed negative (value s) = j ∨
      (∃ ds f e, s = ds ++ (f ++ e) ∧ Whole ds ∧ Fraction f ∧ Exponent e ∧ f ++ e ≠ []) ∧
        .real = j := by
  constructor
  · intro h
    obtain ⟨hs, hds, hr⟩ := (takeWhile_dropWhile_eq_iff (s := s)).mp ⟨rfl, rfl⟩
    rw [hs, unsigned?_append hds hr] at h
    obtain ⟨hwhole, ⟨hnil, hj⟩ | ⟨hne, ⟨f, e, hfe, hf, he⟩, hj⟩⟩ := h
    · rw [hnil, List.append_nil] at hs
      rw [← hs] at hwhole hj
      exact .inl ⟨hwhole, hj⟩
    · rw [hfe] at hs hne
      exact .inr ⟨⟨_, f, e, hs, hwhole, hf, he, hne⟩, hj⟩
  · rintro (⟨hwhole, hj⟩ | ⟨⟨ds, f, e, rfl, hwhole, hf, he, hne⟩, hj⟩)
    · rw [← List.append_nil s]
      exact (unsigned?_append hwhole.digits.2 noDigit_nil).mpr ⟨hwhole, .inl ⟨rfl, hj⟩⟩
    · have hend : NoDigit (f ++ e) := hf.noDigit.append he.noDigit
      exact (unsigned?_append hwhole.digits.2 hend).mpr
        ⟨hwhole, .inr ⟨hne, ⟨f, e, rfl, hf, he⟩, hj⟩⟩

theorem number?_of_head? (h : ∀ c ∈ w.head?, c ≠ '-') : number? w = unsigned? false w := by
  unfold number?
  split
  · exact absurd rfl (h '-' rfl)
  · rfl

theorem Whole.head? (h : Whole ds) (r : List Char) : ∀ c ∈ (ds ++ r).head?, c ≠ '-' := by
  rintro c hc rfl
  have hne := h.digits.1
  match ds, hne, hc with
  | d :: ds, _, hc =>
    obtain rfl := Option.some.inj hc
    exact not_digits_cons rfl h.digits

/-- **Numbers are read as the grammar says.** -/
theorem number?_eq_some_iff : number? w = some j ↔ Numeral w j := by
  constructor
  · intro h
    unfold number? at h
    -- The sign is all that the two cases differ in.
    split at h
    · next s =>
      obtain ⟨hwhole, rfl⟩ | ⟨⟨ds, f, e, rfl, hwhole, hf, he, hne⟩, rfl⟩ :=
        unsigned?_eq_some_iff.mp h
      · by_cases hzero : value s = 0
        · rw [signed, if_pos rfl, if_pos hzero]
          exact .minusZero hwhole hzero
        · rw [signed, if_pos rfl, if_neg hzero]
          exact .negative hwhole hzero
      · exact @Numeral.real ['-'] ds f e (by simp) hwhole hf he hne
    · obtain ⟨hwhole, rfl⟩ | ⟨⟨ds, f, e, rfl, hwhole, hf, he, hne⟩, rfl⟩ :=
        unsigned?_eq_some_iff.mp h
      · exact .natural hwhole
      · exact @Numeral.real [] ds f e (by simp) hwhole hf he hne
  · intro h
    cases h with
    | natural hwhole =>
      have hhead := hwhole.head? []
      rw [List.append_nil] at hhead
      rw [number?_of_head? hhead]
      exact unsigned?_eq_some_iff.mpr (.inl ⟨hwhole, rfl⟩)
    | negative hwhole hne =>
      refine unsigned?_eq_some_iff.mpr (.inl ⟨hwhole, ?_⟩)
      rw [signed, if_pos rfl, if_neg hne]
    | minusZero hwhole hzero =>
      refine unsigned?_eq_some_iff.mpr (.inl ⟨hwhole, ?_⟩)
      rw [signed, if_pos rfl, if_pos hzero]
    | @real sign ds f e hsign hwhole hf he hne =>
      have hread (negative : Bool) : unsigned? negative (ds ++ (f ++ e)) = some .real :=
        unsigned?_eq_some_iff.mpr (.inr ⟨⟨ds, f, e, rfl, hwhole, hf, he, hne⟩, rfl⟩)
      simp only [List.mem_cons, List.not_mem_nil, or_false] at hsign
      rcases hsign with rfl | rfl
      · exact (number?_of_head? (hwhole.head? _)).trans (hread false)
      · exact hread true

/-! ### Words -/

/-- **A word and its value**: one of three names, or a number. -/
inductive Word : List Char → Json → Prop where
  | null : Word "null".toList .null
  | yes : Word "true".toList (.bool true)
  | no : Word "false".toList (.bool false)
  | number {w : List Char} {j : Json} (h : Numeral w j) : Word w j

/-- What may stand in a number: digits, and what separates them. -/
def inNumeral (c : Char) : Bool := c.isDigit || "-+.eE".toList.contains c

theorem Digits.all (h : Digits ds) : ds.all inNumeral = true :=
  List.all_eq_true.mpr fun c hc => by rw [inNumeral, List.all_eq_true.mp h.2 c hc, Bool.true_or]

theorem Fraction.all (h : Fraction s) : s.all inNumeral = true := by
  cases h with
  | none => rfl
  | some h => exact h.all

theorem Exponent.all (h : Exponent s) : s.all inNumeral = true := by
  cases h with
  | none => rfl
  | some he hsign h =>
    simp only [List.mem_cons, List.not_mem_nil, or_false] at hsign
    rcases he with rfl | rfl <;> rcases hsign with rfl | rfl | rfl <;> exact h.all

/-- A number is not empty, and has nothing in it that a number may not have. -/
theorem Numeral.all (h : Numeral w j) : w ≠ [] ∧ w.all inNumeral = true := by
  cases h with
  | natural h => exact ⟨h.digits.1, h.digits.all⟩
  | negative h _ => exact ⟨List.cons_ne_nil _ _, h.digits.all⟩
  | minusZero h _ => exact ⟨List.cons_ne_nil _ _, h.digits.all⟩
  | real hsign h hf he _ =>
    simp only [List.mem_cons, List.not_mem_nil, or_false] at hsign
    rcases hsign with rfl | rfl
    all_goals
      refine ⟨by simp [h.digits.1], ?_⟩
      simp only [List.all_append, h.digits.all, hf.all, he.all]
      rfl

/-- **Words are read as the grammar says.** -/
theorem ofWord?_eq_some_iff : ofWord? w = some j ↔ Word w j := by
  constructor
  · intro h
    unfold ofWord? at h
    split at h
    · next hw =>
      cases h
      exact hw ▸ .null
    · split at h
      · next hw =>
        cases h
        exact hw ▸ .yes
      · split at h
        · next hw =>
          cases h
          exact hw ▸ .no
        · exact .number (number?_eq_some_iff.mp h)
  · rintro (- | - | - | h)
    · rfl
    · rfl
    · rfl
    · -- The names have letters in them that are not those of an exponent.
      have hne {name : List Char} (hname : name.all inNumeral = false) : w ≠ name := by
        rintro rfl
        rw [h.all.2] at hname
        cases hname
      rw [ofWord?, if_neg (hne rfl), if_neg (hne rfl), if_neg (hne rfl)]
      exact number?_eq_some_iff.mpr h

/-- A word is not empty, and has only small letters in it besides what numbers have. -/
theorem Word.all (h : Word w j) :
    w ≠ [] ∧ w.all (fun c => inNumeral c || c.isLower) = true := by
  cases h with
  | null => decide
  | yes => decide
  | no => decide
  | number h =>
    refine ⟨h.all.1, List.all_eq_true.mpr fun c hc => ?_⟩
    rw [List.all_eq_true.mp h.all.2 c hc, Bool.true_or]

/-! ### Writing -/

theorem value_toDigits (n : Nat) : value (Nat.toDigits 10 n) = n := Nat.ofDigitChars_ten_toDigits

/-- No zero is written in front of other digits. -/
theorem whole_toDigits (n : Nat) : Whole (Nat.toDigits 10 n) := by
  refine ⟨⟨Nat.toDigits_ne_nil, List.all_eq_true.mpr fun c hc =>
    Nat.isDigit_of_mem_toDigits (by decide) (by decide) hc⟩, ?_⟩
  induction n using Nat.strongRecOn with
  | ind n ih =>
    intro hzero
    rcases Nat.lt_or_ge n 10 with hn | hn
    · rw [Nat.toDigits_of_lt_base hn] at hzero ⊢
      exact congrArg (· :: []) (Option.some.inj hzero)
    · -- The digits in front are those of a number that is not zero.
      rw [Nat.toDigits_of_base_le (by decide) hn] at hzero
      have hfirst : (Nat.toDigits 10 (n / 10)).head? = some '0' := by
        obtain ⟨c, cs, hcs⟩ := List.exists_cons_of_ne_nil (Nat.toDigits_ne_nil (b := 10))
        rw [hcs] at hzero ⊢
        exact hzero
      have hfront := congrArg value (ih (n / 10) (by omega) hfirst)
      rw [value_toDigits] at hfront
      have hnone : n / 10 = 0 := hfront
      omega

/-- **What is written for an integer is a number with its value.** -/
theorem numeral_decimal (n : Int) : Numeral (decimal n) (.integer n) := by
  cases n with
  | ofNat n =>
    have h := Numeral.natural (whole_toDigits n)
    rwa [value_toDigits] at h
  | negSucc n =>
    have h := Numeral.negative (whole_toDigits (n + 1)) (by rw [value_toDigits]; omega)
    rwa [value_toDigits] at h

end GrantCatalog.Json
