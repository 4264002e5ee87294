import GrantCatalog.Json.Literal
import Mathlib.Data.Option.Basic
import Mathlib.Tactic.Common

/-!
# The grammar of string literals

Between the quotes of a literal stand **pieces**: a character for itself, a short escape, or an
escape of four hexadecimal digits (`GrantCatalog.Json.Piece`). A piece is good for one code point,
and this need not be one of a character: two surrogates in a row are **joined** to a character
beyond the first plane (`GrantCatalog.Json.Joined`), and a surrogate on its own is none, so that a
literal with one is well-formed and yet spells nothing (`GrantCatalog.Json.Literal`).

What is read from a literal is what it spells in this sense, and nothing else is read:
`GrantCatalog.Json.ofLiteral?_eq_some_iff`. The one thing that reading leaves to others is where a
literal ends. An unguarded quote would be read like any other character; it never comes to that, as
the token machine stops in front of it (`GrantCatalog.Json.Guarded`).
-/

namespace GrantCatalog.Json

variable {c : Char} {body r : List Char} {p : Nat} {ps : List Nat}

/-! ### Pieces -/

/-- A hexadecimal digit, in either case, and its value. -/
def HexDigit (c : Char) (v : Nat) : Prop :=
  "0123456789abcdef".toList[v]? = some c ∨ "0123456789ABCDEF".toList[v]? = some c

instance (c : Char) (v : Nat) : Decidable (HexDigit c v) := inferInstanceAs (Decidable (_ ∨ _))

/-- The short escapes: what stands behind the backslash, and what it stands for. -/
def shorts : List (Char × Char) :=
  [('"', '"'), ('\\', '\\'), ('/', '/'), ('b', '\x08'), ('f', '\x0c'), ('n', '\n'), ('r', '\r'),
    ('t', '\t')]

/-- **The three ways to write a code point.** -/
inductive Piece : List Char → Nat → Prop where
  /-- As the character itself. -/
  | plain {c : Char} (hquote : c ≠ '"') (hslash : c ≠ '\\') (hcontrol : 0x20 ≤ c.toNat) :
      Piece [c] c.toNat
  /-- With a short escape. -/
  | short {e c : Char} (h : (e, c) ∈ shorts) : Piece ['\\', e] c.toNat
  /-- With its four hexadecimal digits. -/
  | point {a b c d : Char} {t u v w p : Nat} (ha : HexDigit a t) (hb : HexDigit b u)
      (hc : HexDigit c v) (hd : HexDigit d w) (hp : p = ((t * 16 + u) * 16 + v) * 16 + w) :
      Piece ['\\', 'u', a, b, c, d] p

/-- Pieces in a row. -/
inductive Pieces : List Char → List Nat → Prop where
  | nil : Pieces [] []
  | cons {cs body : List Char} {p : Nat} {ps : List Nat} (h : Piece cs p) (hs : Pieces body ps) :
      Pieces (cs ++ body) (p :: ps)

/-- Every quote stands behind a backslash, and no backslash stands at the end. -/
inductive Guarded : List Char → Prop where
  | nil : Guarded []
  | plain {c : Char} {r : List Char} (hquote : c ≠ '"') (hslash : c ≠ '\\') (h : Guarded r) :
      Guarded (c :: r)
  | escaped {c : Char} {r : List Char} (h : Guarded r) : Guarded ('\\' :: c :: r)

theorem Guarded.of_cons (h : Guarded (c :: r)) (hslash : c ≠ '\\') : Guarded r := by
  cases h with
  | plain _ _ h => exact h
  | escaped _ => exact absurd rfl hslash

theorem HexDigit.lt {v : Nat} (h : HexDigit c v) : v < 16 := by
  rcases h with h | h
  all_goals
    obtain ⟨hv, -⟩ := List.getElem?_eq_some_iff.mp h
    exact hv

/-- All digits are in the first half of the bytes, and none of them ends or guards anything. -/
theorem HexDigit.plain {v : Nat} (h : HexDigit c v) : c.toNat < 128 ∧ c ≠ '"' ∧ c ≠ '\\' := by
  have hall : ∀ l ∈ ["0123456789abcdef".toList, "0123456789ABCDEF".toList],
      l.all fun c => c.toNat < 128 && c != '"' && c != '\\' := by
    decide
  have hc : (c.toNat < 128 && c != '"' && c != '\\') = true := by
    rcases h with h | h
    · exact List.all_eq_true.mp (hall _ (by simp)) c (List.mem_of_getElem? h)
    · exact List.all_eq_true.mp (hall _ (by simp)) c (List.mem_of_getElem? h)
  simpa [and_assoc] using hc

theorem hexDigit?_eq_none (h : 128 ≤ c.toNat) : hexDigit? c = none := by
  have hlast {d : Char} (hd : d.toNat < 128) : ¬c ≤ d := fun hle =>
    have hnat : c.toNat ≤ d.toNat := UInt32.le_iff_toNat_le.mp hle
    absurd hnat (by omega)
  rw [hexDigit?, if_neg fun h => hlast (by decide) h.2, if_neg fun h => hlast (by decide) h.2,
    if_neg fun h => hlast (by decide) h.2]

/-- The digits are read as what they are. -/
theorem hexDigit?_eq_some_iff {v : Nat} : hexDigit? c = some v ↔ HexDigit c v := by
  have hall : ∀ n < 128, ∀ v < 16, hexDigit? (.ofNat n) = some v ↔ HexDigit (.ofNat n) v := by
    decide +kernel
  have hvalue : ∀ n < 128, ∀ v ∈ hexDigit? (.ofNat n), v < 16 := by
    decide +kernel
  by_cases hc : c.toNat < 128
  · have hv := hvalue _ hc v
    have hiff := hall _ hc v
    rw [Char.ofNat_toNat] at hv hiff
    exact ⟨fun h => (hiff (hv h)).mp h, fun h => (hiff h.lt).mpr h⟩
  · -- The last digit is `f`, so there are none beyond the first half of the bytes.
    rw [hexDigit?_eq_none (Nat.le_of_not_lt hc)]
    exact iff_of_false (by simp) fun h => hc h.plain.1

theorem hexPoint?_eq_some_iff {a b c d : Char} : hexPoint? a b c d = some p ↔
    ∃ t u v w, HexDigit a t ∧ HexDigit b u ∧ HexDigit c v ∧ HexDigit d w ∧
      p = ((t * 16 + u) * 16 + v) * 16 + w := by
  simp only [hexPoint?, Option.bind_eq_bind, Option.bind_eq_some_iff, hexDigit?_eq_some_iff,
    Option.pure_def, Option.some.injEq]
  constructor
  · rintro ⟨t, ha, u, hb, v, hc, w, hd, hp⟩
    exact ⟨t, u, v, w, ha, hb, hc, hd, hp.symm⟩
  · rintro ⟨t, u, v, w, ha, hb, hc, hd, hp⟩
    exact ⟨t, ha, u, hb, v, hc, w, hd, hp.symm⟩

theorem shortEscape?_eq_some_iff {e : Char} : shortEscape? e = some c ↔ (e, c) ∈ shorts := by
  unfold shortEscape?
  split
  all_goals simp [shorts, eq_comm]
  all_goals simp_all

theorem points?_short {e : Char} (h : (e, c) ∈ shorts) (r : List Char) :
    points? ('\\' :: e :: r) = (points? r).map (c.toNat :: ·) := by
  simp only [shorts, List.mem_cons, List.not_mem_nil, or_false, Prod.mk.injEq] at h
  rcases h with ⟨rfl, rfl⟩ | ⟨rfl, rfl⟩ | ⟨rfl, rfl⟩ | ⟨rfl, rfl⟩ | ⟨rfl, rfl⟩ | ⟨rfl, rfl⟩ |
    ⟨rfl, rfl⟩ | ⟨rfl, rfl⟩
  all_goals
    change (points? r).bind _ = _
    cases points? r <;> rfl

/-- A piece in front is read as its code point. -/
theorem points?_piece (h : Piece body p) (r : List Char) :
    points? (body ++ r) = (points? r).map (p :: ·) := by
  cases h with
  | plain _ hslash hcontrol =>
    rw [List.singleton_append, points?.eq_def]
    simp only [if_neg hslash, if_neg (Nat.not_lt.mpr hcontrol)]
    cases points? r <;> rfl
  | short h => exact points?_short h r
  | @point a b c d t u v w _ ha hb hc hd hp =>
    have hpoint : hexPoint? a b c d = some p :=
      hexPoint?_eq_some_iff.mpr ⟨t, u, v, w, ha, hb, hc, hd, hp⟩
    change ((hexPoint? a b c d).bind fun p => (points? r).bind _) = _
    rw [hpoint]
    cases points? r <;> rfl

theorem Piece.guarded (h : Piece body p) (hr : Guarded r) : Guarded (body ++ r) := by
  cases h with
  | plain hquote hslash _ => exact .plain hquote hslash hr
  | short _ => exact .escaped hr
  | point ha hb hc hd _ =>
    have digit {c : Char} {v : Nat} {r : List Char} (hc : HexDigit c v) (hr : Guarded r) :
        Guarded (c :: r) := .plain hc.plain.2.1 hc.plain.2.2 hr
    exact .escaped (digit ha (digit hb (digit hc (digit hd hr))))

theorem Piece.lt (h : Piece body p) : p < 0x110000 := by
  have char (c : Char) : c.toNat < 0x110000 := by
    have hvalid : c.toNat < 0xD800 ∨ 0xDFFF < c.toNat ∧ c.toNat < 0x110000 := c.valid
    omega
  cases h with
  | plain _ _ _ => exact char _
  | short _ => exact char _
  | point ha hb hc hd hp =>
    have ha := ha.lt
    have hb := hb.lt
    have hc := hc.lt
    have hd := hd.lt
    omega

theorem Pieces.lt (h : Pieces body ps) : ∀ p ∈ ps, p < 0x110000 := by
  induction h with
  | nil => exact fun _ hp => absurd hp List.not_mem_nil
  | cons h _ ih => exact List.forall_mem_cons.mpr ⟨h.lt, ih⟩

/-- What is read and has its quotes guarded consists of pieces. -/
theorem pieces_of_points? (h : Guarded body) (hps : points? body = some ps) : Pieces body ps := by
  fun_induction points? body generalizing ps with
  | case1 =>
    cases hps
    exact .nil
  | case2 a b c d r ih =>
    obtain ⟨p, hp, hps⟩ := Option.bind_eq_some_iff.mp hps
    obtain ⟨ps, hr, hps⟩ := Option.bind_eq_some_iff.mp hps
    cases hps
    obtain ⟨t, u, v, w, ha, hb, hc, hd, hp⟩ := hexPoint?_eq_some_iff.mp hp
    cases h with
    | plain _ hslash _ => exact absurd rfl hslash
    | escaped h =>
      -- No digit is a backslash, so what stands behind the four of them is still guarded.
      have h := (((h.of_cons ha.plain.2.2).of_cons hb.plain.2.2).of_cons hc.plain.2.2).of_cons
        hd.plain.2.2
      exact .cons (.point ha hb hc hd hp) (ih h hr)
  | case3 e r _ ih =>
    obtain ⟨c, hc, hps⟩ := Option.bind_eq_some_iff.mp hps
    obtain ⟨ps, hr, hps⟩ := Option.bind_eq_some_iff.mp hps
    cases hps
    cases h with
    | plain _ hslash _ => exact absurd rfl hslash
    | escaped h => exact .cons (.short (shortEscape?_eq_some_iff.mp hc)) (ih h hr)
  | case4 => cases hps
  | case5 c r _ _ =>
    -- A control character does not stand for itself.
    cases hps
  | case6 c r hslash hcontrol ih =>
    obtain ⟨ps, hr, hps⟩ := Option.bind_eq_some_iff.mp hps
    cases hps
    cases h with
    | plain hquote _ h => exact .cons (.plain hquote hslash (Nat.not_lt.mp hcontrol)) (ih h hr)
    | escaped _ => exact absurd rfl hslash

/-- **Code points are read from pieces**, and from nothing else whose quotes are guarded. -/
theorem points?_eq_some_iff : Guarded body ∧ points? body = some ps ↔ Pieces body ps := by
  refine ⟨fun h => pieces_of_points? h.1 h.2, fun h => ?_⟩
  induction h with
  | nil => exact ⟨.nil, rfl⟩
  | cons h _ ih =>
    refine ⟨h.guarded ih.1, ?_⟩
    rw [points?_piece h, ih.2]
    rfl

/-! ### Characters -/

/-- **Code points that spell some characters**: their own ones, or pairs of surrogates. -/
inductive Joined : List Nat → List Char → Prop where
  | nil : Joined [] []
  | char {c : Char} {ps : List Nat} {cs : List Char} (h : Joined ps cs) :
      Joined (c.toNat :: ps) (c :: cs)
  /-- A high surrogate brings ten bits and a low one ten more. -/
  | pair {high low : Nat} {c : Char} {ps : List Nat} {cs : List Char}
      (hhigh : 0xD800 ≤ high ∧ high ≤ 0xDBFF) (hlow : 0xDC00 ≤ low ∧ low ≤ 0xDFFF)
      (hc : c.toNat = 0x10000 + (high - 0xD800) * 0x400 + (low - 0xDC00)) (h : Joined ps cs) :
      Joined (high :: low :: ps) (c :: cs)

theorem isHighSurrogate_iff : isHighSurrogate p = true ↔ 0xD800 ≤ p ∧ p ≤ 0xDBFF := by
  simp [isHighSurrogate]

theorem isLowSurrogate_iff : isLowSurrogate p = true ↔ 0xDC00 ≤ p ∧ p ≤ 0xDFFF := by
  simp [isLowSurrogate]

/-- A character is no surrogate. -/
theorem not_isSurrogate (c : Char) :
    isHighSurrogate c.toNat = false ∧ isLowSurrogate c.toNat = false := by
  have hvalid : c.toNat < 0xD800 ∨ 0xDFFF < c.toNat ∧ c.toNat < 0x110000 := c.valid
  simp only [isHighSurrogate, isLowSurrogate, Bool.and_eq_false_iff, decide_eq_false_iff_not]
  omega

/-- All code points but the surrogates are those of characters. -/
theorem toNat_ofNat (h : p < 0xD800 ∨ 0xDFFF < p ∧ p < 0x110000) : (Char.ofNat p).toNat = p := by
  rw [Char.ofNat, dif_pos h]
  rfl

theorem spell?_cons (h : isHighSurrogate p = false) (ps : List Nat) : spell? (p :: ps) = (do
    guard !isLowSurrogate p
    let cs ← spell? ps
    return .ofNat p :: cs) := by
  rw [spell?.eq_def]
  exact if_neg (by rw [h]; exact Bool.false_ne_true)

theorem Joined.spell? {cs : List Char} (h : Joined ps cs) : spell? ps = some cs := by
  induction h with
  | nil => rfl
  | @char c ps cs _ ih =>
    obtain ⟨hhigh, hlow⟩ := not_isSurrogate c
    rw [spell?_cons hhigh, hlow, ih, Char.ofNat_toNat]
    rfl
  | @pair high low c ps cs hhigh hlow hc _ ih =>
    have hpair : Json.spell? (high :: low :: ps) = (do
        guard (isLowSurrogate low)
        let cs ← Json.spell? ps
        return .ofNat (0x10000 + (high - 0xD800) * 0x400 + (low - 0xDC00)) :: cs) := by
      rw [Json.spell?.eq_def]
      exact if_pos (isHighSurrogate_iff.mpr hhigh)
    rw [hpair, isLowSurrogate_iff.mpr hlow, ih, ← hc, Char.ofNat_toNat]
    rfl

theorem joined_of_spell? {cs : List Char} (hps : ∀ p ∈ ps, p < 0x110000)
    (h : spell? ps = some cs) : Joined ps cs := by
  fun_induction spell? ps generalizing cs with
  | case1 =>
    cases h
    exact .nil
  | case2 high hhigh low ps ih =>
    obtain ⟨_, hlow, h⟩ := Option.bind_eq_some_iff.mp h
    obtain ⟨cs, hcs, h⟩ := Option.bind_eq_some_iff.mp h
    cases h
    obtain ⟨-, hps⟩ := List.forall_mem_cons.mp hps
    obtain ⟨-, hps⟩ := List.forall_mem_cons.mp hps
    have hhigh := isHighSurrogate_iff.mp hhigh
    have hlow : 0xDC00 ≤ low ∧ low ≤ 0xDFFF := isLowSurrogate_iff.mp (by simpa using hlow)
    exact .pair hhigh hlow (toNat_ofNat (by omega)) (ih hps hcs)
  | case3 high hhigh => cases h
  | case4 p ps hhigh ih =>
    obtain ⟨_, hlow, h⟩ := Option.bind_eq_some_iff.mp h
    obtain ⟨cs, hcs, h⟩ := Option.bind_eq_some_iff.mp h
    cases h
    obtain ⟨hp, hps⟩ := List.forall_mem_cons.mp hps
    rw [isHighSurrogate_iff] at hhigh
    have hlow : ¬(0xDC00 ≤ p ∧ p ≤ 0xDFFF) := mt isLowSurrogate_iff.mpr (by simpa using hlow)
    -- A code point that is no surrogate is that of a character.
    have hself : (Char.ofNat p).toNat = p := toNat_ofNat (by omega)
    have hjoined := (ih hps hcs).char (c := .ofNat p)
    rwa [hself] at hjoined

/-- **Characters are joined from their code points**, and from no others. -/
theorem spell?_eq_some_iff {cs : List Char} (hps : ∀ p ∈ ps, p < 0x110000) :
    spell? ps = some cs ↔ Joined ps cs :=
  ⟨joined_of_spell? hps, Joined.spell?⟩

/-! ### Literals -/

/-- **What stands between the quotes of a literal**, and the text that it spells, if any. -/
inductive Literal (body : List Char) : Option String → Prop where
  | spells {ps : List Nat} {s : String} (hps : Pieces body ps) (hs : Joined ps s.toList) :
      Literal body (some s)
  /-- Some surrogate is alone. -/
  | nothing {ps : List Nat} (hps : Pieces body ps) (hnone : ∀ cs, ¬Joined ps cs) :
      Literal body none

/-- **What is read from a literal** is what it spells, or that it spells nothing. -/
theorem ofLiteral?_eq_some_iff {j : Json} : Guarded body ∧ ofLiteral? body = some j ↔
    ∃ s, Literal body s ∧ j = .text s := by
  have hpoints : ofLiteral? body = some j ↔
      ∃ ps, points? body = some ps ∧ j = .text ((spell? ps).map String.ofList) := by
    rw [ofLiteral?, Option.bind_eq_bind, Option.bind_eq_some_iff]
    simp only [Option.pure_def, Option.some.injEq, eq_comm]
  rw [hpoints]
  constructor
  · rintro ⟨hguarded, ps, hps, rfl⟩
    have hps := points?_eq_some_iff.mp ⟨hguarded, hps⟩
    refine ⟨_, ?_, rfl⟩
    cases hs : spell? ps with
    | none =>
      refine .nothing hps fun cs hcs => ?_
      rw [hcs.spell?] at hs
      cases hs
    | some cs =>
      refine .spells hps ?_
      rw [String.toList_ofList]
      exact (spell?_eq_some_iff hps.lt).mp hs
  · rintro ⟨_, hs, rfl⟩
    cases hs with
    | spells hps hs =>
      obtain ⟨hguarded, hpoints⟩ := points?_eq_some_iff.mpr hps
      refine ⟨hguarded, _, hpoints, ?_⟩
      rw [hs.spell?, Option.map_some, String.ofList_toList]
    | nothing hps hnone =>
      obtain ⟨hguarded, hpoints⟩ := points?_eq_some_iff.mpr hps
      refine ⟨hguarded, _, hpoints, ?_⟩
      have hspell : ∀ cs, spell? _ ≠ some cs := fun cs hcs =>
        hnone cs ((spell?_eq_some_iff hps.lt).mp hcs)
      rw [Option.eq_none_iff_forall_ne_some.mpr hspell, Option.map_none]

/-! ### Writing -/

/-- What is written for a character is one of the ways to write it. -/
theorem piece_escape (c : Char) : Piece (escape c) c.toNat := by
  unfold escape
  split
  case h_8 hquote hslash _ _ _ _ _ =>
    split
    · next hcontrol =>
      have hdigits : ∀ n < 0x20, HexDigit (n / 16).digitChar (n / 16) ∧
          HexDigit (n % 16).digitChar (n % 16) := by
        decide
      obtain ⟨hhigh, hlow⟩ := hdigits _ hcontrol
      exact .point (t := 0) (u := 0) (by decide) (by decide) hhigh hlow (by omega)
    · next hcontrol => exact .plain hquote hslash (Nat.not_lt.mp hcontrol)
  all_goals exact .short (by decide)

theorem pieces_escape (cs : List Char) : Pieces (cs.flatMap escape) (cs.map Char.toNat) := by
  induction cs with
  | nil => exact .nil
  | cons c cs ih => exact .cons (piece_escape c) ih

theorem joined_map_toNat (cs : List Char) : Joined (cs.map Char.toNat) cs := by
  induction cs with
  | nil => exact .nil
  | cons c cs ih => exact .char ih

/-- **What is written for a string spells it**, and what is written for none is a surrogate that is
alone. -/
theorem exists_literal_eq (s : Option String) :
    ∃ body, literal s = '"' :: body ++ ['"'] ∧ Literal body s := by
  cases s with
  | some s => exact ⟨_, rfl, .spells (pieces_escape _) (joined_map_toNat _)⟩
  | none =>
    have hpiece : Piece "\\ud800".toList 0xD800 :=
      .point (t := 13) (u := 8) (v := 0) (w := 0) (by decide) (by decide) (by decide) (by decide)
        rfl
    refine ⟨"\\ud800".toList, by decide, .nothing (.cons hpiece .nil) fun cs h => ?_⟩
    cases h.spell?

end GrantCatalog.Json
