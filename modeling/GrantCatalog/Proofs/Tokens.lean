import GrantCatalog.Json.Token
import GrantCatalog.Proofs.Literal
import GrantCatalog.Proofs.Numeral

/-!
# The grammar of tokens

A text is a row of tokens with blanks anywhere between them: marks, literals and words
(`GrantCatalog.Json.Lexes`). A word has no end of its own, so it has to go on as far as it can
(`GrantCatalog.Json.Ended`).

The token machine keeps what it has seen of a token in its mode. A run of it is cut where a token
ends, and there the mode forgets: inside a literal it gets to the first quote that is not guarded
(`GrantCatalog.Json.tokens?_quoted`), inside a word to the first character that ends it
(`GrantCatalog.Json.tokens?_word`). So the machine finds the tokens that the grammar asks for:
`GrantCatalog.Json.tokens?_eq_some_iff`.
-/

namespace GrantCatalog.Json

variable {c : Char} {cs cs' w r body : List Char} {ts ts' : List Token}

/-! ### The grammar -/

/-- The character of a mark. -/
def Mark.char : Mark → Char
  | .openArray => '['
  | .closeArray => ']'
  | .openObject => '\x7b'
  | .closeObject => '\x7d'
  | .comma => ','
  | .colon => ':'

/-- No word goes on into this text. -/
def Ended (r : List Char) : Prop := ∀ c ∈ r.head?, endsWord c = true

/-- **A text and its tokens.** -/
inductive Lexes : List Char → List Token → Prop where
  | nil : Lexes [] []
  | gap {c : Char} {cs : List Char} {ts : List Token} (hc : isGap c = true) (h : Lexes cs ts) :
      Lexes (c :: cs) ts
  | mark (m : Mark) {cs : List Char} {ts : List Token} (h : Lexes cs ts) :
      Lexes (m.char :: cs) (.mark m :: ts)
  | literal {body cs : List Char} {s : Option String} {ts : List Token} (hs : Literal body s)
      (h : Lexes cs ts) : Lexes ('"' :: (body ++ '"' :: cs)) (.leaf (.text s) :: ts)
  | word {w cs : List Char} {j : Json} {ts : List Token} (hw : Word w j) (hend : Ended cs)
      (h : Lexes cs ts) : Lexes (w ++ cs) (.leaf j :: ts)

theorem Mark.ofChar?_eq_some_iff {m : Mark} : Mark.ofChar? c = some m ↔ c = m.char := by
  constructor
  · intro h
    unfold Mark.ofChar? at h
    split at h
    case h_7 => cases h
    all_goals
      cases h
      rfl
  · rintro rfl
    cases m <;> rfl

/-- What ends a word is no letter, no digit and nothing else that may stand in a number. -/
theorem not_inNumeral_of_endsWord (hc : endsWord c = true) :
    (inNumeral c || c.isLower) = false := by
  have hall : ∀ m : Mark, (inNumeral m.char || m.char.isLower) = false := by
    intro m
    cases m <;> rfl
  simp only [endsWord, isGap, Bool.or_eq_true, beq_iff_eq, or_assoc] at hc
  rcases hc with rfl | rfl | rfl | rfl | rfl | hc
  · rfl
  · rfl
  · rfl
  · rfl
  · rfl
  · obtain ⟨m, hm⟩ := Option.isSome_iff_exists.mp hc
    obtain rfl := Mark.ofChar?_eq_some_iff.mp hm
    exact hall m

/-- No word has a character in it that ends it. -/
theorem Word.any_endsWord {j : Json} (h : Word w j) : w.any endsWord = false := by
  rw [List.any_eq_false]
  intro c hc hend
  have hno := not_inNumeral_of_endsWord hend
  rw [List.all_eq_true.mp h.all.2 c hc] at hno
  cases hno

theorem ended_nil : Ended [] := fun _ h => by cases h

theorem ended_cons (hc : endsWord c = true) : Ended (c :: cs) := by
  rintro d hd
  obtain rfl := Option.some.inj hd
  exact hc

theorem Ended.append {r : List Char} (h : Ended cs) (hr : Ended r) : Ended (cs ++ r) := by
  cases cs with
  | nil => exact hr
  | cons c cs => exact h

/-! ### The machine -/

/-- What has been found before only stands in front of what is found later. -/
theorem tokens?_found (mode : Mode) (found : List Token) (r : List Char) :
    mode.tokens? found r = (mode.tokens? [] r).map (found.reverse ++ ·) := by
  induction r generalizing mode found with
  | nil =>
    rw [Mode.tokens?, Mode.tokens?]
    cases mode.finish? <;> rfl
  | cons c r ih =>
    rw [Mode.tokens?, Mode.tokens?]
    cases mode.step? c with
    | none => rfl
    | some next =>
      obtain ⟨ts, mode'⟩ := next
      change mode'.tokens? (ts.reverse ++ found) r = (mode'.tokens? (ts.reverse ++ []) r).map _
      rw [ih, ih mode' (ts.reverse ++ []), Option.map_map]
      simp [Function.comp_def]

theorem tokens?_step {mode mode' : Mode} (h : mode.step? c = some (ts, mode')) (r : List Char) :
    mode.tokens? [] (c :: r) = (mode'.tokens? [] r).map (ts ++ ·) := by
  rw [Mode.tokens?, h]
  change mode'.tokens? (ts.reverse ++ []) r = _
  rw [tokens?_found, List.append_nil, List.reverse_reverse]

/-- A character that completes no token is only taken in. -/
theorem tokens?_silent {mode mode' : Mode} (h : mode.step? c = some ([], mode')) (r : List Char) :
    mode.tokens? [] (c :: r) = mode'.tokens? [] r := by
  rw [tokens?_step h]
  exact Option.map_id'

theorem tokens?_gap (hc : isGap c = true) (r : List Char) : tokens? (c :: r) = tokens? r := by
  have hstep : Mode.step? .between c = some ([], .between) := by
    rw [Mode.step?, Mode.enter, if_pos hc]
  exact tokens?_silent hstep r

theorem tokens?_mark (m : Mark) (r : List Char) :
    tokens? (m.char :: r) = (tokens? r).map (.mark m :: ·) := by
  have hstep : Mode.step? .between m.char = some ([.mark m], .between) := by
    cases m <;> rfl
  exact tokens?_step hstep r

/-- What no blank, no quote and no mark begins is a word. -/
theorem tokens?_begin (hc : endsWord c = false) (r : List Char) :
    tokens? (c :: r) = Mode.tokens? (.word [c]) [] r := by
  simp only [endsWord, Bool.or_eq_false_iff, beq_eq_false_iff_ne] at hc
  obtain ⟨⟨hgap, hquote⟩, hmark⟩ := hc
  have hnone : Mark.ofChar? c = none := by simpa using hmark
  have hstep : Mode.step? .between c = some ([], .word [c]) := by
    rw [Mode.step?, Mode.enter, hgap, if_neg Bool.false_ne_true, if_neg hquote, hnone]
  exact tokens?_silent hstep r

/-! ### Inside a literal -/

theorem tokens?_guarded (h : Guarded body) (seen r : List Char) :
    Mode.tokens? (.quoted seen) [] (body ++ r) =
      Mode.tokens? (.quoted (body.reverse ++ seen)) [] r := by
  induction h generalizing seen with
  | nil => rfl
  | @plain c body hquote hslash _ ih =>
    have hstep : Mode.step? (.quoted seen) c = some ([], .quoted (c :: seen)) := by
      rw [Mode.step?, if_neg hquote, if_neg hslash]
    rw [List.cons_append, tokens?_silent hstep, ih, List.reverse_cons, List.append_assoc]
    rfl
  | @escaped c body _ ih =>
    have hstep : Mode.step? (.quoted seen) '\\' = some ([], .escaped ('\\' :: seen)) := rfl
    have hstep' : Mode.step? (.escaped ('\\' :: seen)) c =
        some ([], .quoted (c :: '\\' :: seen)) := rfl
    rw [List.cons_append, List.cons_append, tokens?_silent hstep, tokens?_silent hstep', ih]
    simp

/-- **A literal is looked up at the first quote that is not guarded.** -/
theorem tokens?_quoted (h : Guarded body) (r : List Char) :
    tokens? ('"' :: (body ++ '"' :: r)) =
      (ofLiteral? body).bind fun j => (tokens? r).map (.leaf j :: ·) := by
  have hopen : tokens? ('"' :: (body ++ '"' :: r)) =
      Mode.tokens? (.quoted []) [] (body ++ '"' :: r) := rfl
  rw [hopen, tokens?_guarded h, List.append_nil]
  cases hj : ofLiteral? body with
  | none =>
    have hstep : Mode.step? (.quoted body.reverse) '"' = none := by
      change (ofLiteral? body.reverse.reverse).bind _ = none
      rw [List.reverse_reverse, hj]
      rfl
    rw [Mode.tokens?, hstep]
    rfl
  | some j =>
    have hstep : Mode.step? (.quoted body.reverse) '"' = some ([.leaf j], .between) := by
      change (ofLiteral? body.reverse.reverse).bind _ = _
      rw [List.reverse_reverse, hj]
      rfl
    exact tokens?_step hstep r

/-- A literal that has an end has such a quote. -/
theorem exists_quote {seen : List Char} (h : Mode.tokens? (.quoted seen) [] r = some ts) :
    ∃ body rest, r = body ++ '"' :: rest ∧ Guarded body := by
  -- An escape takes two characters, so the induction is on the length.
  induction hn : r.length using Nat.strongRecOn generalizing r seen with
  | ind n ih =>
    match r with
    | [] => cases h
    | c :: r =>
      by_cases hquote : c = '"'
      · exact ⟨[], r, by rw [hquote]; rfl, .nil⟩
      · by_cases hslash : c = '\\'
        · subst hslash
          have hstep : Mode.step? (.quoted seen) '\\' = some ([], .escaped ('\\' :: seen)) := rfl
          rw [tokens?_silent hstep] at h
          match r with
          | [] => cases h
          | d :: r =>
            -- The character behind a backslash is taken in whatever it is, a quote as well.
            have hstep : Mode.step? (.escaped ('\\' :: seen)) d =
                some ([], .quoted (d :: '\\' :: seen)) := rfl
            rw [tokens?_silent hstep] at h
            rw [List.length_cons, List.length_cons] at hn
            obtain ⟨body, rest, rfl, hbody⟩ := ih r.length (by omega) h rfl
            exact ⟨'\\' :: d :: body, rest, rfl, .escaped hbody⟩
        · have hstep : Mode.step? (.quoted seen) c = some ([], .quoted (c :: seen)) := by
            rw [Mode.step?, if_neg hquote, if_neg hslash]
          rw [tokens?_silent hstep] at h
          rw [List.length_cons] at hn
          obtain ⟨body, rest, rfl, hbody⟩ := ih r.length (by omega) h rfl
          exact ⟨c :: body, rest, rfl, .plain hquote hslash hbody⟩

/-! ### Inside a word -/

theorem tokens?_inWord (hw : w.any endsWord = false) (seen r : List Char) :
    Mode.tokens? (.word seen) [] (w ++ r) = Mode.tokens? (.word (w.reverse ++ seen)) [] r := by
  induction w generalizing seen with
  | nil => rfl
  | cons c w ih =>
    rw [List.any_cons, Bool.or_eq_false_iff] at hw
    obtain ⟨hc, hw⟩ := hw
    have hstep : Mode.step? (.word seen) c = some ([], .word (c :: seen)) := by
      rw [Mode.step?, hc]
      rfl
    rw [List.cons_append, tokens?_silent hstep, ih hw, List.reverse_cons, List.append_assoc]
    rfl

/-- A word is looked up where it ends. -/
theorem tokens?_endWord (seen : List Char) (hr : Ended r) : Mode.tokens? (.word seen) [] r =
    (ofWord? seen.reverse).bind fun j => (tokens? r).map (.leaf j :: ·) := by
  cases r with
  | nil =>
    rw [Mode.tokens?, Mode.finish?]
    cases ofWord? seen.reverse <;> rfl
  | cons c r =>
    have hc : endsWord c = true := hr c rfl
    rw [tokens?, Mode.tokens?, Mode.tokens?, Mode.step?, Mode.step?, if_pos hc]
    cases ofWord? seen.reverse with
    | none => rfl
    | some j =>
      -- What ends the word begins something else, with nothing found before it.
      change (Mode.enter c).2.tokens? ((.leaf j :: (Mode.enter c).1).reverse ++ []) r =
        ((Mode.enter c).2.tokens? ((Mode.enter c).1.reverse ++ []) r).map _
      rw [tokens?_found, tokens?_found _ ((Mode.enter c).1.reverse ++ []), Option.map_map]
      simp [Function.comp_def]

/-- **A word is one token**, as far as it goes on. -/
theorem tokens?_word (hne : w ≠ []) (hw : w.any endsWord = false) (hr : Ended r) :
    tokens? (w ++ r) = (ofWord? w).bind fun j => (tokens? r).map (.leaf j :: ·) := by
  match w, hne, hw with
  | c :: w, _, hw =>
    rw [List.any_cons, Bool.or_eq_false_iff] at hw
    rw [List.cons_append, tokens?_begin hw.1, tokens?_inWord hw.2, tokens?_endWord _ hr]
    simp

/-! ### Whole texts -/

theorem Lexes.tokens? (h : Lexes cs ts) : tokens? cs = some ts := by
  induction h with
  | nil => rfl
  | gap hc _ ih => rw [tokens?_gap hc, ih]
  | mark m _ ih =>
    rw [tokens?_mark, ih]
    rfl
  | @literal body cs s ts hs _ ih =>
    obtain ⟨hguarded, hread⟩ := ofLiteral?_eq_some_iff.mpr ⟨s, hs, rfl⟩
    rw [tokens?_quoted hguarded, hread, ih]
    rfl
  | word hw hend _ ih =>
    rw [tokens?_word hw.all.1 hw.any_endsWord hend, ofWord?_eq_some_iff.mpr hw, ih]
    rfl

/-- What a character may begin. -/
theorem begin_cases (c : Char) :
    isGap c = true ∨ c = '"' ∨ (∃ m : Mark, c = m.char) ∨ endsWord c = false := by
  cases hend : endsWord c with
  | false => exact .inr (.inr (.inr rfl))
  | true =>
    simp only [endsWord, Bool.or_eq_true, beq_iff_eq, Option.isSome_iff_exists,
      Mark.ofChar?_eq_some_iff] at hend
    obtain (hgap | hquote) | hmark := hend
    · exact .inl hgap
    · exact .inr (.inl hquote)
    · exact .inr (.inr (.inl hmark))

/-- What begins as a word goes on up to where it is ended. -/
theorem exists_word (hc : endsWord c = false) (r : List Char) :
    ∃ w rest, r = w ++ rest ∧ (c :: w).any endsWord = false ∧ Ended rest := by
  induction r generalizing c with
  | nil => exact ⟨[], [], rfl, by rw [List.any_cons, hc]; rfl, ended_nil⟩
  | cons d r ih =>
    cases hd : endsWord d with
    | true => exact ⟨[], d :: r, rfl, by rw [List.any_cons, hc]; rfl, ended_cons hd⟩
    | false =>
      obtain ⟨w, rest, rfl, hw, hend⟩ := ih hd
      exact ⟨d :: w, rest, rfl, by rw [List.any_cons, hc, hw]; rfl, hend⟩

theorem lexes_of_tokens? (h : tokens? cs = some ts) : Lexes cs ts := by
  induction hn : cs.length using Nat.strongRecOn generalizing cs ts with
  | ind n ih =>
    match cs with
    | [] =>
      cases h
      exact .nil
    | c :: r =>
      rw [List.length_cons] at hn
      obtain hgap | rfl | ⟨m, rfl⟩ | hc := begin_cases c
      · rw [tokens?_gap hgap] at h
        exact .gap hgap (ih r.length (by omega) h rfl)
      · have hquoted : Mode.tokens? (.quoted []) [] r = some ts := h
        obtain ⟨body, rest, rfl, hbody⟩ := exists_quote hquoted
        rw [tokens?_quoted hbody] at h
        obtain ⟨j, hj, h⟩ := Option.bind_eq_some_iff.mp h
        obtain ⟨ts, hts, rfl⟩ := Option.map_eq_some_iff.mp h
        obtain ⟨s, hs, rfl⟩ := ofLiteral?_eq_some_iff.mp ⟨hbody, hj⟩
        rw [List.length_append, List.length_cons] at hn
        exact .literal hs (ih rest.length (by omega) hts rfl)
      · rw [tokens?_mark] at h
        obtain ⟨ts, hts, rfl⟩ := Option.map_eq_some_iff.mp h
        exact .mark m (ih r.length (by omega) hts rfl)
      · obtain ⟨w, rest, rfl, hw, hend⟩ := exists_word hc r
        rw [← List.cons_append, tokens?_word (List.cons_ne_nil c w) hw hend] at h
        obtain ⟨j, hj, h⟩ := Option.bind_eq_some_iff.mp h
        obtain ⟨ts, hts, rfl⟩ := Option.map_eq_some_iff.mp h
        rw [List.length_append] at hn
        have hrest := ih rest.length (by omega) hts rfl
        exact .word (ofWord?_eq_some_iff.mp hj) hend hrest

/-- **The tokens of a text are found as the grammar says.** -/
theorem tokens?_eq_some_iff : tokens? cs = some ts ↔ Lexes cs ts :=
  ⟨lexes_of_tokens?, Lexes.tokens?⟩

end GrantCatalog.Json
