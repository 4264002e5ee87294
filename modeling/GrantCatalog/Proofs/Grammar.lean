import GrantCatalog.Json.Reader
import GrantCatalog.Proofs.Tokens

/-!
# The grammar of JSON

What a text denotes is told twice, once by its characters (`GrantCatalog.Json.Denotes`) and once by
its tokens (`GrantCatalog.Json.Forms`). The first is the grammar as it is written down, in which
blanks may stand around every value and every key; the second is what is left of it when blanks are
gone, and it is what the reader goes by.

The two come to the same: a text denotes something just if it has tokens that form it
(`GrantCatalog.Json.denotes_iff`). From tokens to characters a text is **cut** in front of a token
and behind it (`GrantCatalog.Json.Lexes.split`), with the blanks left to the pieces; in the other
direction pieces are put together, and no word is prolonged as a mark stands between any two values.
-/

namespace GrantCatalog.Json

/-! ### The grammar of texts -/

/-- What a piece of a text may stand for. -/
inductive Phrase where
  | value (j : Json)
  /-- The items between the brackets of an array that is not empty. -/
  | items (js : List Json)
  | member (m : Option String × Json)
  /-- The members between the brackets of an object that is not empty. -/
  | members (ms : Members)

/-- **What a text denotes.** -/
inductive Denotes : List Char → Phrase → Prop where
  /-- Blanks around a value do not matter. -/
  | padded {g cs g' : List Char} {j : Json} (hg : g.all isGap = true) (h : Denotes cs (.value j))
      (hg' : g'.all isGap = true) : Denotes (g ++ (cs ++ g')) (.value j)
  | word {w : List Char} {j : Json} (h : Word w j) : Denotes w (.value j)
  | literal {body : List Char} {s : Option String} (h : Literal body s) :
      Denotes ('"' :: (body ++ ['"'])) (.value (.text s))
  | emptyArray {g : List Char} (hg : g.all isGap = true) :
      Denotes ('[' :: (g ++ [']'])) (.value (.array []))
  | array {cs : List Char} {js : List Json} (h : Denotes cs (.items js)) :
      Denotes ('[' :: (cs ++ [']'])) (.value (.array js))
  | emptyObject {g : List Char} (hg : g.all isGap = true) :
      Denotes ('\x7b' :: (g ++ ['\x7d'])) (.value (.object []))
  | object {cs : List Char} {ms : Members} (h : Denotes cs (.members ms)) :
      Denotes ('\x7b' :: (cs ++ ['\x7d'])) (.value (.object ms))
  | item {cs : List Char} {j : Json} (h : Denotes cs (.value j)) : Denotes cs (.items [j])
  | items {cs cs' : List Char} {j : Json} {js : List Json} (h : Denotes cs (.value j))
      (hs : Denotes cs' (.items js)) : Denotes (cs ++ ',' :: cs') (.items (j :: js))
  /-- A key is a literal with blanks around it. -/
  | member {g body g' cs : List Char} {k : Option String} {j : Json} (hg : g.all isGap = true)
      (hk : Literal body k) (hg' : g'.all isGap = true) (h : Denotes cs (.value j)) :
      Denotes (g ++ '"' :: (body ++ '"' :: (g' ++ ':' :: cs))) (.member (k, j))
  | last {cs : List Char} {m : Option String × Json} (h : Denotes cs (.member m)) :
      Denotes cs (.members [m])
  | members {cs cs' : List Char} {m : Option String × Json} {ms : Members}
      (h : Denotes cs (.member m)) (hs : Denotes cs' (.members ms)) :
      Denotes (cs ++ ',' :: cs') (.members (m :: ms))

/-! ### The grammar of tokens -/

/-- **What some tokens form.** -/
inductive Forms : List Token → Phrase → Prop where
  | leaf (j : Json) : Forms [.leaf j] (.value j)
  | emptyArray : Forms [.mark .openArray, .mark .closeArray] (.value (.array []))
  | array {ts : List Token} {js : List Json} (h : Forms ts (.items js)) :
      Forms (.mark .openArray :: (ts ++ [.mark .closeArray])) (.value (.array js))
  | emptyObject : Forms [.mark .openObject, .mark .closeObject] (.value (.object []))
  | object {ts : List Token} {ms : Members} (h : Forms ts (.members ms)) :
      Forms (.mark .openObject :: (ts ++ [.mark .closeObject])) (.value (.object ms))
  | item {ts : List Token} {j : Json} (h : Forms ts (.value j)) : Forms ts (.items [j])
  | items {ts ts' : List Token} {j : Json} {js : List Json} (h : Forms ts (.value j))
      (hs : Forms ts' (.items js)) : Forms (ts ++ .mark .comma :: ts') (.items (j :: js))
  | member {ts : List Token} {k : Option String} {j : Json} (h : Forms ts (.value j)) :
      Forms (.leaf (.text k) :: .mark .colon :: ts) (.member (k, j))
  | last {ts : List Token} {m : Option String × Json} (h : Forms ts (.member m)) :
      Forms ts (.members [m])
  | members {ts ts' : List Token} {m : Option String × Json} {ms : Members}
      (h : Forms ts (.member m)) (hs : Forms ts' (.members ms)) :
      Forms (ts ++ .mark .comma :: ts') (.members (m :: ms))

/-! ### Cutting a text between its tokens -/

variable {c : Char} {cs cs' g : List Char} {ts ts' : List Token} {t : Token} {p : Phrase}

theorem lexes_nil_iff : Lexes cs [] ↔ cs.all isGap = true := by
  constructor
  · intro h
    generalize hts : ([] : List Token) = ts at h
    induction h with
    | nil => rfl
    | gap hc _ ih => rw [List.all_cons, hc, ih hts, Bool.and_self]
    | mark _ _ _ => cases hts
    | literal _ _ _ => cases hts
    | word _ _ _ _ => cases hts
  · intro h
    induction cs with
    | nil => exact .nil
    | cons c cs ih =>
      rw [List.all_cons, Bool.and_eq_true] at h
      exact .gap h.1 (ih h.2)

theorem Lexes.gaps (hg : g.all isGap = true) (h : Lexes cs ts) : Lexes (g ++ cs) ts := by
  induction g with
  | nil => exact h
  | cons c g ih =>
    rw [List.all_cons, Bool.and_eq_true] at hg
    exact .gap hg.1 (ih hg.2)

/-- One text after another. The second must not prolong a word at the end of the first. -/
theorem Lexes.append (h : Lexes cs ts) (h' : Lexes cs' ts') (hend : Ended cs') :
    Lexes (cs ++ cs') (ts ++ ts') := by
  induction h with
  | nil => exact h'
  | gap hc _ ih => exact .gap hc ih
  | mark m _ ih => exact .mark m ih
  | literal hs _ ih =>
    rw [List.cons_append, List.append_assoc]
    exact .literal hs ih
  | word hw hcs _ ih =>
    rw [List.append_assoc]
    exact .word hw (hcs.append hend) ih

/-- **The characters of a token.** -/
inductive Names : List Char → Token → Prop where
  | mark (m : Mark) : Names [m.char] (.mark m)
  | literal {body : List Char} {s : Option String} (hs : Literal body s) :
      Names ('"' :: (body ++ ['"'])) (.leaf (.text s))
  | word {w : List Char} {j : Json} (hw : Word w j) : Names w (.leaf j)

theorem Ended.of_append {r : List Char} (h : Ended (cs ++ r)) : Ended cs := by
  cases cs with
  | nil => exact ended_nil
  | cons c cs => exact h

/-- **A text is cut in front of a token and behind it.** Blanks are left to the pieces. -/
theorem Lexes.split (h : Lexes cs (ts ++ t :: ts')) : ∃ front w back, cs = front ++ (w ++ back) ∧
    Lexes front ts ∧ Names w t ∧ Lexes back ts' := by
  generalize hall : ts ++ t :: ts' = all at h
  induction h generalizing ts with
  | nil => exact absurd hall (List.append_ne_nil_of_right_ne_nil ts (List.cons_ne_nil t ts'))
  | @gap c cs all hc _ ih =>
    obtain ⟨front, w, back, rfl, hfront, hw, hback⟩ := ih hall
    exact ⟨c :: front, w, back, rfl, .gap hc hfront, hw, hback⟩
  | @mark m cs all h ih =>
    -- Either this is the token to cut at, or it belongs to the front.
    cases ts with
    | nil =>
      cases hall
      exact ⟨[], _, cs, rfl, .nil, .mark m, h⟩
    | cons t' ts =>
      obtain ⟨rfl, hrest⟩ := List.cons.inj hall
      obtain ⟨front, w, back, rfl, hfront, hw, hback⟩ := ih hrest
      exact ⟨m.char :: front, w, back, rfl, .mark m hfront, hw, hback⟩
  | @literal body cs s all hs h ih =>
    cases ts with
    | nil =>
      cases hall
      exact ⟨[], _, cs, by simp, .nil, .literal hs, h⟩
    | cons t' ts =>
      obtain ⟨rfl, hrest⟩ := List.cons.inj hall
      obtain ⟨front, w, back, rfl, hfront, hw, hback⟩ := ih hrest
      exact ⟨'"' :: (body ++ '"' :: front), w, back, by simp, .literal hs hfront, hw, hback⟩
  | @word w' cs j all hw' hend h ih =>
    cases ts with
    | nil =>
      cases hall
      exact ⟨[], _, cs, rfl, .nil, .word hw', h⟩
    | cons t' ts =>
      obtain ⟨rfl, hrest⟩ := List.cons.inj hall
      obtain ⟨front, w, back, rfl, hfront, hw, hback⟩ := ih hrest
      exact ⟨w' ++ front, w, back, by simp, .word hw' hend.of_append hfront, hw, hback⟩

theorem Lexes.split_mark {m : Mark} (h : Lexes cs (ts ++ .mark m :: ts')) :
    ∃ front back, cs = front ++ m.char :: back ∧ Lexes front ts ∧ Lexes back ts' := by
  obtain ⟨front, w, back, rfl, hfront, hw, hback⟩ := h.split
  cases hw
  exact ⟨front, back, rfl, hfront, hback⟩

/-- Tokens between two marks are tokens of a text between two characters. -/
theorem Lexes.between_marks {m m' : Mark} (h : Lexes cs (.mark m :: (ts ++ [.mark m']))) :
    ∃ g inner g', cs = g ++ (m.char :: (inner ++ [m'.char]) ++ g') ∧ g.all isGap = true ∧
      Lexes inner ts ∧ g'.all isGap = true := by
  obtain ⟨g, rest, rfl, hg, hrest⟩ := @Lexes.split_mark _ [] _ _ h
  obtain ⟨inner, g', rfl, hinner, hg'⟩ := hrest.split_mark
  exact ⟨g, inner, g', by simp, lexes_nil_iff.mp hg, hinner, lexes_nil_iff.mp hg'⟩

/-! ### Texts and tokens -/

theorem Names.denotes {w : List Char} {j : Json} (h : Names w (.leaf j)) :
    Denotes w (.value j) := by
  cases h with
  | literal hs => exact .literal hs
  | word hw => exact .word hw

/-- A text denotes what its tokens form. -/
theorem Forms.denotes (h : Forms ts p) (hcs : Lexes cs ts) : Denotes cs p := by
  induction h generalizing cs with
  | leaf j =>
    obtain ⟨g, w, g', rfl, hg, hw, hg'⟩ := @Lexes.split _ [] _ _ hcs
    exact .padded (lexes_nil_iff.mp hg) hw.denotes (lexes_nil_iff.mp hg')
  | emptyArray =>
    obtain ⟨g, inner, g', rfl, hg, hinner, hg'⟩ := @Lexes.between_marks _ [] _ _ hcs
    exact .padded hg (.emptyArray (lexes_nil_iff.mp hinner)) hg'
  | array _ ih =>
    obtain ⟨g, inner, g', rfl, hg, hinner, hg'⟩ := hcs.between_marks
    exact .padded hg (.array (ih hinner)) hg'
  | emptyObject =>
    obtain ⟨g, inner, g', rfl, hg, hinner, hg'⟩ := @Lexes.between_marks _ [] _ _ hcs
    exact .padded hg (.emptyObject (lexes_nil_iff.mp hinner)) hg'
  | object _ ih =>
    obtain ⟨g, inner, g', rfl, hg, hinner, hg'⟩ := hcs.between_marks
    exact .padded hg (.object (ih hinner)) hg'
  | item _ ih => exact .item (ih hcs)
  | items _ _ ih ihs =>
    obtain ⟨front, back, rfl, hfront, hback⟩ := hcs.split_mark
    exact .items (ih hfront) (ihs hback)
  | member _ ih =>
    obtain ⟨g, w, rest, rfl, hg, hw, hrest⟩ := @Lexes.split _ [] _ _ hcs
    obtain ⟨g', back, rfl, hg', hback⟩ := @Lexes.split_mark _ [] _ _ hrest
    cases hw with
    | literal hk =>
      rw [List.cons_append, List.append_assoc]
      exact .member (lexes_nil_iff.mp hg) hk (lexes_nil_iff.mp hg') (ih hback)
    | word hw =>
      -- No word is a text, so a key is a literal.
      rcases hw with - | - | - | hw
      cases hw
  | last _ ih => exact .last (ih hcs)
  | members _ _ ih ihs =>
    obtain ⟨front, back, rfl, hfront, hback⟩ := hcs.split_mark
    exact .members (ih hfront) (ihs hback)

theorem ended_gaps (hg : g.all isGap = true) : Ended g := by
  cases g with
  | nil => exact ended_nil
  | cons c g =>
    rw [List.all_cons, Bool.and_eq_true] at hg
    exact ended_cons (by rw [endsWord, hg.1]; rfl)

/-- A text has tokens that form what it denotes. -/
theorem Denotes.exists_forms (h : Denotes cs p) : ∃ ts, Lexes cs ts ∧ Forms ts p := by
  induction h with
  | @padded g cs g' j hg _ hg' ih =>
    obtain ⟨ts, hlex, hforms⟩ := ih
    have hback := hlex.append (lexes_nil_iff.mpr hg') (ended_gaps hg')
    rw [List.append_nil] at hback
    exact ⟨ts, hback.gaps hg, hforms⟩
  | @word w j hw =>
    have hlex := Lexes.word hw ended_nil .nil
    rw [List.append_nil] at hlex
    exact ⟨_, hlex, .leaf j⟩
  | literal hs => exact ⟨_, .literal hs .nil, .leaf _⟩
  | emptyArray hg =>
    exact ⟨_, .mark .openArray (Lexes.gaps hg (.mark .closeArray .nil)), .emptyArray⟩
  | array _ ih =>
    obtain ⟨ts, hlex, hforms⟩ := ih
    -- The bracket ends a word that the last item may be.
    have hclose := hlex.append (.mark .closeArray .nil) (ended_cons rfl)
    exact ⟨_, .mark .openArray hclose, .array hforms⟩
  | emptyObject hg =>
    exact ⟨_, .mark .openObject (Lexes.gaps hg (.mark .closeObject .nil)), .emptyObject⟩
  | object _ ih =>
    obtain ⟨ts, hlex, hforms⟩ := ih
    have hclose := hlex.append (.mark .closeObject .nil) (ended_cons rfl)
    exact ⟨_, .mark .openObject hclose, .object hforms⟩
  | item _ ih =>
    obtain ⟨ts, hlex, hforms⟩ := ih
    exact ⟨ts, hlex, .item hforms⟩
  | items _ _ ih ihs =>
    obtain ⟨ts, hlex, hforms⟩ := ih
    obtain ⟨ts', hlex', hforms'⟩ := ihs
    exact ⟨_, hlex.append (.mark .comma hlex') (ended_cons rfl), .items hforms hforms'⟩
  | member hg hk hg' _ ih =>
    obtain ⟨ts, hlex, hforms⟩ := ih
    have hcolon := Lexes.gaps hg' (.mark .colon hlex)
    exact ⟨_, Lexes.gaps hg (.literal hk hcolon), .member hforms⟩
  | last _ ih =>
    obtain ⟨ts, hlex, hforms⟩ := ih
    exact ⟨ts, hlex, .last hforms⟩
  | members _ _ ih ihs =>
    obtain ⟨ts, hlex, hforms⟩ := ih
    obtain ⟨ts', hlex', hforms'⟩ := ihs
    exact ⟨_, hlex.append (.mark .comma hlex') (ended_cons rfl), .members hforms hforms'⟩

/-- **A text denotes what its tokens form.** -/
theorem denotes_iff : Denotes cs p ↔ ∃ ts, Lexes cs ts ∧ Forms ts p :=
  ⟨Denotes.exists_forms, fun ⟨_, hlex, hforms⟩ => hforms.denotes hlex⟩

end GrantCatalog.Json
