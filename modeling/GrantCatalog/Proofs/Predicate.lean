import GrantCatalog.Predicate
import Mathlib.Data.List.Basic

/-!
# The list of grantees, read back

A rendered predicate is read by a server, not by this library, so that nothing is gained if only
the writer knows what it meant. This file puts a **reader** of lists of pairs of string literals
beside the writer: `GrantCatalog.Sql.tokens?` cuts a text into tokens, and
`GrantCatalog.Sql.pairs?` reads the pairs off them. The reader knows nothing of how names are
escaped. Inside a literal a backslash takes the character after it as it is, two quotes in a row
are one quote, and a quote alone ends the literal.

The whole argument is about one position: the quote that ends a literal. What
`GrantCatalog.Sql.body?_append` says is that the reader, put behind the opening quote of a name,
arrives exactly there, whatever the name holds and whatever follows – as long as no further quote
does, and behind a name stands a comma or a parenthesis. The rest is bookkeeping along the list.
-/

namespace GrantCatalog

namespace Sql

/-! ### The reader -/

/-- The blanks between two tokens. -/
def isGap (c : Char) : Bool := c ∈ [' ', '\t', '\n', '\x0b', '\x0c', '\r']

/-- What the inside of a literal spells, and the text behind the quote that ends it; `none` if no
quote does. -/
def body? : List Char → Option (List Char × List Char)
  | [] => none
  | '\\' :: r =>
    match r with
    | [] => none
    | c :: r => (body? r).map fun (s, rest) => (c :: s, rest)
  | '\'' :: r =>
    match r with
    | '\'' :: r => (body? r).map fun (s, rest) => ('\'' :: s, rest)
    | rest => some ([], rest)
  | c :: r => (body? r).map fun (s, rest) => (c :: s, rest)

/-- A token of a list of pairs. -/
inductive Token where
  | opening
  | closing
  | comma
  /-- A string literal, by what it spells. -/
  | literal (s : List Char)
  deriving DecidableEq, Repr

/-- Reading a literal uses up its closing quote at least. -/
theorem length_lt_of_body? {s w rest : List Char} (h : body? s = some (w, rest)) :
    rest.length < s.length := by
  fun_induction body? s generalizing w rest with
  | case1 => simp at h
  | case2 => simp at h
  | case3 c r ih | case4 r ih | case6 c r hb hq ih =>
    obtain ⟨⟨w', rest'⟩, hr, he⟩ := Option.map_eq_some_iff.1 h
    have := ih hr
    simp only [Prod.mk.injEq] at he
    obtain ⟨-, rfl⟩ := he
    simp only [List.length_cons]
    omega
  | case5 =>
    simp only [Option.some.injEq, Prod.mk.injEq] at h
    obtain ⟨-, rfl⟩ := h
    simp

/-- The tokens of a text; `none` if a literal is not ended or something else stands in it. -/
def tokens? (s : List Char) : Option (List Token) :=
  match s with
  | [] => some []
  | c :: r =>
    if isGap c then tokens? r
    else if c = '(' then (tokens? r).map (.opening :: ·)
    else if c = ')' then (tokens? r).map (.closing :: ·)
    else if c = ',' then (tokens? r).map (.comma :: ·)
    else if c = '\'' then
      match h : body? r with
      | none => none
      | some (w, rest) =>
        have := length_lt_of_body? h
        (tokens? rest).map (.literal w :: ·)
    else none
termination_by s.length

/-- The pairs of a list that has at least one, with commas between them. -/
def pairsOf? : List Token → Option (List (String × String))
  | .opening :: .literal a :: .comma :: .literal b :: .closing :: rest =>
    match rest with
    | [] => some [(.ofList a, .ofList b)]
    | .comma :: rest => (pairsOf? rest).map ((.ofList a, .ofList b) :: ·)
    | _ => none
  | _ => none

/-- **The pairs that a text lists**; `none` if the text is no list of pairs, to its end. -/
def pairs? (s : String) : Option (List (String × String)) :=
  match tokens? s.toList with
  | none => none
  | some [] => some []
  | some ts => pairsOf? ts

/-! ### Inside a literal -/

theorem escape_of_ne {c : Char} (hb : c ≠ '\\') (hq : c ≠ '\'') : Predicate.escape c = [c] := by
  rw [Predicate.escape]
  · exact hb
  · exact hq

/-- **No name ends its literal early, and none runs on**: from behind the opening quote the reader
comes to the closing one, having spelt the name. -/
theorem body?_append (s : List Char) {c : Char} (hc : c ≠ '\'') (rest : List Char) :
    body? (s.flatMap Predicate.escape ++ '\'' :: c :: rest) = some (s, c :: rest) := by
  induction s with
  | nil =>
    rw [List.flatMap_nil, List.nil_append, body?]
    rintro r h
    exact hc (List.cons.inj h).1
  | cons d s ih =>
    rw [List.flatMap_cons, List.append_assoc]
    by_cases hb : d = '\\'
    · subst hb
      change body? ('\\' :: '\\' :: (s.flatMap Predicate.escape ++ '\'' :: c :: rest)) = _
      rw [body?, ih]
      rfl
    · by_cases hq : d = '\''
      · subst hq
        change body? ('\'' :: '\'' :: (s.flatMap Predicate.escape ++ '\'' :: c :: rest)) = _
        rw [body?, ih]
        rfl
      · rw [escape_of_ne hb hq, List.singleton_append, body?, ih]
        · rfl
        · exact hb
        · exact hq

/-! ### Token by token -/

theorem tokens?_nil : tokens? [] = some [] := by
  rw [tokens?]

/-- What the first character of a text makes of it. -/
theorem tokens?_cons (c : Char) (r : List Char) : tokens? (c :: r) =
    if isGap c then tokens? r
    else if c = '(' then (tokens? r).map (.opening :: ·)
    else if c = ')' then (tokens? r).map (.closing :: ·)
    else if c = ',' then (tokens? r).map (.comma :: ·)
    else if c = '\'' then
      (body? r).bind fun (w, rest) => (tokens? rest).map (.literal w :: ·)
    else none := by
  rw [tokens?]
  -- Only in the branch of the quote do the two sides differ in form.
  refine ite_congr rfl (fun _ => rfl) fun _ => ite_congr rfl (fun _ => rfl) fun _ =>
    ite_congr rfl (fun _ => rfl) fun _ => ite_congr rfl (fun _ => rfl) fun _ =>
      ite_congr rfl (fun _ => ?_) fun _ => rfl
  split
  · next hbody => rw [hbody, Option.bind_none]
  · next w rest hbody => simp only [hbody, Option.bind_some]

theorem tokens?_gap {c : Char} (hc : isGap c = true) (r : List Char) :
    tokens? (c :: r) = tokens? r := by
  rw [tokens?_cons, if_pos hc]

theorem tokens?_opening (r : List Char) :
    tokens? ('(' :: r) = (tokens? r).map (.opening :: ·) := tokens?_cons '(' r

theorem tokens?_closing (r : List Char) :
    tokens? (')' :: r) = (tokens? r).map (.closing :: ·) := tokens?_cons ')' r

theorem tokens?_comma (r : List Char) :
    tokens? (',' :: r) = (tokens? r).map (.comma :: ·) := tokens?_cons ',' r

theorem tokens?_quote {r w rest : List Char} (h : body? r = some (w, rest)) :
    tokens? ('\'' :: r) = (tokens? rest).map (.literal w :: ·) := by
  have hquote := tokens?_cons '\'' r
  rw [h] at hquote
  exact hquote

/-- The literal of a name is one token. -/
theorem tokens?_literal (name : String) {c : Char} (hc : c ≠ '\'') (rest : List Char) :
    tokens? (Predicate.literal name ++ c :: rest) =
      (tokens? (c :: rest)).map (.literal name.toList :: ·) := by
  have hcut : Predicate.literal name ++ c :: rest =
      '\'' :: (name.toList.flatMap Predicate.escape ++ '\'' :: c :: rest) := by
    simp [Predicate.literal]
  rw [hcut]
  exact tokens?_quote (body?_append name.toList hc rest)

/-- The tokens of a grantee written as a pair. -/
def pairTokens (g : Grantee) : List Token :=
  [.opening, .literal g.username.toList, .comma, .literal g.hostname.toList, .closing]

/-- A pair is read as its five tokens, whatever follows it. -/
theorem tokens?_pair (g : Grantee) (rest : List Char) :
    tokens? (Predicate.pair g ++ rest) = (tokens? rest).map (pairTokens g ++ ·) := by
  have hcut : Predicate.pair g ++ rest = '(' :: (Predicate.literal g.username ++
      ',' :: ' ' :: (Predicate.literal g.hostname ++ ')' :: rest)) := by
    simp [Predicate.pair]
  rw [hcut, tokens?_opening, tokens?_literal _ (by decide), tokens?_comma,
    tokens?_gap (c := ' ') rfl, tokens?_literal _ (by decide), tokens?_closing]
  cases tokens? rest <;> rfl

/-! ### Along the list -/

/-- The tokens of a list of grantees. -/
def listTokens : List Grantee → List Token
  | [] => []
  | [g] => pairTokens g
  | g :: h :: gs => pairTokens g ++ .comma :: listTokens (h :: gs)

theorem tokens?_intercalate (gs : List Grantee) :
    tokens? (", ".toList.intercalate (gs.map Predicate.pair)) = some (listTokens gs) := by
  induction gs with
  | nil => rw [List.map_nil, List.intercalate_nil, tokens?_nil, listTokens]
  | cons g gs ih =>
    cases gs with
    | nil =>
      rw [List.map_singleton, List.intercalate_singleton, ← List.append_nil (Predicate.pair g),
        tokens?_pair, tokens?_nil]
      simp [listTokens]
    | cons h gs =>
      have hcut : ", ".toList.intercalate ((g :: h :: gs).map Predicate.pair) =
          Predicate.pair g ++
            ',' :: ' ' :: ", ".toList.intercalate ((h :: gs).map Predicate.pair) := by
        simp [List.intercalate_cons_cons]
      rw [hcut, tokens?_pair, tokens?_comma, tokens?_gap (c := ' ') rfl, ih]
      rfl

/-- The two names of a grantee. -/
def names (g : Grantee) : String × String := (g.username, g.hostname)

theorem pairsOf?_listTokens (g : Grantee) (gs : List Grantee) :
    pairsOf? (listTokens (g :: gs)) = some ((g :: gs).map names) := by
  induction gs generalizing g with
  | nil => simp [listTokens, pairTokens, pairsOf?, names]
  | cons h gs ih =>
    rw [listTokens, pairTokens]
    simp only [List.cons_append, List.nil_append]
    rw [pairsOf?, ih h]
    simp [names]

/-- **What is written is read**: the text of a predicate lists the grantees it asks for. -/
theorem pairs?_render (p : Predicate) : pairs? p.render = some (p.grantees.map names) := by
  rw [pairs?, Predicate.render, String.toList_ofList, tokens?_intercalate]
  cases hp : p.grantees with
  | nil => rfl
  | cons g gs =>
    rw [← pairsOf?_listTokens]
    cases gs <;> rfl

end Sql

namespace Predicate

/-- Two predicates with one text ask for the same grantees. -/
theorem render_injective : Function.Injective render := by
  intro p q h
  have hread : p.grantees.map Sql.names = q.grantees.map Sql.names := by
    rw [← Option.some.injEq, ← Sql.pairs?_render, ← Sql.pairs?_render, h]
  have hnames : Function.Injective Sql.names := by
    rintro ⟨u, h⟩ ⟨u', h'⟩ he
    obtain ⟨rfl, rfl⟩ := Prod.mk.inj he
    rfl
  cases p
  cases q
  exact congrArg Predicate.mk (List.map_injective_iff.2 hnames hread)

/-- The literal of a name, seen from behind its opening quote. -/
theorem exists_literal_eq (name : String) {c : Char} (hc : c ≠ '\'') (rest : List Char) :
    ∃ body, literal name = '\'' :: body ∧
      Sql.body? (body ++ c :: rest) = some (name.toList, c :: rest) := by
  refine ⟨name.toList.flatMap escape ++ ['\''], by simp [literal], ?_⟩
  rw [List.append_assoc, List.singleton_append]
  exact Sql.body?_append name.toList hc rest

theorem mem_grantees_ofUsers {users : List User} {g : Grantee} :
    g ∈ (ofUsers users).grantees ↔ ∃ u ∈ users, u.grantee = g := by
  rw [ofUsers, mem_firsts, List.mem_map]

/-- The grantees asked for are those of the users. -/
theorem contains_ofUsers_iff {users : List User} {g : Grantee} :
    (ofUsers users).contains g = true ↔ ∃ u ∈ users, u.grantee = g := by
  rw [contains, List.contains_iff_mem, mem_grantees_ofUsers]

/-- **A predicate loses nothing and cannot be broken out of.** Its grantees are those of the users,
in the order in which they are first configured and each once; its text lists just their names, to
its end; no other predicate has that text; and whatever a name holds, its literal ends at the
quote that was written last. -/
theorem ofUsers_read_back (users : List User) :
    (∀ g, g ∈ (ofUsers users).grantees ↔ ∃ u ∈ users, u.grantee = g) ∧
      ((ofUsers users).grantees.Pairwise fun g h =>
        (users.map User.grantee).idxOf g < (users.map User.grantee).idxOf h) ∧
      (∀ g, (ofUsers users).contains g = true ↔ ∃ u ∈ users, u.grantee = g) ∧
      Sql.pairs? (ofUsers users).render =
        some ((ofUsers users).grantees.map fun g => (g.username, g.hostname)) ∧
      Function.Injective render ∧
      ∀ (name : String) (c : Char) (rest : List Char), c ≠ '\'' →
        ∃ body, literal name = '\'' :: body ∧
          Sql.body? (body ++ c :: rest) = some (name.toList, c :: rest) := by
  refine ⟨fun g => mem_grantees_ofUsers, pairwise_idxOf_firsts _, fun g => contains_ofUsers_iff,
    Sql.pairs?_render _, render_injective, ?_⟩
  intro name c rest hc
  exact exists_literal_eq name hc rest

/-- Names that try to end their literals, one of them configured twice. -/
theorem ofUsers_read_back_quotes :
    ',' ≠ '\'' ∧
      (∃ body, literal "\\'" = '\'' :: body ∧
        Sql.body? (body ++ [',']) = some (['\\', '\''], [','])) ∧
      Sql.pairs? (ofUsers [⟨⟨"o'brien\\", "%"⟩, ""⟩, ⟨⟨"'), ('root", "\\'"⟩, ""⟩,
          ⟨⟨"o'brien\\", "%"⟩, "again"⟩]).render =
        some [("o'brien\\", "%"), ("'), ('root", "\\'")] := by
  obtain ⟨-, -, -, hpairs, -, hbody⟩ := ofUsers_read_back [⟨⟨"o'brien\\", "%"⟩, ""⟩,
    ⟨⟨"'), ('root", "\\'"⟩, ""⟩, ⟨⟨"o'brien\\", "%"⟩, "again"⟩]
  refine ⟨by decide, ?_, hpairs.trans ?_⟩
  · exact hbody "\\'" ',' [] (by decide)
  · decide

end Predicate

end GrantCatalog
