import GrantCatalog.Proofs.Grammar

/-!
# The reader follows the grammar

The reader goes from token to token with a stack of the containers that are open. All that it does
at a token is told once (`GrantCatalog.Json.Reading.Step`), and whatever is said of a run follows
from that.

* What forms a value is read as it, in whatever containers it stands
  (`GrantCatalog.Json.Reading.makesUp_of_forms`): an induction on how it is formed.
* Where a value is read, one is formed, and the reader goes on behind it
  (`GrantCatalog.Json.Reading.finds`): an induction on the number of tokens that are left. It says
  the same of items and of members at once, since each of the three contains the others.

So a text is read as what it denotes: `GrantCatalog.Json.read?_eq_some_iff`.
-/

namespace GrantCatalog.Json

namespace Reading

variable {ts : List Token} {t : Token} {p : Phrase} {stack : List Container} {v : Json}

/-- **All that the reader does at a token.** -/
inductive Step : Reading → Token → Reading → Prop where
  | leaf (stack : List Container) (j : Json) : Step ⟨stack, .value⟩ (.leaf j) ⟨stack, .follow j⟩
  | openArray (stack : List Container) :
      Step ⟨stack, .value⟩ (.mark .openArray) ⟨stack, .firstItem⟩
  | openObject (stack : List Container) :
      Step ⟨stack, .value⟩ (.mark .openObject) ⟨stack, .key []⟩
  | emptyArray (stack : List Container) :
      Step ⟨stack, .firstItem⟩ (.mark .closeArray) ⟨stack, .follow (.array [])⟩
  /-- The first item of an array is read like any other. -/
  | firstItem {stack : List Container} {t : Token} {r : Reading}
      (h : Step ⟨.array [] :: stack, .value⟩ t r) : Step ⟨stack, .firstItem⟩ t r
  | key (stack : List Container) (done : Members) (k : Option String) :
      Step ⟨stack, .key done⟩ (.leaf (.text k)) ⟨stack, .colon done k⟩
  | colon (stack : List Container) (done : Members) (k : Option String) :
      Step ⟨stack, .colon done k⟩ (.mark .colon) ⟨.object done k :: stack, .value⟩
  | emptyObject (stack : List Container) :
      Step ⟨stack, .key []⟩ (.mark .closeObject) ⟨stack, .follow (.object [])⟩
  | nextItem (stack : List Container) (done : List Json) (j : Json) :
      Step ⟨.array done :: stack, .follow j⟩ (.mark .comma) ⟨.array (j :: done) :: stack, .value⟩
  | closeArray (stack : List Container) (done : List Json) (j : Json) :
      Step ⟨.array done :: stack, .follow j⟩ (.mark .closeArray)
        ⟨stack, .follow (.array (j :: done).reverse)⟩
  | nextMember (stack : List Container) (done : Members) (k : Option String) (j : Json) :
      Step ⟨.object done k :: stack, .follow j⟩ (.mark .comma) ⟨stack, .key ((k, j) :: done)⟩
  | closeObject (stack : List Container) (done : Members) (k : Option String) (j : Json) :
      Step ⟨.object done k :: stack, .follow j⟩ (.mark .closeObject)
        ⟨stack, .follow (.object ((k, j) :: done).reverse)⟩

theorem step_of_begin? {stack : List Container} {r : Reading} (h : begin? stack t = some r) :
    Step ⟨stack, .value⟩ t r := by
  rcases t with m | j
  · cases m <;> cases h <;> constructor
  · cases h
    exact .leaf stack j

theorem step_of_step? {r r' : Reading} (h : r.step? t = some r') : Step r t r' := by
  obtain ⟨stack, expected⟩ := r
  cases expected with
  | value => exact step_of_begin? h
  | firstItem =>
    -- Everything but the end of the array begins its first item.
    rcases t with m | j
    · cases m with
      | closeArray =>
        cases h
        exact .emptyArray stack
      | _ => exact .firstItem (step_of_begin? h)
    · exact .firstItem (step_of_begin? h)
  | key done =>
    rcases t with m | j
    · cases m with
      | closeObject => cases done <;> cases h; constructor
      | _ => cases h
    · cases j <;> cases h; constructor
  | colon done k =>
    rcases t with m | j
    · cases m <;> cases h; constructor
    · cases h
  | follow j =>
    rcases stack with _ | ⟨done | ⟨done, k⟩, stack⟩
    · cases h
    · rcases t with m | i
      · cases m <;> cases h <;> constructor
      · cases h
    · rcases t with m | i
      · cases m <;> cases h <;> constructor
      · cases h

theorem step?_eq_some_iff {r r' : Reading} : r.step? t = some r' ↔ Step r t r' := by
  refine ⟨step_of_step?, fun h => ?_⟩
  induction h with
  | @firstItem stack t r h ih =>
    cases h <;> rfl
  | _ => rfl

theorem run?_of_step {r r' : Reading} {back : List Token} (h : Step r t r')
    (hv : run? r' back = some v) : run? r (t :: back) = some v := by
  rw [run?, step?_eq_some_iff.mpr h]
  exact hv

/-- The reader is at the end of a value, or it goes on with a step. -/
theorem run?_iff {r : Reading} : run? r ts = some v ↔ (ts = [] ∧ r = ⟨[], .follow v⟩) ∨
    ∃ t back r', ts = t :: back ∧ Step r t r' ∧ run? r' back = some v := by
  constructor
  · intro h
    cases ts with
    | nil =>
      obtain ⟨stack, expected⟩ := r
      cases stack <;> cases expected <;> cases h
      exact .inl ⟨rfl, rfl⟩
    | cons t back =>
      rw [run?] at h
      split at h
      · cases h
      · next r' hstep => exact .inr ⟨t, back, r', rfl, step?_eq_some_iff.mp hstep, h⟩
  · rintro (⟨rfl, rfl⟩ | ⟨t, back, r', rfl, hstep, h⟩)
    · rfl
    · exact run?_of_step hstep h

/-! ### What forms a value is read as it -/

/-- **Some tokens are read as a phrase**, whatever the containers are in which they stand, and
whatever comes after them. -/
def MakesUp (ts : List Token) : Phrase → Prop
  | .value j => ∀ stack later v, run? ⟨stack, .follow j⟩ later = some v →
    run? ⟨stack, .value⟩ (ts ++ later) = some v
  | .items js => ∀ done stack later v,
    run? ⟨stack, .follow (.array (done.reverse ++ js))⟩ later = some v →
    run? ⟨.array done :: stack, .value⟩ (ts ++ .mark .closeArray :: later) = some v
  | .member (k, j) => ∀ done stack later v,
    run? ⟨.object done k :: stack, .follow j⟩ later = some v →
    run? ⟨stack, .key done⟩ (ts ++ later) = some v
  | .members ms => ∀ done stack later v,
    run? ⟨stack, .follow (.object (done.reverse ++ ms))⟩ later = some v →
    run? ⟨stack, .key done⟩ (ts ++ .mark .closeObject :: later) = some v

theorem run?_firstItem (h : run? ⟨.array [] :: stack, .value⟩ ts = some v) :
    run? ⟨stack, .firstItem⟩ ts = some v := by
  obtain ⟨-, hr⟩ | ⟨t, back, r, rfl, hstep, h⟩ := run?_iff.mp h
  · cases hr
  · exact run?_of_step (.firstItem hstep) h

theorem makesUp_of_forms (h : Forms ts p) : MakesUp ts p := by
  induction h with
  | leaf j => exact fun stack later v hv => run?_of_step (.leaf stack j) hv
  | emptyArray =>
    exact fun stack later v hv =>
      run?_of_step (.openArray stack) (run?_of_step (.emptyArray stack) hv)
  | array _ ih =>
    intro stack later v hv
    rw [List.cons_append, List.append_assoc]
    exact run?_of_step (.openArray stack) (run?_firstItem (ih [] stack later v hv))
  | emptyObject =>
    exact fun stack later v hv =>
      run?_of_step (.openObject stack) (run?_of_step (.emptyObject stack) hv)
  | object _ ih =>
    intro stack later v hv
    rw [List.cons_append, List.append_assoc]
    exact run?_of_step (.openObject stack) (ih [] stack later v hv)
  | @item ts j _ ih =>
    intro done stack later v hv
    rw [← List.reverse_cons] at hv
    exact ih _ _ v (run?_of_step (.closeArray stack done j) hv)
  | @items ts ts' j js _ _ ih ihs =>
    intro done stack later v hv
    rw [List.append_assoc]
    have hitems := ihs (j :: done) stack later v (by simpa using hv)
    exact ih _ _ v (run?_of_step (.nextItem stack done j) hitems)
  | @member ts k j _ ih =>
    intro done stack later v hv
    have hvalue := ih (.object done k :: stack) later v hv
    exact run?_of_step (.key stack done k) (run?_of_step (.colon stack done k) hvalue)
  | @last ts m _ ih =>
    intro done stack later v hv
    rw [← List.reverse_cons] at hv
    exact ih done stack _ v (run?_of_step (.closeObject stack done m.1 m.2) hv)
  | @members ts ts' m ms _ _ ih ihs =>
    intro done stack later v hv
    rw [List.append_assoc]
    have hmembers := ihs (m :: done) stack later v (by simpa using hv)
    exact ih done stack _ v (run?_of_step (.nextMember stack done m.1 m.2) hmembers)

/-! ### What is read as a value forms it -/

/-- **Where a value is read, one is formed**, and the reader goes on behind it. -/
def FindsValue (ts : List Token) : Prop := ∀ stack v, run? ⟨stack, .value⟩ ts = some v →
  ∃ front j back, ts = front ++ back ∧ Forms front (.value j) ∧
    run? ⟨stack, .follow j⟩ back = some v

/-- Where an item is read, items are formed up to the end of the array. -/
def FindsItems (ts : List Token) : Prop := ∀ done stack v,
  run? ⟨.array done :: stack, .value⟩ ts = some v →
  ∃ front js back, ts = front ++ .mark .closeArray :: back ∧ Forms front (.items js) ∧
    run? ⟨stack, .follow (.array (done.reverse ++ js))⟩ back = some v

/-- Where a key is read, members are formed up to the end of the object. The end of the object
itself is read there only if the object is empty. -/
def FindsMembers (ts : List Token) : Prop := ∀ done stack v,
  run? ⟨stack, .key done⟩ ts = some v →
  (done = [] ∧ ∃ back, ts = .mark .closeObject :: back ∧
    run? ⟨stack, .follow (.object [])⟩ back = some v) ∨
  ∃ front ms back, ts = front ++ .mark .closeObject :: back ∧ Forms front (.members ms) ∧
    run? ⟨stack, .follow (.object (done.reverse ++ ms))⟩ back = some v

theorem findsValue (hitems : ∀ ts', ts'.length < ts.length → FindsItems ts')
    (hmembers : ∀ ts', ts'.length < ts.length → FindsMembers ts') : FindsValue ts := by
  intro stack v h
  obtain ⟨-, hr⟩ | ⟨t, inner, r, rfl, hstep, hrest⟩ := run?_iff.mp h
  · cases hr
  cases hstep with
  | leaf _ j => exact ⟨[.leaf j], j, inner, rfl, .leaf j, hrest⟩
  | openArray =>
    -- The bracket is followed by another one or by the first item.
    obtain ⟨-, hr⟩ | ⟨t, back, r, rfl, hstep, hnext⟩ := run?_iff.mp hrest
    · cases hr
    cases hstep with
    | emptyArray => exact ⟨_, _, back, rfl, .emptyArray, hnext⟩
    | firstItem hstep =>
      obtain ⟨front, js, back, hts, hfront, hclose⟩ :=
        hitems _ (Nat.lt_succ_self _) [] stack v (run?_of_step hstep hnext)
      rw [hts]
      exact ⟨_, _, back, by simp, .array hfront, hclose⟩
  | openObject =>
    rcases hmembers _ (Nat.lt_succ_self _) [] stack v hrest with
      ⟨-, back, rfl, hclose⟩ | ⟨front, ms, back, rfl, hfront, hclose⟩
    · exact ⟨_, _, back, rfl, .emptyObject, hclose⟩
    · exact ⟨_, _, back, by simp, .object hfront, hclose⟩

theorem findsItems (hvalue : FindsValue ts)
    (hitems : ∀ ts', ts'.length < ts.length → FindsItems ts') : FindsItems ts := by
  intro done stack v h
  obtain ⟨front, j, follow, rfl, hfront, hfollow⟩ := hvalue _ v h
  -- The array is still open, so there is a comma or a bracket.
  obtain ⟨-, hr⟩ | ⟨t, rest, r, rfl, hstep, hrest⟩ := run?_iff.mp hfollow
  · cases hr
  cases hstep with
  | nextItem =>
    have hlt : rest.length < (front ++ .mark .comma :: rest).length := by
      rw [List.length_append, List.length_cons]
      omega
    obtain ⟨front', js, back, rfl, hfront', hclose⟩ := hitems rest hlt (j :: done) stack v hrest
    refine ⟨_, j :: js, back, by simp, .items hfront hfront', ?_⟩
    simpa using hclose
  | closeArray =>
    rw [List.reverse_cons] at hrest
    exact ⟨front, [j], rest, rfl, .item hfront, hrest⟩

theorem findsMembers (hvalue : ∀ ts', ts'.length < ts.length → FindsValue ts')
    (hmembers : ∀ ts', ts'.length < ts.length → FindsMembers ts') : FindsMembers ts := by
  intro done stack v h
  obtain ⟨-, hr⟩ | ⟨t, behind, r, rfl, hstep, hkey⟩ := run?_iff.mp h
  · cases hr
  cases hstep with
  | emptyObject => exact .inl ⟨rfl, behind, rfl, hkey⟩
  | key _ _ k =>
    obtain ⟨-, hr⟩ | ⟨t, inner, r, rfl, hstep, hcolon⟩ := run?_iff.mp hkey
    · cases hr
    cases hstep
    obtain ⟨front, j, follow, rfl, hfront, hfollow⟩ :=
      hvalue inner (Nat.lt_succ_of_lt (Nat.lt_succ_self _)) _ v hcolon
    have hmember := Forms.member (k := k) hfront
    obtain ⟨-, hr⟩ | ⟨t, rest, r, rfl, hstep, hrest⟩ := run?_iff.mp hfollow
    · cases hr
    cases hstep with
    | nextMember =>
      have hlt : rest.length <
          (.leaf (.text k) :: .mark .colon :: (front ++ .mark .comma :: rest)).length := by
        simp only [List.length_cons, List.length_append]
        omega
      -- There is a member already, so the object does not end here.
      obtain ⟨hnil, -⟩ | ⟨front', ms, back, rfl, hfront', hclose⟩ :=
        hmembers rest hlt ((k, j) :: done) stack v hrest
      · cases hnil
      · refine .inr ⟨_, (k, j) :: ms, back, by simp, .members hmember hfront', ?_⟩
        simpa using hclose
    | closeObject =>
      rw [List.reverse_cons] at hrest
      exact .inr ⟨_, [(k, j)], rest, rfl, .last hmember, hrest⟩

theorem finds (ts : List Token) : FindsValue ts ∧ FindsItems ts ∧ FindsMembers ts := by
  induction hn : ts.length using Nat.strongRecOn generalizing ts with
  | ind n ih =>
    subst hn
    -- Items begin with a value of the same tokens, so values come first.
    have hitems ts' (hlt : ts'.length < ts.length) : FindsItems ts' := (ih _ hlt ts' rfl).2.1
    have hmembers ts' (hlt : ts'.length < ts.length) : FindsMembers ts' := (ih _ hlt ts' rfl).2.2
    have hvalue : FindsValue ts := findsValue hitems hmembers
    exact ⟨hvalue, findsItems hvalue hitems,
      findsMembers (fun ts' hlt => (ih _ hlt ts' rfl).1) hmembers⟩

/-- **Tokens are read as the value that they form.** -/
theorem run?_eq_some_iff : run? ⟨[], .value⟩ ts = some v ↔ Forms ts (.value v) := by
  constructor
  · intro hv
    obtain ⟨front, j, back, rfl, hfront, hv⟩ := (finds ts).1 [] v hv
    obtain ⟨rfl, hr⟩ | ⟨t, rest, r, -, hstep, -⟩ := run?_iff.mp hv
    · cases hr
      rwa [List.append_nil]
    · -- No container is open, so nothing may follow.
      cases hstep
  · intro h
    have hv := makesUp_of_forms h [] [] v rfl
    rwa [List.append_nil] at hv

end Reading

/-- **A text is read as what it denotes**, and what denotes nothing is not read. -/
theorem read?_eq_some_iff {s : String} {j : Json} :
    read? s = some j ↔ Denotes s.toList (.value j) := by
  rw [read?, Option.bind_eq_bind, Option.bind_eq_some_iff, denotes_iff]
  simp only [tokens?_eq_some_iff, Reading.run?_eq_some_iff]

end GrantCatalog.Json
