import Mathlib.Data.List.Forall2

/-!
# Results that may be errors

How a computation that stops at its first error comes to a value: each of its steps does. The
statements take a successful result apart into the successes it is made of, so that no proof after
this one has to look into the monad.

* `Except.bind_eq_ok_iff`, `Except.map_eq_ok_iff`, `Except.mapError_eq_ok_iff` – one step;
* `List.mapM_eq_ok_iff` – a step for each element of a list; `List.mem_of_mapM_eq_ok` and
  `List.exists_mapM_eq_ok_iff` are what is mostly needed of it.

An error is taken apart in the same way, into the successes in front of it and the step that
fails: `Except.bind_eq_error_iff`, `Except.mapError_eq_error_iff` and, for a list,
`List.mapM_eq_error_iff`.
-/

namespace Except

variable {ε ε' α β : Type}

theorem bind_eq_ok_iff {x : Except ε α} {f : α → Except ε β} {b : β} :
    x >>= f = .ok b ↔ ∃ a, x = .ok a ∧ f a = .ok b := by
  cases x with
  | error e =>
    constructor
    · intro h
      cases h
    · rintro ⟨a, h, -⟩
      cases h
  | ok a =>
    constructor
    · intro h
      exact ⟨a, rfl, h⟩
    · rintro ⟨a, h, hf⟩
      cases h
      exact hf

theorem map_eq_ok_iff {x : Except ε α} {f : α → β} {b : β} :
    x.map f = .ok b ↔ ∃ a, x = .ok a ∧ f a = b := by
  cases x <;> simp [Except.map]

theorem mapError_eq_ok_iff {x : Except ε α} {f : ε → ε'} {a : α} :
    x.mapError f = .ok a ↔ x = .ok a := by
  cases x <;> simp [Except.mapError]

theorem bind_eq_error_iff {x : Except ε α} {f : α → Except ε β} {e : ε} :
    x >>= f = .error e ↔ x = .error e ∨ ∃ a, x = .ok a ∧ f a = .error e := by
  cases x with
  | error d =>
    constructor
    · intro h
      exact .inl (congrArg Except.error (Except.error.inj h))
    · rintro (h | ⟨a, h, -⟩)
      · exact congrArg Except.error (Except.error.inj h)
      · cases h
  | ok a =>
    constructor
    · intro h
      exact .inr ⟨a, rfl, h⟩
    · rintro (h | ⟨a, h, hf⟩)
      · cases h
      · cases h
        exact hf

theorem map_eq_error_iff {x : Except ε α} {f : α → β} {e : ε} :
    x.map f = .error e ↔ x = .error e := by
  cases x <;> simp [Except.map]

theorem mapError_eq_error_iff {x : Except ε α} {f : ε → ε'} {e : ε'} :
    x.mapError f = .error e ↔ ∃ d, x = .error d ∧ f d = e := by
  cases x <;> simp [Except.mapError]

theorem pure_eq_ok_iff {a b : α} : (pure a : Except ε α) = .ok b ↔ b = a :=
  ⟨fun h => (Except.ok.inj h).symm, fun h => h ▸ rfl⟩

/-- A step that cannot fail any more is a change of the value, and makes no difference to errors. -/
theorem bind_pure_eq_ok_iff {x : Except ε α} {f : α → β} {b : β} :
    (x >>= fun a => pure (f a)) = .ok b ↔ ∃ a, x = .ok a ∧ b = f a := by
  rw [bind_eq_ok_iff]
  simp only [pure_eq_ok_iff]

theorem bind_pure_eq_error_iff {x : Except ε α} {f : α → β} {e : ε} :
    (x >>= fun a => pure (f a)) = .error e ↔ x = .error e := by
  rw [bind_eq_error_iff]
  refine or_iff_left ?_
  rintro ⟨a, -, h⟩
  cases h

/-- What does not succeed is an error. -/
theorem exists_eq_error_iff {x : Except ε α} : (∃ e, x = .error e) ↔ ¬∃ a, x = .ok a := by
  cases x <;> simp

end Except

namespace List

variable {ε α β : Type} {f : α → Except ε β}

/-- **A run over a list succeeds just if it does at each element**, and its result lists the
results in order. -/
theorem mapM_eq_ok_iff {as : List α} {bs : List β} :
    as.mapM f = .ok bs ↔ Forall₂ (fun a b => f a = .ok b) as bs := by
  induction as generalizing bs with
  | nil =>
    rw [mapM_nil, forall₂_nil_left_iff]
    exact Except.pure_eq_ok_iff
  | cons a as ih =>
    rw [mapM_cons, Except.bind_eq_ok_iff, forall₂_cons_left_iff]
    constructor
    · rintro ⟨b, hb, h⟩
      obtain ⟨bs', hbs, h⟩ := Except.bind_eq_ok_iff.mp h
      exact ⟨b, bs', hb, ih.mp hbs, (Except.ok.inj h).symm⟩
    · rintro ⟨b, bs', hb, hbs, rfl⟩
      exact ⟨b, hb, Except.bind_eq_ok_iff.mpr ⟨bs', ih.mpr hbs, rfl⟩⟩

/-- Runs over two lists come to the same if they do element by element. -/
theorem mapM_congr_of_forall₂ {γ : Type} {g : γ → Except ε β} {as : List α} {cs : List γ}
    (h : Forall₂ (fun a c => f a = g c) as cs) : as.mapM f = cs.mapM g := by
  induction h with
  | nil => rfl
  | cons hac _ ih => rw [mapM_cons, mapM_cons, hac, ih]

/-- Two lists that are related to a third one element by element. -/
theorem Forall₂.comp {γ : Type} {R : α → β → Prop} {S : β → γ → Prop} {as : List α} {bs : List β}
    {cs : List γ} (h : Forall₂ R as bs) (h' : Forall₂ S bs cs) :
    Forall₂ (fun a c => ∃ b, R a b ∧ S b c) as cs := by
  induction h generalizing cs with
  | nil =>
    cases h'
    exact .nil
  | cons hab _ ih =>
    cases h' with
    | cons hbc h' => exact .cons ⟨_, hab, hbc⟩ (ih h')

theorem mem_of_mapM_eq_ok {as : List α} {bs : List β} (h : as.mapM f = .ok bs) {b : β} :
    b ∈ bs ↔ ∃ a ∈ as, f a = .ok b := by
  rw [mapM_eq_ok_iff] at h
  induction h with
  | nil => simp
  | @cons a b' as bs hab _ ih =>
    rw [mem_cons, ih]
    constructor
    · rintro (rfl | ⟨a', ha', hb⟩)
      · exact ⟨a, mem_cons_self, hab⟩
      · exact ⟨a', mem_cons_of_mem _ ha', hb⟩
    · rintro ⟨a', ha', hb⟩
      rcases mem_cons.mp ha' with rfl | ha'
      · exact .inl (Except.ok.inj (hb.symm.trans hab))
      · exact .inr ⟨a', ha', hb⟩

theorem exists_mapM_eq_ok_iff {as : List α} :
    (∃ bs, as.mapM f = .ok bs) ↔ ∀ a ∈ as, ∃ b, f a = .ok b := by
  induction as with
  | nil => exact ⟨fun _ _ h => absurd h not_mem_nil, fun _ => ⟨[], rfl⟩⟩
  | cons a as ih =>
    rw [forall_mem_cons, ← ih]
    constructor
    · rintro ⟨bs, h⟩
      obtain ⟨b, bs', hb, hbs, -⟩ := forall₂_cons_left_iff.mp (mapM_eq_ok_iff.mp h)
      exact ⟨⟨b, hb⟩, bs', mapM_eq_ok_iff.mpr hbs⟩
    · rintro ⟨⟨b, hb⟩, bs, hbs⟩
      exact ⟨b :: bs, mapM_eq_ok_iff.mpr (.cons hb (mapM_eq_ok_iff.mp hbs))⟩

/-! ### The first element of a kind

To fail at an element is to fail at the first one of a kind, with nothing but elements of another
kind before it. Such elements are found by going through the list.
-/

theorem not_exists_first_nil {q r : α → Prop} :
    ¬∃ before b after, ([] : List α) = before ++ b :: after ∧ (∀ c ∈ before, q c) ∧ r b := by
  rintro ⟨before, b, after, h, -⟩
  exact absurd h.symm (append_ne_nil_of_right_ne_nil before (cons_ne_nil b after))

/-- **The first element decides**, unless it is one of those that may stand before. -/
theorem exists_first_cons_iff {q r : α → Prop} {a : α} {as : List α} :
    (∃ before b after, a :: as = before ++ b :: after ∧ (∀ c ∈ before, q c) ∧ r b) ↔
      r a ∨ q a ∧ ∃ before b after, as = before ++ b :: after ∧ (∀ c ∈ before, q c) ∧ r b := by
  constructor
  · rintro ⟨before, b, after, h, hbefore, hb⟩
    cases before with
    | nil =>
      obtain ⟨rfl, -⟩ := cons.inj h
      exact .inl hb
    | cons c before =>
      obtain ⟨rfl, rfl⟩ := cons.inj h
      obtain ⟨ha, hbefore⟩ := forall_mem_cons.mp hbefore
      exact .inr ⟨ha, before, b, after, rfl, hbefore, hb⟩
  · rintro (ha | ⟨ha, before, b, after, rfl, hbefore, hb⟩)
    · exact ⟨[], a, as, rfl, forall_mem_nil _, ha⟩
    · exact ⟨a :: before, b, after, rfl, forall_mem_cons.mpr ⟨ha, hbefore⟩, hb⟩

/-- If not every element of a list has a property, then there is a first that does not. -/
theorem exists_first_of_not_forall {q : α → Prop} {l : List α} (h : ¬∀ a ∈ l, q a) :
    ∃ before a after, l = before ++ a :: after ∧ (∀ b ∈ before, q b) ∧ ¬q a := by
  induction l with
  | nil => exact absurd (forall_mem_nil q) h
  | cons a l ih =>
    rw [exists_first_cons_iff]
    by_cases ha : q a
    · exact .inr ⟨ha, ih fun hl => h (forall_mem_cons.mpr ⟨ha, hl⟩)⟩
    · exact .inl ha

/-- **A run over a list fails just as its first element does that fails.** -/
theorem mapM_eq_error_iff {as : List α} {e : ε} :
    as.mapM f = .error e ↔ ∃ before a after, as = before ++ a :: after ∧
      (∀ b ∈ before, ∃ c, f b = .ok c) ∧ f a = .error e := by
  induction as with
  | nil => exact iff_of_false (fun h => by cases h) not_exists_first_nil
  | cons a as ih =>
    rw [mapM_cons, Except.bind_eq_error_iff, exists_first_cons_iff, ← ih]
    simp only [Except.bind_pure_eq_error_iff, exists_and_right]

/-- A run over two lists fails as the first one does, or else as the second. -/
theorem mapM_append_eq_error_iff {as as' : List α} {e : ε} : (as ++ as').mapM f = .error e ↔
    as.mapM f = .error e ∨ (∃ bs, as.mapM f = .ok bs) ∧ as'.mapM f = .error e := by
  rw [mapM_append, Except.bind_eq_error_iff]
  simp only [Except.bind_pure_eq_error_iff, exists_and_right]

end List
