/-!
# First occurrences

Several lists of this library may name a thing more than once and mean it once: the configured
users, the sources of a database, the keys of a record. What counts is the **first** occurrence,
and the order of the first occurrences is kept.

Three facts pin `GrantCatalog.firstsBy` down: it keeps the order
(`GrantCatalog.firstsBy_sublist`), it leaves out no key (`GrantCatalog.exists_mem_firstsBy`), and it
has no key twice (`GrantCatalog.pairwise_firstsBy`). Element by element, a first occurrence is one
with no earlier element of its key in front of it (`GrantCatalog.mem_firstsBy_iff`).
-/

namespace GrantCatalog

/-- The elements that no earlier one shares its key with. -/
def firstsBy {α β : Type} [DecidableEq β] (key : α → β) : List α → List α
  | [] => []
  | a :: r => a :: (firstsBy key r).filter fun b => key b ≠ key a

/-- The elements of a list, each where it occurs first. -/
def firsts {α : Type} [DecidableEq α] (l : List α) : List α := firstsBy id l

variable {α β : Type} [DecidableEq β] {f : α → β}

/-- First occurrences keep their order. -/
theorem firstsBy_sublist (l : List α) : (firstsBy f l).Sublist l := by
  induction l with
  | nil => exact .slnil
  | cons a r ih => exact (List.filter_sublist.trans ih).cons_cons a

/-- Every key is met among the first occurrences. -/
theorem exists_mem_firstsBy {a : α} {l : List α} (h : a ∈ l) :
    ∃ b ∈ firstsBy f l, f b = f a := by
  induction l with
  | nil => cases h
  | cons c r ih =>
    by_cases hc : f c = f a
    · exact ⟨c, List.mem_cons_self, hc⟩
    · rcases List.mem_cons.1 h with rfl | h
      · exact absurd rfl hc
      · obtain ⟨b, hb, hk⟩ := ih h
        refine ⟨b, List.mem_cons_of_mem _ (List.mem_filter.2 ⟨hb, ?_⟩), hk⟩
        simpa [hk] using fun h => hc h.symm

/-- No two first occurrences share their key. -/
theorem pairwise_firstsBy (l : List α) : (firstsBy f l).Pairwise (f · ≠ f ·) := by
  induction l with
  | nil => exact .nil
  | cons a r ih =>
    refine List.pairwise_cons.2 ⟨fun b hb => ?_, ih.filter _⟩
    exact fun h => of_decide_eq_true (List.mem_filter.1 hb).2 h.symm

/-- First occurrences have no repetitions. -/
theorem nodup_firstsBy (l : List α) : (firstsBy f l).Nodup :=
  (pairwise_firstsBy l).imp fun hne he => hne (congrArg f he)

/-- Only an empty list has no first occurrence. -/
@[simp] theorem firstsBy_eq_nil_iff {l : List α} : firstsBy f l = [] ↔ l = [] := by
  cases l with
  | nil => simp [firstsBy]
  | cons a r => simp [firstsBy]

/-- **A first occurrence is an element that nothing before it shares its key with.** -/
theorem mem_firstsBy_iff {b : α} {l : List α} :
    b ∈ firstsBy f l ↔ ∃ before after, l = before ++ b :: after ∧ ∀ a ∈ before, f a ≠ f b := by
  induction l with
  | nil => simp [firstsBy]
  | cons c r ih =>
    simp only [firstsBy, List.mem_cons, List.mem_filter, decide_eq_true_eq, ih]
    constructor
    · rintro (rfl | ⟨⟨before, after, rfl, hne⟩, hc⟩)
      · exact ⟨[], r, rfl, by simp⟩
      · exact ⟨c :: before, after, rfl, List.forall_mem_cons.2 ⟨fun h => hc h.symm, hne⟩⟩
    · rintro ⟨before, after, hl, hne⟩
      cases before with
      | nil => exact .inl (List.cons.inj hl).1.symm
      | cons d before =>
        obtain ⟨rfl, rfl⟩ := List.cons.inj hl
        obtain ⟨hd, hne⟩ := List.forall_mem_cons.1 hne
        exact .inr ⟨⟨before, after, rfl, hne⟩, fun h => hd h.symm⟩

/-- One more element is a first occurrence just if its key is new. -/
theorem firstsBy_concat (l : List α) (a : α) :
    firstsBy f (l ++ [a]) = firstsBy f l ++ if ∃ b ∈ l, f b = f a then [] else [a] := by
  induction l with
  | nil => simp [firstsBy]
  | cons c r ih =>
    rw [List.cons_append, firstsBy, ih, List.filter_append, firstsBy, List.cons_append]
    by_cases hr : ∃ b ∈ r, f b = f a
    · have hcr : ∃ b ∈ c :: r, f b = f a := by
        obtain ⟨b, hb, hfb⟩ := hr
        exact ⟨b, List.mem_cons_of_mem c hb, hfb⟩
      rw [if_pos hr, if_pos hcr, List.filter_nil]
    · by_cases hc : f c = f a
      · simp [hr, hc]
      · simp [hr, hc, Ne.symm hc]

/-- First occurrences of images are images of first occurrences. -/
theorem firstsBy_map {γ : Type} (g : γ → α) (l : List γ) :
    firstsBy f (l.map g) = (firstsBy (f ∘ g) l).map g := by
  induction l with
  | nil => rfl
  | cons c r ih =>
    rw [List.map_cons, firstsBy, firstsBy, ih, List.map_cons, List.filter_map]
    rfl

/-- The first occurrences are the elements of the list. -/
@[simp] theorem mem_firsts {α : Type} [DecidableEq α] {a : α} {l : List α} :
    a ∈ firsts l ↔ a ∈ l :=
  ⟨fun h => (firstsBy_sublist l).subset h, fun h => by
    obtain ⟨b, hb, rfl⟩ := exists_mem_firstsBy (f := id) h
    exact hb⟩

/-- The elements stand in the order of their first positions. -/
theorem pairwise_idxOf_firsts {α : Type} [DecidableEq α] (l : List α) :
    (firsts l).Pairwise (l.idxOf · < l.idxOf ·) := by
  induction l with
  | nil => exact .nil
  | cons a r ih =>
    have later {b : α} (hb : b ∈ (firsts r).filter fun b => id b ≠ id a) :
        (a :: r).idxOf b = r.idxOf b + 1 := by
      have hne : b ≠ a := of_decide_eq_true (List.mem_filter.1 hb).2
      rw [List.idxOf_cons, beq_eq_false_iff_ne.2 hne.symm, cond_false]
    refine List.pairwise_cons.2 ⟨fun b hb => ?_, (ih.filter _).imp_of_mem fun hx hy hxy => ?_⟩
    · rw [List.idxOf_cons_self, later hb]
      omega
    · rw [later hx, later hy]
      omega

end GrantCatalog
