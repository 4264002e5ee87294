import Mathlib.Data.List.Sort
import Mathlib.Data.String.Basic
import Std.Data.ExtTreeMap

/-!
# The order of the entries of a map

A map with texts for keys lists its entries in the order of the keys. Texts are compared character
by character, but the order is the one in which their **bytes** in UTF-8 stand
(`GrantCatalog.Text.compare_eq_lt_iff`). That is what UTF-8 is made for: a code point is spread over
a leading byte and continuation bytes of six bits each, most significant bits first
(`GrantCatalog.Text.spread`), and the leading byte of a longer encoding is the greater one
(`GrantCatalog.Text.lead_lt_lead`).

So the entries of a map can be had from any enumeration of them, by sorting the keys by their bytes
(`GrantCatalog.inByteOrder_eq_toList`).
-/

namespace GrantCatalog

namespace Text

/-! ### The bytes of a character -/

/-- The number of continuation bytes that a code point takes. -/
def continuations (v : Nat) : Nat :=
  if v < 0x80 then 0 else if v < 0x800 then 1 else if v < 0x10000 then 2 else 3

/-- What a leading byte says about the number of continuation bytes. -/
def mark : Nat → Nat
  | 0 => 0
  | 1 => 0xC0
  | 2 => 0xE0
  | _ => 0xF0

/-- A number after a mark, with its last digits in base 64 in continuation bytes. -/
def spread (m : Nat) : Nat → Nat → List UInt8
  | 0, v => [.ofNat (m + v)]
  | k + 1, v => spread m k (v / 64) ++ [.ofNat (0x80 + v % 64)]

/-- The leading byte of a code point. -/
def lead (v : Nat) : Nat := mark (continuations v) + v / 64 ^ continuations v

theorem toNat_lt (c : Char) : c.toNat < 0x110000 := by
  rcases c.valid with h | ⟨-, h⟩
  · exact Nat.lt_trans h (by decide)
  · exact h

/-- The code point of a character is spread over its bytes. -/
theorem utf8EncodeChar_eq (c : Char) : String.utf8EncodeChar c =
    spread (mark (continuations c.toNat)) (continuations c.toNat) c.toNat := by
  have hval : c.val.toNat = c.toNat := rfl
  have hlt := toNat_lt c
  rw [String.utf8EncodeChar, hval, continuations]
  generalize c.toNat = v at hlt
  -- A remainder is taken of each leading byte, too, but there it changes nothing.
  have hpair (h : v < 0x800) : v / 64 % 32 = v / 64 := by omega
  have htriple (h : v < 0x10000) : v / 4096 % 16 = v / 4096 := by omega
  have hquad : v / 262144 % 8 = v / 262144 := by omega
  by_cases hascii : v < 0x80
  · rw [if_pos (by omega), if_pos hascii]
    simp [spread, mark]
  by_cases hshort : v < 0x800
  · rw [if_neg (by omega), if_pos (by omega), if_neg hascii, if_pos hshort, hpair hshort]
    simp [spread, mark, Nat.add_comm]
  by_cases hbasic : v < 0x10000
  · rw [if_neg (by omega), if_neg (by omega), if_pos (by omega), if_neg hascii, if_neg hshort,
      if_pos hbasic, htriple hbasic]
    simp [spread, mark, Nat.add_comm, Nat.div_div_eq_div_mul]
  · rw [if_neg (by omega), if_neg (by omega), if_neg (by omega), if_neg hascii, if_neg hshort,
      if_neg hbasic, hquad]
    simp [spread, mark, Nat.add_comm, Nat.div_div_eq_div_mul]

theorem exists_spread_eq (m k v : Nat) :
    ∃ rest, spread m k v = .ofNat (m + v / 64 ^ k) :: rest := by
  induction k generalizing v with
  | zero => exact ⟨[], by simp [spread]⟩
  | succ k ih =>
    obtain ⟨rest, hrest⟩ := ih (v / 64)
    refine ⟨rest ++ [.ofNat (0x80 + v % 64)], ?_⟩
    rw [spread, hrest, Nat.div_div_eq_div_mul, Nat.pow_succ', List.cons_append]

/-- Bytes that stand for numbers in range are in the order of the numbers. -/
theorem ofNat_lt_ofNat {v w : Nat} (hw : w < 256) (h : v < w) : UInt8.ofNat v < UInt8.ofNat w := by
  rw [UInt8.lt_iff_toNat_lt, UInt8.toNat_ofNat', UInt8.toNat_ofNat']
  omega

theorem append_lt_append_of_spread {m k v w : Nat} (hw : m + w / 64 ^ k < 256) (h : v < w)
    (x y : List UInt8) : spread m k v ++ x < spread m k w ++ y := by
  induction k generalizing v w x y with
  | zero =>
    have hlead : UInt8.ofNat (m + v) < UInt8.ofNat (m + w) := by
      refine ofNat_lt_ofNat ?_ (Nat.add_lt_add_left h m)
      simpa using hw
    exact List.cons_lt_cons_iff.mpr (.inl hlead)
  | succ k ih =>
    rw [Nat.pow_succ', ← Nat.div_div_eq_div_mul] at hw
    rw [spread, spread, List.append_assoc, List.append_assoc]
    rcases Nat.lt_or_ge (v / 64) (w / 64) with hdiv | hdiv
    · exact ih hw hdiv _ _
    · -- All digits but the last are the same.
      have heq : v / 64 = w / 64 := by omega
      have hlast : UInt8.ofNat (0x80 + v % 64) < UInt8.ofNat (0x80 + w % 64) :=
        ofNat_lt_ofNat (by omega) (by omega)
      rw [heq]
      exact List.append_left_lt (List.cons_lt_cons_iff.mpr (.inl hlast))

/-- The first byte of a character is the leading byte of its code point. -/
theorem exists_utf8EncodeChar_eq (c : Char) :
    ∃ rest, String.utf8EncodeChar c = .ofNat (lead c.toNat) :: rest := by
  rw [utf8EncodeChar_eq]
  exact exists_spread_eq _ _ _

/-- A code point with more continuation bytes has a greater leading byte. -/
theorem lead_lt_lead {v w : Nat} (h : continuations v < continuations w) : lead v < lead w := by
  have hmark : lead v < mark (continuations w) := by
    simp only [lead, continuations] at h ⊢
    split_ifs at h ⊢ <;> simp only [mark, Nat.reducePow] <;> omega
  exact Nat.lt_of_lt_of_le hmark (Nat.le_add_right _ _)

theorem continuations_mono {v w : Nat} (h : v ≤ w) : continuations v ≤ continuations w := by
  simp only [continuations]
  split_ifs <;> omega

theorem lead_lt {v : Nat} (h : v < 0x110000) : lead v < 256 := by
  simp only [lead, continuations]
  split_ifs <;> simp only [mark, Nat.reducePow] <;> omega

/-- **The bytes of a character come before those of a greater one**, whatever follows. -/
theorem utf8EncodeChar_append_lt {c d : Char} (h : c < d) (x y : List UInt8) :
    String.utf8EncodeChar c ++ x < String.utf8EncodeChar d ++ y := by
  have hnat : c.toNat < d.toNat := h
  have hbyte : lead d.toNat < 256 := lead_lt (toNat_lt d)
  rcases Nat.lt_or_ge (continuations c.toNat) (continuations d.toNat) with hlt | hge
  · obtain ⟨restc, hc⟩ := exists_utf8EncodeChar_eq c
    obtain ⟨restd, hd⟩ := exists_utf8EncodeChar_eq d
    rw [hc, hd]
    exact List.cons_lt_cons_iff.mpr (.inl (ofNat_lt_ofNat hbyte (lead_lt_lead hlt)))
  · have heq := Nat.le_antisymm (continuations_mono (Nat.le_of_lt hnat)) hge
    rw [lead, ← heq] at hbyte
    rw [utf8EncodeChar_eq, utf8EncodeChar_eq, ← heq]
    exact append_lt_append_of_spread hbyte hnat x y

/-! ### The bytes of a text -/

/-- The bytes of a text in UTF-8. -/
def bytes (s : String) : List UInt8 := s.toByteArray.data.toList

theorem bytes_eq (s : String) : bytes s = s.toList.flatMap String.utf8EncodeChar := by
  have hs : s.toByteArray = (s.toList.flatMap String.utf8EncodeChar).toByteArray := by
    conv_lhs => rw [← String.ofList_toList (s := s), String.toByteArray_ofList]
    rfl
  rw [bytes, hs, List.data_toByteArray]

/-- Lists of characters that are in order have their bytes in order. -/
theorem flatMap_lt_flatMap {cs ds : List Char} (h : cs < ds) :
    cs.flatMap String.utf8EncodeChar < ds.flatMap String.utf8EncodeChar := by
  induction ds generalizing cs with
  | nil => exact absurd h (List.not_lt_nil cs)
  | cons d ds ih =>
    rw [List.flatMap_cons]
    cases cs with
    | nil =>
      obtain ⟨rest, hrest⟩ := exists_utf8EncodeChar_eq d
      rw [hrest]
      exact List.nil_lt_cons _ _
    | cons c cs =>
      rw [List.flatMap_cons]
      rcases List.cons_lt_cons_iff.mp h with hlt | ⟨rfl, hlt⟩
      · exact utf8EncodeChar_append_lt hlt _ _
      · exact List.append_left_lt (ih hlt)

/-- **Texts are in the order of their bytes.** -/
theorem lt_iff_bytes_lt {s t : String} : s < t ↔ bytes s < bytes t := by
  have hlt {s t : String} (h : s < t) : bytes s < bytes t := by
    rw [bytes_eq, bytes_eq]
    exact flatMap_lt_flatMap (String.lt_iff_toList_lt.mp h)
  refine ⟨hlt, fun h => ?_⟩
  rcases lt_trichotomy s t with hst | rfl | hts
  · exact hst
  · exact absurd h (List.lt_irrefl _)
  · exact absurd h (List.lt_asymm (hlt hts))

theorem compare_eq_lt_iff {s t : String} : compare s t = .lt ↔ bytes s < bytes t := by
  rw [← lt_iff_bytes_lt]
  exact compareOfLessAndEq_eq_lt

end Text

/-! ### Entries -/

section Entries

variable {β : Type}

/-- The order in which a map lists its entries. -/
def EntryLt (a b : String × β) : Prop := compare a.1 b.1 = .lt

theorem not_compare_lt_self (k : String) : ¬compare k k = .lt := by
  rw [Std.compare_self]
  exact fun h => by cases h

instance : Std.Irrefl (EntryLt (β := β)) := ⟨fun a => not_compare_lt_self a.1⟩

instance : Std.Antisymm (EntryLt (β := β)) where
  antisymm a b hab hba := by
    have hgt : compare a.1 b.1 = .gt := Std.OrientedCmp.gt_of_lt hba
    rw [EntryLt, hgt] at hab
    cases hab

variable {m : Std.ExtTreeMap String β} {k : String} {v : β}

/-- **A map lists its entries in order**, and a list of them in order is that list. -/
theorem toList_eq_of_pairwise {l : List (String × β)} (hl : l.Pairwise EntryLt)
    (hmem : ∀ k v, (k, v) ∈ l ↔ m[k]? = some v) : m.toList = l := by
  refine List.Pairwise.eq_of_mem_iff (r := EntryLt) Std.ExtTreeMap.ordered_keys_toList hl ?_
  rintro ⟨k, v⟩
  rw [Std.ExtTreeMap.mem_toList_iff_getElem?_eq_some, hmem]

theorem mem_of_mem_toList (h : (k, v) ∈ m.toList) : k ∈ m := by
  rw [Std.ExtTreeMap.mem_iff_isSome_getElem?,
    Std.ExtTreeMap.mem_toList_iff_getElem?_eq_some.mp h]
  rfl

/-- A map with an entry before all of its others lists it first. -/
theorem toList_insert_of_lt (v : β) (h : ∀ k' ∈ m, compare k k' = .lt) :
    (m.insert k v).toList = (k, v) :: m.toList := by
  have hk : k ∉ m := fun hk => not_compare_lt_self k (h k hk)
  refine toList_eq_of_pairwise (List.pairwise_cons.mpr ⟨fun e he => ?_, ?_⟩) fun k' v' => ?_
  · exact h e.1 (mem_of_mem_toList he)
  · exact Std.ExtTreeMap.ordered_keys_toList
  · rw [List.mem_cons, Std.ExtTreeMap.mem_toList_iff_getElem?_eq_some,
      Std.ExtTreeMap.getElem?_insert, Prod.mk.injEq]
    by_cases hkk : k = k'
    · subst hkk
      have hnone : m[k]? = none := Std.ExtTreeMap.getElem?_eq_none hk
      simp [hnone, eq_comm]
    · simp [hkk, Ne.symm hkk]

/-- A new value for the last key is listed in the place of the old one. -/
theorem toList_insert_last {entries : List (String × β)} (h : m.toList = entries ++ [(k, v)])
    (w : β) : (m.insert k w).toList = entries ++ [(k, w)] := by
  have hordered : (entries ++ [(k, v)]).Pairwise EntryLt :=
    h ▸ Std.ExtTreeMap.ordered_keys_toList
  obtain ⟨hentries, -, hlast⟩ := List.pairwise_append.mp hordered
  have hlast : ∀ e ∈ entries, EntryLt e (k, v) := fun e he => hlast e he _ List.mem_cons_self
  refine toList_eq_of_pairwise (List.pairwise_append.mpr ⟨hentries, List.pairwise_singleton _ _,
    fun e he e' he' => ?_⟩) fun k' v' => ?_
  · obtain rfl := List.mem_singleton.mp he'
    exact hlast e he
  · rw [Std.ExtTreeMap.getElem?_insert, List.mem_append, List.mem_singleton, Prod.mk.injEq]
    by_cases hkk : k = k'
    · subst hkk
      have hno : (k, v') ∉ entries := fun hmem => not_compare_lt_self k (hlast _ hmem)
      simp [hno, eq_comm]
    · have hmem : m[k']? = some v' ↔ (k', v') ∈ entries := by
        rw [← Std.ExtTreeMap.mem_toList_iff_getElem?_eq_some, h]
        simp [Ne.symm hkk]
      simp [hkk, Ne.symm hkk, hmem]

/-- What is entered for a key, if no key stands twice in the list. -/
theorem getElem?_ofList_iff {α β : Type} [Ord α] [Std.TransOrd α] [Std.LawfulEqOrd α]
    [DecidableEq α] {l : List (α × β)} (hl : (l.map Prod.fst).Nodup) {k : α} {v : β} :
    (Std.ExtTreeMap.ofList l)[k]? = some v ↔ (k, v) ∈ l := by
  have hdistinct : l.Pairwise fun e e' => ¬compare e.1 e'.1 = .eq :=
    (List.pairwise_map.mp hl).imp fun hne he => hne (Std.LawfulEqOrd.eq_of_compare he)
  have hget {v : β} (h : (k, v) ∈ l) : (Std.ExtTreeMap.ofList l)[k]? = some v :=
    Std.ExtTreeMap.getElem?_ofList_of_mem (Std.ReflCmp.compare_self) hdistinct h
  refine ⟨fun h => ?_, hget⟩
  have hk : k ∈ Std.ExtTreeMap.ofList l := by
    rw [Std.ExtTreeMap.mem_iff_isSome_getElem?, h]
    rfl
  rw [Std.ExtTreeMap.mem_ofList, List.contains_iff_mem, List.mem_map] at hk
  obtain ⟨⟨k', v'⟩, hmem, rfl⟩ := hk
  obtain rfl := Option.some.inj ((hget hmem).symm.trans h)
  exact hmem

/-- Keys that are all entered with one value have it, and no other key has any. -/
theorem getElem?_ofList_map_const {α β : Type} [Ord α] [Std.TransOrd α] [Std.LawfulEqOrd α]
    [DecidableEq α] (ks : List α) (v : β) (k : α) :
    (Std.ExtTreeMap.ofList (ks.map (·, v)))[k]? = if k ∈ ks then some v else none := by
  have fold (ks : List α) (m : Std.ExtTreeMap α β) :
      ((ks.map (·, v)).foldl (fun m e => m.insert e.1 e.2) m)[k]? =
        if k ∈ ks then some v else m[k]? := by
    induction ks generalizing m with
    | nil => rfl
    | cons k' ks ih =>
      rw [List.map_cons, List.foldl_cons, ih, Std.ExtTreeMap.getElem?_insert]
      by_cases hk : k ∈ ks
      · simp [hk]
      · by_cases hk' : k' = k
        · subst hk'
          simp
        · simp [hk, hk', Ne.symm hk']
  rw [Std.ExtTreeMap.ofList_eq_foldl, fold, Std.ExtTreeMap.getElem?_empty]

/-- Some entries in the order of the bytes of their keys. -/
def inByteOrder (entries : List (String × β)) : List (String × β) :=
  entries.mergeSort fun a b => Text.bytes a.1 ≤ Text.bytes b.1

theorem pairwise_inByteOrder (entries : List (String × β)) :
    (inByteOrder entries).Pairwise fun a b => Text.bytes a.1 ≤ Text.bytes b.1 := by
  refine (List.pairwise_mergeSort ?_ ?_ entries).imp of_decide_eq_true
  · intro a b c hab hbc
    exact decide_eq_true (List.le_trans (of_decide_eq_true hab) (of_decide_eq_true hbc))
  · intro a b
    simp only [Bool.or_eq_true, decide_eq_true_eq]
    exact List.le_total _ _

/-- **A map lists its entries in the order of the bytes of their keys**, however they are
enumerated. -/
theorem inByteOrder_eq_toList {entries : List (String × β)} (h : entries.Perm m.toList) :
    inByteOrder entries = m.toList := by
  have hsorted : (inByteOrder entries).Pairwise fun a b => ¬b.1 < a.1 := by
    refine (pairwise_inByteOrder entries).imp fun hle => ?_
    rw [Text.lt_iff_bytes_lt]
    exact List.not_lt.mpr hle
  have hlisted : m.toList.Pairwise fun a b => ¬b.1 < a.1 := by
    refine (Std.ExtTreeMap.ordered_keys_toList (t := m)).imp fun hlt => ?_
    rw [Text.lt_iff_bytes_lt]
    exact List.lt_asymm (Text.compare_eq_lt_iff.mp hlt)
  have hperm : (inByteOrder entries).Perm m.toList := (List.mergeSort_perm _ _).trans h
  refine hperm.eq_of_pairwise ?_ hsorted hlisted
  rintro ⟨k, v⟩ ⟨k', v'⟩ ha hb hba hab
  -- Neither key comes before the other, so they are one key, with one value.
  obtain rfl : k = k' := le_antisymm (not_lt.mp hba) (not_lt.mp hab)
  rw [hperm.mem_iff, Std.ExtTreeMap.mem_toList_iff_getElem?_eq_some] at ha
  rw [Std.ExtTreeMap.mem_toList_iff_getElem?_eq_some, ha] at hb
  exact congrArg _ (Option.some.inj hb)

/-- A map is put together by entering its entries in any order. -/
theorem ofList_eq_of_perm {entries : List (String × β)} (h : entries.Perm m.toList) :
    Std.ExtTreeMap.ofList entries = m := by
  have hnodup : (entries.map Prod.fst).Nodup := by
    refine (h.map Prod.fst).nodup_iff.mpr (List.pairwise_map.mpr ?_)
    refine (Std.ExtTreeMap.ordered_keys_toList (t := m)).imp fun hlt he => ?_
    rw [he] at hlt
    exact not_compare_lt_self _ hlt
  refine Std.ExtTreeMap.ext_getElem? fun k => Option.ext fun v => ?_
  rw [getElem?_ofList_iff hnodup, h.mem_iff, Std.ExtTreeMap.mem_toList_iff_getElem?_eq_some]

end Entries

end GrantCatalog
