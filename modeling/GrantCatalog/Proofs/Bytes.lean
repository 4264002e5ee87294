import GrantCatalog.Proofs.Order
import GrantCatalog.Proofs.Text

/-!
# Phrases in the bytes of a text

A phrase of ASCII characters may be looked for in the **bytes** of a text instead of its
characters. It stands in the same places (`GrantCatalog.Text.bytes_prefix_drop_iff`), because no
byte of another character is that of an ASCII character
(`GrantCatalog.Text.eq_of_mem_utf8EncodeChar`): the bytes of a character with several of them all
have their top bit set.

The place of a phrase is then a number of bytes. A text can be cut there
(`GrantCatalog.Text.fromByte?_append`), and so can a text with letters in the other case, since
they take as many bytes (`GrantCatalog.Text.utf8ByteSize_uppered`).
-/

namespace GrantCatalog.Text

/-! ### ASCII characters among bytes -/

theorem utf8EncodeChar_of_lt {c : Char} (h : c.toNat < 0x80) :
    String.utf8EncodeChar c = [.ofNat c.toNat] := by
  rw [utf8EncodeChar_eq, continuations, if_pos h]
  simp [spread, mark]

/-- What is spread over bytes is in the leading byte, or in a continuation byte. -/
theorem mem_spread {m k v : Nat} {b : UInt8} (h : b ∈ spread m k v) :
    b = .ofNat (m + v / 64 ^ k) ∨ ∃ r < 64, b = .ofNat (0x80 + r) := by
  induction k generalizing v with
  | zero =>
    rw [spread, List.mem_singleton] at h
    exact .inl (by simpa using h)
  | succ k ih =>
    rw [spread, List.mem_append, List.mem_singleton] at h
    rcases h with h | h
    · rw [Nat.pow_succ', ← Nat.div_div_eq_div_mul]
      exact ih h
    · exact .inr ⟨v % 64, Nat.mod_lt v (by decide), h⟩

/-- The bytes of a character that is not in ASCII all have their top bit set. -/
theorem le_of_mem_utf8EncodeChar {c : Char} (hc : ¬c.toNat < 0x80) {b : UInt8}
    (h : b ∈ String.utf8EncodeChar c) : 0x80 ≤ b.toNat := by
  have hlt := toNat_lt c
  have hlead : 0x80 ≤ lead c.toNat := by
    rw [lead, continuations, if_neg hc]
    split_ifs <;> simp only [mark] <;> omega
  rw [utf8EncodeChar_eq] at h
  rcases mem_spread h with rfl | ⟨r, hr, rfl⟩
  · rw [← lead, UInt8.toNat_ofNat', Nat.mod_eq_of_lt (lead_lt hlt)]
    exact hlead
  · rw [UInt8.toNat_ofNat', Nat.mod_eq_of_lt (by omega)]
    omega

/-- **The byte of an ASCII character is among those of no other one.** -/
theorem eq_of_mem_utf8EncodeChar {c d : Char} (hc : c.toNat < 0x80)
    (h : UInt8.ofNat c.toNat ∈ String.utf8EncodeChar d) : d = c := by
  have hbyte : (UInt8.ofNat c.toNat).toNat = c.toNat := by
    rw [UInt8.toNat_ofNat', Nat.mod_eq_of_lt (Nat.lt_trans hc (by decide))]
  by_cases hd : d.toNat < 0x80
  · rw [utf8EncodeChar_of_lt hd, List.mem_singleton] at h
    have hval := congrArg UInt8.toNat h
    rw [hbyte, UInt8.toNat_ofNat', Nat.mod_eq_of_lt (Nat.lt_trans hd (by decide))] at hval
    exact Char.toNat_inj.mp hval.symm
  · have htop := le_of_mem_utf8EncodeChar hd h
    rw [hbyte] at htop
    exact absurd hc (Nat.not_lt.mpr htop)

/-! ### Phrases among bytes -/

/-- The bytes of a list of characters. -/
def encode (s : List Char) : List UInt8 := s.flatMap String.utf8EncodeChar

theorem encode_cons (c : Char) (s : List Char) :
    encode (c :: s) = String.utf8EncodeChar c ++ encode s := List.flatMap_cons

theorem encode_cons_of_lt {c : Char} (h : c.toNat < 0x80) (s : List Char) :
    encode (c :: s) = .ofNat c.toNat :: encode s := by
  rw [encode_cons, utf8EncodeChar_of_lt h, List.singleton_append]

variable {phrase s : List Char}

/-- ASCII characters that begin the bytes of a text begin the text. -/
theorem prefix_of_encode_prefix (hphrase : ∀ c ∈ phrase, c.toNat < 0x80)
    (h : encode phrase <+: encode s) : phrase <+: s := by
  induction phrase generalizing s with
  | nil => exact List.nil_prefix
  | cons c phrase ih =>
    have hc := hphrase c List.mem_cons_self
    rw [encode_cons_of_lt hc] at h
    cases s with
    | nil => exact absurd (List.prefix_nil.mp h) (List.cons_ne_nil _ _)
    | cons d s =>
      obtain ⟨rest, hd⟩ := exists_utf8EncodeChar_eq d
      have hbyte : UInt8.ofNat c.toNat ∈ String.utf8EncodeChar d := by
        rw [encode_cons, hd, List.cons_append] at h
        rw [hd, (List.cons_prefix_cons.mp h).1]
        exact List.mem_cons_self
      obtain rfl := eq_of_mem_utf8EncodeChar hc hbyte
      rw [encode_cons_of_lt hc] at h
      have hrest : phrase <+: s :=
        ih (fun e he => hphrase e (List.mem_cons_of_mem d he)) (List.cons_prefix_cons.mp h).2
      exact List.cons_prefix_cons.mpr ⟨rfl, hrest⟩

/-- **A phrase of ASCII characters stands between characters** in the bytes of a text. -/
theorem exists_split_of_encode_prefix (hne : phrase ≠ []) (hphrase : ∀ c ∈ phrase, c.toNat < 0x80)
    {i : Nat} (h : encode phrase <+: (encode s).drop i) :
    ∃ a b, s = a ++ phrase ++ b ∧ i = (encode a).length := by
  obtain ⟨c, rest, hcons⟩ := List.exists_cons_of_ne_nil hne
  have hc : c.toNat < 0x80 := hphrase c (by rw [hcons]; exact List.mem_cons_self)
  have hbytes : encode phrase = .ofNat c.toNat :: encode rest := by
    rw [hcons, encode_cons_of_lt hc]
  induction s generalizing i with
  | nil =>
    have hnil : encode [] = [] := rfl
    rw [hbytes, hnil, List.drop_nil] at h
    exact absurd (List.prefix_nil.mp h) (List.cons_ne_nil _ _)
  | cons d s ih =>
    rcases Nat.lt_or_ge i (String.utf8EncodeChar d).length with hlt | hge
    · -- The phrase begins among the bytes of one character, which then is that of the phrase.
      obtain rfl : i = 0 := by
        rw [hbytes, encode_cons, List.drop_append_of_le_length (Nat.le_of_lt hlt),
          List.drop_eq_getElem_cons hlt, List.cons_append] at h
        have hbyte : UInt8.ofNat c.toNat ∈ String.utf8EncodeChar d := by
          rw [(List.cons_prefix_cons.mp h).1]
          exact List.getElem_mem hlt
        obtain rfl := eq_of_mem_utf8EncodeChar hc hbyte
        rw [utf8EncodeChar_of_lt hc, List.length_singleton] at hlt
        exact Nat.lt_one_iff.mp hlt
      obtain ⟨b, hb⟩ := prefix_of_encode_prefix hphrase h
      exact ⟨[], b, hb.symm, rfl⟩
    · obtain ⟨j, rfl⟩ := Nat.exists_eq_add_of_le hge
      rw [encode_cons, List.drop_length_add_append] at h
      obtain ⟨a, b, rfl, rfl⟩ := ih h
      exact ⟨d :: a, b, rfl, by rw [encode_cons, List.length_append]⟩

theorem bytes_append (s t : String) : bytes (s ++ t) = bytes s ++ bytes t := by
  rw [bytes_eq, bytes_eq, bytes_eq, String.toList_append, List.flatMap_append]

theorem length_bytes (s : String) : (bytes s).length = s.utf8ByteSize := by
  rw [bytes, Array.length_toList]
  exact s.size_toByteArray

/-- **The places of a phrase** are the same among the bytes of a text as among its characters. -/
theorem bytes_prefix_drop_iff {phrase s : String} (hne : phrase ≠ "")
    (hphrase : ∀ c ∈ phrase.toList, c.toNat < 0x80) {i : Nat} :
    bytes phrase <+: (bytes s).drop i ↔ ∃ a b, s = a ++ phrase ++ b ∧ i = a.utf8ByteSize := by
  constructor
  · intro h
    rw [bytes_eq, bytes_eq] at h
    have hne : phrase.toList ≠ [] := fun h => hne (String.toList_eq_nil_iff.mp h)
    obtain ⟨a, b, hs, rfl⟩ := exists_split_of_encode_prefix hne hphrase h
    refine ⟨.ofList a, .ofList b, ?_, ?_⟩
    · rw [← String.toList_inj, hs]
      simp
    · rw [← length_bytes, bytes_eq, String.toList_ofList, encode]
  · rintro ⟨a, b, rfl, rfl⟩
    rw [bytes_append, bytes_append, ← length_bytes, List.append_assoc, List.drop_left]
    exact List.prefix_append _ _

/-- **A text is read back from its bytes.** -/
theorem fromUTF8?_toUTF8 (s : String) : String.fromUTF8? s.toUTF8 = some s := by
  rw [String.fromUTF8?, String.toUTF8_eq_toByteArray, dif_pos s.isValidUTF8]
  rfl

/-! ### Cutting between bytes -/

/-- The rest of a text from some byte on, if a character begins there or the text ends. -/
def fromByte? (s : String) (start : Nat) : Option String :=
  if start ≤ s.utf8ByteSize then String.fromUTF8? (s.toByteArray.extract start s.utf8ByteSize)
  else none

/-- **A text is cut where one ends that it begins with.** -/
theorem fromByte?_append (a b : String) : fromByte? (a ++ b) a.utf8ByteSize = some b := by
  have hsize : (a ++ b).utf8ByteSize = a.utf8ByteSize + b.utf8ByteSize :=
    String.utf8ByteSize_append
  have hrest : (a ++ b).toByteArray.extract a.utf8ByteSize (a ++ b).utf8ByteSize =
      b.toByteArray := by
    rw [String.toByteArray_append, hsize]
    exact ByteArray.extract_append_eq_right a.size_toByteArray.symm (by simp)
  rw [fromByte?, if_pos (by omega), hrest]
  exact fromUTF8?_toUTF8 b

/-! ### Letters in the other case -/

/-- A letter in the other case takes as many bytes. -/
theorem length_utf8EncodeChar_toUpper (c : Char) :
    (String.utf8EncodeChar c.toUpper).length = (String.utf8EncodeChar c).length := by
  rcases Nat.lt_or_ge c.toNat 0x80 with hc | hc
  · have hupper : c.toUpper.toNat < 0x80 := by
      have hall : ∀ n < 0x80, (Char.ofNat n).toUpper.toNat < 0x80 := by decide
      simpa using hall c.toNat hc
    rw [utf8EncodeChar_of_lt hc, utf8EncodeChar_of_lt hupper, List.length_singleton,
      List.length_singleton]
  · rw [toUpper_eq_self (Nat.le_trans (by decide) hc)]

/-- **A text in upper case has its characters at the same bytes.** -/
theorem utf8ByteSize_uppered (s : String) : (uppered s).utf8ByteSize = s.utf8ByteSize := by
  have hlength (cs : List Char) : (encode (upper cs)).length = (encode cs).length := by
    induction cs with
    | nil => rfl
    | cons c cs ih =>
      rw [upper, List.map_cons, ← upper, encode_cons, encode_cons, List.length_append, ih,
        length_utf8EncodeChar_toUpper, List.length_append]
  rw [← length_bytes, ← length_bytes, bytes_eq, bytes_eq, uppered, String.toList_ofList]
  exact hlength s.toList

end GrantCatalog.Text
