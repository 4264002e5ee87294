import GrantCatalog.Proofs.Bytes
import GrantCatalog.Proofs.Query

/-!
# The table that a statement reads from

A source in memory answers any statement, not only the queries of a load, and decides by the text
alone. The text is searched in **upper case** but cut as it is written: a place found in one text
cuts another. This does no harm, as a letter takes as much room in upper case. The first ` FROM `,
in any case, splits the statement into what stands before and after it
(`GrantCatalog.Source.FirstFrom`), whether places are counted in characters
(`GrantCatalog.Source.firstFrom_iff`) or in bytes (`GrantCatalog.Source.FirstFrom.firstAt_bytes`),
and the table is the first word after it (`GrantCatalog.Source.target?_eq_some_iff`).

So what a source says to a statement can be told from the statement and what the source holds, and
all that it does is to record the statement (`GrantCatalog.Source.execute_routed`).
-/

namespace GrantCatalog

namespace Source

/-! ### The first ` FROM ` -/

variable {statement before rest table : String}

/-- ` FROM `, in any case, between two parts of a statement. -/
def FromBetween (statement before rest : String) : Prop :=
  ∃ mark, statement = before ++ mark ++ rest ∧ Text.sameLetters mark " FROM " = true

/-- **The first ` FROM ` of a statement**, in any case, with what stands before and after it. -/
structure FirstFrom (statement before rest : String) : Prop where
  /-- It stands there. -/
  here : FromBetween statement before rest
  /-- No other one stands earlier. -/
  first : ∀ a b, FromBetween statement a b → before.length ≤ a.length

theorem sameLetters_from_iff {mark : String} :
    Text.sameLetters mark " FROM " = true ↔ Text.uppered mark = " FROM " := by
  have hphrase : Text.upper " FROM ".toList = fromPhrase := by decide
  rw [Text.sameLetters, beq_iff_eq, hphrase, Text.uppered]
  exact String.ofList_inj.symm

theorem FromBetween.uppered_eq (h : FromBetween statement before rest) :
    Text.uppered statement = Text.uppered before ++ " FROM " ++ Text.uppered rest := by
  obtain ⟨mark, rfl, hmark⟩ := h
  rw [Text.uppered_append, Text.uppered_append, sameLetters_from_iff.mp hmark]

/-- A ` FROM ` in the text in upper case is one in the text, in some case. -/
theorem exists_fromBetween {a b : String} (h : Text.uppered statement = a ++ " FROM " ++ b) :
    ∃ before rest, FromBetween statement before rest ∧ Text.uppered before = a := by
  obtain ⟨front, rest, rfl, hfront, -⟩ := Text.exists_of_uppered_eq_append h
  obtain ⟨before, mark, rfl, hbefore, hmark⟩ := Text.exists_of_uppered_eq_append hfront
  exact ⟨before, rest, ⟨mark, rfl, sameLetters_from_iff.mpr hmark⟩, hbefore⟩

/-- The places of ` FROM `, counted in characters. -/
theorem fromPhrase_prefix_drop_iff {i : Nat} :
    fromPhrase <+: (Text.upper statement.toList).drop i ↔
      ∃ before rest, FromBetween statement before rest ∧ i = before.length := by
  have hupper : Text.upper statement.toList = (Text.uppered statement).toList :=
    String.toList_ofList.symm
  rw [hupper]
  constructor
  · rintro ⟨r, hr⟩
    have hroom : i ≤ (Text.uppered statement).toList.length := by
      by_contra hlong
      rw [List.drop_eq_nil_of_le (by omega)] at hr
      exact absurd (List.append_eq_nil_iff.mp hr).1 (by decide)
    have hwhole : (Text.uppered statement).toList.take i ++ (fromPhrase ++ r) =
        (Text.uppered statement).toList := by
      rw [hr, List.take_append_drop]
    have hsplit : Text.uppered statement =
        .ofList ((Text.uppered statement).toList.take i) ++ " FROM " ++ .ofList r := by
      rw [← String.toList_inj]
      simp only [String.toList_append, String.toList_ofList, List.append_assoc]
      exact hwhole.symm
    obtain ⟨before, rest, h, hbefore⟩ := exists_fromBetween hsplit
    refine ⟨before, rest, h, ?_⟩
    rw [← Text.length_uppered, hbefore, String.length_ofList, List.length_take,
      Nat.min_eq_left hroom]
  · rintro ⟨before, rest, h, rfl⟩
    rw [h.uppered_eq, ← Text.length_uppered, ← String.length_toList, String.toList_append,
      String.toList_append, List.append_assoc, List.drop_left]
    exact List.prefix_append _ _

/-- **The first ` FROM ` is where it is found** in the text in upper case. -/
theorem firstFrom_iff : FirstFrom statement before rest ↔ FromBetween statement before rest ∧
    Text.find? fromPhrase (Text.upper statement.toList) = some before.length := by
  rw [Text.find?_eq_some_iff]
  constructor
  · rintro ⟨hhere, hfirst⟩
    refine ⟨hhere, fromPhrase_prefix_drop_iff.mpr ⟨before, rest, hhere, rfl⟩, fun j hj hother => ?_⟩
    obtain ⟨a, b, hab, rfl⟩ := fromPhrase_prefix_drop_iff.mp hother
    exact absurd (hfirst a b hab) (Nat.not_le.mpr hj)
  · rintro ⟨hhere, -, hfirst⟩
    refine ⟨hhere, fun a b hab => Nat.le_of_not_lt fun hlt => ?_⟩
    exact hfirst a.length hlt (fromPhrase_prefix_drop_iff.mpr ⟨a, b, hab, rfl⟩)

/-- Where a ` FROM ` is found there is a first one. -/
theorem exists_firstFrom_of_find? {i : Nat}
    (h : Text.find? fromPhrase (Text.upper statement.toList) = some i) :
    ∃ before rest, FirstFrom statement before rest := by
  obtain ⟨before, rest, hhere, rfl⟩ :=
    fromPhrase_prefix_drop_iff.mp (Text.find?_eq_some_iff.mp h).here
  exact ⟨before, rest, firstFrom_iff.mpr ⟨hhere, h⟩⟩

/-- A statement with any ` FROM ` has a first one. -/
theorem exists_firstFrom_iff : (∃ before rest, FirstFrom statement before rest) ↔
    ∃ before rest, FromBetween statement before rest := by
  constructor
  · rintro ⟨before, rest, h⟩
    exact ⟨before, rest, h.here⟩
  · rintro ⟨a, b, hab⟩
    have hany := fromPhrase_prefix_drop_iff.mpr ⟨a, b, hab, rfl⟩
    cases hfind : Text.find? fromPhrase (Text.upper statement.toList) with
    | none => exact absurd hany (Text.find?_eq_none_iff.mp hfind _)
    | some i => exact exists_firstFrom_of_find? hfind

/-- What stands before a ` FROM ` is the front of the statement. -/
theorem FromBetween.front (h : FromBetween statement before rest) :
    before.toList <+: statement.toList := by
  obtain ⟨mark, rfl, -⟩ := h
  rw [String.toList_append, String.toList_append, List.append_assoc]
  exact List.prefix_append _ _

/-- There are no more bytes before the first ` FROM ` than before another. -/
theorem FirstFrom.utf8ByteSize_le (h : FirstFrom statement before rest) {a b : String}
    (hab : FromBetween statement a b) : before.utf8ByteSize ≤ a.utf8ByteSize := by
  have hlength : before.toList.length ≤ a.toList.length := by
    rw [String.length_toList, String.length_toList]
    exact h.first a b hab
  obtain ⟨z, hz⟩ : before.toList <+: a.toList :=
    List.prefix_of_prefix_length_le h.here.front hab.front hlength
  have ha : a = before ++ .ofList z := by
    rw [← String.toList_inj, ← hz, String.toList_append, String.toList_ofList]
  rw [ha, String.utf8ByteSize_append]
  exact Nat.le_add_right _ _

/-- **The first ` FROM ` stands first among the bytes**, too, those of the text in upper case. -/
theorem FirstFrom.firstAt_bytes (h : FirstFrom statement before rest) :
    Text.FirstAt (Text.bytes " FROM ") (Text.bytes (Text.uppered statement))
      before.utf8ByteSize := by
  have hascii : (" FROM ".toList.all fun c => decide (c.toNat < 0x80)) = true := by decide
  have hplaces (i : Nat) :
      Text.bytes " FROM " <+: (Text.bytes (Text.uppered statement)).drop i ↔
        ∃ a b, Text.uppered statement = a ++ " FROM " ++ b ∧ i = a.utf8ByteSize :=
    Text.bytes_prefix_drop_iff (by decide) fun c hc =>
      of_decide_eq_true (List.all_eq_true.mp hascii c hc)
  refine ⟨?_, fun j hj hother => ?_⟩
  · exact (hplaces _).mpr ⟨_, _, h.here.uppered_eq, (Text.utf8ByteSize_uppered before).symm⟩
  · obtain ⟨a, b, hab, rfl⟩ := (hplaces j).mp hother
    obtain ⟨front, back, hmore, rfl⟩ := exists_fromBetween hab
    rw [Text.utf8ByteSize_uppered] at hj
    exact absurd (h.utf8ByteSize_le hmore) (Nat.not_le.mpr hj)

/-- What follows the first ` FROM ` is found at the place of the latter, counted in bytes. -/
theorem FromBetween.fromByte?_eq (h : FromBetween statement before rest) :
    Text.fromByte? statement (before.utf8ByteSize + " FROM ".utf8ByteSize) = some rest := by
  obtain ⟨mark, rfl, hmark⟩ := h
  have hsize : mark.utf8ByteSize = " FROM ".utf8ByteSize := by
    rw [← Text.utf8ByteSize_uppered, sameLetters_from_iff.mp hmark]
  rw [← hsize, ← String.utf8ByteSize_append]
  exact Text.fromByte?_append _ rest

/-! ### The table -/

/-- What follows the first ` FROM `, by characters. -/
theorem FromBetween.drop_eq (h : FromBetween statement before rest) :
    statement.toList.drop (before.length + fromPhrase.length) = rest.toList := by
  obtain ⟨mark, rfl, hmark⟩ := h
  have hlength : mark.length = fromPhrase.length := by
    rw [← Text.length_uppered, sameLetters_from_iff.mp hmark]
    decide
  have hwhole : (before ++ mark ++ rest).toList = (before ++ mark).toList ++ rest.toList :=
    String.toList_append
  rw [← hlength, ← String.length_append, ← String.length_toList, hwhole, List.drop_left]

theorem FirstFrom.target?_eq (h : FirstFrom statement before rest) :
    target? statement = (Text.firstWord rest.toList).map String.ofList := by
  obtain ⟨hhere, hfind⟩ := firstFrom_iff.mp h
  rw [Source.target?_eq, hfind, Option.bind_some, hhere.drop_eq]

theorem exists_firstFrom_of_target? (h : target? statement = some table) :
    ∃ before rest, FirstFrom statement before rest := by
  rw [target?_eq] at h
  obtain ⟨i, hfind, -⟩ := Option.bind_eq_some_iff.mp h
  exact exists_firstFrom_of_find? hfind

/-- **A statement reads from a table** whose name is the first word after the first ` FROM `. -/
def ReadsFrom (statement table : String) : Prop :=
  ∃ before rest, FirstFrom statement before rest ∧ Text.Begins rest.toList table.toList

/-- A statement that reads from no table has no ` FROM `, or nothing but blanks after it. -/
def ReadsNothing (statement : String) : Prop :=
  (∀ before rest, ¬FromBetween statement before rest) ∨
    ∃ before rest, FirstFrom statement before rest ∧ Text.AllBlank rest.toList

/-- **The table that is found is the one that a statement reads from.** -/
theorem target?_eq_some_iff : target? statement = some table ↔ ReadsFrom statement table := by
  have hword {before rest : String} (h : FirstFrom statement before rest) :
      target? statement = some table ↔ Text.Begins rest.toList table.toList := by
    rw [h.target?_eq, Option.map_eq_some_iff, ← Text.firstWord_eq_some_iff]
    constructor
    · rintro ⟨w, hw, rfl⟩
      rw [hw, String.toList_ofList]
    · intro hw
      exact ⟨table.toList, hw, String.ofList_toList⟩
  constructor
  · intro h
    obtain ⟨before, rest, hfirst⟩ := exists_firstFrom_of_target? h
    exact ⟨before, rest, hfirst, (hword hfirst).mp h⟩
  · rintro ⟨before, rest, hfirst, hbegins⟩
    exact (hword hfirst).mpr hbegins

theorem target?_eq_none_iff : target? statement = none ↔ ReadsNothing statement := by
  have hblank {before rest : String} (h : FirstFrom statement before rest) :
      target? statement = none ↔ Text.AllBlank rest.toList := by
    rw [h.target?_eq, Option.map_eq_none_iff, Text.firstWord_eq_none_iff]
  constructor
  · intro h
    by_cases hany : ∃ before rest, FirstFrom statement before rest
    · obtain ⟨before, rest, hfirst⟩ := hany
      exact .inr ⟨before, rest, hfirst, (hblank hfirst).mp h⟩
    · exact .inl fun before rest hhere => hany (exists_firstFrom_iff.mpr ⟨before, rest, hhere⟩)
  · rintro (hnone | ⟨before, rest, hfirst, hrest⟩)
    · cases htarget : target? statement with
      | none => rfl
      | some table =>
        obtain ⟨before, rest, hfirst⟩ := exists_firstFrom_of_target? htarget
        exact absurd hfirst.here (hnone before rest)
    · exact (hblank hfirst).mpr hrest

/-! ### Answers -/

variable {s : Source}

theorem answer_eq_ok_iff {rows : ResultSet} : s.answer statement = .ok rows ↔
    s.failing = false ∧ ∃ table, ReadsFrom statement table ∧ rows = s.tables.getD table .empty := by
  simp only [← target?_eq_some_iff]
  rw [answer]
  cases s.failing <;> cases target? statement <;> simp [eq_comm]

theorem answer_eq_error_iff {fault : QueryFault} : s.answer statement = .error fault ↔
    (s.failing = true ∨ ReadsNothing statement) ∧
      fault = if s.failing then .unavailable else .noTable statement := by
  rw [← target?_eq_none_iff, answer]
  cases s.failing <;> cases target? statement <;> simp [eq_comm]

/-- **A source answers a query for a catalog from the table of the catalog**, whatever the grantees
are called, and any other statement from the table that it reads from. There is no answer just if
the source is out of order or the statement reads from nothing. The first ` FROM ` is where it is
first found among the bytes of the statement in upper case, and its place among them cuts the
statement itself. All that changes is that the statement is recorded. -/
theorem execute_routed (s : Source) :
    (s.failing = false → ∀ (c : Catalog) (grantees : String),
      (s.execute (c.statement grantees)).1 = .ok (s.tables.getD c.tableName .empty)) ∧
    ∀ statement : String,
      (∀ rows, (s.execute statement).1 = .ok rows ↔ s.failing = false ∧
        ∃ table, ReadsFrom statement table ∧ rows = s.tables.getD table .empty) ∧
      (∀ error, (s.execute statement).1 = .error error ↔
        (s.failing = true ∨ ReadsNothing statement) ∧
        error = .query s.instanceId (if s.failing then .unavailable else .noTable statement)) ∧
      (∀ before rest, FirstFrom statement before rest →
        Text.FirstAt (Text.bytes " FROM ") (Text.bytes (Text.uppered statement))
          before.utf8ByteSize ∧
        Text.fromByte? statement (before.utf8ByteSize + " FROM ".utf8ByteSize) = some rest) ∧
      (s.execute statement).2 =
        ⟨s.instanceId, s.tables, s.failing, s.executed ++ [statement]⟩ := by
  refine ⟨fun hfailing c grantees => ?_, fun statement => ⟨fun rows => ?_, fun error => ?_,
    fun before rest h => ⟨h.firstAt_bytes, h.here.fromByte?_eq⟩, rfl⟩⟩
  · rw [execute, answer_statement, hfailing]
    rfl
  · exact Except.mapError_eq_ok_iff.trans answer_eq_ok_iff
  · rw [execute, Except.mapError_eq_error_iff]
    constructor
    · rintro ⟨fault, hfault, rfl⟩
      obtain ⟨hwhy, rfl⟩ := answer_eq_error_iff.mp hfault
      exact ⟨hwhy, rfl⟩
    · rintro ⟨hwhy, rfl⟩
      exact ⟨_, answer_eq_error_iff.mpr ⟨hwhy, rfl⟩, rfl⟩

/-- The rows of the table of schemas in the sources below. -/
def regionRows : ResultSet := .ofRows ["User"] [[.text "ann"]]

/-- A source that holds one table, in order or not. -/
def region (failing : Bool) : Source :=
  ⟨"db-1:3306", .ofList [("mysql.db", regionRows)], failing, ["SELECT 1"]⟩

/-- A query for schemas is answered from their table, though a grantee has the name of another one
in its name. So is a statement with ` From ` behind characters of several bytes. One that ends with
` from ` is not answered, and nothing is by a source that is out of order. -/
theorem execute_routed_region :
    ((region false).execute (Catalog.schema.statement "('é FROM mysql.user', '%')")).1 =
        .ok regionRows ∧
      ((region false).execute "ß From \tmysql.db\nx FROM y").1 = .ok regionRows ∧
      Text.fromByte? "ß From \tmysql.db\nx FROM y" 8 = some "\tmysql.db\nx FROM y" ∧
      ((region false).execute "ß from ").1 =
        .error (.query "db-1:3306" (.noTable "ß from ")) ∧
      ((region true).execute "ß From \tmysql.db\nx FROM y").1 =
        .error (.query "db-1:3306" .unavailable) ∧
      ((region true).execute "ß from ").2.executed = ["SELECT 1", "ß from "] := by
  have hrows : (region false).tables.getD "mysql.db" .empty = regionRows := by decide +kernel
  obtain ⟨hquery, hany⟩ := execute_routed (region false)
  obtain ⟨hok, -, hplace, -⟩ := hany "ß From \tmysql.db\nx FROM y"
  obtain ⟨-, herror, -, -⟩ := hany "ß from "
  obtain ⟨-, hbroken⟩ := execute_routed (region true)
  have hreads : ReadsFrom "ß From \tmysql.db\nx FROM y" "mysql.db" :=
    target?_eq_some_iff.mp (by decide +kernel)
  have hnothing : ReadsNothing "ß from " := target?_eq_none_iff.mp (by decide +kernel)
  have hfirst : FirstFrom "ß From \tmysql.db\nx FROM y" "ß" "\tmysql.db\nx FROM y" :=
    firstFrom_iff.mpr ⟨⟨" From ", by decide, by decide⟩, by decide +kernel⟩
  refine ⟨?_, (hok _).mpr ⟨rfl, "mysql.db", hreads, hrows.symm⟩, (hplace _ _ hfirst).2,
    (herror _).mpr ⟨.inr hnothing, rfl⟩, ((hbroken _).2.1 _).mpr ⟨.inl rfl, rfl⟩, ?_⟩
  · rw [hquery rfl .schema]
    exact congrArg _ hrows
  · rw [(hbroken _).2.2.2]
    rfl

end Source

end GrantCatalog
