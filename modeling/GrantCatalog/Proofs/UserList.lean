import GrantCatalog.Proofs.Bytes
import GrantCatalog.Proofs.Run

/-!
# Lists of users

A list of users is cut into segments at its semicolons, and a segment that is not blank stands for
an entry. What segments there are, and what they stand for, is a small grammar
(`GrantCatalog.UserEntry.Stands`, `GrantCatalog.UserEntry.Lists`): the name of a user, and after a
colon the password, with blanks around the name and after the password. The list is read just if it
is made up in this way, and as the entries that its segments stand for
(`GrantCatalog.UserEntry.readAll_eq_ok_iff`).

Not every entry can be listed. Since the first colon ends the name and any semicolon ends the
entry, and since segments are trimmed, there are conditions on both parts
(`GrantCatalog.UserEntry.Listable`). They are not the same: a password may have colons in it, and
blanks in front. What is read from a list always meets them, so that writing it and reading it
again comes to the same.

As the segments of two lists that are joined by a semicolon are those of the one and then those of
the other (`GrantCatalog.UserEntry.ofList_join`), it makes no difference whether users are given in
one list or in many.
-/

namespace GrantCatalog

namespace UserEntry

variable {e : UserEntry} {es : List UserEntry} {s : String} {error : Error}
variable {segment user password : List Char} {segments : List (List Char)}

/-! ### Segments -/

/-- An entry that can be written in a list. -/
structure Listable (e : UserEntry) : Prop where
  user_ne : e.user ≠ ""
  user_colon : ':' ∉ e.user.toList
  user_semicolon : ';' ∉ e.user.toList
  user_unpadded : Text.Unpadded e.user.toList
  password_semicolon : ';' ∉ e.password.toList
  password_end : ∀ c ∈ e.password.toList.getLast?, Text.isBlank c = false

/-- **A segment that stands for an entry.** -/
inductive Stands (segment : List Char) (e : UserEntry) : Prop where
  /-- The name alone, for an entry without a password. -/
  | bare {l r : List Char} (hl : Text.AllBlank l) (hr : Text.AllBlank r)
      (hpassword : e.password = "") (hsegment : segment = l ++ e.user.toList ++ r)
  /-- The name, a colon and the password. -/
  | full {l m r : List Char} (hl : Text.AllBlank l) (hm : Text.AllBlank m) (hr : Text.AllBlank r)
      (hsegment : segment = l ++ (e.user.toList ++ m ++ ':' :: e.password.toList) ++ r)

/-- **A segment without a user**: it has a colon, and nothing but blanks in front of the first. -/
def Userless (segment : List Char) : Prop :=
  ∃ before after, segment = before ++ ':' :: after ∧ Text.AllBlank before

/-- An entry without a colon is a name alone. -/
theorem ofEntry_bare (hcolon : ':' ∉ user) (hne : Text.trim user ≠ []) :
    ofEntry user = .ok ⟨.ofList (Text.trim user), ""⟩ := by
  rw [ofEntry, Text.cutFirst_eq_none_iff.mpr hcolon]
  exact if_neg (by simpa using hne)

/-- The first colon of an entry ends the name. -/
theorem ofEntry_full (hcolon : ':' ∉ user) (hne : Text.trim user ≠ []) :
    ofEntry (user ++ ':' :: password) = .ok ⟨.ofList (Text.trim user), .ofList password⟩ := by
  rw [ofEntry, Text.cutFirst_eq_some_iff.mpr ⟨rfl, hcolon⟩]
  exact if_neg (by simpa using hne)

/-- There has to be a name in front of the first colon of an entry. -/
theorem ofEntry_userless (password : List Char) : ofEntry (':' :: password) =
    .error (.config (.noUser (.ofList (':' :: password)))) :=
  rfl

/-- A text ends with what follows a colon or, if nothing follows, with the colon. -/
theorem end_after_colon (before : List Char) {after : List Char}
    (h : ∀ c ∈ after.getLast?, Text.isBlank c = false) :
    ∀ c ∈ (before ++ ':' :: after).getLast?, Text.isBlank c = false := by
  intro c hc
  rw [List.getLast?_append_cons, List.getLast?_cons] at hc
  obtain rfl := Option.some.inj hc
  cases hlast : after.getLast? with
  | none => rfl
  | some d => exact h d hlast

/-- **A segment that stands for an entry is read as this entry.** -/
theorem ofEntry_of_stands (he : e.Listable) (h : Stands segment e) :
    ofEntry (Text.trim segment) = .ok e := by
  have huser : e.user.toList ≠ [] := fun h => he.user_ne (String.toList_inj.mp h)
  rcases h with ⟨hl, hr, hpassword, rfl⟩ | @⟨l, m, r, hl, hm, hr, rfl⟩
  · have htrim : Text.trim e.user.toList = e.user.toList :=
      Text.trim_eq_self_iff.mpr he.user_unpadded
    rw [Text.trim_padded hl hr he.user_unpadded,
      ofEntry_bare he.user_colon (by rwa [htrim]), htrim, String.ofList_toList, ← hpassword]
  · have hcolon : ':' ∉ e.user.toList ++ m := by
      rw [List.mem_append, not_or]
      exact ⟨he.user_colon, hm.not_mem rfl⟩
    have htrim : Text.trim (e.user.toList ++ m) = e.user.toList :=
      Text.trim_padded Text.allBlank_nil hm he.user_unpadded
    -- The segment, without the blanks around it, ends with the password, or with the colon.
    have hsegment : Text.trim (l ++ (e.user.toList ++ m ++ ':' :: e.password.toList) ++ r) =
        e.user.toList ++ m ++ ':' :: e.password.toList := by
      refine Text.trim_padded hl hr ⟨?_, end_after_colon _ he.password_end⟩
      rw [List.append_assoc, List.head?_append_of_ne_nil _ huser]
      exact he.user_unpadded.1
    rw [hsegment, ofEntry_full hcolon (by rwa [htrim]), htrim, String.ofList_toList,
      String.ofList_toList]

/-- **A segment without a user cannot be read.** -/
theorem ofEntry_of_userless (h : Userless segment) :
    ofEntry (Text.trim segment) = .error (.config (.noUser (.ofList (Text.trim segment)))) := by
  obtain ⟨before, after, rfl, hbefore⟩ := h
  obtain ⟨w, r, hr, hw, rfl⟩ := Text.exists_padding_end after
  have hsegment : before ++ ':' :: (w ++ r) = before ++ (':' :: w) ++ r := by simp
  have htrim : Text.trim (before ++ (':' :: w) ++ r) = ':' :: w := by
    refine Text.trim_padded hbefore hr ⟨fun c hc => ?_, end_after_colon [] hw⟩
    obtain rfl := Option.some.inj hc
    rfl
  rw [hsegment, htrim]
  exact ofEntry_userless w

/-- The trimmed name and the password of a segment make an entry that can be listed. -/
theorem listable_trim (hblank : ¬Text.AllBlank user) (hcolon : ':' ∉ user)
    (husemicolon : ';' ∉ user) (hpsemicolon : ';' ∉ password)
    (hend : ∀ c ∈ password.getLast?, Text.isBlank c = false) :
    Listable ⟨.ofList (Text.trim user), .ofList password⟩ where
  user_ne h := hblank (Text.trim_eq_nil_iff.mp (String.ofList_eq_empty_iff.mp h))
  user_colon := by
    rw [String.toList_ofList]
    exact fun h => hcolon (Text.mem_of_mem_trim h)
  user_semicolon := by
    rw [String.toList_ofList]
    exact fun h => husemicolon (Text.mem_of_mem_trim h)
  user_unpadded := by
    rw [String.toList_ofList]
    exact Text.unpadded_trim user
  password_semicolon := by rwa [String.toList_ofList]
  password_end := by rwa [String.toList_ofList]

/-- **What a segment may be**: blank, without a user, or for an entry. -/
theorem segment_cases (hsemicolon : ';' ∉ segment) :
    Text.AllBlank segment ∨ Userless segment ∨ ∃ e, Listable e ∧ Stands segment e := by
  by_cases hblank : Text.AllBlank segment
  · exact .inl hblank
  refine .inr ?_
  by_cases hcolon : ':' ∈ segment
  · obtain ⟨before, after, rfl, hbefore⟩ := List.eq_append_cons_of_mem hcolon
    by_cases hname : Text.AllBlank before
    · exact .inl ⟨before, after, rfl, hname⟩
    obtain ⟨l, m, hl, hm, hpadded⟩ := Text.exists_padding before
    obtain ⟨w, r, hr, hw, rfl⟩ := Text.exists_padding_end after
    simp only [List.mem_append, List.mem_cons, not_or] at hsemicolon
    obtain ⟨husemicolon, -, hpsemicolon, -⟩ := hsemicolon
    refine .inr ⟨⟨.ofList (Text.trim before), .ofList w⟩,
      listable_trim hname hbefore husemicolon hpsemicolon hw, .full hl hm hr ?_⟩
    rw [String.toList_ofList, String.toList_ofList]
    nth_rewrite 1 [hpadded]
    simp
  · obtain ⟨l, r, hl, hr, hpadded⟩ := Text.exists_padding segment
    have hlistable : Listable ⟨.ofList (Text.trim segment), .ofList []⟩ :=
      listable_trim hblank hcolon hsemicolon List.not_mem_nil fun c hc => by cases hc
    refine .inr ⟨_, hlistable, .bare hl hr rfl ?_⟩
    rwa [String.toList_ofList]

/-! ### Lists -/

/-- **Segments that stand for some entries**, with blank ones among them. -/
inductive Lists : List (List Char) → List UserEntry → Prop where
  | nil : Lists [] []
  | blank {segment : List Char} {segments : List (List Char)} {es : List UserEntry}
      (hblank : Text.AllBlank segment) (h : Lists segments es) : Lists (segment :: segments) es
  | entry {segment : List Char} {e : UserEntry} {segments : List (List Char)}
      {es : List UserEntry} (he : Stands segment e) (h : Lists segments es) :
      Lists (segment :: segments) (e :: es)

/-- What is read from the segments of a list. -/
def readAll (segments : List (List Char)) : Except Error (List UserEntry) :=
  ((segments.map Text.trim).filter (!·.isEmpty)).mapM ofEntry

theorem ofList_eq_readAll (s : String) : ofList s = readAll (s.toList.splitOn ';') := rfl

theorem readAll_blank (h : Text.AllBlank segment) (segments : List (List Char)) :
    readAll (segment :: segments) = readAll segments := by
  rw [readAll, readAll, Text.filter_trim_cons_of_blank h]

theorem readAll_cons (h : ¬Text.AllBlank segment) (segments : List (List Char)) :
    readAll (segment :: segments) =
      ofEntry (Text.trim segment) >>= fun e => (readAll segments).map (e :: ·) := by
  rw [readAll, Text.filter_trim_cons h, List.mapM_cons]
  rfl

theorem readAll_append (x y : List (List Char)) : readAll (x ++ y) = do
    let es ← readAll x
    let more ← readAll y
    return es ++ more := by
  rw [readAll, List.map_append, List.filter_append, List.mapM_append]
  rfl

theorem Stands.not_allBlank (he : e.Listable) (h : Stands segment e) :
    ¬Text.AllBlank segment := by
  obtain ⟨c, u, hu⟩ := List.exists_cons_of_ne_nil fun h => he.user_ne (String.toList_inj.mp h)
  have hc : Text.isBlank c = false := he.user_unpadded.1 c (by rw [hu]; rfl)
  refine fun hblank => hblank.not_mem hc ?_
  rcases h with ⟨-, -, -, rfl⟩ | ⟨-, -, -, rfl⟩ <;> simp [hu]

theorem Userless.not_allBlank (h : Userless segment) : ¬Text.AllBlank segment := by
  obtain ⟨before, after, rfl, -⟩ := h
  have hcolon : ':' ∈ before ++ ':' :: after := by simp
  exact fun hblank => hblank.not_mem rfl hcolon

/-- **What is read from a segment** is the entry that it stands for. -/
theorem ofEntry_trim_eq_ok_iff (hsemicolon : ';' ∉ segment) (hblank : ¬Text.AllBlank segment) :
    ofEntry (Text.trim segment) = .ok e ↔ Stands segment e ∧ e.Listable := by
  refine ⟨fun hread => ?_, fun ⟨h, he⟩ => ofEntry_of_stands he h⟩
  rcases segment_cases hsemicolon with h | h | ⟨e', he', h⟩
  · exact absurd h hblank
  · rw [ofEntry_of_userless h] at hread
    cases hread
  · rw [ofEntry_of_stands he' h] at hread
    obtain rfl := Except.ok.inj hread
    exact ⟨h, he'⟩

/-- Nothing is read from a segment just if it has no user. -/
theorem exists_ofEntry_trim_iff (hsemicolon : ';' ∉ segment) (hblank : ¬Text.AllBlank segment) :
    (∃ e, ofEntry (Text.trim segment) = .ok e) ↔ ¬Userless segment := by
  constructor
  · rintro ⟨e, hread⟩ h
    rw [ofEntry_of_userless h] at hread
    cases hread
  · intro h
    rcases segment_cases hsemicolon with h' | h' | ⟨e, he, h'⟩
    · exact absurd h' hblank
    · exact absurd h' h
    · exact ⟨e, ofEntry_of_stands he h'⟩

/-- **What is read from segments** are the entries that they stand for. -/
theorem readAll_eq_ok_iff (hsegments : ∀ segment ∈ segments, ';' ∉ segment) :
    readAll segments = .ok es ↔ Lists segments es ∧ ∀ e ∈ es, Listable e := by
  induction segments generalizing es with
  | nil =>
    constructor
    · intro h
      obtain rfl := Except.ok.inj h
      exact ⟨.nil, fun e he => absurd he List.not_mem_nil⟩
    · rintro ⟨⟨⟩, -⟩
      rfl
  | cons segment segments ih =>
    obtain ⟨hsegment, hsegments⟩ := List.forall_mem_cons.mp hsegments
    by_cases hblank : Text.AllBlank segment
    · rw [readAll_blank hblank, ih hsegments]
      constructor
      · rintro ⟨h, hes⟩
        exact ⟨.blank hblank h, hes⟩
      · rintro ⟨h, hes⟩
        rcases h with _ | ⟨-, h⟩ | ⟨he, h⟩
        · exact ⟨h, hes⟩
        · exact absurd hblank (he.not_allBlank (hes _ List.mem_cons_self))
    · rw [readAll_cons hblank, Except.bind_eq_ok_iff]
      simp only [ofEntry_trim_eq_ok_iff hsegment hblank, Except.map_eq_ok_iff, ih hsegments]
      constructor
      · rintro ⟨e, ⟨h, he⟩, es, ⟨hrest, hes⟩, rfl⟩
        exact ⟨.entry h hrest, List.forall_mem_cons.mpr ⟨he, hes⟩⟩
      · rintro ⟨h, hes⟩
        rcases h with _ | ⟨hblank', -⟩ | ⟨h, hrest⟩
        · exact absurd hblank' hblank
        · obtain ⟨he, hes⟩ := List.forall_mem_cons.mp hes
          exact ⟨_, ⟨h, he⟩, _, ⟨hrest, hes⟩, rfl⟩

/-- **Segments cannot be read** just if one of them has no user. -/
theorem exists_readAll_eq_error_iff (hsegments : ∀ segment ∈ segments, ';' ∉ segment) :
    (∃ error, readAll segments = .error error) ↔ ∃ segment ∈ segments, Userless segment := by
  rw [Except.exists_eq_error_iff, readAll, List.exists_mapM_eq_ok_iff]
  push Not
  constructor
  · rintro ⟨entry, hentry, hread⟩
    rw [List.mem_filter] at hentry
    obtain ⟨segment, hmem, rfl⟩ := List.mem_map.mp hentry.1
    have hblank : ¬Text.AllBlank segment := by
      rw [← Text.trim_eq_nil_iff]
      simpa using hentry.2
    refine ⟨segment, hmem, ?_⟩
    by_contra h
    obtain ⟨e, he⟩ := (exists_ofEntry_trim_iff (hsegments segment hmem) hblank).mpr h
    exact hread e he
  · rintro ⟨segment, hmem, h⟩
    have htrim : Text.trim segment ≠ [] := mt Text.trim_eq_nil_iff.mp h.not_allBlank
    refine ⟨Text.trim segment, ?_, fun e he => ?_⟩
    · exact List.mem_filter.mpr ⟨List.mem_map_of_mem hmem, by simpa using htrim⟩
    · exact (exists_ofEntry_trim_iff (hsegments segment hmem) h.not_allBlank).mp ⟨e, he⟩ h

/-- **Two lists joined by a semicolon** are read one after the other. -/
theorem ofList_join (a b : String) : ofList (a ++ ";" ++ b) = do
    let es ← ofList a
    let more ← ofList b
    return es ++ more := by
  have hsegments : (a ++ ";" ++ b).toList.splitOn ';' =
      a.toList.splitOn ';' ++ b.toList.splitOn ';' := by
    have hsep : ";".toList = [';'] := rfl
    rw [String.toList_append, String.toList_append, hsep, List.append_assoc,
      List.singleton_append, List.splitOn_append_cons_self]
  rw [ofList_eq_readAll, hsegments, readAll_append]
  rfl

/-- **Many lists** are read like one list that joins them by semicolons. -/
theorem ofLists_eq (lists : List String) : ofLists lists = ofList (";".intercalate lists) := by
  induction lists with
  | nil => rfl
  | cons a lists ih =>
    have hcons : ofLists (a :: lists) = do
        let es ← ofList a
        let more ← ofLists lists
        return es ++ more := by
      rw [ofLists, List.mapM_cons]
      cases ofList a with
      | error error => rfl
      | ok es =>
        rw [ofLists]
        cases lists.mapM ofList <;> rfl
    rw [hcons, ih]
    rcases lists with _ | ⟨b, lists⟩
    · rw [String.intercalate_singleton]
      cases ofList a with
      | error error => rfl
      | ok es => exact congrArg Except.ok (List.append_nil es)
    · rw [String.intercalate_cons_cons, ofList_join]

/-! ### Writing lists -/

/-- An entry in writing. -/
def written (e : UserEntry) : String :=
  if e.password = "" then e.user else e.user ++ ":" ++ e.password

theorem stands_written (e : UserEntry) : Stands e.written.toList e := by
  rw [written]
  split
  · next hpassword => exact .bare Text.allBlank_nil Text.allBlank_nil hpassword (by simp)
  · refine .full Text.allBlank_nil Text.allBlank_nil Text.allBlank_nil ?_
    have hcolon : ":".toList = [':'] := rfl
    rw [String.toList_append, String.toList_append, hcolon]
    simp

/-- What is written for some entries lists them. -/
theorem lists_written (es : List UserEntry) : Lists (es.map (·.written.toList)) es := by
  induction es with
  | nil => exact .nil
  | cons e es ih => exact .entry (stands_written e) ih

/-- A semicolon stands in no segment that stands for an entry. -/
theorem Lists.not_mem_semicolon (h : Lists segments es) (hes : ∀ e ∈ es, Listable e) :
    ∀ segment ∈ segments, ';' ∉ segment := by
  induction h with
  | nil => exact fun segment h => absurd h List.not_mem_nil
  | blank hblank _ ih =>
    exact List.forall_mem_cons.mpr ⟨hblank.not_mem rfl, ih hes⟩
  | entry hstands _ ih =>
    obtain ⟨he, hes⟩ := List.forall_mem_cons.mp hes
    refine List.forall_mem_cons.mpr ⟨?_, ih hes⟩
    have hno {w : List Char} (hw : Text.AllBlank w) : ';' ∉ w := hw.not_mem rfl
    rcases hstands with ⟨hl, hr, -, rfl⟩ | ⟨hl, hm, hr, rfl⟩
    · simp [hno hl, hno hr, he.user_semicolon]
    · simp [hno hl, hno hm, hno hr, he.user_semicolon, he.password_semicolon]

/-- **A list is read as the entries that it was made up of.** -/
theorem ofList_intercalate {segments : List String} (h : Lists (segments.map String.toList) es)
    (hes : ∀ e ∈ es, Listable e) : ofList (";".intercalate segments) = .ok es := by
  have hno := h.not_mem_semicolon hes
  have hsep : ";".toList = [';'] := rfl
  rcases segments with _ | ⟨segment, segments⟩
  · obtain ⟨⟩ := h
    rfl
  · rw [ofList_eq_readAll, String.toList_intercalate, hsep,
      List.splitOn_intercalate _ hno (by simp)]
    exact (readAll_eq_ok_iff hno).mpr ⟨h, hes⟩

/-- **A list is read just if its segments stand for entries**, and as these. -/
theorem ofList_eq_ok_iff :
    ofList s = .ok es ↔ Lists (s.toList.splitOn ';') es ∧ ∀ e ∈ es, Listable e :=
  readAll_eq_ok_iff fun _ h => Text.not_mem_of_mem_splitOn h

end UserEntry

/-! ### The users of a run -/

namespace Arguments

/-- Only what is read from its lists of users matters to a run. -/
theorem run_congr_users {a : Arguments} {lists lists' : List String}
    (h : UserEntry.ofLists lists = UserEntry.ofLists lists') (w : Surroundings) :
    ({ a with users := lists } : Arguments).run w =
      ({ a with users := lists' } : Arguments).run w := by
  have hsettings (c : Configuration) : ({ a with users := lists } : Arguments).settings w c =
      ({ a with users := lists' } : Arguments).settings w c := by
    simp only [settings, h]
  have hevaluate : ({ a with users := lists } : Arguments).evaluate w =
      ({ a with users := lists' } : Arguments).evaluate w := by
    simp only [evaluate, configuration, hsettings]
  simp only [run, hevaluate]

end Arguments

namespace UserEntry

/-- **Reading and writing lists of users.** Two lists with a semicolon between them are read one
after the other, so that many lists on the command line are as good as one; the users of a run
come from the configuration, the command line and, if there is a text in it, the environment, in
this order. A list cannot be read just if one of its segments has no user. Whatever way entries are
made up into a list, with blanks around and between them, they are read from it; and what is read
from a list are entries of this kind, so that it is read again from what is written for it. -/
theorem ofList_written :
    (∀ a b, ofList (a ++ ";" ++ b) = do
      let es ← ofList a
      let more ← ofList b
      return es ++ more) ∧
    (∀ (a : Arguments) (w : Surroundings) (lists : List String),
      ({ a with users := lists } : Arguments).run w =
        ({ a with users := [";".intercalate lists] } : Arguments).run w) ∧
    (∀ (a : Arguments) (w : Surroundings) (c : Configuration) (s : Settings),
      a.settings w c = .ok s ↔ ∃ parts more, a.users.mapM ofList = .ok parts ∧
        (∀ l, w.users.bind String.fromUTF8? = some l → ofList l = .ok more) ∧
        (w.users.bind String.fromUTF8? = none → more = []) ∧
        s = ⟨a.provider.getD c.settings.provider, c.settings.users ++ parts.flatten ++ more⟩) ∧
    (∀ s, (∃ error, ofList s = .error error) ↔ ∃ segment ∈ s.toList.splitOn ';',
      Userless segment) ∧
    (∀ (segments : List String) (es : List UserEntry), (∀ e ∈ es, Listable e) →
      Lists (segments.map String.toList) es → ofList (";".intercalate segments) = .ok es) ∧
    ∀ s es, ofList s = .ok es → Lists (s.toList.splitOn ';') es ∧ (∀ e ∈ es, Listable e) ∧
      ofList (";".intercalate (es.map written)) = .ok es := by
  refine ⟨ofList_join, fun a w lists => Arguments.run_congr_users ?_ w,
    fun a w c s => Arguments.settings_eq_ok_iff, fun s => ?_,
    fun segments es hes h => ofList_intercalate h hes, fun s es h => ?_⟩
  · rw [ofLists_eq, ofLists_eq, String.intercalate_singleton]
  · exact exists_readAll_eq_error_iff fun _ h => Text.not_mem_of_mem_splitOn h
  · obtain ⟨hlists, hes⟩ := ofList_eq_ok_iff.mp h
    refine ⟨hlists, hes, ofList_intercalate ?_ hes⟩
    rw [List.map_map]
    exact lists_written es

/-- Two entries, the first with a blank and a colon in its password. -/
def twoEntries : List UserEntry := [⟨"ann", " a:b"⟩, ⟨"bob", ""⟩]

/-- A check of `bob`, with these lists of users on its command line. -/
def bobCheck (lists : List String) : Arguments :=
  ⟨none, lists, some "all_permitted", .table, .check "bob" ["select"] .server⟩

/-- Surroundings without files, with these bytes for the list of users in the environment. -/
def listSurroundings (bytes : ByteArray) : Surroundings := ⟨fun _ => none, some bytes⟩

/-- A configuration with a user in its file. -/
def rootConfiguration : Configuration := ⟨⟨"NATIVE", [⟨"root@localhost", "pw"⟩]⟩, ∅⟩

theorem listable_of_mem_twoEntries : ∀ e ∈ twoEntries, Listable e := by
  refine List.forall_mem_cons.mpr ⟨?_, List.forall_mem_singleton.mpr ?_⟩
  · exact ⟨by decide, by decide, by decide, Text.trim_eq_self_iff.mp (by decide), by decide,
      fun c hc => by cases hc; rfl⟩
  · exact ⟨by decide, by decide, by decide, Text.trim_eq_self_iff.mp (by decide), by decide,
      fun c hc => by cases hc⟩

/-- The two entries are read from a list with blanks in it, from one without, and from two lists
that are joined; of two lists that cannot be read the first is reported, and a segment without a
user makes a list unreadable. A run comes to the same from one list as from two. Its users are that
of the file, the two, and those of the environment, if there is a text in it. -/
theorem ofList_written_twoEntries :
    (∀ e ∈ twoEntries, Listable e) ∧
      Lists ([" ann\t: a:b ", " ", "bob "].map String.toList) twoEntries ∧
      ofList (";".intercalate [" ann\t: a:b ", " ", "bob "]) = .ok twoEntries ∧
      ofList "ann: a:b;bob" = .ok twoEntries ∧
      ofList ("ann: a:b" ++ ";" ++ "bob") = .ok twoEntries ∧
      ofList (" :c" ++ ";" ++ ":d") = .error (.config (.noUser ":c")) ∧
      (∃ error, ofList "ann: a:b;bob; :c" = .error error) ∧
      (bobCheck ["ann: a:b", "bob"]).run (listSurroundings "eve@10.%;kim".toUTF8) =
        .ok ⟨true, "SELECT on *.* for bob@%: ALLOWED\n"⟩ ∧
      (bobCheck ["ann: a:b", "bob"]).settings (listSurroundings "eve@10.%;kim".toUTF8)
        rootConfiguration = .ok ⟨"all_permitted", [⟨"root@localhost", "pw"⟩, ⟨"ann", " a:b"⟩,
          ⟨"bob", ""⟩, ⟨"eve@10.%", ""⟩, ⟨"kim", ""⟩]⟩ ∧
      (bobCheck ["ann: a:b", "bob"]).settings (listSurroundings ⟨#[0xff]⟩) rootConfiguration =
        .ok ⟨"all_permitted", [⟨"root@localhost", "pw"⟩, ⟨"ann", " a:b"⟩, ⟨"bob", ""⟩]⟩ := by
  obtain ⟨hjoin, hrun, hsettings, herror, hread, hback⟩ := ofList_written
  have hblank {w : List Char} (hw : w.all Text.isBlank = true) : Text.AllBlank w :=
    List.all_eq_true.mp hw
  have hlists : Lists ([" ann\t: a:b ", " ", "bob "].map String.toList) twoEntries := by
    refine .entry (.full (l := [' ']) (m := ['\t']) (r := [' ']) ?_ ?_ ?_ rfl) (.blank ?_
      (.entry (.bare (l := []) (r := [' ']) ?_ ?_ rfl rfl) .nil))
    all_goals exact hblank rfl
  have h := hread _ _ listable_of_mem_twoEntries hlists
  have hann : ofList "ann: a:b" = .ok [⟨"ann", " a:b"⟩] := by
    decide +kernel
  have hbob : ofList "bob" = .ok [⟨"bob", ""⟩] := by
    decide +kernel
  have hc : ofList " :c" = .error (.config (.noUser ":c")) := by
    decide +kernel
  have hkim : ofList "eve@10.%;kim" = .ok [⟨"eve@10.%", ""⟩, ⟨"kim", ""⟩] := by
    decide +kernel
  have hparts : ["ann: a:b", "bob"].mapM ofList = .ok [[⟨"ann", " a:b"⟩], [⟨"bob", ""⟩]] :=
    List.mapM_eq_ok_iff.mpr (.cons hann (.cons hbob .nil))
  have hone : (bobCheck [";".intercalate ["ann: a:b", "bob"]]).run
      (listSurroundings "eve@10.%;kim".toUTF8) =
      .ok ⟨true, "SELECT on *.* for bob@%: ALLOWED\n"⟩ := by
    decide +kernel
  have htext := Text.fromUTF8?_toUTF8 "eve@10.%;kim"
  have hnoText : String.fromUTF8? ⟨#[0xff]⟩ = none := by
    decide +kernel
  refine ⟨listable_of_mem_twoEntries, hlists, h, (hback _ _ h).2.2, ?_, ?_, (herror _).mpr ?_,
    (hrun (bobCheck []) _ ["ann: a:b", "bob"]).trans hone,
    (hsettings _ _ _ _).mpr ⟨_, _, hparts, fun l hl => ?_, fun hnone => ?_, rfl⟩,
    (hsettings _ _ _ _).mpr ⟨_, [], hparts, fun l hl => ?_, fun _ => rfl, rfl⟩⟩
  · rw [hjoin, hann, hbob]
    rfl
  · rw [hjoin, hc]
    rfl
  · exact ⟨" :c".toList, by decide, [' '], ['c'], rfl, hblank rfl⟩
  · obtain rfl := Option.some.inj (htext.symm.trans hl)
    exact hkim
  · cases htext.symm.trans hnone
  · cases hnoText.symm.trans hl

end UserEntry

end GrantCatalog
