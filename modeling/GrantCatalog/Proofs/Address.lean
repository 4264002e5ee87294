import GrantCatalog.Plan
import GrantCatalog.Proofs.Text
import GrantCatalog.Source.Address

/-!
# Which instance a URL leads to

The identifier of an instance should be the **endpoint** of its URL, that is its host and its
service number, whatever else there is in the URL. Three cuts are made to find it, and each of them
has to hit the right one of several delimiters:

* the first `://` ends the scheme, since a scheme has no colon;
* the last at sign ends the user information, which may have more of them;
* the first slash or question mark ends the endpoint.

The second cut comes before the third. So it is made in the path and in the query, too, and an at
sign there is taken for the end of the user information: the identifier is then that of what
follows it (`GrantCatalog.Address.instanceId_of_resource`). Without such an at sign the identifier
is the endpoint (`GrantCatalog.Address.instanceId_of_notMem`), instances are told apart by their
endpoints, and a plan drops none that has an endpoint of its own
(`GrantCatalog.Address.instanceId_text`).
-/

namespace GrantCatalog.Address

/-! ### URLs in parts -/

/-- **A URL in its parts**, without the delimiters between them. -/
structure Url where
  /-- The scheme, a word of letters. -/
  scheme : List Char
  /-- Who connects. There may be colons and at signs in it. -/
  userinfo : Option (List Char) := none
  /-- The host. -/
  host : List Char
  /-- The number of the service on the host. -/
  service : Option (List Char) := none
  /-- The path behind its first slash. -/
  path : Option (List Char) := none
  /-- The query, in which there may be anything. -/
  query : Option (List Char) := none
  scheme_letters : scheme.all Char.isAlpha = true := by decide
  userinfo_slash : '/' ∉ userinfo.getD [] := by decide
  userinfo_question : '?' ∉ userinfo.getD [] := by decide
  host_ne : host ≠ [] := by decide
  host_colon : ':' ∉ host := by decide
  host_slash : '/' ∉ host := by decide
  host_question : '?' ∉ host := by decide
  host_at : '@' ∉ host := by decide
  service_digits : (service.getD []).all Char.isDigit = true := by decide
  path_question : '?' ∉ path.getD [] := by decide

namespace Url

/-- The host and the service number as they are written. -/
def place (u : Url) : List Char := u.host ++ u.service.elim [] (':' :: ·)

/-- The path and the query as they are written. -/
def resource (u : Url) : List Char := u.path.elim [] ('/' :: ·) ++ u.query.elim [] ('?' :: ·)

/-- What follows the scheme and its delimiter. -/
def rest (u : Url) : List Char := u.userinfo.elim [] (· ++ ['@']) ++ (u.place ++ u.resource)

/-- **A URL in writing.** -/
def text (u : Url) : String := .ofList (u.scheme ++ "://".toList ++ u.rest)

/-- The service number, the usual one if the URL names none. -/
def serviceNumber (u : Url) : List Char := u.service.getD defaultService.toList

/-- **The endpoint of a URL**: its host and its service number. -/
def endpoint (u : Url) : String := .ofList (u.host ++ ':' :: u.serviceNumber)

/-- Two URLs name the same host and the same service. -/
def SameEndpoint (u v : Url) : Prop := u.host = v.host ∧ u.serviceNumber = v.serviceNumber

variable {u v : Url}

/-- Endpoints in writing are the same for the same host and service only: the first colon ends the
host. -/
theorem endpoint_eq_iff : u.endpoint = v.endpoint ↔ u.SameEndpoint v := by
  constructor
  · intro h
    have hparts : u.host ++ ':' :: u.serviceNumber = v.host ++ ':' :: v.serviceNumber :=
      String.ofList_injective h
    have hcut := Text.cutFirst_append u.host_colon u.serviceNumber
    rw [hparts, Text.cutFirst_append v.host_colon v.serviceNumber, Option.some.injEq,
      Prod.mk.injEq] at hcut
    exact ⟨hcut.1.symm, hcut.2.symm⟩
  · rintro ⟨hhost, hservice⟩
    rw [endpoint, endpoint, hhost, hservice]

/-! ### Delimiters in the parts -/

theorem colon_not_mem_scheme (u : Url) : ':' ∉ u.scheme := by
  intro h
  have hletter := List.all_eq_true.mp u.scheme_letters ':' h
  revert hletter
  decide

/-- A character that is no digit and not the colon is in the endpoint only if it is in the host. -/
theorem not_mem_place {c : Char} (hhost : c ∉ u.host) (hcolon : c ≠ ':')
    (hdigit : c.isDigit = false) : c ∉ u.place := by
  have hservice : c ∉ u.service.getD [] := by
    intro h
    have hc := List.all_eq_true.mp u.service_digits c h
    rw [hdigit] at hc
    cases hc
  rw [place, List.mem_append, not_or]
  refine ⟨hhost, ?_⟩
  cases hu : u.service with
  | none => exact List.not_mem_nil
  | some s =>
    rw [hu] at hservice
    exact List.not_mem_cons_of_ne_of_not_mem hcolon hservice

/-- A path or a query begins with a delimiter that ends the endpoint. -/
theorem head?_resource (u : Url) : ∀ c ∈ u.resource.head?, c = '/' ∨ c = '?' := by
  rw [resource]
  cases u.path with
  | none =>
    cases u.query with
    | none => simp
    | some q => simp
  | some p => simp

end Url

/-! ### The three cuts -/

/-- **The first cut**: a scheme without a colon goes, and nothing else. -/
theorem schemeless_append {scheme : List Char} (h : ':' ∉ scheme) (rest : List Char) :
    schemeless (scheme ++ "://".toList ++ rest) = rest := by
  have hfirst : Text.FirstAt "://".toList (scheme ++ "://".toList ++ rest) scheme.length := by
    constructor
    · rw [List.append_assoc, List.drop_left]
      exact List.prefix_append _ _
    · -- What begins inside the scheme begins with a character of the scheme.
      intro j hj hprefix
      rw [List.append_assoc, List.drop_append_of_le_length (Nat.le_of_lt hj),
        List.drop_eq_getElem_cons hj] at hprefix
      have hcolon : ':' = scheme[j] := (List.cons_prefix_cons.mp hprefix).1
      exact h (hcolon ▸ List.getElem_mem hj)
  rw [schemeless, Text.after?, Text.find?_eq_some_iff.mpr hfirst, Option.map_some,
    Option.getD_some, ← List.length_append, List.drop_left]

/-- What follows the last at sign, everything if there is none. -/
def behindAt (s : List Char) : List Char :=
  match Text.cutLast '@' s with
  | some (_, h) => h
  | none => s

/-- **The second cut**: everything up to the last at sign goes. -/
theorem behindAt_append (s : List Char) {r : List Char} (h : '@' ∉ r) :
    behindAt (s ++ '@' :: r) = r := by
  rw [behindAt, Text.cutLast_append s h]

theorem behindAt_eq_self {r : List Char} (h : '@' ∉ r) : behindAt r = r := by
  rw [behindAt, Text.cutLast_eq_none_iff.mpr h]

/-- What stands in front of the first slash or question mark. -/
def upToResource (s : List Char) : List Char := s.takeWhile fun c => c ≠ '/' ∧ c ≠ '?'

/-- **The third cut**: what begins with a slash or a question mark goes. -/
theorem upToResource_append {s r : List Char} (hslash : '/' ∉ s) (hquestion : '?' ∉ s)
    (hr : ∀ c ∈ r.head?, c = '/' ∨ c = '?') : upToResource (s ++ r) = s := by
  have hkept : ∀ c ∈ s, decide (c ≠ '/' ∧ c ≠ '?') = true := by
    intro c hc
    refine decide_eq_true ⟨?_, ?_⟩
    · rintro rfl
      exact hslash hc
    · rintro rfl
      exact hquestion hc
  have hdropped : r.takeWhile (fun c => decide (c ≠ '/' ∧ c ≠ '?')) = [] := by
    cases r with
    | nil => rfl
    | cons c r =>
      refine List.takeWhile_cons_of_neg ?_
      rcases hr c rfl with rfl | rfl <;> decide
  rw [upToResource, List.takeWhile_append_of_pos hkept, hdropped, List.append_nil]

/-- An endpoint with the usual service number, if it has none. -/
def completed (s : List Char) : String :=
  if ':' ∈ s then .ofList s else .ofList s ++ ":" ++ defaultService

theorem completed_place (u : Url) : completed u.place = u.endpoint := by
  rw [completed, Url.endpoint, Url.serviceNumber, Url.place]
  cases u.service with
  | none =>
    rw [Option.elim_none, List.append_nil, if_neg u.host_colon, Option.getD_none,
      ← String.toList_inj]
    simp
  | some s =>
    rw [Option.elim_some, if_pos (List.mem_append_right _ List.mem_cons_self), Option.getD_some]

/-- The identifier in terms of the three cuts. -/
theorem instanceId_ofList {scheme rest : List Char} (h : ':' ∉ scheme) :
    instanceId (.ofList (scheme ++ "://".toList ++ rest)) =
      completed (upToResource (behindAt rest)) := by
  have hrest : schemeless (String.ofList (scheme ++ "://".toList ++ rest)).toList = rest := by
    rw [String.toList_ofList, schemeless_append h]
  rw [instanceId, hrest]
  rfl

/-! ### What the identifier is -/

/-- **Without an at sign in the path and the query** the identifier is the endpoint. -/
theorem instanceId_of_notMem {u : Url} (h : '@' ∉ u.resource) : instanceId u.text = u.endpoint := by
  have hat : '@' ∉ u.place ++ u.resource := by
    rw [List.mem_append, not_or]
    exact ⟨Url.not_mem_place u.host_at (by decide) (by decide), h⟩
  have hbehind : behindAt u.rest = u.place ++ u.resource := by
    rw [Url.rest]
    cases u.userinfo with
    | none => exact behindAt_eq_self hat
    | some w =>
      rw [Option.elim_some, List.append_assoc, List.singleton_append]
      exact behindAt_append w hat
  have hplace : upToResource (u.place ++ u.resource) = u.place :=
    upToResource_append (Url.not_mem_place u.host_slash (by decide) (by decide))
      (Url.not_mem_place u.host_question (by decide) (by decide)) u.head?_resource
  rw [Url.text, instanceId_ofList u.colon_not_mem_scheme, hbehind, hplace, completed_place]

/-- **An at sign in the path or the query** is taken for the end of the user information: what is in
front of it makes no difference. -/
theorem instanceId_of_resource {u : Url} {before after : List Char}
    (h : u.resource = before ++ '@' :: after) (hafter : '@' ∉ after) :
    instanceId u.text = instanceId (.ofList ("://".toList ++ after)) := by
  have hrest : u.rest = u.userinfo.elim [] (· ++ ['@']) ++ (u.place ++ before) ++ '@' :: after := by
    rw [Url.rest, h]
    simp
  have hbare : instanceId (.ofList ([] ++ "://".toList ++ after)) =
      completed (upToResource (behindAt after)) := instanceId_ofList List.not_mem_nil
  rw [List.nil_append] at hbare
  rw [Url.text, instanceId_ofList u.colon_not_mem_scheme, hrest, behindAt_append _ hafter, hbare,
    behindAt_eq_self hafter]

/-- **The identifier that a URL gives an instance.** Without an at sign in the path and the query it
is the endpoint; with one it is the identifier of what follows the last of them. So URLs without
such an at sign get the same identifier just if they name the same host and service, and of sources
that have their identifiers from such URLs a plan keeps each one that is the first with its host and
service, whatever else is in the URLs. -/
theorem instanceId_text (u v : Url) :
    ('@' ∉ u.resource → instanceId u.text = u.endpoint) ∧
      (∀ before after : List Char, u.resource = before ++ '@' :: after → '@' ∉ after →
        instanceId u.text = instanceId (.ofList ("://".toList ++ after))) ∧
      ('@' ∉ u.resource → '@' ∉ v.resource →
        (instanceId u.text = instanceId v.text ↔ u.SameEndpoint v)) ∧
      ∀ {σ : Type} [DataSource σ] {n : Nat} (fleet : Fleet σ n) (dbs : Databases n)
        (users : List User) (urls : Fin n → Url),
        (∀ i, DataSource.instanceId (fleet.get i) = instanceId (urls i).text) →
        (∀ i, '@' ∉ (urls i).resource) → ∀ i, i ∈ (Plan.build fleet dbs users).sources ↔
          ∃ before after, Plan.positions dbs = before ++ i :: after ∧
            ∀ j ∈ before, ¬(urls j).SameEndpoint (urls i) := by
  have hsame (u v : Url) (hu : '@' ∉ u.resource) (hv : '@' ∉ v.resource) :
      instanceId u.text = instanceId v.text ↔ u.SameEndpoint v := by
    rw [instanceId_of_notMem hu, instanceId_of_notMem hv, Url.endpoint_eq_iff]
  refine ⟨instanceId_of_notMem, fun before after => instanceId_of_resource, hsame u v, ?_⟩
  intro σ _ n fleet dbs users urls hids hat i
  have hkey (j : Fin n) : DataSource.instanceId (fleet.get j) ≠ DataSource.instanceId (fleet.get i)
      ↔ ¬(urls j).SameEndpoint (urls i) := by
    rw [hids j, hids i, ne_eq, hsame _ _ (hat j) (hat i)]
  rw [Plan.build, mem_firstsBy_iff]
  simp only [hkey]

/-! A URL with at signs in the user information, and two with one in the query. -/

/-- The scheme of all URLs here. -/
def mysql : List Char := "mysql".toList

/-- A query with an at sign. -/
def opsQuery : List Char := "user=ann@ops".toList

/-- A URL with colons and at signs in its user information. -/
def rootUrl : Url where
  scheme := mysql
  userinfo := some "u:p@a".toList
  host := "host".toList
  query := some "ssl-mode=disabled".toList

/-- Another URL for the same endpoint. -/
def shopUrl : Url where
  scheme := mysql
  host := "host".toList
  service := some "3306".toList
  path := some "shop/".toList

/-- Both URLs. -/
def hostUrls : Vector Url 2 := #v[rootUrl, shopUrl]

/-- A source with the identifier that it has from its URL. -/
def reachedBy (u : Url) : Source := ⟨instanceId u.text, ∅, false, []⟩

theorem instanceId_reachedBy (u : Url) :
    DataSource.instanceId (reachedBy u) = instanceId u.text := by
  change (reachedBy u).instanceId = instanceId u.text
  rw [reachedBy]

/-- The sources that are reached under the two URLs. -/
def hostFleet : Fleet Source 2 := hostUrls.map reachedBy

/-- A database with both. -/
def hostDatabases : Databases 2 := (∅ : Databases 2).insert "shop" ⟨"shop", List.finRange 2⟩

/-- A URL with an at sign in its query. -/
def northUrl : Url where
  scheme := mysql
  userinfo := some "%FF".toList
  host := "north".toList
  service := some "3307".toList
  path := some "db".toList
  query := some opsQuery

/-- The same for another host. -/
def southUrl : Url where
  scheme := mysql
  userinfo := some "%FF".toList
  host := "south".toList
  query := some opsQuery

/-- Of two sources with the same endpoint the first one is planned, and the second one, with another
user and path, is not. An at sign in a query is taken for the end of the user information. -/
theorem instanceId_text_ops :
    rootUrl.text = "mysql://u:p@a@host?ssl-mode=disabled" ∧ '@' ∉ rootUrl.resource ∧
      instanceId rootUrl.text = "host:3306" ∧
      shopUrl.text = "mysql://host:3306/shop/" ∧ '@' ∉ shopUrl.resource ∧
      (instanceId rootUrl.text = instanceId shopUrl.text ↔ rootUrl.SameEndpoint shopUrl) ∧
      0 ∈ (Plan.build hostFleet hostDatabases []).sources ∧
      ¬1 ∈ (Plan.build hostFleet hostDatabases []).sources ∧
      northUrl.text = "mysql://%FF@north:3307/db?user=ann@ops" ∧
      northUrl.resource = "/db?user=ann".toList ++ '@' :: "ops".toList ∧ '@' ∉ "ops".toList ∧
      instanceId northUrl.text = "ops:3306" := by
  obtain ⟨hplain, -, hsame, hplan⟩ := instanceId_text rootUrl shopUrl
  obtain ⟨-, hresource, -, -⟩ := instanceId_text northUrl southUrl
  have hroot : '@' ∉ rootUrl.resource := by decide
  have hshop : '@' ∉ shopUrl.resource := by decide
  have hat : ∀ i, '@' ∉ (hostUrls.get i).resource := by
    intro i
    match i with
    | 0 => exact hroot
    | 1 => exact hshop
  have hids : ∀ i, DataSource.instanceId (hostFleet.get i) = instanceId (hostUrls.get i).text := by
    intro i
    have hget : hostFleet.get i = reachedBy (hostUrls.get i) := Vector.getElem_map _ i.isLt
    rw [hget, instanceId_reachedBy]
  have hkept := hplan hostFleet hostDatabases [] hostUrls.get hids hat
  have hpositions : Plan.positions hostDatabases = [0, 1] := by decide
  rw [hpositions] at hkept
  have hnorth : northUrl.resource = "/db?user=ann".toList ++ '@' :: "ops".toList := by decide
  have hops : '@' ∉ "ops".toList := by decide
  refine ⟨rfl, hroot, (hplain hroot).trans rfl, rfl, hshop, hsame hroot hshop,
    (hkept 0).mpr ⟨[], [1], rfl, by simp⟩, fun h => ?_, rfl, hnorth, hops,
    (hresource _ _ hnorth hops).trans (by decide)⟩
  -- In front of the second position there is the first, which has the same endpoint.
  obtain ⟨before, after, hsplit, hne⟩ := (hkept 1).mp h
  cases before with
  | nil => cases (List.cons.inj hsplit).1
  | cons j before =>
    obtain rfl := (List.cons.inj hsplit).1
    exact hne 0 List.mem_cons_self ⟨rfl, rfl⟩

/-- **The identifier is not the endpoint of every URL**, and it does not tell all hosts apart. -/
theorem not_instanceId_eq_endpoint :
    (¬∀ u : Url, instanceId u.text = u.endpoint) ∧
      ¬∀ u v : Url, instanceId u.text = instanceId v.text → u.SameEndpoint v := by
  have hops : '@' ∉ "ops".toList := by decide
  have hnorth : northUrl.resource = "/db?user=ann".toList ++ '@' :: "ops".toList := by decide
  have hsouth : southUrl.resource = "?user=ann".toList ++ '@' :: "ops".toList := by decide
  have hsame : instanceId northUrl.text = instanceId southUrl.text :=
    (instanceId_of_resource hnorth hops).trans (instanceId_of_resource hsouth hops).symm
  refine ⟨fun h => ?_, fun h => ?_⟩
  · have hid : instanceId (.ofList ("://".toList ++ "ops".toList)) = northUrl.endpoint :=
      (instanceId_of_resource hnorth hops).symm.trans (h northUrl)
    revert hid
    decide
  · have hhost : northUrl.host = southUrl.host := (h northUrl southUrl hsame).1
    revert hhost
    decide

end GrantCatalog.Address
