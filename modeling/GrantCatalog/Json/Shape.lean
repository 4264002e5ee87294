import GrantCatalog.Json.Basic
import Std.Data.ExtTreeMap

/-!
# Reading values of a known shape

A configuration expects certain values in certain places. Each function here reads one shape and
fails with `none` on any other; that is the only way in which a well-formed text can be
refused, so the failures need no words.

* `GrantCatalog.Json.record?` – a record with **named fields**. It may be written as an object,
  in which unknown members are passed over unread and no field may be repeated, or as an array of
  the fields in order, whose end may be missing;
* `GrantCatalog.Json.map?` – a map, in which the last of several equal keys counts, although
  all their values have to be of the right shape.
-/

namespace GrantCatalog.Json

/-- A string that spells a text. -/
def string? : Json → Option String
  | .text s => s
  | _ => none

/-- An array whose items have a shape. -/
def list? {α : Type} (item : Json → Option α) : Json → Option (List α)
  | .array js => js.mapM item
  | _ => none

/-- The keys of an object as texts, with the members' values. -/
def members? : Json → Option (List (String × Json))
  | .object ms => ms.mapM fun (k, v) => k.map (·, v)
  | _ => none

/-- An object as a map to values of a shape. -/
def map? {α : Type} (value : Json → Option α) (j : Json) :
    Option (Std.ExtTreeMap String α) := do
  let ms ← members? j
  let vs ← ms.mapM fun (k, v) => (value v).map (k, ·)
  return .ofList vs

/-- The value of a field that is given at most once; `none` if it is repeated. -/
def field? (ms : List (String × Json)) (name : String) : Option (Option Json) :=
  match ms.filter (·.1 == name) with
  | [] => some none
  | [(_, v)] => some (some v)
  | _ => none

/-- The values of the named fields of a record, each `none` where it is not given. -/
def record? (names : List String) : Json → Option (List (Option Json))
  | .array js =>
    if js.length ≤ names.length then
      some (js.map some ++ .replicate (names.length - js.length) none)
    else none
  | j => do
    let ms ← members? j
    names.mapM (field? ms)

/-- A field that has to be given. -/
def required? {α : Type} (value : Json → Option α) (field : Option Json) : Option α :=
  field.bind value

/-- A field that has a default. -/
def optional? {α : Type} (default : α) (value : Json → Option α) : Option Json → Option α
  | none => some default
  | some j => value j

end GrantCatalog.Json
