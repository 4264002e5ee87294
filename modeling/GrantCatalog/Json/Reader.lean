import GrantCatalog.Json.Token

/-!
# The value of a JSON text

The tokens of a text become a tree by a machine with a **stack** of the containers that are open
and, at its top, what it expects next. There is no depth at which it gives up, and an item is
never looked at twice.

Two expectations carry what has been read of the container on top: a closing bracket is accepted
right after the opening one, when nothing has been read, and right after a complete value, but
never after a comma.
-/

namespace GrantCatalog.Json

/-- The members of an object read so far, last one first. -/
abbrev Members := List (Option String × Json)

/-- An open container that waits for the value of one of its parts. -/
inductive Container where
  /-- An array, with the items read so far, last one first. -/
  | array (done : List Json)
  /-- An object, with the members read so far and the key of the one being read. -/
  | object (done : Members) (key : Option String)
  deriving Repr

/-- What the next token has to be. -/
inductive Expected where
  /-- The beginning of a value. -/
  | value
  /-- The first item of an array, or the end of the array. -/
  | firstItem
  /-- The key of a member or, if there is no member yet, the end of the object. -/
  | key (done : Members)
  /-- The colon after a key. -/
  | colon (done : Members) (key : Option String)
  /-- The end of the text, or what may follow a complete value in the innermost container. -/
  | follow (value : Json)
  deriving Repr

/-- The containers that are open, innermost first, and what has to come next. -/
structure Reading where
  /-- The open containers. -/
  stack : List Container
  /-- The next token. -/
  expected : Expected
  deriving Repr

namespace Reading

/-- The beginning of a value: a leaf, or the opening of a container. -/
def begin? (stack : List Container) : Token → Option Reading
  | .leaf j => some ⟨stack, .follow j⟩
  | .mark .openArray => some ⟨stack, .firstItem⟩
  | .mark .openObject => some ⟨stack, .key []⟩
  | .mark _ => none

/-- What is expected after one token; `none` if it is not the token expected. -/
def step? (r : Reading) (t : Token) : Option Reading :=
  match r.expected with
  | .value => begin? r.stack t
  | .firstItem =>
    match t with
    | .mark .closeArray => some ⟨r.stack, .follow (.array [])⟩
    | t => begin? (.array [] :: r.stack) t
  | .key done =>
    match t with
    | .leaf (.text k) => some ⟨r.stack, .colon done k⟩
    | .mark .closeObject => if done.isEmpty then some ⟨r.stack, .follow (.object [])⟩ else none
    | _ => none
  | .colon done k =>
    match t with
    | .mark .colon => some ⟨.object done k :: r.stack, .value⟩
    | _ => none
  | .follow v =>
    match r.stack, t with
    | .array done :: stack, .mark .comma => some ⟨.array (v :: done) :: stack, .value⟩
    | .array done :: stack, .mark .closeArray =>
      some ⟨stack, .follow (.array (v :: done).reverse)⟩
    | .object done k :: stack, .mark .comma => some ⟨stack, .key ((k, v) :: done)⟩
    | .object done k :: stack, .mark .closeObject =>
      some ⟨stack, .follow (.object ((k, v) :: done).reverse)⟩
    | _, _ => none

/-- The value read at the end of the text, if it is complete and all containers are closed. -/
def finish? (r : Reading) : Option Json :=
  match r.stack, r.expected with
  | [], .follow v => some v
  | _, _ => none

/-- The value read after some more tokens, which are the last. -/
def run? (r : Reading) : List Token → Option Json
  | [] => r.finish?
  | t :: ts =>
    match r.step? t with
    | none => none
    | some r => r.run? ts

end Reading

/-- **The value of a text**, or `none` if it is not the text of one value. -/
def read? (s : String) : Option Json := do
  let ts ← tokens? s.toList
  Reading.run? ⟨[], .value⟩ ts

end GrantCatalog.Json
