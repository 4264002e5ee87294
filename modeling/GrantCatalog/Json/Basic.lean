/-!
# JSON values

The tree of a JSON text, as far as configurations and reports tell such texts apart. Two leaves
are coarser than the grammar, because no shape of this library accepts what they stand for:

* a **string** is what its literal spells, and spells nothing (`none`) when one of its escapes
  names half of a surrogate pair without the other half;
* a number that is not written as a plain integer – a fraction, an exponent, or `-0` – is just
  **`real`**, its value being of no use to anyone here.

Objects keep their members in the order of the text, repetitions included: whether a repeated
key is an error is for the shape that reads the object to say.
-/

namespace GrantCatalog

/-- A JSON value. -/
inductive Json where
  | null
  | bool (b : Bool)
  /-- A number written as a decimal integer, other than `-0`. -/
  | integer (value : Int)
  /-- Any other number. -/
  | real
  /-- A string, or `none` if its literal spells no text. -/
  | text (spelt : Option String)
  | array (items : List Json)
  | object (members : List (Option String × Json))
  deriving Inhabited, Repr

namespace Json

/-- The string that spells a text. -/
def str (s : String) : Json := .text (some s)

/-- The object with these members, in this order. -/
def dict (members : List (String × Json)) : Json :=
  .object (members.map fun (k, v) => (some k, v))

end Json

end GrantCatalog
