/-!
# Cutting a text at separators

The lists that an administrator writes – users, privileges, addresses – are plain texts with
separators and no quoting. Cutting at *every* separator is `List.splitOn`; this file has the
cuts made at one occurrence only.

* `GrantCatalog.Text.cutFirst`, `GrantCatalog.Text.cutLast` – what stands before and after the
  first, or the last, occurrence of a character; the separator itself is kept on neither side;
* `GrantCatalog.Text.find?` – where a phrase occurs first;
* `GrantCatalog.Text.after?` – what follows that occurrence.
-/

namespace GrantCatalog.Text

/-- What stands before and after the first separator. -/
def cutFirst (sep : Char) : List Char → Option (List Char × List Char)
  | [] => none
  | c :: r =>
    if c = sep then some ([], r)
    else (cutFirst sep r).map fun (a, b) => (c :: a, b)

/-- What stands before and after the last separator. -/
def cutLast (sep : Char) : List Char → Option (List Char × List Char)
  | [] => none
  | c :: r =>
    match cutLast sep r with
    | some (a, b) => some (c :: a, b)
    | none => if c = sep then some ([], r) else none

/-- The position of the first occurrence of a phrase. -/
def find? (phrase : List Char) : List Char → Option Nat
  | [] => if phrase.isEmpty then some 0 else none
  | c :: r =>
    if phrase.isPrefixOf (c :: r) then some 0
    else (find? phrase r).map (· + 1)

/-- What follows the first occurrence of a phrase. -/
def after? (phrase s : List Char) : Option (List Char) :=
  (find? phrase s).map fun i => s.drop (i + phrase.length)

end GrantCatalog.Text
