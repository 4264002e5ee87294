import GrantCatalog.Proofs.Load
import GrantCatalog.Proofs.Text

/-!
# Queries find their own catalog

A source in memory looks for the table of a statement in the text of the statement, and the text
of a query holds names that may be anything, ` FROM ` included. A query nevertheless reads from
the catalog that it is for: all that decides is in its **opening**, which stands before the first
name (`GrantCatalog.Source.target?_statement`). So what a source says to a load is what the tables
under the names of the catalogs hold (`GrantCatalog.Source.says_iff`).
-/

namespace GrantCatalog

namespace Catalog

/-- What stands in a query for a catalog before the grantees. -/
def opening (c : Catalog) : String :=
  "SELECT " ++ c.projection ++ " FROM " ++ c.tableName ++ " WHERE (user, host) IN ("

theorem toList_statement (c : Catalog) (grantees : String) :
    (c.statement grantees).toList = c.opening.toList ++ (grantees.toList ++ [')']) := by
  have hstatement : c.statement grantees = c.opening ++ grantees ++ ")" := rfl
  have hclose : ")".toList = [')'] := rfl
  rw [hstatement, String.toList_append, String.toList_append, hclose, List.append_assoc]

end Catalog

namespace Source

/-- Where the ` FROM ` of an opening stands. -/
theorem find?_opening (c : Catalog) :
    Text.find? fromPhrase (Text.upper c.opening.toList) = some (7 + c.projection.length) := by
  cases c <;> decide +kernel

/-- What an opening has after its ` FROM `. -/
theorem drop_opening (c : Catalog) :
    c.opening.toList.drop (7 + c.projection.length + fromPhrase.length) =
      c.tableName.toList ++ ' ' :: "WHERE (user, host) IN (".toList := by
  cases c <;> decide +kernel

/-- The name of a catalog is one word. -/
theorem tableName_word (c : Catalog) :
    c.tableName.toList ≠ [] ∧ c.tableName.toList.any Text.isBlank = false := by
  cases c <;> decide +kernel

theorem target?_eq (statement : String) :
    target? statement = (Text.find? fromPhrase (Text.upper statement.toList)).bind fun i =>
      (Text.firstWord (statement.toList.drop (i + fromPhrase.length))).map String.ofList := by
  rw [target?]
  cases Text.find? fromPhrase (Text.upper statement.toList) with
  | none => rfl
  | some i =>
    rw [Option.bind_some, Option.map_eq_bind]
    rfl

/-- **A query reads from its own catalog**, whatever the grantees are called. -/
theorem target?_statement (c : Catalog) (grantees : String) :
    target? (c.statement grantees) = some c.tableName := by
  obtain ⟨hne, hblank⟩ := tableName_word c
  have hupper : Text.upper (c.opening.toList ++ (grantees.toList ++ [')'])) =
      Text.upper c.opening.toList ++ Text.upper (grantees.toList ++ [')']) := List.map_append
  have hfind := Text.find?_append (find?_opening c) (Text.upper (grantees.toList ++ [')']))
  have hroom := Text.length_le_of_find? (find?_opening c)
  rw [Text.upper, List.length_map] at hroom
  -- The name stands in the opening, and the blank that ends it does so, too.
  rw [target?_eq, c.toList_statement, hupper, hfind, Option.bind_some,
    List.drop_append_of_le_length hroom, drop_opening, List.append_assoc, List.cons_append,
    Text.firstWord_append hne hblank rfl, Option.map_some, String.ofList_toList]

/-- What a source holds for a catalog. -/
def answerFor (s : Source) (c : Catalog) : ResultSet := s.tables.getD c.tableName .empty

theorem answer_statement (s : Source) (c : Catalog) (grantees : String) :
    s.answer (c.statement grantees) =
      if s.failing then .error .unavailable else .ok (s.answerFor c) := by
  rw [answer, target?_statement]
  rfl

/-- **What a source in memory says to a load**: the rows that it holds for a catalog, if it is in
order and they can be decoded. -/
theorem says_iff {p : Predicate} {s : Source} {c : Catalog} {es : List Catalog.Entry} :
    Plan.Says p s c es ↔ s.failing = false ∧ c.decode (s.answerFor c) = .ok es := by
  have hexecute (rows : ResultSet) :
      (DataSource.execute s (c.statement p.render)).1 = .ok rows ↔
        s.answer (c.statement p.render) = .ok rows := Except.mapError_eq_ok_iff
  simp only [Plan.Says, hexecute, answer_statement]
  cases s.failing <;> simp

end Source

end GrantCatalog
