import GrantCatalog.Error
import GrantCatalog.Text.Cut

/-!
# Data sources

A data source stands for one server instance. All that is known of a data source in general is
who it is and that it executes statements (`GrantCatalog.DataSource`); an execution may change it.

The sources of this library answer from memory (`GrantCatalog.Source`). Such a source holds the
answers for some tables, may be out of order, and keeps the **statements executed** on it,
answered or not, oldest first. A statement is answered by the table that it reads from: the first
word after the first ` FROM `, in any case (`GrantCatalog.Source.target?`). Its conditions are not
evaluated, and a table that the source does not know is empty. What the answer is does not depend
on the statements executed before (`GrantCatalog.Source.answer`); only
`GrantCatalog.Source.execute` records anything.
-/

namespace GrantCatalog

/-- Something that stands for a server instance. -/
class DataSource (σ : Type) where
  /-- The endpoint, which tells instances apart. -/
  instanceId : σ → String
  /-- Executes a statement: the answer, and the source afterwards. -/
  execute : σ → String → Except Error ResultSet × σ

/-- A server instance that answers from tables it holds. -/
structure Source where
  /-- The endpoint, which tells instances apart. -/
  instanceId : String
  /-- The answers, by table. -/
  tables : Std.ExtTreeMap String ResultSet := ∅
  /-- The instance is out of order. -/
  failing : Bool := false
  /-- The statements executed, oldest first. -/
  executed : List String := []
  deriving DecidableEq

namespace Source

/-- What precedes the name of the table in a statement. -/
def fromPhrase : List Char := " FROM ".toList

/-- **The table that a statement reads from**, if it names one. -/
def target? (statement : String) : Option String := do
  let s := statement.toList
  let i ← Text.find? fromPhrase (Text.upper s)
  let w ← Text.firstWord (s.drop (i + fromPhrase.length))
  return .ofList w

/-- The answer to a statement. -/
def answer (s : Source) (statement : String) : Except QueryFault ResultSet :=
  if s.failing then .error .unavailable
  else
    match target? statement with
    | none => .error (.noTable statement)
    | some table => .ok (s.tables.getD table .empty)

/-- **Executes a statement**: records it, and answers it or says which instance does not. -/
def execute (s : Source) (statement : String) : Except Error ResultSet × Source :=
  ((s.answer statement).mapError (.query s.instanceId ·),
   ⟨s.instanceId, s.tables, s.failing, s.executed ++ [statement]⟩)

instance : DataSource Source := ⟨instanceId, execute⟩

/-- The source with another answer for a table. -/
def withTable (s : Source) (table : String) (rows : ResultSet) : Source :=
  ⟨s.instanceId, s.tables.insert table rows, s.failing, s.executed⟩

/-- The source put out of order, or back in order. -/
def withFailing (s : Source) (failing : Bool) : Source :=
  ⟨s.instanceId, s.tables, failing, s.executed⟩

/-- The source that a JSON value stands for: an instance, and its tables as lists of records. -/
def ofJson? (j : Json) : Option Source :=
  match j.record? ["instance", "tables"] with
  | some [i, t] => do
    let i ← Json.required? Json.string? i
    let t ← Json.optional? ∅ (Json.map? ResultSet.ofJson?) t
    return ⟨i, t, false, []⟩
  | _ => none

end Source

end GrantCatalog
