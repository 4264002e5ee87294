import GrantCatalog.Privilege

/-!
# The privilege catalogs of a server

A server keeps who may do what in three tables: one row per grantee for what is held on the whole
server, one per grantee and schema, and one per grantee, schema and table. The first two have a
**flag column** for each privilege, the third a single column with a list of privileges.

* `GrantCatalog.Catalog.all` – the three, in the order in which they are consulted;
* `GrantCatalog.Catalog.statement` – the query for the rows of some grantees;
* `GrantCatalog.Catalog.flags` – the flag columns and what they stand for.
-/

namespace GrantCatalog

/-- A table of the server that says who holds what. -/
inductive Catalog where
  /-- What is held on the whole server. -/
  | server
  /-- What is held on schemas. -/
  | schema
  /-- What is held on tables. -/
  | table
  deriving DecidableEq, Repr, Inhabited

namespace Catalog

/-- The catalogs in the order in which they are consulted. -/
def all : List Catalog := [server, schema, table]

/-- The list of all catalogs leaves none out. -/
theorem mem_all (c : Catalog) : c ∈ all := by
  cases c <;> decide

/-- The qualified name of the table. -/
def tableName : Catalog → String
  | server => "mysql.user"
  | schema => "mysql.db"
  | table => "mysql.tables_priv"

/-- The columns that a query asks for. -/
def projection : Catalog → String
  | server => "*"
  | schema => "*"
  | table => "User, Host, Db, Table_name, Table_priv"

/-- **The query for the rows of some grantees**, which are given as a list of pairs in SQL. -/
def statement (c : Catalog) (grantees : String) : String :=
  "SELECT " ++ c.projection ++ " FROM " ++ c.tableName ++ " WHERE (user, host) IN (" ++ grantees
    ++ ")"

/-! ### Columns -/

/-- The flag columns for the privileges that make sense for a whole server only. -/
def serverFlags : List (String × Privilege) :=
  [("Super_priv", .super), ("Reload_priv", .reload), ("Shutdown_priv", .shutdown),
   ("Process_priv", .process), ("File_priv", .file), ("Show_db_priv", .showDatabases),
   ("Repl_slave_priv", .replicationSlave), ("Repl_client_priv", .replicationClient),
   ("Create_user_priv", .createUser), ("Create_tablespace_priv", .createTablespace)]

/-- The flag columns for the privileges that may be held on a schema. -/
def schemaFlags : List (String × Privilege) :=
  [("Select_priv", .select), ("Insert_priv", .insert), ("Update_priv", .update),
   ("Delete_priv", .delete), ("Create_priv", .create), ("Alter_priv", .alter),
   ("Drop_priv", .drop), ("Grant_priv", .grant), ("Index_priv", .index),
   ("References_priv", .references), ("Create_tmp_table_priv", .createTemporaryTables),
   ("Lock_tables_priv", .lockTables), ("Execute_priv", .execute),
   ("Create_view_priv", .createView), ("Show_view_priv", .showView),
   ("Create_routine_priv", .createRoutine), ("Alter_routine_priv", .alterRoutine),
   ("Event_priv", .event), ("Trigger_priv", .trigger)]

/-- **The flag columns of a catalog**, each with the privilege it is the flag of. -/
def flags : Catalog → List (String × Privilege)
  | server => serverFlags ++ schemaFlags
  | schema => schemaFlags
  | table => []

/-- The column with the user name. -/
def userColumn : String := "user"

/-- The column with the host. -/
def hostColumn : String := "host"

/-- The column with the schema. -/
def schemaColumn : String := "Db"

/-- The column with the table. -/
def tableColumn : String := "Table_name"

/-- The column with the list of privileges held on a table. -/
def listColumn : String := "Table_priv"

end Catalog

end GrantCatalog
