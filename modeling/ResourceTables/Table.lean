/-
# `ResourceTables.Table` — tables and the foreign keys between them
-/
import ResourceTables.Column

namespace ResourceTables

/-- What happens to a row when the row that it refers to changes or goes. -/
inductive KeyAction where
  | cascade | setNull | restrict | noAction
  deriving DecidableEq

/-- The action in a `CREATE TABLE` statement. -/
def KeyAction.sql : KeyAction → String
  | cascade => "CASCADE"
  | setNull => "SET NULL"
  | restrict => "RESTRICT"
  | noAction => "NO ACTION"

/-- A foreign key: each of `columns` refers to the column at its place in `referredColumns`. -/
structure ForeignKey where
  name : String
  columns : List String
  /-- The full name of the table that is referred to. -/
  referredTable : String
  referredColumns : List String
  onUpdate : Option KeyAction
  onDelete : Option KeyAction
  deriving DecidableEq

/-- The columns referred to, with their table. -/
def ForeignKey.qualifiedReferences (key : ForeignKey) : List String :=
  key.referredColumns.map fun column => s!"{key.referredTable}.{column}"

/-- A table, in a database schema if one is named. -/
structure Table where
  name : String
  schema : Option String
  columns : List Column
  constraints : List ForeignKey
  deriving DecidableEq

namespace Table

/-- The name by which other tables refer to this one. -/
def fullName (table : Table) : String :=
  match table.schema with
  | some schema => s!"{schema}.{table.name}"
  | none => table.name

/-- The columns of the primary key, in table order. -/
def primaryKey (table : Table) : List Column := table.columns.filter (·.isPrimaryKey)

/-- The first column of a name. -/
def column? (table : Table) (name : String) : Option Column :=
  table.columns.find? (·.name == name)

/-- The first foreign key of a name. -/
def constraint? (table : Table) (name : String) : Option ForeignKey :=
  table.constraints.find? (·.name == name)

/-- The table with one more column. -/
def addColumn (table : Table) (column : Column) : Table :=
  { table with columns := table.columns ++ [column] }

/-- The table with one more foreign key. -/
def addConstraint (table : Table) (key : ForeignKey) : Table :=
  { table with constraints := table.constraints ++ [key] }

end Table

end ResourceTables
