/-
# `ResourceTables.Ddl` — `CREATE TABLE` and `CREATE INDEX` statements
-/
import ResourceTables.Table

namespace ResourceTables

/-- A column as a line of a statement. -/
def Column.ddl (column : Column) : String :=
  s!"{column.name} {column.type.sql}"
    ++ (if column.options.isNullable then "" else " NOT NULL")
    ++ (if column.options.unique then " UNIQUE" else "")
    ++ (match column.options.fallback with
        | some expression => s!" DEFAULT {expression}"
        | none => "")

/-- A clause for an action, where one is given. -/
def KeyAction.clause (event : String) : Option KeyAction → String
  | some action => s!" ON {event} {action.sql}"
  | none => ""

/-- A foreign key as a line of a statement. -/
def ForeignKey.ddl (key : ForeignKey) : String :=
  let columns := ", ".intercalate key.columns
  let referred := ", ".intercalate key.referredColumns
  s!"CONSTRAINT {key.name} FOREIGN KEY ({columns}) REFERENCES {key.referredTable} ({referred})"
    ++ KeyAction.clause "UPDATE" key.onUpdate ++ KeyAction.clause "DELETE" key.onDelete

namespace Table

/-- The line for the primary key, where there is one. -/
def primaryKeyDdl (table : Table) : List String :=
  match table.primaryKey with
  | [] => []
  | key =>
    let columns := ", ".intercalate (key.map (·.name))
    [s!"PRIMARY KEY ({columns})"]

/-- The lines between the brackets of a `CREATE TABLE` statement. -/
def ddlLines (table : Table) : List String :=
  table.columns.map (·.ddl) ++ table.primaryKeyDdl ++ table.constraints.map (·.ddl)

/-- The statement that creates the table. -/
def createSql (table : Table) : String :=
  s!"CREATE TABLE {table.fullName} (\n    " ++ ",\n    ".intercalate table.ddlLines ++ "\n);"

/-- One statement for every indexed column. -/
def createIndexSql (table : Table) : List String :=
  (table.columns.filter (·.options.index)).map fun column =>
    s!"CREATE INDEX ix_{table.name}_{column.name} ON {table.fullName} ({column.name});"

end Table

end ResourceTables
