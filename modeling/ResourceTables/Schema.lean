/-
# `ResourceTables.Schema` — the compiled form of everything that was declared
-/
import ResourceTables.Ddl
import ResourceTables.Encoding

namespace ResourceTables

/-- The models of all resources, in the order of declaration. -/
structure Schema where
  models : List Model

namespace Schema

/-- The model of a name. -/
def get? (schema : Schema) (name : String) : Option Model :=
  schema.models.find? (·.name == name)

/-- The tables of the concrete models. -/
def tables (schema : Schema) : List Table := schema.models.filterMap (·.table)

/-- The statements that create a table and its indexes. -/
def tableSql (table : Table) : String := "\n".intercalate (table.createSql :: table.createIndexSql)

/-- The statements that create the tables. -/
def sql (schema : Schema) : String := "\n\n".intercalate (schema.tables.map tableSql)

/-- The schema as a JSON document. -/
def toJson (schema : Schema) : Json :=
  .object [("models", .array (schema.models.map (·.toJson)))]

/-- The schema as JSON text. -/
def jsonText (schema : Schema) : String := schema.toJson.text

end Schema

end ResourceTables
