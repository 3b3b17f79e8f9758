/-
# `ResourceTables.Encoding` — the JSON form of columns, tables, models, declarations and settings
-/
import ResourceTables.Declarations
import ResourceTables.Json
import ResourceTables.Settings

namespace ResourceTables

open Json (nat strings possible)

/-- A storage type: a word, or an object from the word to what the type takes. -/
def StorageType.toJson : StorageType → Json
  | integer => .string "Integer"
  | bigInteger => .string "BigInteger"
  | smallInteger => .string "SmallInteger"
  | float => .string "Float"
  | numeric precision scale =>
    .object [("Numeric", .object [("precision", nat precision), ("scale", nat scale)])]
  | string length => .object [("String", possible nat length)]
  | text => .string "Text"
  | boolean => .string "Boolean"
  | date => .string "Date"
  | dateTime => .string "DateTime"
  | binary => .string "Binary"
  | custom name => .object [("Custom", .string name)]

/-- Column options with every key. -/
def ColumnOptions.toJson (options : ColumnOptions) : Json :=
  .object [
    ("primary_key", .bool options.primaryKey),
    ("nullable", possible .bool options.nullable),
    ("unique", .bool options.unique),
    ("index", .bool options.index),
    ("default", possible .string options.fallback)]

/-- A column. -/
def Column.toJson (column : Column) : Json :=
  .object [
    ("name", .string column.name),
    ("sql_type", column.type.toJson),
    ("options", column.options.toJson)]

/-- The words for the actions of foreign keys. -/
def KeyAction.words : List (String × KeyAction) :=
  [("cascade", cascade), ("set_null", setNull), ("restrict", restrict), ("no_action", noAction)]

/-- The word for an action. -/
def KeyAction.word : KeyAction → String
  | cascade => "cascade"
  | setNull => "set_null"
  | restrict => "restrict"
  | noAction => "no_action"

/-- An action of a foreign key. -/
def KeyAction.toJson (action : KeyAction) : Json := .string action.word

/-- A foreign key. -/
def ForeignKey.toJson (key : ForeignKey) : Json :=
  .object [
    ("name", .string key.name),
    ("columns", strings key.columns),
    ("referred_table", .string key.referredTable),
    ("referred_columns", strings key.referredColumns),
    ("on_update", possible (·.toJson) key.onUpdate),
    ("on_delete", possible (·.toJson) key.onDelete)]

/-- A table. -/
def Table.toJson (table : Table) : Json :=
  .object [
    ("name", .string table.name),
    ("schema", possible .string table.schema),
    ("columns", .array (table.columns.map (·.toJson))),
    ("constraints", .array (table.constraints.map (·.toJson)))]

/-- A join. -/
def JoinClause.toJson (join : JoinClause) : Json :=
  .object [("local", .string join.own), ("remote", .string join.remote)]

/-- The words for the ways of loading. -/
def Loading.words : List (String × Loading) := [("dynamic", dynamic), ("select", select)]

/-- The word for a way of loading. -/
def Loading.word : Loading → String
  | dynamic => "dynamic"
  | select => "select"

/-- The parts of a relation. -/
def Relation.members (r : Relation) : List (String × Json) :=
  [("name", .string r.name),
    ("target", .string r.target),
    ("lazy", .string r.loading.word),
    ("use_list", .bool r.useList),
    ("back_populates", possible .string r.backPopulates),
    ("join_clauses", .array (r.joinClauses.map (·.toJson)))]

/-- A property of a model, told apart by its kind. -/
def MappedProperty.toJson : MappedProperty → Json
  | column name source =>
    .object [("kind", .string "column"), ("name", .string name), ("column", .string source)]
  | relation r => .object (("kind", .string "relation") :: r.members)

/-- The parts of a model. -/
def ModelShape.members (model : ModelShape) : List (String × Json) :=
  [("name", .string model.name),
    ("resource", .string model.resource),
    ("doc", possible .string model.doc),
    ("bases", strings model.bases),
    ("is_abstract", .bool model.isAbstract),
    ("table", possible (·.toJson) model.table),
    ("mixin_columns", .array (model.mixinColumns.map (·.toJson))),
    ("properties", .array (model.properties.map (·.toJson)))]

/-- A model without its methods. -/
def ModelShape.toJson (model : ModelShape) : Json := .object model.members

/-- The words for the kinds of relationships. -/
def RelationshipKind.words : List (String × RelationshipKind) :=
  [("many_to_one", manyToOne), ("one_to_many", oneToMany), ("one_to_one", oneToOne)]

/-- The word for a kind of relationship. -/
def RelationshipKind.word : RelationshipKind → String
  | manyToOne => "many_to_one"
  | oneToMany => "one_to_many"
  | oneToOne => "one_to_one"

/-- Settings with every key. -/
def Settings.toJson (s : Settings) : Json :=
  .object [
    ("model_base", .string s.modelBase),
    ("schema", possible .string s.schema),
    ("auto_primary_key", .bool s.autoPrimaryKey),
    ("primary_key_column", .string s.primaryKeyColumn),
    ("tablename_generator", .string s.generatorName)]

/-- A field definition with every key. -/
def FieldDefinition.toJson (f : FieldDefinition) : Json :=
  .object [
    ("name", .string f.name),
    ("type", .string f.type),
    ("length", possible nat f.length),
    ("precision", possible nat f.precision),
    ("scale", possible nat f.scale),
    ("primary_key", .bool f.primaryKey),
    ("nullable", possible .bool f.nullable),
    ("unique", .bool f.unique),
    ("index", .bool f.index),
    ("default", possible .string f.fallback),
    ("doc", possible .string f.doc)]

/-- A relationship definition with every key. -/
def RelationshipDefinition.toJson (r : RelationshipDefinition) : Json :=
  .object [
    ("name", .string r.name),
    ("kind", .string r.kind.word),
    ("target", .string r.target),
    ("inverse", possible .string r.inverse),
    ("primary", .bool r.primary),
    ("identifying", .bool r.identifying),
    ("on_update", possible (·.toJson) r.onUpdate),
    ("on_delete", possible (·.toJson) r.onDelete)]

/-- A definition with every key. -/
def Definition.toJson (d : Definition) : Json :=
  .object [
    ("name", .string d.name),
    ("extends", possible .string d.parent),
    ("abstract", .bool d.isAbstract),
    ("tablename", possible .string d.tableName),
    ("tablename_generator", possible .string d.generatorName),
    ("doc", possible .string d.doc),
    ("mixins", strings d.mixins),
    ("fields", .array (d.fields.map (·.toJson))),
    ("relationships", .array (d.relationships.map (·.toJson)))]

/-- Declarations with every key. -/
def Declarations.toJson (d : Declarations) : Json :=
  .object [
    ("name", possible .string d.name),
    ("resources", .array (d.resources.map (·.toJson)))]

end ResourceTables
