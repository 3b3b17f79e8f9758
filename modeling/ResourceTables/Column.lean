/-
# `ResourceTables.Column` — storage types and the columns that hold them
-/
import ResourceTables.Text.Blank

namespace ResourceTables

/-- The type under which a column is stored. -/
inductive StorageType where
  | integer | bigInteger | smallInteger | float
  | numeric (precision scale : Nat)
  | string (length : Option Nat)
  | text | boolean | date | dateTime | binary
  /-- A type of one database engine, written as it is given. -/
  | custom (name : String)
  deriving DecidableEq

namespace StorageType

/-- The type in a `CREATE TABLE` statement. -/
def sql : StorageType → String
  | integer => "INTEGER"
  | bigInteger => "BIGINT"
  | smallInteger => "SMALLINT"
  | float => "FLOAT"
  | numeric precision scale => s!"NUMERIC({precision}, {scale})"
  | string (some length) => s!"VARCHAR({length})"
  | string none => "VARCHAR"
  | text => "TEXT"
  | boolean => "BOOLEAN"
  | date => "DATE"
  | dateTime => "TIMESTAMP"
  | binary => "BLOB"
  | custom name => name

/-- The types that declarations can name. -/
def named : List (String × StorageType) :=
  [("integer", integer), ("int", integer), ("big_integer", bigInteger), ("bigint", bigInteger),
    ("small_integer", smallInteger), ("smallint", smallInteger), ("float", float),
    ("numeric", numeric 10 2), ("decimal", numeric 10 2), ("string", string none),
    ("varchar", string none), ("text", text), ("boolean", boolean), ("bool", boolean),
    ("date", date), ("datetime", dateTime), ("timestamp", dateTime), ("binary", binary),
    ("blob", binary)]

/-- The type that a declaration means; case and surrounding blanks do not matter, and an unknown
name is a type of the engine. -/
def ofText (text : String) : StorageType :=
  let name := Text.trimmed text
  (named.lookup (name.map Char.toLower)).getD (.custom name)

end StorageType

/-- How a column is stored beyond its type. -/
structure ColumnOptions where
  primaryKey : Bool := false
  /-- Nothing said: nullable unless part of the primary key. -/
  nullable : Option Bool := none
  unique : Bool := false
  index : Bool := false
  /-- An expression that the database evaluates for rows without a value. -/
  fallback : Option String := none
  deriving DecidableEq

/-- Whether the column takes nulls. -/
def ColumnOptions.isNullable (options : ColumnOptions) : Bool :=
  options.nullable.getD !options.primaryKey

/-- A column of a table. -/
structure Column where
  name : String
  type : StorageType
  options : ColumnOptions
  deriving DecidableEq

/-- Whether the column is part of the primary key. -/
def Column.isPrimaryKey (column : Column) : Bool := column.options.primaryKey

end ResourceTables
