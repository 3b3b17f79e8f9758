/-
# `ResourceTables.Model` — the compiled form of a resource

A concrete model owns a table.  An abstract one has no table; it carries the columns that its
fields would have.
-/
import ResourceTables.Table

namespace ResourceTables

/-- An equality between a key column and the column that it repeats. -/
structure JoinClause where
  own : String
  remote : String
  deriving DecidableEq

/-- The join as a condition. -/
def JoinClause.text (join : JoinClause) : String := s!"{join.own} = {join.remote}"

/-- How the far side of a relation is loaded. -/
inductive Loading where
  /-- As a query over the collection. -/
  | dynamic
  /-- As one object, on access. -/
  | select
  deriving DecidableEq

/-- One side of a relationship, as it stands on a model. -/
structure Relation where
  name : String
  target : String
  loading : Loading
  useList : Bool
  /-- The relation of the target that is the other side. -/
  backPopulates : Option String
  joinClauses : List JoinClause
  deriving DecidableEq

/-- A property of a model: a column under a name, or a relation. -/
inductive MappedProperty where
  | column (name column : String)
  | relation (relation : Relation)
  deriving DecidableEq

/-- The name of a property. -/
def MappedProperty.name : MappedProperty → String
  | column name _ => name
  | relation r => r.name

/-- A model without its methods. -/
structure ModelShape where
  name : String
  resource : String
  doc : Option String
  bases : List String
  isAbstract : Bool
  table : Option Table
  mixinColumns : List Column
  properties : List MappedProperty
  deriving DecidableEq

namespace ModelShape

/-- The columns of the table, or those carried in place of a table. -/
def columns (model : ModelShape) : List Column :=
  match model.table with
  | some table => table.columns
  | none => model.mixinColumns

/-- The name of the table. -/
def tableName? (model : ModelShape) : Option String := model.table.map (·.name)

/-- The first property of a name. -/
def property? (model : ModelShape) (name : String) : Option MappedProperty :=
  model.properties.find? (·.name == name)

/-- The first relation of a name. -/
def relation? (model : ModelShape) (name : String) : Option Relation :=
  model.properties.findSome? fun
    | .relation r => if r.name == name then some r else none
    | .column .. => none

end ModelShape

/-- A method: a text computed from the model that carries it. -/
abbrev Method := ModelShape → String

/-- The compiled form of a resource, with methods sorted by name. -/
structure Model extends ModelShape where
  methods : List (String × Method)

namespace Model

/-- The names of the methods, in order. -/
def methodNames (model : Model) : List String := model.methods.map (·.1)

/-- What a method says about the model, if the model has that method. -/
def call? (model : Model) (name : String) : Option String :=
  (model.methods.lookup name).map fun method => method model.toModelShape

/-- Whether two models of one cache are the same: a cache holds one model a resource and keeps
it for good. -/
def isSame (a b : Model) : Bool := a.resource == b.resource

end Model

/-- Puts a method where its name belongs, in place of an earlier one of that name. -/
def insertMethod (name : String) (method : Method) :
    List (String × Method) → List (String × Method)
  | [] => [(name, method)]
  | (n, m) :: rest =>
    if name = n then (name, method) :: rest
    else if name < n then (name, method) :: (n, m) :: rest
    else (n, m) :: insertMethod name method rest

/-- The methods sorted by name; of two with one name the later counts. -/
def sortMethods (methods : List (String × Method)) : List (String × Method) :=
  methods.foldl (fun sorted (name, method) => insertMethod name method sorted) []

end ResourceTables
