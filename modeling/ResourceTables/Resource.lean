/-
# `ResourceTables.Resource` — declared resources and the register of them
-/
import ResourceTables.Model
import ResourceTables.Naming
import ResourceTables.Property
import ResourceTables.Roster

namespace ResourceTables

/-- How a resource is named and stored. -/
structure ResourceOptions where
  tableName : Option String := none
  generator : Option Naming.Generator := none
  isAbstract : Bool := false

/-- The table name of a resource: the one given, else by its own generator, else by `default`. -/
def ResourceOptions.tableNameFor (options : ResourceOptions) (resource : String)
    (default : Naming.Generator) : String :=
  match options.tableName, options.generator with
  | some name, _ => name
  | none, some generator => generator resource
  | none, none => default resource

/-- A property under a name.  `created` orders properties by the time of their making. -/
structure DeclaredProperty where
  name : String
  created : Nat
  property : Property
  deriving DecidableEq

/-- A declared resource with its own properties; what it inherits is found through `parent`. -/
structure Resource where
  name : String
  parent : Option String := none
  /-- Bases that are no resources; a model lists them and takes nothing else from them. -/
  mixins : List String := []
  properties : List DeclaredProperty := []
  options : ResourceOptions := {}
  doc : Option String := none
  methods : List (String × Method) := []

/-- Whether the resource has no table. -/
def Resource.isAbstract (resource : Resource) : Bool := resource.options.isAbstract

/-- The resource of a name among the registered ones. -/
def resolve (resources : Roster Resource) (name : String) : Except Error Resource :=
  match resources.get? name with
  | some resource => .ok resource
  | none => .error (.unresolvedTarget name)

/-- The resource of a name; the error tells where the name was used. -/
def resolveIn (resources : Roster Resource) (name context : String) : Except Error Resource :=
  match resources.get? name with
  | some resource => .ok resource
  | none => .error (.unresolvedTargetIn name context)

end ResourceTables
