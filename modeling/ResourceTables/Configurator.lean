/-
# `ResourceTables.Configurator` — changes made to every declared resource
-/
import ResourceTables.Descriptor
import ResourceTables.Settings

namespace ResourceTables

/-- A change that runs once for every declared resource, after its properties are entered. -/
structure Configurator where
  name : String
  configure : Settings → Action Descriptor Unit

namespace Configurator

/-- Whether a resource has to be given a primary key: it has a table, and neither a field nor a
relationship of it is meant as key. -/
def needsPrimaryKey (d : Descriptor) : Bool :=
  !d.isAbstract && !d.hasPrimaryKey && !d.relationships.any (·.relationship.identifying)

/-- Puts an integer key before all other fields of a resource that needs one, unless the name of
the key is taken. -/
def addPrimaryKey (settings : Settings) : Action Descriptor Unit := do
  let d ← Action.read
  let column := settings.primaryKeyColumn
  if !needsPrimaryKey d then pure ()
  else if d.hasProperty column then
    Action.note .warn
      s!"'{d.resource}' has no primary key but already declares '{column}', not adding one"
  else
    Descriptor.prependField column { storage := .integer, options := { primaryKey := true } }
    Action.note .debug s!"Added primary key '{column}' to '{d.resource}'"

/-- The configurator that gives resources a primary key. -/
def primaryKey : Configurator := { name := "primary_key", configure := addPrimaryKey }

/-- Applies one configurator after another. -/
def applyAll (settings : Settings) : List Configurator → Action Descriptor Unit
  | [] => pure ()
  | c :: rest => do
    let d ← Action.read
    Action.note .debug s!"Applying configurator '{c.name}' to '{d.resource}'"
    c.configure settings
    applyAll settings rest

end Configurator

end ResourceTables
