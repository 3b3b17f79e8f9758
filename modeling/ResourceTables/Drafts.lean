/-
# `ResourceTables.Drafts` — tables in the making and the tables they refer to

Drafts are the models of the unit that is being compiled; they are changed.  Generated models
come from earlier compilations and are only read.
-/
import ResourceTables.Action
import ResourceTables.Model
import ResourceTables.Roster

namespace ResourceTables

/-- Where builders work: the owner of the properties, and the models generated before. -/
structure BuildSite where
  owner : String
  generated : Roster Model

namespace BuildSite

/-- The table of a model that is known under a name. -/
def tableOf (name : String) : Option Model → Except Error Table
  | none => .error (.unresolvedTarget name)
  | some model =>
    match model.table with
    | some table => .ok table
    | none => .error (.abstractTarget name)

/-- The table of the owner. -/
def ownerTable (site : BuildSite) (drafts : Roster Model) : Except Error Table :=
  tableOf site.owner (drafts.get? site.owner)

/-- The table of a target: its draft, else the table generated before. -/
def targetTable (site : BuildSite) (drafts : Roster Model) (target : String) :
    Except Error Table :=
  tableOf target ((drafts.get? target).or (site.generated.get? target))

/-- Puts a changed table on the owner's draft. -/
def putOwnerTable (site : BuildSite) (drafts : Roster Model) (table : Table) : Roster Model :=
  drafts.modify site.owner fun model => { model with table := some table }

/-- Changes the table of the owner. -/
def changeOwnerTable (site : BuildSite) (f : Table → Table) : Action (Roster Model) Unit := do
  let table ← Action.ofExcept (site.ownerTable (← Action.read))
  Action.change fun drafts => site.putOwnerTable drafts (f table)

/-- Adds a property to the owner's draft, which must not have one of that name. -/
def addProperty (site : BuildSite) (property : MappedProperty) :
    Action (Roster Model) Unit := do
  match (← Action.read).get? site.owner with
  | none => Action.fail (.unresolvedTarget site.owner)
  | some model =>
    if (model.property? property.name).isSome then
      Action.fail (.duplicateProperty model.resource property.name)
    else
      Action.change fun drafts => drafts.modify site.owner fun model =>
        { model with properties := model.properties ++ [property] }

end BuildSite

end ResourceTables
