/-
# `ResourceTables.Descriptor` — everything that a declared resource contains

A name stands for one field or one relationship.  Declaring it twice in one resource is an
error; a nearer declaration takes the place of an inherited one, and so does its builder.
-/
import ResourceTables.Ancestry
import ResourceTables.Builder

namespace ResourceTables

/-- A field of a descriptor and the resource that declares it. -/
structure FieldEntry where
  name : String
  field : Field
  declaredBy : String
  deriving DecidableEq

/-- A relationship of a descriptor and the resource that declares it. -/
structure RelationshipEntry where
  name : String
  relationship : Relationship
  declaredBy : String
  /-- The target, once it has been looked up. -/
  resolved : Option Resource := none

/-- The fields, relationships and builders of a resource. -/
structure Descriptor where
  resource : String
  options : ResourceOptions
  fields : List FieldEntry := []
  relationships : List RelationshipEntry := []
  methods : List (String × Method) := []
  plan : BuildPlan := {}

namespace Descriptor

/-- The descriptor of a resource before any property is entered. -/
def ofResource (resource : Resource) : Descriptor :=
  { resource := resource.name, options := resource.options }

/-- Whether the resource has no table. -/
def isAbstract (d : Descriptor) : Bool := d.options.isAbstract

/-- Whether the model of the resource is generated. -/
def isGenerated (d : Descriptor) : Bool := d.plan.finished

/-- The entry of a field. -/
def fieldNamed? (d : Descriptor) (name : String) : Option FieldEntry :=
  d.fields.find? (·.name == name)

/-- The entry of a relationship. -/
def relationshipNamed? (d : Descriptor) (name : String) : Option RelationshipEntry :=
  d.relationships.find? (·.name == name)

/-- The entry of a relationship, for callers that ask a descriptor for it. -/
abbrev relationshipEntry? (d : Descriptor) (name : String) : Option RelationshipEntry :=
  d.relationshipNamed? name

/-- The field of a name. -/
def field? (d : Descriptor) (name : String) : Option Field := (d.fieldNamed? name).map (·.field)

/-- The relationship of a name. -/
def relationship? (d : Descriptor) (name : String) : Option Relationship :=
  (d.relationshipNamed? name).map (·.relationship)

/-- The resource that declares the property of a name. -/
def declaredBy? (d : Descriptor) (name : String) : Option String :=
  ((d.fieldNamed? name).map (·.declaredBy)).or ((d.relationshipNamed? name).map (·.declaredBy))

/-- Whether there is a property of a name. -/
def hasProperty (d : Descriptor) (name : String) : Bool := (d.declaredBy? name).isSome

/-- Whether a field is part of the primary key. -/
def hasPrimaryKey (d : Descriptor) : Bool := d.fields.any (·.field.isPrimaryKey)

/-- The targets whose primary keys become part of this resource's. -/
def identifyingTargets (d : Descriptor) : List String :=
  (d.relationships.filter fun e => e.relationship.identifying && e.relationship.hostsKey).map
    (·.relationship.target)

/-- What builders see of the descriptor. -/
def view (d : Descriptor) : PropertyView :=
  { resource := d.resource, relationships := d.relationships.map fun e => (e.name, e.relationship) }

/-! ## Entering properties -/

/-- The descriptor with a property entered under its name, whatever the name stood for. -/
def put (d : Descriptor) (p : CollectedProperty) : Descriptor :=
  match p.property with
  | .field field =>
    { d with
      relationships := d.relationships.filter (·.name != p.name)
      fields := putFirst (·.name == p.name)
        { name := p.name, field, declaredBy := p.declaredBy } d.fields }
  | .relationship relationship =>
    { d with
      fields := d.fields.filter (·.name != p.name)
      relationships := putFirst (·.name == p.name)
        { name := p.name, relationship, declaredBy := p.declaredBy } d.relationships }

/-- Enters a property.  The name may stand for a property of another resource, which is
replaced, but not for one of the same resource. -/
def register (p : CollectedProperty) : Action Descriptor Unit := do
  let d ← Action.read
  let builder := Builder.ofProperty p.name p.property
  match d.declaredBy? p.name with
  | none => Action.change fun d => { d.put p with plan := d.plan.add builder }
  | some origin =>
    if origin == p.declaredBy then Action.fail (.duplicateProperty d.resource p.name)
    else
      Action.note .debug
        (s!"'{d.resource}.{p.name}' declared by '{p.declaredBy}' shadows the one inherited from "
          ++ s!"'{origin}'")
      Action.change fun d => { d.put p with plan := d.plan.replace p.name builder }

/-- Enters a property that the resource declares itself. -/
def add (name : String) (property : Property) : Action Descriptor Unit := do
  let d ← Action.read
  register { name, property, declaredBy := d.resource }

/-- Enters a field before all other properties; the name must be free. -/
def prependField (name : String) (field : Field) : Action Descriptor Unit := do
  let d ← Action.read
  match d.declaredBy? name with
  | some origin => Action.fail (.duplicateProperty origin name)
  | none =>
    Action.change fun d =>
      { d with
        fields := { name, field, declaredBy := d.resource } :: d.fields
        plan := d.plan.insertAt 0 (.field name) }

/-! ## Changing what is entered -/

/-- Changes the first field of a name. -/
def modifyField (d : Descriptor) (name : String) (f : Field → Field) : Descriptor :=
  { d with
    fields := changeFirst (·.name == name) (fun e => { e with field := f e.field }) d.fields }

/-- Changes the first relationship of a name. -/
def modifyRelationship (d : Descriptor) (name : String) (f : Relationship → Relationship) :
    Descriptor :=
  { d with
    relationships := changeFirst (·.name == name)
      (fun e => { e with relationship := f e.relationship }) d.relationships }

/-- The descriptor of a resource whose model is generated. -/
def markGenerated (d : Descriptor) : Descriptor := { d with plan := d.plan.finish }

/-- The descriptor without anything that building has recorded. -/
def resetPlan (d : Descriptor) : Descriptor := { d with plan := d.plan.reset }

/-! ## Building -/

/-- Runs one phase of the builders. -/
def build (phase : Phase) (site : BuildSite) : Action (Descriptor × Roster Model) Unit := do
  let (d, _) ← Action.read
  Action.zoom (fun (d, drafts) => (d.plan, drafts))
    (fun (d, _) (plan, drafts) => ({ d with plan }, drafts)) (BuildPlan.run phase site d.view)

/-- Runs the builders whose columns join the primary key. -/
def buildPrimaryKey (site : BuildSite) : Action (Descriptor × Roster Model) Unit := do
  let (d, _) ← Action.read
  Action.zoom (fun (d, drafts) => (d.plan, drafts))
    (fun (d, _) (plan, drafts) => ({ d with plan }, drafts)) (BuildPlan.runPrimaryKey site d.view)

/-- Runs the phase of a name. -/
def buildNamed (operation : String) (site : BuildSite) :
    Action (Descriptor × Roster Model) Unit := do
  build (← Action.ofExcept (Phase.ofOperation operation)) site

end Descriptor

end ResourceTables
