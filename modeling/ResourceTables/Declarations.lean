/-
# `ResourceTables.Declarations` — the resources that one file declares

A definition is a resource as it is written down.  Definitions are declared parents first, and
otherwise in the order of the file.
-/
import ResourceTables.Resource
import ResourceTables.Rounds
import ResourceTables.Text.Inspect

namespace ResourceTables

/-- A field as it is written down. -/
structure FieldDefinition where
  name : String
  type : String
  /-- The length of a `string` column. -/
  length : Option Nat := none
  precision : Option Nat := none
  scale : Option Nat := none
  primaryKey : Bool := false
  nullable : Option Bool := none
  unique : Bool := false
  index : Bool := false
  fallback : Option String := none
  doc : Option String := none
  deriving DecidableEq

/-- A relationship as it is written down. -/
structure RelationshipDefinition where
  name : String
  kind : RelationshipKind
  target : String
  inverse : Option String := none
  primary : Bool := false
  identifying : Bool := false
  onUpdate : Option KeyAction := none
  onDelete : Option KeyAction := none
  deriving DecidableEq

/-- A resource as it is written down. -/
structure Definition where
  name : String
  parent : Option String := none
  isAbstract : Bool := false
  tableName : Option String := none
  generatorName : Option String := none
  doc : Option String := none
  mixins : List String := []
  fields : List FieldDefinition := []
  relationships : List RelationshipDefinition := []
  deriving DecidableEq

/-- The content of a declarations file. -/
structure Declarations where
  name : Option String := none
  resources : List Definition
  deriving DecidableEq

namespace FieldDefinition

/-- The storage type: the one named, with the length, precision and scale that are given. -/
def storage (f : FieldDefinition) : StorageType :=
  match StorageType.ofText f.type with
  | .string _ => .string f.length
  | .numeric precision scale => .numeric (f.precision.getD precision) (f.scale.getD scale)
  | other => other

/-- The field that is meant. -/
def toField (f : FieldDefinition) : Field :=
  { storage := f.storage
    options :=
      { primaryKey := f.primaryKey, nullable := f.nullable, unique := f.unique, index := f.index,
        fallback := f.fallback }
    doc := f.doc }

end FieldDefinition

/-- The relationship that is meant; what is not said keeps the default of its kind. -/
def RelationshipDefinition.toRelationship (r : RelationshipDefinition) : Relationship :=
  let fresh := Relationship.new r.kind r.target
  { fresh with
    inverse := r.inverse
    primary := fresh.primary || r.primary
    identifying := r.identifying
    onUpdate := r.onUpdate.or fresh.onUpdate
    onDelete := r.onDelete }

namespace Definition

/-- The number of properties written down. -/
def size (d : Definition) : Nat := d.fields.length + d.relationships.length

/-- The properties that are meant, fields first. -/
def properties (d : Definition) : List (String × Property) :=
  d.fields.map (fun f => (f.name, .field f.toField))
    ++ d.relationships.map fun r => (r.name, .relationship r.toRelationship)

/-- The resource that is meant.  Its properties are made one after another, the first at time
`created`. -/
def toResource (d : Definition) (created : Nat) : Except Error Resource := do
  let generator ← d.generatorName.mapM Naming.generatorNamed
  return {
    name := d.name
    parent := d.parent
    mixins := d.mixins
    properties := d.properties.zipIdx.map fun ((name, property), i) =>
      { name, created := created + i, property }
    options := { tableName := d.tableName, generator, isAbstract := d.isAbstract }
    doc := d.doc }

end Definition

namespace Declarations

/-- The first name that occurs earlier in the list or among `seen`. -/
def repeatedName? (seen : List String) : List String → Option String
  | [] => none
  | name :: rest => if seen.contains name then some name else repeatedName? (name :: seen) rest

/-- Accepts a definition whose parent is among `names` and whose generator exists. -/
def checkDefinition (names : List String) (d : Definition) : Except Error Unit := do
  if let some parent := d.parent then
    unless names.contains parent do
      throw (.invalidDeclarations s!"Resource '{d.name}' extends unknown resource '{parent}'")
  if let some generator := d.generatorName then
    unless Naming.isKnownGenerator generator do
      throw (.unknownGenerator generator)

/-- The names of the declared resources, in file order. -/
def names (d : Declarations) : List String := d.resources.map (·.name)

/-- Accepts declarations that have resources with distinct names, known parents and known
generators. -/
def validate (d : Declarations) : Except Error Unit := do
  if d.resources.isEmpty then
    throw (.invalidDeclarations "Declarations must contain at least one resource")
  if let some name := repeatedName? [] d.names then
    throw (.invalidDeclarations s!"Duplicate resource name: {name}")
  d.resources.forM (checkDefinition d.names)

/-! ## Parents first -/

/-- Whether a definition has no parent, or one that is already placed. -/
def isReady (placed : List String) (d : Definition) : Bool :=
  match d.parent with
  | none => true
  | some parent => placed.contains parent

/-- The definitions in an order in which every parent precedes its subclasses. -/
def inOrder (d : Declarations) : Except Error (List Definition) :=
  match inRounds (·.name) isReady [] d.resources with
  | (ordered, []) => .ok ordered
  | (_, stuck) =>
    .error (.invalidDeclarations
      ("Inheritance cycle between resources: " ++ Text.quotedNames (stuck.map (·.name))))

end Declarations

end ResourceTables
