/-
# `ResourceTables.Property` — what a resource can declare: fields and relationships
-/
import ResourceTables.Table

namespace ResourceTables

/-- A declared column. -/
structure Field where
  storage : StorageType
  options : ColumnOptions := {}
  doc : Option String := none
  deriving DecidableEq

/-- Whether the field is part of the primary key. -/
def Field.isPrimaryKey (field : Field) : Bool := field.options.primaryKey

/-- How many resources stand on either side of a relationship. -/
inductive RelationshipKind where
  | manyToOne | oneToMany | oneToOne
  deriving DecidableEq

namespace RelationshipKind

/-- The kind seen from the other side. -/
def inverse : RelationshipKind → RelationshipKind
  | manyToOne => oneToMany
  | oneToMany => manyToOne
  | oneToOne => oneToOne

/-- Whether the far side is a collection. -/
def useList (kind : RelationshipKind) : Bool := kind == oneToMany

/-- The kind in words. -/
def text : RelationshipKind → String
  | manyToOne => "many-to-one"
  | oneToMany => "one-to-many"
  | oneToOne => "one-to-one"

@[simp] theorem inverse_inverse (kind : RelationshipKind) : kind.inverse.inverse = kind := by
  cases kind <;> rfl

end RelationshipKind

/-- A declared link to another resource, which is given by name. -/
structure Relationship where
  kind : RelationshipKind
  target : String
  /-- The relationship of the target that is the other side. -/
  inverse : Option String := none
  /-- A primary side hosts no key. -/
  primary : Bool
  /-- The key becomes part of the primary key of its table. -/
  identifying : Bool := false
  onUpdate : Option KeyAction := some .cascade
  onDelete : Option KeyAction := none
  /-- Made to complete a one-to-many, not declared. -/
  synthesized : Bool := false
  deriving DecidableEq

namespace Relationship

/-- A relationship of a kind: only the one side of a one-to-many starts as primary. -/
def new (kind : RelationshipKind) (target : String) : Relationship :=
  { kind, target, primary := kind == .oneToMany }

/-- Whether the table of this side holds the foreign key. -/
def hostsKey (r : Relationship) : Bool := !r.primary

/-- Whether the far side is a collection. -/
def useList (r : Relationship) : Bool := r.kind.useList

end Relationship

/-- A field or a relationship. -/
inductive Property where
  | field (field : Field)
  | relationship (relationship : Relationship)
  deriving DecidableEq

namespace Property

/-- The field, if the property is one. -/
def field? : Property → Option Field
  | field f => some f
  | relationship _ => none

/-- The relationship, if the property is one. -/
def relationship? : Property → Option Relationship
  | field _ => none
  | relationship r => some r

end Property

end ResourceTables
