/-
# `ResourceTables.Binding` — the unit of resources that have to be compiled together

A unit is a resource with every pending resource that it leads to: by its relationships, and
back along one-to-many relationships into it, since their key stands on a member of the unit.

Binding looks up every target of the unit, completes every one-to-many with a many-to-one on its
target, and checks that the sides of each pair fit.  A subclass inherits a one-to-many as a side
of its own: unless the inherited inverse already points back at it, the target gets another
many-to-one, named after the subclass.
-/
import ResourceTables.Descriptor
import ResourceTables.Text.Inspect

namespace ResourceTables

/-- A step on the descriptor of a resource, done among all descriptors. -/
def within {α : Type} (resource : String) (x : Action Descriptor α) :
    Action (Roster Descriptor) α := fun descriptors =>
  match descriptors.get? resource with
  | none => ⟨.error (.unresolvedTarget resource), descriptors, []⟩
  | some d =>
    let done := x d
    ⟨done.result, descriptors.modify resource fun _ => done.state, done.notes⟩

namespace Binding

/-! ## The unit of a resource -/

/-- Whether a resource waits for compilation: it has a table and no model yet. -/
def isPending (descriptors : Roster Descriptor) (models : Roster Model) (name : String) : Bool :=
  match descriptors.get? name with
  | none => false
  | some d => !d.isAbstract && !d.isGenerated && !models.contains name

/-- The targets of a resource's relationships, in order. -/
def targetsOf (descriptors : Roster Descriptor) (name : String) : List String :=
  match descriptors.get? name with
  | none => []
  | some d => d.relationships.map (·.relationship.target)

/-- Whether a descriptor has a one-to-many into a resource. -/
def listsInto (target : String) (d : Descriptor) : Bool :=
  d.relationships.any fun e =>
    e.relationship.kind == .oneToMany && e.relationship.target == target

/-- The resources with a one-to-many into another, as their descriptors come. -/
def listing (descriptors : Roster Descriptor) (target : String) : List String :=
  (descriptors.entries.filter fun (_, d) => listsInto target d).map (·.1)

/-- The resources that have to be compiled with a given one: those with a one-to-many into it,
then its targets. -/
def companions (resources : Roster Resource) (descriptors : Roster Descriptor) (name : String) :
    List String :=
  let listing := listing descriptors name
  resources.names.filter listing.contains ++ targetsOf descriptors name

/-- The members of the unit of a resource, nearest first; whatever it leads to has to be pending. -/
def members (resources : Roster Resource) (descriptors : Roster Descriptor)
    (models : Roster Model) (root : String) : List String :=
  reach descriptors.names
    (fun name => (companions resources descriptors name).filter (isPending descriptors models))
    root

/-! ## Looking up targets -/

/-- Looks up the target of a relationship, which must have a table. -/
def lookUpTarget (resources : Roster Resource) (resource : String) :
    Action RelationshipEntry Unit := do
  let entry ← Action.read
  let target ← Action.ofExcept (resolveIn resources entry.relationship.target
    s!"relationship '{entry.name}' on resource '{resource}'")
  Action.change fun entry => { entry with resolved := some target }
  if target.isAbstract then Action.fail (.abstractTarget target.name)
  else Action.note .debug s!"Resolved '{resource}.{entry.name}' -> '{target.name}'"

/-- Looks up the targets of a member of the unit, in order. -/
def lookUpTargets (resources : Roster Resource) (resource : String) :
    Action (Roster Descriptor) Unit :=
  within resource fun d =>
    let one : Action (RelationshipEntry × Unit) Unit :=
      Action.zoom (·.1) (fun _ entry => (entry, ())) (lookUpTarget resources resource)
    let done := Action.each one d.relationships ()
    ⟨done.result, { d with relationships := done.state.1 }, done.notes⟩

/-! ## Completing one-to-many relationships -/

/-- A one-to-many of a member of the unit. -/
structure ManySide where
  owner : String
  /-- The relationship is declared by an ancestor of the owner. -/
  inherited : Bool
  relationship : String
  target : String
  inverse : Option String
  onUpdate : Option KeyAction
  onDelete : Option KeyAction

/-- The one-to-many relationships of a descriptor. -/
def manySidesOf (owner : String) (d : Descriptor) : List ManySide :=
  (d.relationships.filter (·.relationship.kind == .oneToMany)).map fun e =>
    { owner
      inherited := e.declaredBy != owner
      relationship := e.name
      target := e.relationship.target
      inverse := e.relationship.inverse
      onUpdate := e.relationship.onUpdate
      onDelete := e.relationship.onDelete }

/-- The one-to-many relationships of the unit, member by member. -/
def manySides (descriptors : Roster Descriptor) (unit : List String) : List ManySide :=
  unit.flatMap fun name =>
    match descriptors.get? name with
    | none => []
    | some d => manySidesOf name d

/-- Whether the target of a side has a relationship of that name back to the owner. -/
def pointsBack (descriptors : Roster Descriptor) (side : ManySide) (inverse : String) : Bool :=
  match (descriptors.get? side.target).bind (·.relationship? inverse) with
  | none => false
  | some r => r.target == side.owner

/-- The name of the other side: the declared inverse, as long as it is the owner's own, else the
owner's name in snake case. -/
def inverseName (descriptors : Roster Descriptor) (side : ManySide) : String :=
  match side.inverse with
  | some inverse =>
    if !side.inherited || pointsBack descriptors side inverse then inverse
    else Naming.snakeCase side.owner
  | none => Naming.snakeCase side.owner

/-- The many-to-one that completes a side. -/
def completion (side : ManySide) : Relationship :=
  let fresh := Relationship.new .manyToOne side.owner
  { fresh with
    inverse := some side.relationship
    onUpdate := side.onUpdate.or fresh.onUpdate
    onDelete := side.onDelete.or fresh.onDelete
    synthesized := true }

/-- Adds the completion of a side to its target, with the owner already looked up. -/
def addCompletion (side : ManySide) (inverse : String) (owner : Resource) :
    Action Descriptor Unit := do
  Descriptor.add inverse (.relationship (completion side))
  Action.change fun d =>
    { d with
      relationships := changeFirst (·.name == inverse)
        (fun e => { e with resolved := some owner }) d.relationships }

/-- Settles the inverse of a side; where the target has no property of that name, it is given
the many-to-one that is missing. -/
def completeSide (resources : Roster Resource) (models : Roster Model) (side : ManySide) :
    Action (Roster Descriptor) Unit := do
  let inverse ← Action.reads fun descriptors => inverseName descriptors side
  Action.change fun descriptors =>
    descriptors.modify side.owner fun d =>
      d.modifyRelationship side.relationship fun r => { r with inverse := some inverse }
  match ← Action.reads (·.get? side.target) with
  | none =>
    Action.fail (.unresolvedTargetIn side.target
      s!"relationship '{side.relationship}' on resource '{side.owner}'")
  | some target =>
    if target.hasProperty inverse then pure ()
    else if models.contains side.target || target.isGenerated then
      Action.fail (.invalidInverse side.owner side.relationship inverse
        s!"'{side.target}' is already generated and does not declare it")
    else
      let owner ← Action.ofExcept (resolveIn resources side.owner
        s!"inverse of relationship '{side.relationship}' on resource '{side.owner}'")
      within side.target (addCompletion side inverse owner)
      Action.note .debug
        (s!"Synthesized many-to-one '{side.target}.{inverse}' for "
          ++ s!"'{side.owner}.{side.relationship}'")

/-! ## Checking pairs -/

/-- Checks a relationship against the one that it names as its inverse. -/
def checkPair (resource : String) (name : String) (r : Relationship) (inverse : String)
    (other : Option Relationship) : Except Error Unit :=
  let wrong (reason : String) : Except Error Unit :=
    .error (.invalidInverse resource name inverse reason)
  match other with
  | none => wrong s!"'{r.target}.{inverse}' is a field"
  | some other =>
    if other.target != resource then
      wrong s!"it targets '{other.target}' instead of '{resource}'"
    else if other.kind != r.kind.inverse then
      wrong s!"expected a {r.kind.inverse.text} relationship, found {other.kind.text}"
    else if r.kind == .oneToOne && other.primary == r.primary then
      .error (.invalidPrimarySide resource name
        "exactly one side of a one-to-one pair must be primary")
    else .ok ()

/-- Checks a relationship without a declared other side. -/
def checkSingle (resource : String) (name : String) (r : Relationship) : Except Error Unit :=
  if r.kind == .oneToOne && r.primary then
    .error (.invalidPrimarySide resource name
      "a one-to-one without a declared inverse must host the key")
  else .ok ()

/-- The property of the target that a relationship names as its inverse: its name, and the
relationship that it stands for, if it is one. -/
def counterpart? (descriptors : Roster Descriptor) (r : Relationship) :
    Option (String × Option Relationship) := do
  let inverse ← r.inverse
  let target ← descriptors.get? r.target
  if target.hasProperty inverse then some (inverse, target.relationship? inverse) else none

/-- Checks a relationship of a resource.  Of an inherited one only the hosting side is checked,
since inverses name the declaring resource and not its subclasses. -/
def checkEntry (descriptors : Roster Descriptor) (resource : String) (e : RelationshipEntry) :
    Except Error Unit :=
  if e.relationship.kind == .manyToOne && e.relationship.primary then
    .error (.invalidPrimarySide resource e.name "a many-to-one side always hosts the key")
  else if e.declaredBy != resource then .ok ()
  else
    match counterpart? descriptors e.relationship with
    | some (inverse, other) => checkPair resource e.name e.relationship inverse other
    | none => checkSingle resource e.name e.relationship

/-- Checks the relationships of a resource. -/
def checkResource (descriptors : Roster Descriptor) (resource : String) : Except Error Unit :=
  match descriptors.get? resource with
  | none => .ok ()
  | some d => d.relationships.forM (checkEntry descriptors resource)

/-! ## Binding -/

/-- The place of a name in the order of declaration; names that are not declared come first. -/
def place (resources : Roster Resource) (name : String) : Nat :=
  match resources.names.idxOf? name with
  | none => 0
  | some i => i + 1

/-- The members of a unit in the order of their declaration. -/
def inDeclarationOrder (resources : Roster Resource) (unit : List String) : List String :=
  unit.mergeSort fun a b => place resources a ≤ place resources b

/-- Binds the unit of a resource and answers with its members in the order of declaration. -/
def bind (resources : Roster Resource) (models : Roster Model) (root : String) :
    Action (Roster Descriptor) (List String) := do
  let unit ← Action.reads fun descriptors => members resources descriptors models root
  unit.forM (lookUpTargets resources)
  let sides ← Action.reads fun descriptors => manySides descriptors unit
  sides.forM (completeSide resources models)
  let descriptors ← Action.read
  Action.ofExcept (unit.forM (checkResource descriptors))
  let ordered := inDeclarationOrder resources unit
  Action.note .debug s!"Bound compilation unit of '{root}': {Text.quotedNames ordered}"
  return ordered

end Binding

end ResourceTables
