/-
# `ResourceTables.Builder` — how declared properties become columns, keys and relations

Every property has one builder, and building runs in two phases over the tables of a unit.  The
first makes the key columns that copy other tables' primary keys, the second puts columns and
relations on the models.

A side of a relationship that hosts the key repeats every column of the target's primary key
under `{relationship}_{column}` and ties them together in one foreign key.  The other side hosts
nothing; its joins are read off the key that the target has made.
-/
import ResourceTables.Drafts
import ResourceTables.FirstMatch
import ResourceTables.Property

namespace ResourceTables

/-- The two phases of building. -/
inductive Phase where
  /-- Key columns and foreign keys. -/
  | keyColumns
  /-- Columns and relations as properties of the models. -/
  | properties
  deriving DecidableEq

namespace Phase

/-- The phases in the order in which they run. -/
def all : List Phase := [keyColumns, properties]

/-- The name under which a phase can be asked for. -/
def operation : Phase → String
  | keyColumns => "create_non_primary_key_columns"
  | properties => "create_properties"

/-- The phase of a name. -/
def ofOperation (name : String) : Except Error Phase :=
  match all.find? (·.operation == name) with
  | some phase => .ok phase
  | none => .error (.unknownPhase name)

end Phase

/-- What builders see of the resource whose properties they build. -/
structure PropertyView where
  resource : String
  relationships : List (String × Relationship)

/-- The relationship of a name. -/
def PropertyView.relationship? (view : PropertyView) (name : String) : Option Relationship :=
  view.relationships.lookup name

/-- The builder of one relationship, with what the first phase has recorded. -/
structure RelationshipBuilder where
  name : String
  useList : Bool
  /-- The key columns join the primary key of their table. -/
  forcesPrimaryKey : Bool
  joinClauses : List JoinClause := []
  /-- The key columns are made. -/
  columnsCreated : Bool := false
  deriving DecidableEq

namespace RelationshipBuilder

/-- The builder as it was before any phase. -/
def reset (b : RelationshipBuilder) : RelationshipBuilder :=
  { b with joinClauses := [], columnsCreated := false }

/-- The relationship that is built; a builder without one does nothing, with a warning. -/
def look {σ : Type} (b : RelationshipBuilder) (view : PropertyView) :
    Action σ (Option Relationship) :=
  match view.relationship? b.name with
  | some r => pure (some r)
  | none => do
    Action.note .warn
      s!"No relationship '{b.name}' registered on '{view.resource}', skipping builder"
    return none

/-! ## The side that hosts the key -/

/-- The name of the column that repeats a column of the target's primary key. -/
def keyColumnName (relationship : String) (key : Column) : String := s!"{relationship}_{key.name}"

/-- The column that repeats a column of the target's primary key. -/
def keyColumn (b : RelationshipBuilder) (key : Column) : Column :=
  { name := keyColumnName b.name key
    type := key.type
    options := { primaryKey := b.forcesPrimaryKey } }

/-- The foreign key of a relationship from `owner` to `target`. -/
def foreignKey (b : RelationshipBuilder) (r : Relationship) (owner target : Table) : ForeignKey :=
  let columns := target.primaryKey.map (keyColumnName b.name)
  let joined := "_".intercalate columns
  { name := s!"{owner.name}_{joined}_fk"
    columns
    referredTable := target.fullName
    referredColumns := target.primaryKey.map (·.name)
    onUpdate := r.onUpdate
    onDelete := r.onDelete }

/-- The table that the key refers to, which must have a primary key. -/
def keyedTarget (b : RelationshipBuilder) (site : BuildSite) (view : PropertyView)
    (r : Relationship) (drafts : Roster Model) : Except Error Table := do
  let target ← site.targetTable drafts r.target
  if target.primaryKey.isEmpty then
    throw (.missingPrimaryKey target.name
      s!"relationship '{b.name}' on resource '{view.resource}' needs a key to reference")
  else return target

/-- Adds the column that repeats `key` to the owner's table, and the join that goes with it. -/
def addKeyColumn (site : BuildSite) (view : PropertyView) (target : Table) (key : Column) :
    Action (RelationshipBuilder × Roster Model) Unit := do
  let (b, drafts) ← Action.read
  let owner ← Action.ofExcept (site.ownerTable drafts)
  let column := b.keyColumn key
  if (owner.column? column.name).isSome then
    Action.fail (.duplicateProperty view.resource column.name)
  else
    let join : JoinClause :=
      { own := s!"{owner.fullName}.{column.name}", remote := s!"{target.fullName}.{key.name}" }
    Action.change fun (b, drafts) =>
      ({ b with joinClauses := b.joinClauses ++ [join] },
        site.putOwnerTable drafts (owner.addColumn column))

/-- Adds the foreign key over the columns that were made. -/
def addForeignKey (site : BuildSite) (view : PropertyView) (r : Relationship) (target : Table) :
    Action (RelationshipBuilder × Roster Model) Unit := do
  let (b, drafts) ← Action.read
  let owner ← Action.ofExcept (site.ownerTable drafts)
  let key := b.foreignKey r owner target
  Action.note .debug s!"'{view.resource}.{b.name}' generated foreign key '{key.name}'"
  Action.change fun (b, drafts) =>
    ({ b with columnsCreated := true }, site.putOwnerTable drafts (owner.addConstraint key))

/-- The first phase: makes the key columns and the foreign key, once, on the hosting side. -/
def createKeyColumns (site : BuildSite) (view : PropertyView) :
    Action (RelationshipBuilder × Roster Model) Unit := do
  let (b, drafts) ← Action.read
  if b.columnsCreated then pure ()
  else
    match ← b.look view with
    | none => pure ()
    | some r =>
      if r.hostsKey then
        let target ← Action.ofExcept (b.keyedTarget site view r drafts)
        target.primaryKey.forM (addKeyColumn site view target)
        addForeignKey site view r target
      else pure ()

/-! ## The side that does not -/

/-- Whether a foreign key is the one that the relationship `inverse` makes towards `owner`. -/
def servesInverse (owner : Table) (inverse : String) (key : ForeignKey) : Bool :=
  key.referredTable == owner.fullName
    && key.columns == owner.primaryKey.map (keyColumnName inverse)
    && key.referredColumns == owner.primaryKey.map (·.name)

/-- The joins of a side without a key: those of the first foreign key of `target` that the
relationship `inverse` makes towards `owner`, seen from `owner`. -/
def inverseJoins (owner target : Table) (inverse : String) : List JoinClause :=
  match target.constraints.find? (servesInverse owner inverse) with
  | none => []
  | some key =>
    (key.referredColumns.zip key.columns).map fun (referred, column) =>
      { own := s!"{owner.fullName}.{referred}", remote := s!"{target.fullName}.{column}" }

/-- The joins of a relation: those recorded for its own key, else those of its inverse's. -/
def joins (b : RelationshipBuilder) (site : BuildSite) (r : Relationship)
    (drafts : Roster Model) : Except Error (List JoinClause) :=
  match b.joinClauses, r.inverse with
  | [], some inverse => do
    let target ← site.targetTable drafts r.target
    let owner ← site.ownerTable drafts
    return inverseJoins owner target inverse
  | joins, _ => .ok joins

/-- The second phase: puts the relation on the owner's model. -/
def createRelation (site : BuildSite) (view : PropertyView) :
    Action (RelationshipBuilder × Roster Model) Unit := do
  let (b, drafts) ← Action.read
  match ← b.look view with
  | none => pure ()
  | some r =>
    let joinClauses ← Action.ofExcept (b.joins site r drafts)
    let relation : Relation :=
      { name := b.name
        target := r.target
        loading := if b.useList then .dynamic else .select
        useList := b.useList
        backPopulates := r.inverse
        joinClauses }
    Action.zoom (·.2) (fun (b, _) drafts => (b, drafts)) (site.addProperty (.relation relation))

end RelationshipBuilder

/-- The builder of one property. -/
inductive Builder where
  /-- A field: its column is there from the start, and the second phase names it. -/
  | field (name : String)
  | relationship (builder : RelationshipBuilder)
  deriving DecidableEq

namespace Builder

/-- The name of the property that is built. -/
def name : Builder → String
  | field name => name
  | relationship b => b.name

/-- Whether the key columns of the property join the primary key of their table. -/
def forcesPrimaryKey : Builder → Bool
  | field _ => false
  | relationship b => b.forcesPrimaryKey

/-- The builder as it was before any phase. -/
def reset : Builder → Builder
  | field name => field name
  | relationship b => relationship b.reset

/-- A fresh builder for a property. -/
def ofProperty (name : String) : Property → Builder
  | .field _ => field name
  | .relationship r =>
    relationship { name, useList := r.useList, forcesPrimaryKey := r.identifying }

/-- One phase of one builder. -/
def step (phase : Phase) (site : BuildSite) (view : PropertyView) :
    Action (Builder × Roster Model) Unit
  | (field name, drafts) =>
    match phase with
    | .keyColumns => ⟨.ok (), (field name, drafts), []⟩
    | .properties =>
      let done := site.addProperty (.column name name) drafts
      ⟨done.result, (field name, done.state), done.notes⟩
  | (relationship b, drafts) =>
    let done :=
      match phase with
      | .keyColumns => RelationshipBuilder.createKeyColumns site view (b, drafts)
      | .properties => RelationshipBuilder.createRelation site view (b, drafts)
    ⟨done.result, (relationship done.state.1, done.state.2), done.notes⟩

/-- The first phase, for a builder whose columns join the primary key. -/
def primaryKeyStep (site : BuildSite) (view : PropertyView) :
    Action (Builder × Roster Model) Unit := do
  let (b, _) ← Action.read
  if b.forcesPrimaryKey then
    Action.note .debug s!"Creating primary key columns of '{view.resource}.{b.name}'"
    step .keyColumns site view
  else pure ()

end Builder

/-- The builders of a resource, in the order in which they run. -/
structure BuildPlan where
  builders : List Builder := []
  /-- The model is generated. -/
  finished : Bool := false
  deriving DecidableEq

namespace BuildPlan

/-- The names of the built properties, in order. -/
def names (plan : BuildPlan) : List String := plan.builders.map (·.name)

/-- The plan with one more builder at the end. -/
def add (plan : BuildPlan) (builder : Builder) : BuildPlan :=
  { plan with builders := plan.builders ++ [builder] }

/-- The plan with one more builder, before the one at `index` or at the end. -/
def insertAt (plan : BuildPlan) (index : Nat) (builder : Builder) : BuildPlan :=
  { plan with builders := plan.builders.take index ++ builder :: plan.builders.drop index }

/-- The plan with a builder in the place of the one for `name`, else at the end. -/
def replace (plan : BuildPlan) (name : String) (builder : Builder) : BuildPlan :=
  { plan with builders := putFirst (·.name == name) builder plan.builders }

/-- The plan without anything that phases have recorded. -/
def reset (plan : BuildPlan) : BuildPlan := { plan with builders := plan.builders.map (·.reset) }

/-- The plan of a resource whose model is generated. -/
def finish (plan : BuildPlan) : BuildPlan := { plan with finished := true }

/-- Does a step for every builder of a plan. -/
def onBuilders (step : Action (Builder × Roster Model) Unit) :
    Action (BuildPlan × Roster Model) Unit := fun (plan, drafts) =>
  let done := Action.each step plan.builders drafts
  ⟨done.result, ({ plan with builders := done.state.1 }, done.state.2), done.notes⟩

/-- Runs one phase of every builder. -/
def run (phase : Phase) (site : BuildSite) (view : PropertyView) :
    Action (BuildPlan × Roster Model) Unit := do
  let (plan, _) ← Action.read
  Action.note .debug
    s!"Running {phase.operation} on {plan.builders.length} builder(s) of '{view.resource}'"
  onBuilders (Builder.step phase site view)

/-- Runs the first phase of the builders whose columns join the primary key. -/
def runPrimaryKey (site : BuildSite) (view : PropertyView) :
    Action (BuildPlan × Roster Model) Unit :=
  onBuilders (Builder.primaryKeyStep site view)

end BuildPlan

end ResourceTables
