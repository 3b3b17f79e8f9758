/-
# `ResourceTables.Generation` — from declared resources to models

The first request for a resource compiles its whole unit; every later one finds the model in the
cache.  A compilation that fails caches nothing.
-/
import ResourceTables.Binding
import ResourceTables.Rounds
import ResourceTables.Settings

namespace ResourceTables

/-- What generation reads and never changes. -/
structure GenerationContext where
  settings : Settings
  /-- The generator for tables that are not named otherwise. -/
  generator : Naming.Generator
  resources : Roster Resource

/-- What generation changes: descriptors, and the cache of models. -/
structure Workspace where
  descriptors : Roster Descriptor := .empty
  models : Roster Model := .empty

namespace Generation

/-- The descriptor of a resource. -/
def descriptorOf (descriptors : Roster Descriptor) (name : String) : Except Error Descriptor :=
  match descriptors.get? name with
  | some d => .ok d
  | none => .error (.unresolvedTarget name)

/-! ## Drafts -/

/-- The columns of a descriptor's fields. -/
def fieldColumns (d : Descriptor) : List Column :=
  d.fields.map fun e => { name := e.name, type := e.field.storage, options := e.field.options }

/-- The table that a resource starts with; its name must be an identifier. -/
def draftTable (ctx : GenerationContext) (d : Descriptor) (name : String) : Except Error Table := do
  let tableName := d.options.tableNameFor name ctx.generator
  Naming.checkIdentifier "table" tableName
  return { name := tableName, schema := ctx.settings.schema, columns := fieldColumns d,
           constraints := [] }

/-- The model that a resource starts with: columns of its fields, and no properties yet. -/
def draft (ctx : GenerationContext) (descriptors : Roster Descriptor) (isAbstract : Bool)
    (name : String) : Except Error Model := do
  let resource ← resolve ctx.resources name
  let d ← descriptorOf descriptors name
  let table ← if isAbstract then pure none else some <$> draftTable ctx d name
  return {
    name, resource := name, doc := resource.doc
    bases := resource.mixins ++ [ctx.settings.modelBase]
    isAbstract, table
    mixinColumns := if isAbstract then fieldColumns d else []
    properties := []
    methods := sortMethods d.methods }

/-- The drafts of a unit. -/
def drafts (ctx : GenerationContext) (descriptors : Roster Descriptor) :
    List String → Except Error (Roster Model)
  | [] => .ok .empty
  | name :: rest => do
    let first ← draft ctx descriptors false name
    let others ← drafts ctx descriptors rest
    return ⟨(name, first) :: others.entries⟩

/-! ## Phases -/

/-- A resource with the targets whose primary keys become part of its own. -/
def keyDependencies (descriptors : Roster Descriptor) (unit : List String) :
    List (String × List String) :=
  (unit.filterMap fun name => (descriptors.get? name).map fun d => (name, d.identifyingTargets)).filter
    (!·.2.isEmpty)

/-- The members of a unit whose primary key copies another, each after those it copies from.
Members that wait for each other come last. -/
def primaryKeyOrder (descriptors : Roster Descriptor) (unit : List String) : List String :=
  let dependent := keyDependencies descriptors unit
  let names := dependent.map (·.1)
  let isReady (placed : List String) (entry : String × List String) : Bool :=
    entry.2.all fun target =>
      target == entry.1 || !names.contains target || placed.contains target
  let (ordered, stuck) := inRounds (·.1) isReady [] dependent
  (ordered ++ stuck).map (·.1)

/-- A building step on the descriptor of a member, done among all descriptors. -/
def onMember (name : String) (x : Action (Descriptor × Roster Model) Unit) :
    Action (Roster Descriptor × Roster Model) Unit := fun (descriptors, drafts) =>
  match descriptors.get? name with
  | none => ⟨.error (.unresolvedTarget name), (descriptors, drafts), []⟩
  | some d =>
    let done := x (d, drafts)
    ⟨done.result, (descriptors.modify name fun _ => done.state.1, done.state.2), done.notes⟩

/-- Builds the drafts of a unit: first what extends primary keys, then each phase for every
member. -/
def runPhases (generated : Roster Model) (unit : List String) :
    Action (Roster Descriptor × Roster Model) Unit := do
  let (descriptors, _) ← Action.read
  (primaryKeyOrder descriptors unit).forM fun name =>
    onMember name (Descriptor.buildPrimaryKey { owner := name, generated })
  Phase.all.forM fun phase =>
    unit.forM fun name => onMember name (Descriptor.build phase { owner := name, generated })

/-- Builds a unit and answers with its finished models. -/
def build (unit : List String) (drafts : Roster Model) : Action Workspace (Roster Model) :=
  fun w =>
    let done := runPhases w.models unit (w.descriptors, drafts)
    ⟨done.result.map fun _ => done.state.2, { w with descriptors := done.state.1 }, done.notes⟩

/-- Takes back what building has recorded in the descriptors of a unit. -/
def resetUnit (unit : List String) (descriptors : Roster Descriptor) : Roster Descriptor :=
  unit.foldl (fun descriptors name => descriptors.modify name (·.resetPlan)) descriptors

/-! ## The cache -/

/-- Puts a finished model into the cache and marks its descriptor. -/
def store (name : String) (model : Model) : Action Workspace Unit :=
  Action.change fun w =>
    { descriptors := w.descriptors.modify name (·.markGenerated)
      models := w.models.insertNew model.resource model }

/-- Puts a finished model of a unit into the cache. -/
def storeMember (finished : Roster Model) (name : String) : Action Workspace Unit :=
  match finished.get? name with
  | none => pure ()
  | some model => do
    let table := model.tableName?.getD ""
    store name model
    Action.note .info s!"Generated model '{name}' (table '{table}')"

/-- Compiles a bound unit: everything in it is cached, or nothing. -/
def compile (ctx : GenerationContext) (unit : List String) : Action Workspace Unit := do
  let w ← Action.read
  let start ← Action.ofExcept (drafts ctx w.descriptors unit)
  let finished ← (build unit start).onFailure fun e => do
    Action.change fun w => { w with descriptors := resetUnit unit w.descriptors }
    Action.note .warn s!"Compilation of {Text.quotedNames unit} failed: {e.message}"
  unit.forM (storeMember finished)

/-- The answer for a model that is already there. -/
def cached (name : String) (model : Model) : Action Workspace Model := do
  Action.note .debug s!"Model '{name}' already generated, returning cached model"
  return model

/-- The abstract model of a resource: its columns without a table. -/
def generateAbstract (ctx : GenerationContext) (name : String) : Action Workspace Model := do
  let w ← Action.read
  match w.models.get? name with
  | some model => cached name model
  | none =>
    let shell ← Action.ofExcept (draft ctx w.descriptors true name)
    let d ← Action.ofExcept (descriptorOf w.descriptors name)
    let model := { shell with properties := d.fields.map fun e => .column e.name e.name }
    store name model
    Action.note .info s!"Generated abstract model '{name}'"
    return model

/-- The model of a resource, which is compiled with its unit on first request. -/
def generate (ctx : GenerationContext) (name : String) : Action Workspace Model := do
  let w ← Action.read
  match w.models.get? name with
  | some model => cached name model
  | none =>
    let resource ← Action.ofExcept (resolve ctx.resources name)
    if resource.isAbstract then generateAbstract ctx name
    else
      let unit ← Action.zoom (·.descriptors) (fun w descriptors => { w with descriptors })
        (Binding.bind ctx.resources w.models name)
      compile ctx unit
      match ← Action.reads (·.models.get? name) with
      | some model => return model
      | none => Action.fail (.unresolvedTarget name)

/-- The models of the given resources, one after another. -/
def generateEach (ctx : GenerationContext) : List String → Action Workspace (List Model)
  | [] => return []
  | name :: rest => do
    let first ← generate ctx name
    return first :: (← generateEach ctx rest)

/-- The models of all resources, in the order of declaration. -/
def generateAll (ctx : GenerationContext) : Action Workspace (List Model) :=
  generateEach ctx ctx.resources.names

end Generation

end ResourceTables
