/-
# `ResourceTables.Compiler` — declared resources, their descriptors and models, in one place

Resources are declared first; generation only reads the declarations.  A declaration that fails
registers nothing.
-/
import ResourceTables.Application
import ResourceTables.Configurator
import ResourceTables.Generation

namespace ResourceTables

/-- Everything that is kept between declarations and generations. -/
structure Compiler where
  settings : Settings
  configurators : List Configurator
  resources : Roster Resource := .empty
  workspace : Workspace := {}

namespace Compiler

/-- A compiler without resources.  It gives resources a primary key if the settings say so. -/
def new (settings : Settings) : Compiler :=
  { settings, configurators := if settings.autoPrimaryKey then [.primaryKey] else [] }

/-- The compiler with one more configurator, for resources that are declared from now on. -/
def withConfigurator (compiler : Compiler) (configurator : Configurator) : Compiler :=
  { compiler with configurators := compiler.configurators ++ [configurator] }

/-- The descriptor of a resource. -/
def descriptor? (compiler : Compiler) (name : String) : Option Descriptor :=
  compiler.workspace.descriptors.get? name

/-- The model of a resource, if it is generated. -/
def model? (compiler : Compiler) (name : String) : Option Model :=
  compiler.workspace.models.get? name

/-! ## Declaring -/

/-- Accepts a resource whose own name and property names are identifiers. -/
def checkNames (resource : Resource) : Except Error Unit := do
  Naming.checkIdentifier "resource" resource.name
  resource.properties.forM fun p => Naming.checkIdentifier "property" p.name

/-- Enters the properties and methods of a resource into its descriptor. -/
def fill (compiler : Compiler) (resource : Resource) : Action Descriptor Unit := do
  let collected ← Ancestry.collect compiler.resources resource
  collected.forM Descriptor.register
  let methods ← Action.ofExcept (Ancestry.collectMethods compiler.resources resource)
  Action.change fun d => { d with methods }
  Configurator.applyAll compiler.settings compiler.configurators

/-- The descriptor that a resource would have, with nothing registered. -/
def instrument (resource : Resource) : Action Compiler Descriptor := do
  let compiler ← Action.read
  Action.ofExcept (checkNames resource)
  fun s =>
    let done := compiler.fill resource (Descriptor.ofResource resource)
    ⟨done.result.map fun _ => done.state, s, done.notes⟩

/-- Registers a resource with its descriptor; a resource of its name is replaced. -/
def register (resource : Resource) (d : Descriptor) : Action Compiler Unit :=
  Action.change fun compiler =>
    { compiler with
      resources := compiler.resources.insert resource.name resource
      workspace := { compiler.workspace with
        descriptors := compiler.workspace.descriptors.insert resource.name d } }

/-- Declares a resource. -/
def declare (resource : Resource) : Action Compiler Unit := do
  let d ← instrument resource
  let compiler ← Action.read
  if compiler.resources.contains resource.name then
    Action.note .warn s!"Resource '{resource.name}' redefined"
  Action.note .info
    (s!"Declared resource '{resource.name}' ({d.fields.length} fields, "
      ++ s!"{d.relationships.length} relationships)")
  register resource d

/-! ## Generating -/

/-- What a generation reads; the generator that the settings name must exist. -/
def generationContext (compiler : Compiler) : Except Error GenerationContext := do
  let generator ← Naming.generatorNamed compiler.settings.generatorName
  return { settings := compiler.settings, generator, resources := compiler.resources }

/-- A generation, done on the compiler. -/
def generating {α : Type} (x : GenerationContext → Action Workspace α) : Action Compiler α := do
  let compiler ← Action.read
  let ctx ← Action.ofExcept compiler.generationContext
  Action.zoom (·.workspace) (fun compiler workspace => { compiler with workspace }) (x ctx)

/-- The model of a resource. -/
def generate (name : String) : Action Compiler Model :=
  generating (Generation.generate · name)

/-- The abstract model of a resource. -/
def generateAbstract (name : String) : Action Compiler Model :=
  generating (Generation.generateAbstract · name)

/-- The models of all resources, in the order of declaration. -/
def generateAll : Action Compiler (List Model) := generating Generation.generateAll

/-- The schema of all resources. -/
def compiledSchema : Action Compiler Schema := do return { models := ← generateAll }

/-- Gives a host the schema of all resources.  A host that has an extension of the schema's name
is left as it is, and the answer is the schema that it carries. -/
def initApp : Action (Compiler × Application) Schema := do
  let (_, app) ← Action.read
  if app.extensions.contains Application.schemaName then
    Action.note .info "Application already initialized, skipping"
    Action.ofExcept app.schema
  else
    let schema ← Action.zoom (·.1) (fun (_, app) compiler => (compiler, app)) compiledSchema
    Action.change fun (compiler, app) =>
      (compiler, { app with
        extensions := app.extensions.insert Application.schemaName (.schema schema) })
    Action.note .info s!"Initialized application with {schema.models.length} model(s)"
    return schema

/-! ## Declarations -/

/-- Declares definitions one after another, the first property made at time `created`, and
answers with the resources. -/
def declareEach (created : Nat) : List Definition → Action Compiler (List Resource)
  | [] => return []
  | d :: rest => do
    let resource ← Action.ofExcept (d.toResource created)
    declare resource
    return resource :: (← declareEach (created + d.size) rest)

/-- Declares all resources of a file, parents first. -/
def declareAll (created : Nat) (declarations : Declarations) :
    Action Compiler (List Resource) := do
  Action.ofExcept declarations.validate
  let ordered ← Action.ofExcept declarations.inOrder
  let resources ← declareEach created ordered
  let source := declarations.name.getD "<unnamed>"
  Action.note .info s!"Declared {resources.length} resource(s) from '{source}'"
  return resources

end Compiler

end ResourceTables
