/-
# `ResourceTables.Proofs.Stores` — what the stores of a compiler hold, taken together

Resources, descriptors and models are kept in three stores; what counts as generated is said by the
descriptors, and what building has recorded by their builders.  Every operation changes some of them,
and may fail half way.  `Stores` says how they fit together in every state.

The names are those of the declarations that were granted, each where it came first: one that is
declared again keeps its place.
-/
import ResourceTables.Proofs.Orderly
import ResourceTables.Proofs.Permanence
import ResourceTables.Proofs.Reaching
import ResourceTables.Proofs.Registries

namespace ResourceTables

/-! ## Names in the order in which they came -/

theorem eraseDups_of_nodup {names : List String} (distinct : names.Nodup) :
    names.eraseDups = names := by
  induction names with
  | nil => rfl
  | cons name rest ih =>
      obtain ⟨new, others⟩ := List.nodup_cons.1 distinct
      have apart : rest.filter (fun n => !n == name) = rest := by
        refine List.filter_eq_self.2 fun n mem => ?_
        have other : n ≠ name := fun same => new (same ▸ mem)
        simpa using other
      rw [List.eraseDups_cons, apart, ih others]

/-- Repeated names can be left out of the front first. -/
theorem eraseDups_append_eraseDups (front more : List String) :
    (front.eraseDups ++ more).eraseDups = (front ++ more).eraseDups := by
  have same : more.removeAll front.eraseDups = more.removeAll front := by
    refine List.filter_congr fun n _ => ?_
    simp [List.mem_eraseDups]
  rw [List.eraseDups_append, List.eraseDups_append, same, eraseDups_of_nodup (nodup_eraseDups front)]

theorem Roster.names_insert_eq_eraseDups {α : Type} {r : Roster α} (distinct : r.names.Nodup)
    (name : String) (a : α) : (r.insert name a).names = (r.names ++ [name]).eraseDups := by
  rw [names_insert, List.eraseDups_append, eraseDups_of_nodup distinct]
  by_cases known : name ∈ r.names
  · simp [List.removeAll, known]
  · simp [List.removeAll, known, List.eraseDups_cons]

namespace Compiler

variable {c : Compiler}

/-- What a request registers: the resource of a declaration that is granted. -/
def registeredBy (c : Compiler) : Request → List (Registry.Change Resource)
  | .declare resource =>
    if (declare resource c).result.isOk then [.register resource.name resource] else []
  | _ => []

/-- What a request inserts among the models: those that it adds to the cache, each under the name of its
resource. -/
def insertedBy (c : Compiler) (request : Request) : List (Registry.Change Model) :=
  ((c.after request).workspace.models.values.drop c.workspace.models.size).map fun m =>
    .insert m.resource m

/-- What the requests of a history record, in their order. -/
def recorded {β : Type} (recordedBy : Compiler → Request → List β) (c : Compiler) :
    List Request → List β
  | [] => []
  | request :: later => recordedBy c request ++ (c.after request).recorded recordedBy later

theorem resources_after_eq (c : Compiler) (request : Request) :
    (c.after request).resources
      = (c.registeredBy request).foldl Registry.Change.on c.resources := by
  by_cases declares : ∃ resource, request = .declare resource
  · obtain ⟨resource, rfl⟩ := declares
    change (declare resource c).state.resources = _
    rcases Action.answers_or_fails (declare resource) c with ⟨_, _, answers⟩ | ⟨_, _, fails⟩
    · obtain ⟨d, _, _, rfl⟩ := answers_declare.1 answers
      rw [answers.2, registeredBy, answers.1]
      rfl
    · rw [fails.2, ← fails_declare fails, registeredBy, fails.1]
      rfl
  · have nothing : c.registeredBy request = [] := by
      cases request with
      | declare resource => exact absurd ⟨resource, rfl⟩ declares
      | _ => rfl
    rw [nothing]
    exact (resources_after c request).resolve_right fun ⟨resource, asked, _⟩ =>
      declares ⟨resource, asked⟩

theorem models_after_eq (coherent : c.Coherent) (request : Request) :
    (c.after request).workspace.models
      = (c.insertedBy request).foldl Registry.Change.on c.workspace.models := by
  obtain ⟨added, split⟩ := prefix_after coherent request
  have sound := (coherent_after coherent request).sound
  have inserted : c.insertedBy request = added.map fun e => .insert e.1 e.2 := by
    have values : (c.after request).workspace.models.values.drop c.workspace.models.size
        = added.map (·.2) := by
      rw [Roster.values, ← split, List.map_append]
      exact List.drop_left' (List.length_map _)
    rw [insertedBy, values, List.map_map]
    refine List.map_congr_left fun e mem => ?_
    have cached := Roster.get?_of_mem_entries sound.models_distinct
      (split ▸ List.mem_append_right c.workspace.models.entries mem)
    exact congrArg (Registry.Change.insert · e.2) (sound.models_named e.1 e.2 cached).resource_eq
  have distinct : ((c.workspace.models.entries ++ added).map (·.1)).Nodup := by
    rw [split]
    exact sound.models_distinct
  rw [inserted, Registry.foldl_insert c.workspace.models.entries added distinct, split]

/-- What every request does to a store, a history does. -/
theorem store_run_eq {α : Type} (store : Compiler → Roster α)
    {recordedBy : Compiler → Request → List (Registry.Change α)}
    (step : ∀ c, c.Coherent → ∀ request, store (c.after request)
      = (recordedBy c request).foldl Registry.Change.on (store c))
    (coherent : c.Coherent) (requests : List Request) :
    store (c.run requests)
      = (c.recorded recordedBy requests).foldl Registry.Change.on (store c) := by
  induction requests generalizing c with
  | nil => rfl
  | cons request later ih =>
      rw [run_cons, ih (coherent_after coherent request), step c coherent, recorded,
        List.foldl_append]

/-- The name under which a request registers a resource: that of a declaration that is granted. -/
def grantedBy (c : Compiler) : Request → List String
  | .declare resource => if (declare resource c).result.isOk then [resource.name] else []
  | _ => []

/-- The names of the declarations of a history that are granted, in their order. -/
def grantedNames (c : Compiler) : List Request → List String
  | [] => []
  | request :: later => c.grantedBy request ++ (c.after request).grantedNames later

theorem names_after (distinct : c.resources.names.Nodup) (request : Request) :
    (c.after request).resources.names = (c.resources.names ++ c.grantedBy request).eraseDups := by
  rw [resources_after_eq]
  cases request with
  | declare resource =>
      rw [registeredBy, grantedBy]
      by_cases granted : (declare resource c).result.isOk = true
      · rw [if_pos granted, if_pos granted]
        exact Roster.names_insert_eq_eraseDups distinct resource.name resource
      · rw [if_neg granted, if_neg granted, List.append_nil, eraseDups_of_nodup distinct]
        rfl
  | _ => simp only [registeredBy, grantedBy, List.foldl_nil, List.append_nil,
      eraseDups_of_nodup distinct]

theorem names_run (distinct : c.resources.names.Nodup) (requests : List Request) :
    (c.run requests).resources.names = (c.resources.names ++ c.grantedNames requests).eraseDups := by
  induction requests generalizing c with
  | nil => rw [run_nil, grantedNames, List.append_nil, eraseDups_of_nodup distinct]
  | cons request later ih =>
      have names := names_after distinct request
      have distinct' : (c.after request).resources.names.Nodup := names ▸ nodup_eraseDups _
      rw [run_cons, ih distinct', names, eraseDups_append_eraseDups, grantedNames, List.append_assoc]

/-- A resource that is declared again keeps its place; one that is refused gets none. -/
example : ((new {}).grantedNames [.declare { name := "Post" }, .declare { name := "User" },
    .declare { name := "a b" }, .declare { name := "Post", parent := some "User" }]).eraseDups
      = ["Post", "User"] := by
  cbv

end Compiler

/-! ## Columns without a table -/

/-- Only abstract models carry columns outside of a table. -/
def MixinsAbstract (models : Roster Model) : Prop :=
  ∀ n m, models.get? n = some m → m.mixinColumns ≠ [] → m.isAbstract = true

namespace Generation

variable {ctx : GenerationContext} {w w' : Workspace} {name : String} {r : Resource} {d : Descriptor}

theorem mixinsAbstract_stored (uncached : w.models.get? name = none)
    (mixins : MixinsAbstract w.models) :
    MixinsAbstract (stored w name (abstractModel ctx r d name)).models := by
  intro n m found carries
  rcases (get?_models_stored uncached).1 found with old | ⟨_, rfl⟩
  · exact mixins n m old carries
  · rfl

theorem kept_mixinsAbstract : Kept ctx fun w => MixinsAbstract w.models where
  bound := fun _ _ mixins => mixins
  compiled := by
    intro w w' unit D' start finished D₁ _ built mixins _ n m found carries
    rw [built.compiled.get?_models] at found
    rcases Option.or_eq_some_iff.1 found with old | ⟨_, new⟩
    · exact mixins n m old carries
    · obtain ⟨_, r, d, _, _, grows⟩ := built.compiled.exists_grown built.distinct new
      have none : m.mixinColumns = [] := congrArg (fun x : Model => x.mixinColumns) grows.rest_eq
      exact absurd none carries
  stored := fun _ uncached _ _ _ mixins => mixinsAbstract_stored uncached mixins

end Generation

namespace Compiler

theorem mixinsAbstract_run (settings : Settings) (requests : List Request) :
    MixinsAbstract ((new settings).run requests).workspace.models :=
  cache_run
    (fun _ name => Generation.keeps_of_stored (I := fun w => MixinsAbstract w.models)
      (fun _ uncached _ _ mixins => Generation.mixinsAbstract_stored uncached mixins) name)
    (fun _ name => Generation.keeps_of_kept Generation.kept_mixinsAbstract name)
    (fun n m found => by cases found) settings requests

/-- How the stores of a compiler fit together, `names` being the names of the declarations that were
granted so far. -/
structure Stores (c : Compiler) (names : List String) : Prop where
  /-- Resources are registered under distinct names, in the order of their first declarations. -/
  resources_nodup : c.resources.names.Nodup
  resources_eq : c.resources.names = names.eraseDups
  registered_iff : ∀ n, n ∈ c.resources.names ↔ (c.resources.get? n).isSome = true
  described_iff : ∀ n, n ∈ c.resources.names ↔ (c.descriptor? n).isSome = true
  /-- Models are cached under distinct names of registered resources. -/
  models_nodup : c.workspace.models.names.Nodup
  cached_iff : ∀ n, n ∈ c.workspace.models.names ↔ (c.model? n).isSome = true
  models_registered : c.workspace.models.names ⊆ c.resources.names
  /-- A model has the name that it is cached under. -/
  model_name : ∀ n m, c.model? n = some m → m.name = n ∧ m.resource = n
  /-- It is abstract just if it has no table, and only then carries columns itself. -/
  isAbstract_iff : ∀ n m, c.model? n = some m → (m.isAbstract = true ↔ m.table = none)
  mixins : ∀ n m, c.model? n = some m → m.mixinColumns ≠ [] → m.isAbstract = true
  /-- What counts as generated is cached. -/
  generated : ∀ n d, c.descriptor? n = some d → d.isGenerated = true → (c.model? n).isSome = true
  /-- The builders of anything else have recorded nothing. -/
  unbuilt : ∀ n d, c.descriptor? n = some d → d.isGenerated = false →
    ∀ b, .relationship b ∈ d.plan.builders → b.joinClauses = [] ∧ b.columnsCreated = false

/-- A builder that is as it was before any phase has recorded nothing. -/
theorem unbuilt_of_fresh {d : Descriptor} (fresh : d.Fresh) {b : RelationshipBuilder}
    (mem : .relationship b ∈ d.plan.builders) : b.joinClauses = [] ∧ b.columnsCreated = false := by
  have same : b.reset = b := Builder.relationship.inj (fresh _ mem)
  rw [← same]
  exact ⟨rfl, rfl⟩

/-- The stores of a compiler fit together in every state: wherever a history leads, whatever was
declared, edited and generated, and whether it was granted or refused. -/
theorem stores_run (settings : Settings) (requests : List Request) :
    ((new settings).run requests).Stores ((new settings).grantedNames requests) := by
  have sound := (coherent_run settings requests).sound
  have names := names_run (c := new settings) List.nodup_nil requests
  exact {
    resources_nodup := sound.distinct
    resources_eq := names
    registered_iff := fun n => Roster.mem_names_iff
    described_iff := fun n => by rw [← sound.descriptors_names]; exact Roster.mem_names_iff
    models_nodup := sound.models_distinct
    cached_iff := fun n => Roster.mem_names_iff
    models_registered := sound.models_registered
    model_name := fun n m cached =>
      ⟨(sound.models_named n m cached).name_eq, (sound.models_named n m cached).resource_eq⟩
    isAbstract_iff := fun n m cached => (sound.models_named n m cached).isAbstract_iff
    mixins := mixinsAbstract_run settings requests
    generated := by
      intro n d found generated
      obtain ⟨r, registered, standing⟩ := sound.exists_resource found
      rw [model?, ← Roster.contains_eq_isSome_get?, ← sound.named n r registered]
      exact standing.cached generated
    unbuilt := by
      intro n d found notGenerated b mem
      obtain ⟨r, _, standing⟩ := sound.exists_resource found
      exact unbuilt_of_fresh (standing.fresh notGenerated) mem }

/-! ## The stores as registries -/

/-- The stores of a compiler behave as two registries in every state: one in which the resources of the
granted declarations were registered one after another, and one in which the models were inserted as
they were generated, each under the name of its resource. -/
theorem registries_run (settings : Settings) (requests : List Request) :
    (((new settings).recorded registeredBy requests).foldl Registry.after .empty).Represents
        ((new settings).run requests).resources
      ∧ (((new settings).recorded insertedBy requests).foldl Registry.after .empty).Represents
        ((new settings).run requests).workspace.models := by
  have coherent := coherent_new settings
  rw [store_run_eq (·.resources) (fun c _ => resources_after_eq c) coherent,
    store_run_eq (·.workspace.models) (fun _ => models_after_eq) coherent]
  exact ⟨Registry.represents_empty.run _, Registry.represents_empty.run _⟩

end Compiler

end ResourceTables
