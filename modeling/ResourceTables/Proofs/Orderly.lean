/-
# `ResourceTables.Proofs.Orderly` — histories that declare no name twice

Where no resource is declared again, none but the built-in configurator runs and abstract models are
made of abstract resources only, what a resource is compiled from stays as it was.  `Extends` says
what such a request may do: it adds descriptors and models, and of a generated resource it at most
looks targets up again.
-/
import ResourceTables.Proofs.Blueprint
import ResourceTables.Proofs.Sides
import ResourceTables.Proofs.Workspaces

namespace ResourceTables

/-! ## Builders that fit their relationships -/

namespace Descriptor

variable {resource : Resource} {d d' : Descriptor}

theorem Faithful.prependField (h : d.Faithful) (n : String) (f : Field) :
    (prependField n f d).state.Faithful := by
  rcases prependField_state d n f with same | ⟨_, changed⟩
  · rw [same]
    exact h
  · rw [changed]
    intro b e hb he same
    rcases List.mem_cons.1 hb with new | old
    · cases new
    · exact h b e old he same

/-- The state of a descriptor that is being filled. -/
def Filling (resource : Resource) (d : Descriptor) : Prop := Pristine resource d ∧ d.Faithful

theorem keeps_register (p : CollectedProperty) : Action.Keeps (Filling resource) (register p) := by
  rintro d ⟨pristine, faithful⟩
  refine ⟨pristine.edited ((Edit.register d p).edited pristine.wellFormed), ?_⟩
  rcases register_state pristine.wellFormed p with same | changed
  · rw [same]
    exact faithful
  · rw [changed]
    exact faithful.entered pristine.wellFormed p

theorem keeps_addPrimaryKey (settings : Settings) :
    Action.Keeps (Filling resource) (Configurator.addPrimaryKey settings) := by
  refine Configurator.keeps_addPrimaryKey fun f d ⟨pristine, faithful⟩ => ?_
  exact ⟨pristine.edited ((Edit.prependField d _ _).edited pristine.wellFormed),
    faithful.prependField _ _⟩

end Descriptor

/-- What building records says nothing about whether builders fit. -/
theorem Descriptor.faithful_resetPlan {d : Descriptor} : d.resetPlan.Faithful ↔ d.Faithful := by
  constructor
  · intro h b e built
    exact h b.reset e (List.mem_map.2 ⟨_, built, rfl⟩)
  · intro h b e built
    obtain ⟨b', built', reset⟩ := List.mem_map.1 built
    cases b' with
    | field x => cases reset
    | relationship b' =>
        cases reset
        exact h b' e built'

theorem Worked.faithful {d d' : Descriptor} (h : Worked d d') (faithful : d.Faithful) :
    d'.Faithful := by
  rw [← Descriptor.faithful_resetPlan, show d'.resetPlan = d.resetPlan from h,
    Descriptor.faithful_resetPlan]
  exact faithful

/-- With configurators that keep it so, a filled descriptor has builders that fit. -/
theorem Compiler.filling_fill {c : Compiler} {resource : Resource} {d : Descriptor}
    (configure : ∀ k ∈ c.configurators,
      Action.Keeps (Descriptor.Filling resource) (k.configure c.settings))
    (h : (c.fill resource).Answers (.ofResource resource) () d) :
    Descriptor.Filling resource d := by
  refine (keeps_fill (I := Descriptor.Filling resource) Descriptor.keeps_register ?_
    configure).of_answers h
    ⟨Descriptor.pristine_ofResource resource, Descriptor.faithful_ofResource resource⟩
  rintro d methods ⟨⟨name, options, wf, unfinished, fresh⟩, faithful⟩
  exact ⟨⟨name, options, wf.of_names rfl rfl rfl, unfinished, fresh⟩, faithful⟩

/-- The builders of all resources fit. -/
def Fitting (w : Workspace) : Prop := ∀ n d, w.descriptors.get? n = some d → d.Faithful

namespace Fitting

open Generation

variable {resources : Roster Resource} {ctx : GenerationContext} {w w' : Workspace}
  {unit : List String} {n : String} {D' D₁ : Roster Descriptor} {start finished : Roster Model}

theorem keysFit (fitting : Fitting w) {d : Descriptor} (found : w.descriptors.get? n = some d) :
    d.KeysFit :=
  (fitting n d found).keysFit

theorem bound (fitting : Fitting w) (sound : Sound resources w)
    (steps : Roster.Evolves (Binding.Bound unit) w.descriptors D') :
    Fitting { w with descriptors := D' } := by
  intro n d' found
  obtain ⟨d, before, bound⟩ := steps.get?_backward found
  have wf := sound.allWellFormed n d before
  exact (bound.grown wf).faithful wf (bound.wellFormed wf) (fitting n d before)

theorem compiled (fitting : Fitting w) (spec : Sound.Compiled ctx unit w w' start finished D₁) :
    Fitting w' := by
  intro n d' found
  have names : w'.descriptors.names = w.descriptors.names := by
    rw [spec.descriptors.names_eq, spec.worked.names_eq]
  obtain ⟨d, before⟩ := Roster.exists_get?_of_mem (names ▸ Roster.mem_names_of_get? found)
  obtain ⟨d'', found', marked⟩ := spec.descriptor before
  rw [found, Option.some.injEq] at found'
  subst found'
  by_cases member : n ∈ unit
  · rw [if_pos member] at marked
    obtain ⟨d₁, worked, rfl⟩ := marked
    exact worked.faithful (fitting n d before)
  · rw [if_neg member] at marked
    subst marked
    exact fitting n d' before

theorem stored (fitting : Fitting w) (m : Model) : Fitting (Generation.stored w n m) := by
  intro k d' found
  simp only [Generation.stored, Roster.get?_modify] at found
  by_cases same : k = n
  · rw [if_pos same] at found
    obtain ⟨d, before, rfl⟩ := Option.map_eq_some_iff.1 found
    exact fitting k d before
  · rw [if_neg same] at found
    exact fitting k d' found

theorem registered {c : Compiler} {resource : Resource} {d : Descriptor}
    (fitting : Fitting c.workspace) (filled : d.Faithful) :
    Fitting (c.registered resource d).workspace := by
  intro n d' found
  simp only [Compiler.registered, Roster.get?_insert] at found
  by_cases same : n = resource.name
  · rw [if_pos same, Option.some.injEq] at found
    exact found ▸ filled
  · rw [if_neg same] at found
    exact fitting n d' found

end Fitting

/-! ## Keys that copy keys -/

/-- The primary key of a resource copies that of another. -/
def CopiesKey (D : Roster Descriptor) (n t : String) : Prop :=
  ∃ d, D.get? n = some d ∧ t ∈ d.identifyingTargets

/-- No primary key depends on itself. -/
def KeysAcyclic (D : Roster Descriptor) : Prop := ∀ n, ¬ Relation.TransGen (CopiesKey D) n n

theorem KeysAcyclic.unit {D : Roster Descriptor} (h : KeysAcyclic D) (unit : List String) :
    ∀ n, ¬ Relation.TransGen (Generation.Identifies D unit) n n :=
  fun n cycle => h n (cycle.lift id fun _ _ step => step.2.2)

/-- Without identifying relationships no primary key copies another. -/
theorem keysAcyclic_of_none {D : Roster Descriptor}
    (none : ∀ n d, D.get? n = some d → d.identifyingTargets = []) : KeysAcyclic D := by
  intro n cycle
  obtain ⟨t, ⟨d, found, mem⟩, _⟩ := Relation.TransGen.head'_iff.1 cycle
  rw [none n d found] at mem
  cases mem

/-- Where each key copies only those of resources that come earlier in some order, none depends on
itself. -/
theorem keysAcyclic_of_order {D : Roster Descriptor} (order : List String)
    (falls : (D.entries.all fun p => p.2.identifyingTargets.all fun t =>
      order.idxOf t < order.idxOf p.1) = true) : KeysAcyclic D := by
  refine acyclic_of_rank order.idxOf ?_
  rintro n t ⟨d, found, mem⟩
  have all := List.all_eq_true.1 falls _ (Roster.mem_entries_of_get? found)
  exact of_decide_eq_true (List.all_eq_true.1 all t mem)

theorem KeysAcyclic.mono {D D' : Roster Descriptor} (h : KeysAcyclic D')
    (copies : ∀ n t, CopiesKey D n t → CopiesKey D' n t) : KeysAcyclic D :=
  fun n cycle => h n (cycle.lift id copies)

/-! ## Workspaces that only grow -/

/-- One workspace has what another has, and what is generated there is as it was. -/
structure Extends (w w' : Workspace) : Prop where
  models : ∀ n m, w.models.get? n = some m → w'.models.get? n = some m
  frozen : ∀ n m d, w.models.get? n = some m → w.descriptors.get? n = some d →
    ∃ d', w'.descriptors.get? n = some d' ∧ Binding.Frozen d d'
  copies : ∀ n t, CopiesKey w.descriptors n t → CopiesKey w'.descriptors n t

/-- A workspace as orderly histories make it. -/
structure Orderly (resources : Roster Resource) (w : Workspace) : Prop where
  sound : Sound resources w
  fitting : Fitting w
  generated : ∀ n m d, w.models.get? n = some m → w.descriptors.get? n = some d →
    d.isGenerated = true
  isAbstract_eq : ∀ n m r, w.models.get? n = some m → resources.get? n = some r →
    m.isAbstract = r.isAbstract

namespace Orderly

open Generation

variable {resources : Roster Resource} {ctx : GenerationContext} {w w' : Workspace}
  {unit : List String} {n : String} {m : Model} {r : Resource} {D' D₁ : Roster Descriptor}
  {start finished : Roster Model}

theorem bound (orderly : Orderly resources w)
    (steps : Roster.Evolves (Binding.Bound unit) w.descriptors D') :
    Orderly resources { w with descriptors := D' } where
  sound := orderly.sound.bound steps
  fitting := orderly.fitting.bound orderly.sound steps
  generated := by
    intro n m d' cached found
    obtain ⟨d, before, bound⟩ := steps.get?_backward found
    rw [Descriptor.isGenerated, (bound.grown (orderly.sound.allWellFormed n d before)).finished_eq]
    exact orderly.generated n m d cached before
  isAbstract_eq := orderly.isAbstract_eq

/-- Binding a unit of pending resources touches nothing that is generated. -/
theorem extends_bound (orderly : Orderly resources w)
    (pending : ∀ n ∈ unit, w.models.get? n = none)
    (steps : Roster.Evolves (Binding.Bound unit) w.descriptors D') :
    Extends w { w with descriptors := D' } where
  models := fun _ _ => id
  frozen := by
    intro n m d cached found
    obtain ⟨d', found', bound⟩ := steps.get?_forward found
    refine ⟨d', found', bound.frozen (fun member => ?_) (orderly.generated n m d cached found)⟩
    rw [pending n member] at cached
    cases cached
  copies := by
    rintro n t ⟨d, found, mem⟩
    obtain ⟨d', found', bound⟩ := steps.get?_forward found
    have grown := bound.grown (orderly.sound.allWellFormed n d found)
    exact ⟨d', found', grown.mem_identifyingTargets.2 mem⟩

section Compiled

variable (spec : Sound.Compiled ctx unit w w' start finished D₁)

include spec in
theorem compiled (orderly : Orderly ctx.resources w) (distinct : unit.Nodup)
    (pending : ∀ k ∈ unit, Binding.isPending w.descriptors w.models k = true) :
    Orderly ctx.resources w' where
  sound := spec.sound orderly.sound distinct pending
  fitting := orderly.fitting.compiled spec
  generated := by
    intro n m d' cached found
    have names : w'.descriptors.names = w.descriptors.names := by
      rw [spec.descriptors.names_eq, spec.worked.names_eq]
    obtain ⟨d, before⟩ := Roster.exists_get?_of_mem (names ▸ Roster.mem_names_of_get? found)
    obtain ⟨d'', found', marked⟩ := spec.descriptor before
    rw [found, Option.some.injEq] at found'
    subst found'
    by_cases member : n ∈ unit
    · rw [if_pos member] at marked
      obtain ⟨d₁, _, rfl⟩ := marked
      rfl
    · rw [if_neg member] at marked
      subst marked
      rw [spec.get?_models] at cached
      rcases Option.or_eq_some_iff.1 cached with old | ⟨_, new⟩
      · exact orderly.generated n m d' old before
      · exact absurd (spec.names_eq ▸ Roster.mem_names_of_get? new) member
  isAbstract_eq := by
    intro n m r cached hr
    rw [spec.get?_models] at cached
    rcases Option.or_eq_some_iff.1 cached with old | ⟨_, new⟩
    · exact orderly.isAbstract_eq n m r old hr
    · obtain ⟨member, r', d, hr', hd, grows⟩ := spec.exists_grown distinct new
      obtain ⟨d', found', concrete, _⟩ := Binding.isPending_iff.1 (pending n member)
      rw [hd, Option.some.injEq] at found'
      subst found'
      rw [Descriptor.isAbstract, (orderly.sound.standing n r d hr hd).options_eq] at concrete
      rw [grows.isAbstract_eq, Resource.isAbstract, concrete]
      rfl

include spec in
theorem extends_compiled
    (pending : ∀ k ∈ unit, Binding.isPending w.descriptors w.models k = true) : Extends w w' where
  models := by
    intro n m cached
    rw [spec.get?_models, cached, Option.some_or]
  frozen := by
    intro n m d cached found
    obtain ⟨d', found', marked⟩ := spec.descriptor found
    have outside : n ∉ unit := by
      intro member
      obtain ⟨_, _, _, _, none⟩ := Binding.isPending_iff.1 (pending n member)
      rw [Roster.contains_eq_false_iff, cached] at none
      cases none
    rw [if_neg outside] at marked
    exact ⟨d', found', marked ▸ .refl d⟩
  copies := by
    rintro n t ⟨d, found, mem⟩
    obtain ⟨d', found', marked⟩ := spec.descriptor found
    refine ⟨d', found', ?_⟩
    by_cases member : n ∈ unit
    · rw [if_pos member] at marked
      obtain ⟨d₁, worked, rfl⟩ := marked
      change t ∈ d₁.identifyingTargets
      rw [Descriptor.identifyingTargets, worked.relationships_eq]
      exact mem
    · rw [if_neg member] at marked
      exact marked ▸ mem

end Compiled

/-- An abstract model is made of an abstract resource. -/
theorem stored (orderly : Orderly ctx.resources w) {d : Descriptor}
    (uncached : w.models.get? n = none) (hr : ctx.resources.get? n = some r)
    (abs : r.isAbstract = true) (hd : w.descriptors.get? n = some d) :
    Orderly ctx.resources (Generation.stored w n (abstractModel ctx r d n)) where
  sound := orderly.sound.stored uncached hr hd
  fitting := orderly.fitting.stored _
  generated := by
    intro k m d' cached found
    simp only [Generation.stored, Roster.get?_modify] at found
    by_cases same : k = n
    · rw [if_pos same, same, hd, Option.map_some, Option.some.injEq] at found
      subst found
      rfl
    · rw [if_neg same] at found
      change (w.models.insertNew n _).get? k = some m at cached
      rw [Roster.get?_insertNew, if_neg same, Option.or_none] at cached
      exact orderly.generated k m d' cached found
  isAbstract_eq := by
    intro k m r' cached hr'
    change (w.models.insertNew n _).get? k = some m at cached
    rw [Roster.get?_insertNew] at cached
    by_cases same : k = n
    · subst same
      rw [uncached, Option.none_or, if_pos rfl, Option.some.injEq] at cached
      rw [hr, Option.some.injEq] at hr'
      rw [← cached, ← hr', abs]
      rfl
    · rw [if_neg same, Option.or_none] at cached
      exact orderly.isAbstract_eq k m r' cached hr'

theorem extends_stored (uncached : w.models.get? n = none) (m : Model) :
    Extends w (Generation.stored w n m) where
  models := by
    intro k m' cached
    change (w.models.insertNew m.resource m).get? k = some m'
    rw [Roster.get?_insertNew, cached, Option.some_or]
  frozen := by
    intro k m' d cached found
    have other : k ≠ n := by
      rintro rfl
      rw [uncached] at cached
      cases cached
    refine ⟨d, ?_, .refl d⟩
    rw [Generation.stored, Roster.get?_modify_other other, found]
  copies := by
    rintro k t ⟨d, found, mem⟩
    simp only [CopiesKey, Generation.stored, Roster.get?_modify]
    by_cases same : k = n
    · rw [if_pos same, found]
      exact ⟨d.markGenerated, rfl, mem⟩
    · rw [if_neg same]
      exact ⟨d, found, mem⟩

end Orderly

/-! ## Declarations -/

namespace Compiler

variable {c : Compiler} {resource : Resource} {d : Descriptor}

theorem orderly_registered (orderly : Orderly c.resources c.workspace)
    (new : c.resources.get? resource.name = none) (filled : Descriptor.Filling resource d) :
    Orderly (c.registered resource d).resources (c.registered resource d).workspace where
  sound := sound_registered orderly.sound filled.1
  fitting := orderly.fitting.registered filled.2
  generated := by
    intro n m d' cached found
    have known := orderly.sound.models_registered n (Roster.mem_names_of_get? cached)
    simp only [registered, Roster.get?_insert] at found
    by_cases same : n = resource.name
    · rw [same] at known
      exact absurd known (Roster.get?_eq_none_iff.1 new)
    · rw [if_neg same] at found
      exact orderly.generated n m d' cached found
  isAbstract_eq := by
    intro n m r cached hr
    have known := orderly.sound.models_registered n (Roster.mem_names_of_get? cached)
    simp only [registered, Roster.get?_insert] at hr
    by_cases same : n = resource.name
    · rw [same] at known
      exact absurd known (Roster.get?_eq_none_iff.1 new)
    · rw [if_neg same] at hr
      exact orderly.isAbstract_eq n m r cached hr

/-- A resource of a new name leaves everything else alone. -/
theorem extends_registered (sound : Sound c.resources c.workspace)
    (new : c.resources.get? resource.name = none) (d : Descriptor) :
    Extends c.workspace (c.registered resource d).workspace := by
  have fresh : ∀ n d', c.workspace.descriptors.get? n = some d' → n ≠ resource.name := by
    rintro n d' found rfl
    have known := Roster.mem_names_of_get? found
    rw [sound.descriptors_names] at known
    exact Roster.get?_eq_none_iff.1 new known
  have kept : ∀ n d', c.workspace.descriptors.get? n = some d' →
      (c.registered resource d).workspace.descriptors.get? n = some d' := by
    intro n d' found
    simp only [registered, Roster.get?_insert, if_neg (fresh n d' found)]
    exact found
  refine ⟨fun _ _ => id, fun n m d' _ found => ⟨d', kept n d' found, .refl d'⟩, ?_⟩
  rintro n t ⟨d', found, mem⟩
  exact ⟨d', kept n d' found, mem⟩

end Compiler

/-! ## Units that are built -/

/-- A unit of pending resources that are drafted is ready to be built, if its builders fit. -/
theorem Sound.ready {ctx : GenerationContext} {w : Workspace} {unit : List String}
    {start : Roster Model} (sound : Sound ctx.resources w) (distinct : unit.Nodup)
    (pending : ∀ n ∈ unit, Binding.isPending w.descriptors w.models n = true)
    (drafted : Generation.drafts ctx w.descriptors unit = .ok start)
    (fits : ∀ n ∈ unit, ∀ d, w.descriptors.get? n = some d → d.KeysFit) :
    Generation.Ready w.descriptors unit start where
  descriptors_distinct := sound.descriptors_distinct
  distinct := distinct
  names_eq := Generation.names_drafts drafted
  described := by
    intro n member
    obtain ⟨d, found, _, unbuilt, _⟩ := Binding.isPending_iff.1 (pending n member)
    obtain ⟨r, hr, standing⟩ := sound.exists_resource found
    exact ⟨d, found, standing.wellFormed, standing.fresh unbuilt, fits n member d found⟩
  drafted := by
    intro n member
    obtain ⟨m, made, there⟩ := Generation.get?_drafts drafted distinct member
    obtain ⟨r, d, hr, hd, _, rfl⟩ := Generation.draft_eq_ok.1 made
    refine ⟨_, _, there, rfl, rfl, ?_⟩
    have names : (Generation.startTable ctx d n).columnNames = d.fieldNames := by
      simp [Generation.startTable, Table.columnNames, Generation.fieldColumns, Descriptor.fieldNames]
    rw [names]
    exact (sound.allWellFormed n d hd).fields_distinct

/-- A unit that is bound in one workspace and compiled into another. -/
structure BuiltUnit (ctx : GenerationContext) (w w' : Workspace) (unit : List String)
    (D' : Roster Descriptor) (start finished : Roster Model) (D₁ : Roster Descriptor) : Prop where
  distinct : unit.Nodup
  pending : ∀ n ∈ unit, Binding.isPending D' w.models n = true
  bound : ∃ root, (Binding.bind ctx.resources w.models root).Answers w.descriptors unit D'
  compiled : Sound.Compiled ctx unit { w with descriptors := D' } w' start finished D₁

namespace BuiltUnit

open Generation

variable {ctx : GenerationContext} {w w' : Workspace} {unit : List String} {n : String}
  {D' D₁ : Roster Descriptor} {start finished : Roster Model}

theorem steps (built : BuiltUnit ctx w w' unit D' start finished D₁)
    (sound : Sound ctx.resources w) :
    ∃ members, Roster.Evolves (Binding.Bound members) w.descriptors D'
      ∧ ∀ n ∈ members, n ∈ unit := by
  obtain ⟨root, bound⟩ := built.bound
  have steps := sound.bind_steps root
  rw [bound.2] at steps
  obtain ⟨_, _, _, _, rfl⟩ := Binding.answers_bindUnit.1 bound
  exact ⟨_, steps, fun n mem => (Binding.inDeclarationOrder_perm _ _).mem_iff.2 mem⟩

theorem uncached (built : BuiltUnit ctx w w' unit D' start finished D₁) (member : n ∈ unit) :
    w.models.get? n = none := by
  obtain ⟨_, _, _, _, none⟩ := Binding.isPending_iff.1 (built.pending n member)
  exact Roster.contains_eq_false_iff.1 none

/-- The builders of a unit have recorded nothing before it is compiled. -/
theorem fresh (built : BuiltUnit ctx w w' unit D' start finished D₁)
    (sound : Sound ctx.resources { w with descriptors := D' }) :
    ∀ n ∈ unit, ∀ d, D'.get? n = some d → d.Fresh :=
  fun n member _ found =>
    sound.fresh_of_pending (built.pending n member) (Roster.mem_entries_of_get? found)

/-- A unit that is compiled is ready to be built, if its builders fit. -/
theorem ready (built : BuiltUnit ctx w w' unit D' start finished D₁)
    (sound : Sound ctx.resources { w with descriptors := D' })
    (fits : ∀ n ∈ unit, ∀ d, D'.get? n = some d → d.KeysFit) : Ready D' unit start :=
  sound.ready built.distinct built.pending built.compiled.drafted fits

/-- Compiling changes no relationship. -/
theorem relationships_eq (built : BuiltUnit ctx w w' unit D' start finished D₁) {d d' : Descriptor}
    (found : D'.get? n = some d) (found' : w'.descriptors.get? n = some d') :
    d'.relationships = d.relationships := by
  obtain ⟨d'', found'', declares⟩ := built.compiled.declares.get?_forward found
  rw [found', Option.some.injEq] at found''
  rw [found'']
  exact declares.2

/-- The table of a member has grown from the one that it started with. -/
theorem exists_startTable (built : BuiltUnit ctx w w' unit D' start finished D₁) {m : Model} {t : Table}
    (made : finished.get? n = some m) (table : m.table = some t) :
    ∃ d, D'.get? n = some d ∧ Naming.isIdentifier (startTable ctx d n).name = true
      ∧ (startTable ctx d n).Grows t := by
  obtain ⟨first, before, grows⟩ := Roster.Evolves.get?_backward built.compiled.grown made
  obtain ⟨_, d, _, found, identifier, rfl⟩ :=
    exists_startModel built.compiled.drafted built.distinct before
  refine ⟨d, found, identifier, ?_⟩
  rcases grows.table with ⟨none, _⟩ | ⟨t₁, t₂, begun, after, tables⟩
  · cases none
  · cases begun
    rw [table, Option.some.injEq] at after
    exact after ▸ tables

/-- The model of a member is the one that it started with, with the table and properties that it was
built with. -/
theorem exists_built (built : BuiltUnit ctx w w' unit D' start finished D₁) (member : n ∈ unit)
    {σ : String → Progress} (drawn : finished = (stateOf D' start σ).2) :
    ∃ r d, ctx.resources.get? n = some r ∧ D'.get? n = some d ∧ w'.models.get? n = some
      { startModel ctx r d n with table := some (σ n).table, properties := (σ n).properties } := by
  obtain ⟨r, d, _, hr, hd, there, _⟩ := built.compiled.member built.distinct member
  refine ⟨r, d, hr, hd, ?_⟩
  rw [built.compiled.get?_models]
  change (w.models.get? n).or (finished.get? n) = _
  rw [built.uncached member, Option.none_or, drawn]
  exact get?_drafts_stateOf there

/-- A member has a model, with the table and properties that it was built with. -/
theorem exists_model (built : BuiltUnit ctx w w' unit D' start finished D₁) (member : n ∈ unit)
    {σ : String → Progress} (drawn : finished = (stateOf D' start σ).2) :
    ∃ m, w'.models.get? n = some m ∧ m.table = some (σ n).table
      ∧ m.properties = (σ n).properties := by
  obtain ⟨r, d, _, _, there⟩ := built.exists_built member drawn
  exact ⟨_, there, rfl, rfl⟩

/-- Without cycles of keys a compiled unit is what its account of keys draws. -/
theorem drawn (built : BuiltUnit ctx w w' unit D' start finished D₁) (ready : Ready D' unit start)
    (acyclic : ∀ n, ¬ Relation.TransGen (Identifies D' unit) n n) :
    ∃ refs, Account D' unit start w.models refs
      ∧ (∀ n ∈ unit, Drawable D' start w.models refs n)
      ∧ finished = (stateOf D' start (Generation.finished D' start w.models refs)).2 := by
  obtain ⟨refs, account⟩ := exists_account start w.models ready acyclic
  obtain ⟨drawable, same⟩ := (answers_runPhases_iff ready account acyclic).1 built.compiled.built
  exact ⟨refs, account, drawable, (congrArg Prod.snd same).symm⟩

end BuiltUnit

/-! ## What generations keep -/

/-- What binding a unit, compiling it and storing an abstract model keep. -/
structure Kept (ctx : GenerationContext) (I : Workspace → Prop) : Prop where
  bound : ∀ {w root}, Sound ctx.resources w →
    (∀ n ∈ Binding.members ctx.resources w.descriptors w.models root, w.models.get? n = none) →
    I w → I { w with
      descriptors := (Binding.bind ctx.resources w.models root w.descriptors).state }
  compiled : ∀ {w w' unit D' start finished D₁}, Sound ctx.resources w →
    BuiltUnit ctx w w' unit D' start finished D₁ → I w → I { w with descriptors := D' } → I w'
  stored : ∀ {w name r d}, Sound ctx.resources w → w.models.get? name = none →
    ctx.resources.get? name = some r → r.isAbstract = true → w.descriptors.get? name = some d →
    I w → I (Generation.stored w name (Generation.abstractModel ctx r d name))

namespace Generation

variable {ctx : GenerationContext} {I : Workspace → Prop}

/-- A request for a model takes no other steps. -/
theorem keeps_of_kept (kept : Kept ctx I) (name : String) :
    Action.Keeps (fun w => Sound ctx.resources w ∧ I w) (generate ctx name) := by
  have bound : ∀ {w} {r : Resource}, Sound ctx.resources w → I w →
      ctx.resources.get? name = some r → r.isAbstract = false → w.models.get? name = none →
      I { w with descriptors := (Binding.bind ctx.resources w.models name w.descriptors).state } := by
    intro w r sound holds hr concrete uncached
    refine kept.bound sound (fun n member => ?_) holds
    rw [Binding.mem_members sound.descriptors_distinct sound.descriptors_names] at member
    obtain ⟨_, _, _, _, none⟩ := Binding.isPending_iff.1
      (member.pending (sound.pending_of_uncached hr concrete uncached))
    exact Roster.contains_eq_false_iff.1 none
  have compiled : ∀ {w w' ordered D'} {r : Resource}, Sound ctx.resources w → I w →
      ctx.resources.get? name = some r → r.isAbstract = false → w.models.get? name = none →
      (Binding.bind ctx.resources w.models name).Answers w.descriptors ordered D' →
      (compile ctx ordered).Answers { w with descriptors := D' } () w' → I w' := by
    intro w w' ordered D' r sound holds hr concrete uncached answers compiled
    have after := bound sound holds hr concrete uncached
    rw [answers.2] at after
    obtain ⟨_, distinct, _, pending⟩ := sound.bound_unit hr concrete uncached answers
    obtain ⟨_, start, finished, D₁, spec⟩ :=
      (compile_ends sound hr concrete uncached answers).1 compiled
    exact kept.compiled sound ⟨distinct, pending, ⟨name, answers⟩, spec⟩ holds after
  refine Action.keeps_of_ends ?_ ?_
  · rintro w m w' ⟨sound, holds⟩ h
    refine ⟨(keeps_generate name).of_answers h sound, ?_⟩
    rcases answers_generate.1 h with ⟨_, rfl⟩ | ⟨uncached, r, hr, ⟨abs, made⟩ |
      ⟨concrete, ordered, D', answers, done, _⟩⟩
    · exact holds
    · rcases answers_generateAbstract.1 made with ⟨found, _⟩ | ⟨_, r', d, hr', hd, rfl, rfl⟩
      · rw [uncached] at found
        cases found
      · rw [hr, Option.some.injEq] at hr'
        subst hr'
        exact kept.stored sound uncached hr abs hd holds
    · exact compiled sound holds hr concrete uncached answers done
  · rintro w e w' ⟨sound, holds⟩ h
    refine ⟨(keeps_generate name).of_fails h sound, ?_⟩
    obtain ⟨uncached, rfl | ⟨r, hr, concrete, ⟨D', unbound, rfl⟩ |
      ⟨ordered, D', answers, failed | ⟨done, _⟩⟩⟩⟩ := fails_generate h
    · exact holds
    · have after := bound sound holds hr concrete uncached
      rw [unbound.2] at after
      exact after
    · have after := bound sound holds hr concrete uncached
      rw [answers.2] at after
      rw [← (compile_ends sound hr concrete uncached answers).2 e failed]
      exact after
    · exact compiled sound holds hr concrete uncached answers done

/-- A request for an abstract model stores it, if anything. -/
theorem keeps_of_stored (stored : ∀ {w name r d}, Sound ctx.resources w → w.models.get? name = none →
      ctx.resources.get? name = some r → w.descriptors.get? name = some d → I w →
      I (Generation.stored w name (abstractModel ctx r d name))) (name : String) :
    Action.Keeps (fun w => Sound ctx.resources w ∧ I w) (generateAbstract ctx name) := by
  refine Action.keeps_of_ends ?_ ?_
  · rintro w m w' ⟨sound, holds⟩ h
    refine ⟨(keeps_generateAbstract name).of_answers h sound, ?_⟩
    rcases answers_generateAbstract.1 h with ⟨_, rfl⟩ | ⟨uncached, r, d, hr, hd, rfl, rfl⟩
    · exact holds
    · exact stored sound uncached hr hd holds
  · rintro w e w' kept h
    exact fails_generateAbstract h ▸ kept

end Generation

/-- What the steps of generation keep, every request keeps, if declaring or editing a resource
does. -/
theorem Compiler.workspace_after_of_kept {c : Compiler} {I : Workspace → Prop}
    (coherent : c.Coherent) (request : Request)
    (registers : ∀ resource d, request = .declare resource → checkNames resource = .ok () →
      (c.fill resource).Answers (.ofResource resource) () d →
      I c.workspace → I (c.registered resource d).workspace)
    (edits : ∀ name edit, request = .edit name edit → I c.workspace →
      I (c.after request).workspace)
    (kept : ∀ ctx, c.generationContext = .ok ctx → Kept ctx I)
    (stored : ∀ ctx, c.generationContext = .ok ctx → ∀ {w name r d}, Sound ctx.resources w →
      w.models.get? name = none → ctx.resources.get? name = some r →
      w.descriptors.get? name = some d → I w →
      I (Generation.stored w name (Generation.abstractModel ctx r d name)))
    (holds : I c.workspace) : I (c.after request).workspace :=
  workspace_after coherent request registers edits
    (fun ctx name known => Generation.keeps_of_stored (stored ctx known) name)
    (fun ctx name known => Generation.keeps_of_kept (kept ctx known) name) holds

/-! ## Orderly histories -/

section Steps

variable {P : Workspace → Prop}
  (extends_ : ∀ {resources w w'}, Orderly resources w → Extends w w' →
    (∀ n m, w'.models.get? n = some m → m.isAbstract = false → w.models.get? n = some m) →
    P w → P w')
  (builds : ∀ {ctx w w' unit D' start finished D₁}, Orderly ctx.resources w →
    Orderly ctx.resources { w with descriptors := D' } →
    BuiltUnit ctx w w' unit D' start finished D₁ → P { w with descriptors := D' } → P w')

namespace Generation

variable {ctx : GenerationContext}

include extends_ builds in
theorem kept_orderly : Kept ctx fun w => Orderly ctx.resources w ∧ P w where
  bound := by
    rintro w root sound pending ⟨orderly, holds⟩
    have steps := sound.bind_steps root
    exact ⟨orderly.bound steps, extends_ orderly (orderly.extends_bound pending steps)
      (fun _ _ cached _ => cached) holds⟩
  compiled := by
    rintro w w' unit D' start finished D₁ _ built ⟨orderly, _⟩ ⟨orderly', holds⟩
    have pending : ∀ k ∈ unit, Binding.isPending D' w.models k = true := built.pending
    exact ⟨Orderly.compiled built.compiled orderly' built.distinct pending,
      builds orderly orderly' built holds⟩
  stored := by
    rintro w name r d _ uncached hr abs hd ⟨orderly, holds⟩
    refine ⟨orderly.stored uncached hr abs hd, extends_ orderly (Orderly.extends_stored uncached _)
      (fun n m cached concrete => ?_) holds⟩
    rcases (get?_models_stored uncached).1 cached with old | ⟨_, rfl⟩
    · exact old
    · cases concrete

include extends_ builds in
/-- What growing workspaces and built units keep, a request for a model keeps. -/
theorem keeps_orderly (name : String) :
    Action.Keeps (fun w => Orderly ctx.resources w ∧ P w) (generate ctx name) := by
  rintro w ⟨orderly, holds⟩
  exact (keeps_of_kept (kept_orderly extends_ builds) name w ⟨orderly.sound, orderly, holds⟩).2

end Generation

namespace Compiler

variable {c : Compiler}

/-- What an orderly history may ask next: a declaration of a new name, or a generation. -/
inductive Asks (c : Compiler) : Request → Prop
  | declare (resource : Resource) (new : c.resources.get? resource.name = none) :
      Asks c (.declare resource)
  | generate (name : String) : Asks c (.generate name)
  | generateAll : Asks c .generateAll
  | initApp (app : Application) : Asks c (.initApp app)

/-- A history that declares no name again. -/
def DeclaresOnce (c : Compiler) : List Request → Prop
  | [] => True
  | request :: rest => c.Asks request ∧ (c.after request).DeclaresOnce rest

theorem declaresOnce_append {before after : List Request} :
    c.DeclaresOnce (before ++ after) ↔ c.DeclaresOnce before ∧ (c.run before).DeclaresOnce after := by
  induction before generalizing c with
  | nil => simp [DeclaresOnce]
  | cons request rest ih =>
      rw [List.cons_append, DeclaresOnce, DeclaresOnce, ih, run_cons, and_assoc]

/-- A compiler as orderly histories make it: with the built-in configurator alone. -/
structure InOrder (c : Compiler) : Prop where
  builtIn : ∀ k ∈ c.configurators, k = .primaryKey
  orderly : Orderly c.resources c.workspace

theorem inOrder_new (settings : Settings) : (new settings).InOrder := by
  refine ⟨?_, (coherent_new settings).sound, ?_, ?_, ?_⟩
  · intro k mem
    unfold new at mem
    by_cases auto : settings.autoPrimaryKey
    · simpa [auto] using mem
    · simp [auto] at mem
  · intro n d found
    cases found
  · intro n m d found
    cases found
  · intro n m r found
    cases found

theorem inOrder_generating {α : Type} {x : GenerationContext → Action Workspace α}
    (h : ∀ ctx, Action.Keeps (fun w => Orderly ctx.resources w ∧ P w) (x ctx)) (inOrder : c.InOrder)
    (holds : P c.workspace) :
    (generating x c).state.InOrder ∧ P (generating x c).state.workspace := by
  rcases generating_state (x := x) c with same | ⟨ctx, known, changed⟩
  · rw [same]
    exact ⟨inOrder, holds⟩
  · rw [changed]
    have resources := (generationContext_eq_ok known).2.1
    obtain ⟨orderly, holds'⟩ := h ctx c.workspace ⟨resources ▸ inOrder.orderly, holds⟩
    rw [resources] at orderly
    exact ⟨⟨inOrder.builtIn, orderly⟩, holds'⟩

include extends_ builds

/-- What growing workspaces and built units keep, an orderly history keeps. -/
theorem inOrder_after {request : Request} (asks : c.Asks request) (inOrder : c.InOrder)
    (holds : P c.workspace) :
    (c.after request).InOrder ∧ P (c.after request).workspace := by
  have all : (generateAll c).state.InOrder ∧ P (generateAll c).state.workspace :=
    inOrder_generating (fun ctx => Generation.keeps_generateEach fun name _ =>
      Generation.keeps_orderly extends_ builds name) inOrder holds
  cases asks with
  | declare resource new =>
      change (declare resource c).state.InOrder ∧ P (declare resource c).state.workspace
      rcases declare_state c resource with same | ⟨d, filled, changed⟩
      · rw [same]
        exact ⟨inOrder, holds⟩
      · rw [changed]
        refine ⟨⟨inOrder.builtIn, orderly_registered inOrder.orderly new
          (filling_fill (fun k mem => ?_) filled)⟩, ?_⟩
        · rw [inOrder.builtIn k mem]
          exact Descriptor.keeps_addPrimaryKey c.settings
        exact extends_ inOrder.orderly (extends_registered inOrder.orderly.sound new d)
          (fun _ _ cached _ => cached) holds
  | generate name =>
      exact inOrder_generating (fun ctx => Generation.keeps_orderly extends_ builds name)
        inOrder holds
  | generateAll => exact all
  | initApp app =>
      change (initApp (c, app)).state.1.InOrder ∧ P (initApp (c, app)).state.1.workspace
      rcases initApp_state c app with same | generated
      · rw [same]
        exact ⟨inOrder, holds⟩
      · rw [generated]
        exact all

theorem inOrder_run {requests : List Request} (once : c.DeclaresOnce requests)
    (inOrder : c.InOrder) (holds : P c.workspace) :
    (c.run requests).InOrder ∧ P (c.run requests).workspace := by
  induction requests generalizing c with
  | nil => exact ⟨inOrder, holds⟩
  | cons request rest ih =>
      obtain ⟨asks, later⟩ := once
      obtain ⟨inOrder', holds'⟩ := inOrder_after extends_ builds asks inOrder holds
      exact ih later inOrder' holds'

end Compiler

end Steps

/-! ## Histories that keep builders fitting -/

/-- Configurators and edits change no relationship behind its builder. -/
def Request.Fits : Request → Prop
  | .configure k => ∀ settings resource,
      Action.Keeps (Descriptor.Filling resource) (k.configure settings)
  | .edit _ x => ∀ d, d.WellFormed → d.Faithful → (x.change d).Faithful
  | _ => True

theorem Generation.kept_fitting {ctx : GenerationContext} : Kept ctx Fitting where
  bound := fun sound _ fitting => fitting.bound sound (sound.bind_steps _)
  compiled := fun _ built _ fitting => fitting.compiled built.compiled
  stored := fun _ _ _ _ _ fitting => fitting.stored _

namespace Compiler

open Generation

variable {c : Compiler}

/-- A compiler whose configurators and descriptors fit. -/
structure FitsAll (c : Compiler) : Prop where
  configurators : ∀ k ∈ c.configurators, ∀ settings resource,
    Action.Keeps (Descriptor.Filling resource) (k.configure settings)
  fitting : Fitting c.workspace

theorem fitsAll_generating {α : Type} {x : GenerationContext → Action Workspace α}
    (h : ∀ ctx, Action.Keeps (fun w => Sound ctx.resources w ∧ Fitting w) (x ctx))
    (coherent : c.Coherent) (fits : c.FitsAll) : (generating x c).state.FitsAll := by
  rcases generating_state (x := x) c with same | ⟨ctx, known, changed⟩
  · rw [same]
    exact fits
  · rw [changed]
    have resources := (generationContext_eq_ok known).2.1
    exact ⟨fits.configurators,
      (h ctx c.workspace ⟨resources ▸ coherent.sound, fits.fitting⟩).2⟩

theorem fitsAll_after {request : Request} (allowed : request.Fits) (coherent : c.Coherent)
    (fits : c.FitsAll) : (c.after request).FitsAll := by
  have all : (generateAll c).state.FitsAll :=
    fitsAll_generating (fun _ => keeps_generateEach fun name _ => keeps_of_kept kept_fitting name)
      coherent fits
  cases request with
  | configure configurator =>
      refine ⟨fun k mem => ?_, fits.fitting⟩
      rcases List.mem_append.1 mem with old | new
      · exact fits.configurators k old
      · rw [List.mem_singleton] at new
        exact new ▸ allowed
  | declare resource =>
      change (declare resource c).state.FitsAll
      rcases declare_state c resource with same | ⟨d, filled, changed⟩
      · rw [same]
        exact fits
      · rw [changed]
        exact ⟨fits.configurators, fits.fitting.registered (filling_fill (fun k mem =>
          fits.configurators k mem c.settings resource) filled).2⟩
  | edit name edit =>
      refine ⟨fits.configurators, fun n d' found => ?_⟩
      change (c.workspace.descriptors.modify name edit.change).get? n = some d' at found
      rw [Roster.get?_modify] at found
      by_cases same : n = name
      · rw [if_pos same] at found
        obtain ⟨d, before, rfl⟩ := Option.map_eq_some_iff.1 found
        exact allowed d (coherent.sound.allWellFormed n d before) (fits.fitting n d before)
      · rw [if_neg same] at found
        exact fits.fitting n d' found
  | generate name => exact fitsAll_generating (fun _ => keeps_of_kept kept_fitting name) coherent fits
  | generateAbstract name =>
      exact fitsAll_generating (fun _ => keeps_of_stored (fun _ _ _ _ fitting => fitting.stored _) name)
        coherent fits
  | generateAll => exact all
  | initApp app =>
      change (initApp (c, app)).state.1.FitsAll
      rcases initApp_state c app with same | generated
      · rw [same]
        exact fits
      · rw [generated]
        exact all

/-- As long as nothing changes a relationship behind its builder, builders fit. -/
theorem fitting_run (settings : Settings) {requests : List Request}
    (allowed : ∀ request ∈ requests, request.Fits) :
    Fitting ((new settings).run requests).workspace := by
  have start : (new settings).FitsAll := by
    refine ⟨fun k mem settings' resource => ?_, fun n d found => by cases found⟩
    rw [(inOrder_new settings).builtIn k mem]
    exact Descriptor.keeps_addPrimaryKey settings'
  have ends := run_keeps (I := fun c => c.Coherent ∧ c.FitsAll)
    (fun c request allowed ⟨coherent, fits⟩ =>
      ⟨coherent_after coherent request, fitsAll_after allowed coherent fits⟩)
    ⟨coherent_new settings, start⟩ allowed
  exact ends.2.fitting

end Compiler

end ResourceTables
