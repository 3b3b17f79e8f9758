/-
# `ResourceTables.Proofs.Histories` — what can be asked of a compiler, one request after another

A history is a list of requests, and every state that a compiler can be in is where some history
leads.  Requests that fail belong to it: they leave a state like any other.

Configurators are functions of the caller.  All that is assumed of one is that it changes a
descriptor by edits.
-/
import ResourceTables.Compiler
import ResourceTables.Proofs.Descriptors

namespace ResourceTables

/-- A configurator that only edits descriptors, also when it fails. -/
structure EditingConfigurator extends Configurator where
  edits : ∀ settings d, Relation.ReflTransGen Descriptor.Edit d (configure settings d).state

/-- Edits of the descriptor of a declared resource, made by a caller. -/
structure DescriptorChange where
  change : Descriptor → Descriptor
  edits : ∀ d, Relation.ReflTransGen Descriptor.Edit d (change d)

/-- What can be asked of a compiler. -/
inductive Request where
  /-- From now on a configurator runs for every declared resource. -/
  | configure (configurator : EditingConfigurator)
  | declare (resource : Resource)
  | edit (name : String) (change : DescriptorChange)
  | generate (name : String)
  | generateAbstract (name : String)
  | generateAll
  | initApp (app : Application)

namespace Compiler

/-- The compiler after a request, whether it was granted or refused. -/
def after (c : Compiler) : Request → Compiler
  | .configure configurator => c.withConfigurator configurator.toConfigurator
  | .declare resource => (declare resource c).state
  | .edit name edit =>
    { c with workspace := { c.workspace with
        descriptors := c.workspace.descriptors.modify name edit.change } }
  | .generate name => (generate name c).state
  | .generateAbstract name => (generateAbstract name c).state
  | .generateAll => (generateAll c).state
  | .initApp app => (initApp (c, app)).state.1

/-- The compiler after a history. -/
def run (c : Compiler) (requests : List Request) : Compiler := requests.foldl after c

@[simp] theorem run_nil (c : Compiler) : c.run [] = c := rfl

@[simp] theorem run_cons (c : Compiler) (request : Request) (requests : List Request) :
    c.run (request :: requests) = (c.after request).run requests := rfl

theorem run_append (c : Compiler) (before after : List Request) :
    c.run (before ++ after) = (c.run before).run after := by
  rw [run, run, run, List.foldl_append]

/-- What every request keeps, a history keeps. -/
theorem run_keeps {I : Compiler → Prop} {allowed : Request → Prop}
    (h : ∀ c request, allowed request → I c → I (c.after request)) {c : Compiler} (hc : I c)
    {requests : List Request} (ok : ∀ request ∈ requests, allowed request) :
    I (c.run requests) := by
  induction requests generalizing c with
  | nil => exact hc
  | cons request rest ih =>
      refine ih (h c request (ok request List.mem_cons_self) hc) ?_
      exact fun later mem => ok later (List.mem_cons_of_mem _ mem)

/-! ## Generations -/

section Generations

variable {α : Type} {x : GenerationContext → Action Workspace α} {c c' : Compiler} {a : α}
  {e : Error}

/-- The compiler with another workspace. -/
def withWorkspace (c : Compiler) (w : Workspace) : Compiler := { c with workspace := w }

@[simp] theorem workspace_withWorkspace (c : Compiler) (w : Workspace) :
    (c.withWorkspace w).workspace = w := rfl

@[simp] theorem resources_withWorkspace (c : Compiler) (w : Workspace) :
    (c.withWorkspace w).resources = c.resources := rfl

theorem exists_generatorNamed {g : String} (known : Naming.isKnownGenerator g = true) :
    ∃ generator, Naming.generatorNamed g = .ok generator := by
  unfold Naming.generatorNamed
  cases found : Naming.generators.lookup g with
  | none =>
      rw [List.lookup_eq_none_iff] at found
      obtain ⟨entry, mem, name⟩ := List.any_eq_true.1 known
      have other := found entry mem
      rw [beq_iff_eq.1 name] at other
      simp at other
  | some generator => exact ⟨generator, rfl⟩

theorem generationContext_eq_ok {ctx : GenerationContext} (h : c.generationContext = .ok ctx) :
    ctx.settings = c.settings ∧ ctx.resources = c.resources
      ∧ Naming.generatorNamed c.settings.generatorName = .ok ctx.generator := by
  unfold generationContext at h
  cases found : Naming.generatorNamed c.settings.generatorName with
  | error e =>
      rw [found] at h
      cases h
  | ok generator =>
      rw [found] at h
      cases h
      exact ⟨rfl, rfl, rfl⟩

theorem answers_generating :
    (generating x).Answers c a c' ↔
      ∃ ctx w, c.generationContext = .ok ctx ∧ (x ctx).Answers c.workspace a w
        ∧ c.withWorkspace w = c' := by
  simp [generating, withWorkspace]

theorem fails_generating :
    (generating x).Fails c e c' ↔
      (c.generationContext = .error e ∧ c = c') ∨
      ∃ ctx w, c.generationContext = .ok ctx ∧ (x ctx).Fails c.workspace e w
        ∧ c.withWorkspace w = c' := by
  simp [generating, withWorkspace]

/-- A generation changes the workspace only. -/
theorem generating_state (c : Compiler) :
    (generating x c).state = c ∨
      ∃ ctx, c.generationContext = .ok ctx
        ∧ (generating x c).state = c.withWorkspace (x ctx c.workspace).state := by
  rcases Action.answers_or_fails (generating x) c with ⟨a, c', h⟩ | ⟨e, c', h⟩
  · obtain ⟨ctx, w, found, one, rfl⟩ := answers_generating.1 h
    exact .inr ⟨ctx, found, by rw [h.2, one.2]⟩
  · rcases fails_generating.1 h with ⟨_, rfl⟩ | ⟨ctx, w, found, one, rfl⟩
    · exact .inl h.2
    · exact .inr ⟨ctx, found, by rw [h.2, one.2]⟩

/-- Giving a host the schema leaves the compiler as it is, or generates all models. -/
theorem initApp_state (c : Compiler) (app : Application) :
    (initApp (c, app)).state.1 = c ∨ (initApp (c, app)).state.1 = (generateAll c).state := by
  have schema : (compiledSchema c).state = (generateAll c).state := by
    rcases h : generateAll c with ⟨_ | models, s, notes⟩
    · simp [compiledSchema, Action.bind_apply_error h]
    · simp [compiledSchema, Action.bind_apply_ok h]
  unfold initApp
  rw [Action.bind_apply_ok (rfl : (Action.read : Action (Compiler × Application) _) (c, app)
    = ⟨.ok (c, app), (c, app), []⟩)]
  by_cases carried : app.extensions.contains Application.schemaName
  · left
    simp only [carried, if_true]
    rcases found : app.schema with e | schema
    · rfl
    · rfl
  · right
    simp only [carried, if_false, Bool.false_eq_true]
    rw [← schema]
    rcases h : compiledSchema c with ⟨_ | models, s, notes⟩
    · simp [bind, Action.bind, Action.zoom, h]
    · simp [bind, Action.bind, Action.zoom, h, Action.change, Action.note]

end Generations

/-! ## Declarations -/

section Declarations

variable {c c' : Compiler} {resource : Resource} {d : Descriptor} {e : Error} {u : Unit}

/-- The compiler with a resource and its descriptor, in the place of an earlier one of its name. -/
def registered (c : Compiler) (resource : Resource) (d : Descriptor) : Compiler :=
  { c with
    resources := c.resources.insert resource.name resource
    workspace := { c.workspace with
      descriptors := c.workspace.descriptors.insert resource.name d } }

theorem answers_instrument :
    (instrument resource).Answers c d c' ↔
      checkNames resource = .ok ()
        ∧ (c.fill resource).Answers (Descriptor.ofResource resource) () d ∧ c = c' := by
  have filled : ∀ s : Compiler, Action.Answers (fun s =>
      let done := c.fill resource (Descriptor.ofResource resource)
      ⟨done.result.map fun _ => done.state, s, done.notes⟩) s d c' ↔
      (c.fill resource).Answers (Descriptor.ofResource resource) () d ∧ s = c' := by
    intro s
    rcases h : c.fill resource (Descriptor.ofResource resource) with ⟨_ | u, d', notes⟩
    · simp [Action.Answers, h, Except.map]
    · simp [Action.Answers, h, Except.map]
  unfold instrument
  rw [Action.answers_bind]
  constructor
  · rintro ⟨_, _, one, other⟩
    obtain ⟨rfl, rfl⟩ := Action.answers_read.1 one
    obtain ⟨_, _, checked, last⟩ := Action.answers_bind.1 other
    obtain ⟨ok, rfl⟩ := Action.answers_ofExcept.1 checked
    exact ⟨ok, (filled _).1 last⟩
  · rintro ⟨names, last⟩
    refine ⟨c, c, Action.answers_read.2 ⟨rfl, rfl⟩, ?_⟩
    exact Action.answers_bind.2 ⟨(), c, Action.answers_ofExcept.2 ⟨names, rfl⟩, (filled c).2 last⟩

theorem fails_instrument (h : (instrument resource).Fails c e c') : c = c' := by
  unfold instrument at h
  rcases Action.fails_bind.1 h with none | ⟨_, _, one, other⟩
  · exact absurd none Action.fails_read
  · obtain ⟨rfl, rfl⟩ := Action.answers_read.1 one
    rcases Action.fails_bind.1 other with checked | ⟨_, _, checked, last⟩
    · exact (Action.fails_ofExcept.1 checked).2
    · rw [(Action.answers_ofExcept.1 checked).2]
      exact last.2

theorem answers_declare :
    (declare resource).Answers c u c' ↔
      ∃ d, checkNames resource = .ok ()
        ∧ (c.fill resource).Answers (Descriptor.ofResource resource) () d
        ∧ c.registered resource d = c' := by
  unfold declare
  simp only [Action.answers_bind, answers_instrument, register]
  constructor
  · rintro ⟨d, _, ⟨names, filled, rfl⟩, h⟩
    refine ⟨d, names, filled, ?_⟩
    by_cases taken : c.resources.contains resource.name
    · simpa [taken, registered] using h
    · simpa [taken, registered] using h
  · rintro ⟨d, names, filled, rfl⟩
    refine ⟨d, c, ⟨names, filled, rfl⟩, ?_⟩
    by_cases taken : c.resources.contains resource.name
    · simp [taken, registered]
    · simp [taken, registered]

/-- A declaration that fails registers nothing. -/
theorem fails_declare (h : (declare resource).Fails c e c') : c = c' := by
  unfold declare at h
  rcases Action.fails_bind.1 h with one | ⟨d, s, one, other⟩
  · exact fails_instrument one
  · obtain ⟨_, _, rfl⟩ := answers_instrument.1 one
    by_cases taken : c.resources.contains resource.name
    · simp [taken, register] at other
    · simp [taken, register] at other

theorem declare_state (c : Compiler) (resource : Resource) :
    (declare resource c).state = c ∨
      ∃ d, (c.fill resource).Answers (Descriptor.ofResource resource) () d
        ∧ (declare resource c).state = c.registered resource d := by
  rcases Action.answers_or_fails (declare resource) c with ⟨u, c', h⟩ | ⟨e, c', h⟩
  · obtain ⟨d, _, filled, rfl⟩ := answers_declare.1 h
    exact .inr ⟨d, filled, h.2⟩
  · exact .inl (h.2.trans (fails_declare h).symm)

/-- Configurators keep together what each of them keeps. -/
theorem keeps_applyAll {I : Descriptor → Prop} {settings : Settings} {ks : List Configurator}
    (each : ∀ k ∈ ks, Action.Keeps I (k.configure settings)) :
    Action.Keeps I (Configurator.applyAll settings ks) := by
  induction ks with
  | nil => exact Action.keeps_pure _
  | cons k rest ih =>
      refine Action.keeps_read.bind fun _ => (Action.keeps_note _ _).bind fun _ => ?_
      refine (each k List.mem_cons_self).bind fun _ => ih ?_
      exact fun k' mem => each k' (List.mem_cons_of_mem _ mem)

/-- Filling a descriptor keeps what entering a property, setting the methods and the configurators
keep. -/
theorem keeps_fill {I : Descriptor → Prop} (register : ∀ p, Action.Keeps I (Descriptor.register p))
    (methods : ∀ d methods, I d → I { d with methods })
    (configure : ∀ k ∈ c.configurators, Action.Keeps I (k.configure c.settings)) :
    Action.Keeps I (c.fill resource) := by
  unfold fill
  refine Action.Keeps.bind ?_ fun collected => ?_
  · unfold Ancestry.collect
    exact (Action.keeps_ofExcept _).bind fun _ => (Action.keeps_note _ _).bind fun _ =>
      Action.keeps_pure _
  · refine Action.Keeps.bind (Action.keeps_forM fun p _ => register p) fun _ => ?_
    refine (Action.keeps_ofExcept _).bind fun ms => ?_
    refine Action.Keeps.bind (Action.keeps_change fun d hd => methods d ms hd) fun _ => ?_
    exact keeps_applyAll configure

/-- A descriptor is filled with what is inherited, then with what the resource declares itself, and
configured in the end. -/
theorem answers_fill {d₀ : Descriptor} :
    (c.fill resource).Answers d₀ u d ↔
      ∃ chain methods d₁, Ancestry.ancestors c.resources resource = .ok chain
        ∧ Ancestry.collectMethods c.resources resource = .ok methods
        ∧ (forM (Ancestry.inherited chain ++ Ancestry.own resource) Descriptor.register).Answers
            d₀ ⟨⟩ d₁
        ∧ (Configurator.applyAll c.settings c.configurators).Answers { d₁ with methods } u d := by
  simp only [fill, Ancestry.collect, List.forM_eq_forM]
  constructor
  · intro h
    obtain ⟨_, _, collected, h⟩ := Action.answers_bind.1 h
    obtain ⟨chain, _, found, collected⟩ := Action.answers_bind.1 collected
    obtain ⟨known, rfl⟩ := Action.answers_ofExcept.1 found
    rw [Action.answers_note_bind] at collected
    obtain ⟨rfl, rfl⟩ := Action.answers_pure.1 collected
    obtain ⟨⟨⟩, d₁, entered, h⟩ := Action.answers_bind.1 h
    obtain ⟨methods, _, found, h⟩ := Action.answers_bind.1 h
    obtain ⟨known', rfl⟩ := Action.answers_ofExcept.1 found
    exact ⟨chain, methods, d₁, known, known', entered, Action.answers_change_bind.1 h⟩
  · rintro ⟨chain, methods, d₁, known, known', entered, h⟩
    refine Action.answers_bind.2 ⟨_, d₀, Action.answers_bind.2 ⟨chain, d₀,
      Action.answers_ofExcept.2 ⟨known, rfl⟩, Action.answers_note_bind.2
        (Action.answers_pure.2 ⟨rfl, rfl⟩)⟩, ?_⟩
    refine Action.answers_bind.2 ⟨⟨⟩, d₁, entered, Action.answers_bind.2 ⟨methods, d₁,
      Action.answers_ofExcept.2 ⟨known', rfl⟩, Action.answers_change_bind.2 h⟩⟩

end Declarations

/-! ## Requests, case by case -/

/-- A request for a configurator adds it, a declaration that is accepted registers its resource, and
everything else changes the workspace at most. -/
theorem after_cases (c : Compiler) (request : Request) :
    (∃ configurator, request = .configure configurator) ∨
    (∃ resource d, request = .declare resource
      ∧ (c.fill resource).Answers (Descriptor.ofResource resource) () d
      ∧ c.after request = c.registered resource d) ∨
    ∃ w, c.after request = c.withWorkspace w := by
  have generated : ∀ {α : Type} (x : GenerationContext → Action Workspace α),
      ∃ w, (generating x c).state = c.withWorkspace w := by
    intro α x
    rcases generating_state (x := x) c with same | ⟨_, _, changed⟩
    · exact ⟨c.workspace, same⟩
    · exact ⟨_, changed⟩
  cases request with
  | configure configurator => exact .inl ⟨configurator, rfl⟩
  | declare resource =>
      rcases declare_state c resource with same | ⟨d, filled, changed⟩
      · exact .inr (.inr ⟨c.workspace, same⟩)
      · exact .inr (.inl ⟨resource, d, rfl, filled, changed⟩)
  | edit name change => exact .inr (.inr ⟨_, rfl⟩)
  | generate name => exact .inr (.inr (generated _))
  | generateAbstract name => exact .inr (.inr (generated _))
  | generateAll => exact .inr (.inr (generated _))
  | initApp app =>
      rcases initApp_state c app with same | all
      · exact .inr (.inr ⟨c.workspace, same⟩)
      · obtain ⟨w, done⟩ := generated Generation.generateAll
        exact .inr (.inr ⟨w, all.trans done⟩)

/-- A request registers the resource that it declares under names that are accepted, if any. -/
theorem resources_after (c : Compiler) (request : Request) :
    (c.after request).resources = c.resources ∨ ∃ resource, request = .declare resource
      ∧ checkNames resource = .ok ()
      ∧ (c.after request).resources = c.resources.insert resource.name resource := by
  rcases after_cases c request with ⟨_, rfl⟩ | ⟨resource, _, rfl, _, _⟩ | ⟨_, changed⟩
  · exact .inl rfl
  · rcases Action.answers_or_fails (declare resource) c with ⟨_, _, ends⟩ | ⟨_, _, ends⟩
    · obtain ⟨d, names, _, rfl⟩ := answers_declare.1 ends
      exact .inr ⟨resource, rfl, names, congrArg Compiler.resources ends.2⟩
    · exact .inl (congrArg Compiler.resources (ends.2.trans (fails_declare ends).symm))
  · exact .inl (by rw [changed]; rfl)

end Compiler

/-- Giving a resource a primary key keeps what putting a field of its name before the others keeps. -/
theorem Configurator.keeps_addPrimaryKey {I : Descriptor → Prop} {settings : Settings}
    (prepend : ∀ f, Action.Keeps I (Descriptor.prependField settings.primaryKeyColumn f)) :
    Action.Keeps I (Configurator.addPrimaryKey settings) := by
  unfold Configurator.addPrimaryKey
  refine Action.keeps_read.bind fun d => ?_
  by_cases needs : Configurator.needsPrimaryKey d
  · by_cases taken : d.hasProperty settings.primaryKeyColumn
    · simp only [needs, taken, Bool.not_true, Bool.false_eq_true, if_false, if_true]
      exact Action.keeps_note _ _
    · simp only [needs, taken, Bool.not_true, Bool.false_eq_true, if_false]
      exact (prepend _).bind fun _ => Action.keeps_note _ _
  · simp only [needs, Bool.not_false, if_true]
    exact Action.keeps_pure _

/-- Giving a resource a primary key is an edit. -/
theorem Configurator.addPrimaryKey_edits (settings : Settings) (d : Descriptor) :
    Relation.ReflTransGen Descriptor.Edit d (Configurator.addPrimaryKey settings d).state :=
  keeps_addPrimaryKey (fun f d' steps => steps.tail (.prependField d' _ f)) d .refl

end ResourceTables
