/-
# `ResourceTables.Proofs.Atomicity` — of a unit, everything is cached or nothing

A request for a model that fails leaves the cache and the marks of generated descriptors as they
were, wherever it fails: in binding, in drafting, or in any phase of building.  One that succeeds
puts exactly the members of the unit at the end of the cache.  So a run over all resources that
fails in the end has cached complete units only.
-/
import Mathlib
import ResourceTables.Proofs.Workspaces

namespace ResourceTables

/-- Whether the descriptor of a resource counts as generated. -/
def Workspace.isGenerated (w : Workspace) (n : String) : Bool :=
  (w.descriptors.get? n).any (·.isGenerated)

/-- The same models in the same order, and the same descriptors marked as generated. -/
structure SameCache (w w' : Workspace) : Prop where
  models_eq : w'.models = w.models
  marks : ∀ n, w'.isGenerated n = w.isGenerated n

/-- The cache with the models of the unit of `root` at the end, each once and in the order of
declaration; the descriptors of the members have become generated, and no others. -/
structure AddsUnit (resources : Roster Resource) (root : String) (w w' : Workspace) : Prop where
  models : ∃ added : List (String × Model), w'.models.entries = w.models.entries ++ added
    ∧ (added.map (·.1)).Sublist resources.names ∧ (added.map (·.1)).Nodup
    ∧ (∀ n, n ∈ added.map (·.1) ↔ Binding.InUnit w.descriptors w.models root n)
    ∧ ∀ e ∈ added, e.2.resource = e.1 ∧ e.2.isAbstract = false
  new : ∀ n, Binding.InUnit w.descriptors w.models root n →
    w.models.get? n = none ∧ w.isGenerated n = false
  marks : ∀ n, w'.isGenerated n = true ↔
    w.isGenerated n = true ∨ Binding.InUnit w.descriptors w.models root n

/-- The cache with the abstract model of a resource at the end. -/
structure AddsAbstract (name : String) (w w' : Workspace) : Prop where
  models : ∃ m : Model, w'.models.entries = w.models.entries ++ [(name, m)]
    ∧ m.resource = name ∧ m.isAbstract = true
  new : w.models.get? name = none
  marks : ∀ n, w'.isGenerated n = true ↔ w.isGenerated n = true ∨ n = name

theorem SameCache.refl (w : Workspace) : SameCache w w := ⟨rfl, fun _ => rfl⟩

/-- Binding marks nothing as generated. -/
theorem sameCache_of_bound {resources : Roster Resource} {w : Workspace} {unit : List String}
    {D' : Roster Descriptor} (sound : Sound resources w)
    (steps : Roster.Evolves (Binding.Bound unit) w.descriptors D') :
    SameCache w { w with descriptors := D' } := by
  refine ⟨rfl, fun n => ?_⟩
  unfold Workspace.isGenerated
  rcases steps.get? n with ⟨before, after⟩ | ⟨d, d', before, after, bound⟩
  · rw [before, after]
  · rw [before, after]
    exact (bound.grown (sound.allWellFormed n d before)).finished_eq

namespace Generation

variable {ctx : GenerationContext} {w w' : Workspace} {name : String} {m : Model} {e : Error}

/-- Compiling marks the members of the unit as generated, and nothing else. -/
theorem isGenerated_compiled {unit : List String} {start finished : Roster Model}
    {D₁ : Roster Descriptor} (spec : Sound.Compiled ctx unit w w' start finished D₁)
    (distinct : unit.Nodup) (n : String) :
    w'.isGenerated n = true ↔ w.isGenerated n = true ∨ n ∈ unit := by
  unfold Workspace.isGenerated
  cases found : w.descriptors.get? n with
  | none =>
      have outside : n ∉ unit := by
        intro mem
        obtain ⟨_, d, _, _, there, _⟩ := spec.member distinct mem
        rw [found] at there
        cases there
      have absent : w'.descriptors.get? n = none := by
        rw [Roster.get?_eq_none_iff, spec.descriptors.names_eq, spec.worked.names_eq,
          ← Roster.get?_eq_none_iff]
        exact found
      simp [absent, outside]
  | some d =>
      obtain ⟨d', found', marked⟩ := spec.descriptor found
      rw [found']
      by_cases mem : n ∈ unit
      · rw [if_pos mem] at marked
        obtain ⟨d₁, _, rfl⟩ := marked
        simp [mem, Descriptor.isGenerated, Descriptor.markGenerated, BuildPlan.finish]
      · rw [if_neg mem] at marked
        simp [mem, marked]

/-- A unit that is compiled is in the cache as a whole. -/
theorem addsUnit_of_compiled {r : Resource} {ordered : List String} {D' : Roster Descriptor}
    (sound : Sound ctx.resources w) (hr : ctx.resources.get? name = some r)
    (concrete : r.isAbstract = false) (uncached : w.models.get? name = none)
    (bound : (Binding.bind ctx.resources w.models name).Answers w.descriptors ordered D')
    (compiled : (compile ctx ordered).Answers { w with descriptors := D' } () w') :
    AddsUnit ctx.resources name w w' ∧ ∃ m, w'.models.get? name = some m := by
  obtain ⟨sound', distinct, members, pending⟩ := sound.bound_unit hr concrete uncached bound
  obtain ⟨_, start, finished, D₁, spec⟩ :=
    (compile_ends sound hr concrete uncached bound).1 compiled
  have steps := sound.bind_steps name
  rw [bound.2] at steps
  have unmarked : ∀ n, { w with descriptors := D' : Workspace }.isGenerated n = w.isGenerated n :=
    (sameCache_of_bound sound steps).marks
  have fresh : ∀ n, n ∈ ordered → w.models.get? n = none ∧ w.isGenerated n = false := by
    intro n mem
    obtain ⟨d, found, _, notGenerated, none⟩ := Binding.isPending_iff.1 (pending n mem)
    refine ⟨Roster.contains_eq_false_iff.1 none, ?_⟩
    rw [← unmarked n]
    simpa [Workspace.isGenerated, found] using notGenerated
  have names : finished.entries.map (·.1) = ordered := spec.names_eq
  refine ⟨⟨⟨finished.entries, congrArg Roster.entries spec.models_eq, ?_, ?_, ?_, ?_⟩, ?_, ?_⟩, ?_⟩
  · rw [names]
    exact sound.bound_sublist hr concrete uncached bound
  · rw [names]
    exact distinct
  · rw [names]
    exact members
  · rintro ⟨n, model⟩ mem
    have found := Roster.get?_of_mem_entries (by rw [spec.names_eq]; exact distinct) mem
    obtain ⟨_, _, _, _, _, grows⟩ := spec.exists_grown distinct found
    exact ⟨grows.resource_eq, grows.isAbstract_eq⟩
  · exact fun n inside => fresh n ((members n).2 inside)
  · intro n
    rw [← members n, ← unmarked n]
    exact isGenerated_compiled spec distinct n
  · have root : name ∈ ordered := (members name).2 .refl
    obtain ⟨_, _, m, _, _, _, found, _⟩ := spec.member distinct root
    refine ⟨m, ?_⟩
    rw [spec.get?_models, (fresh name root).1, Option.none_or]
    exact found

/-- An abstract model comes to the end of the cache. -/
theorem addsAbstract_of_stored {r : Resource} {d : Descriptor} (uncached : w.models.get? name = none)
    (hd : w.descriptors.get? name = some d) :
    AddsAbstract name w (stored w name (abstractModel ctx r d name)) := by
  refine ⟨⟨abstractModel ctx r d name, ?_, rfl, rfl⟩, uncached, fun n => ?_⟩
  · exact Roster.insertNew_eq_append uncached _
  · unfold Workspace.isGenerated stored
    rw [Roster.get?_modify]
    by_cases same : n = name
    · subst same
      simp [hd, Descriptor.isGenerated, Descriptor.markGenerated, BuildPlan.finish]
    · simp [same]

/-- What a granted request does to the cache. -/
theorem generate_grows (sound : Sound ctx.resources w) (h : (generate ctx name).Answers w m w') :
    (w.models.get? name = some m ∧ w = w') ∨
      ∃ r, ctx.resources.get? name = some r ∧ w.models.get? name = none ∧
        ((r.isAbstract = true ∧ AddsAbstract name w w') ∨
          (r.isAbstract = false ∧ AddsUnit ctx.resources name w w')) := by
  rcases answers_generate.1 h with old | ⟨uncached, r, hr, ⟨abs, made⟩ |
    ⟨concrete, ordered, D', bound, compiled, _⟩⟩
  · exact .inl old
  · rcases answers_generateAbstract.1 made with ⟨found, _⟩ | ⟨_, r', d, _, hd, rfl, rfl⟩
    · rw [uncached] at found
      cases found
    · exact .inr ⟨r, hr, uncached, .inl ⟨abs, addsAbstract_of_stored uncached hd⟩⟩
  · exact .inr ⟨r, hr, uncached, .inr ⟨concrete,
      (addsUnit_of_compiled sound hr concrete uncached bound compiled).1⟩⟩

/-- A refused request leaves the cache as it was. -/
theorem generate_refused (sound : Sound ctx.resources w)
    (h : (generate ctx name).Fails w e w') : SameCache w w' := by
  obtain ⟨uncached, rfl | ⟨r, hr, concrete, ⟨D', unbound, rfl⟩ |
    ⟨ordered, D', bound, failed | ⟨compiled, missing⟩⟩⟩⟩ := fails_generate h
  · exact .refl w
  · have steps := sound.bind_steps name
    rw [unbound.2] at steps
    exact sameCache_of_bound sound steps
  · have steps := sound.bind_steps name
    rw [bound.2] at steps
    rw [← (compile_ends sound hr concrete uncached bound).2 e failed]
    exact sameCache_of_bound sound steps
  · obtain ⟨_, m, found⟩ := addsUnit_of_compiled sound hr concrete uncached bound compiled
    rw [missing] at found
    cases found

/-- One granted request of a run over resources: nothing new, a complete unit, or an abstract
model. -/
def Granted (ctx : GenerationContext) (w w' : Workspace) : Prop :=
  ∃ name m, (generate ctx name).Answers w m w' ∧
    (w = w' ∨ AddsUnit ctx.resources name w w' ∨ AddsAbstract name w w')

/-- A run over resources that fails got so far by granted requests, and left the cache there. -/
theorem generateEach_refused {names : List String} (sound : Sound ctx.resources w)
    (h : (generateEach ctx names).Fails w e w') :
    ∃ w₁, Relation.ReflTransGen (Granted ctx) w w₁ ∧ SameCache w₁ w' := by
  induction names generalizing w with
  | nil => exact absurd h Action.fails_pure
  | cons name rest ih =>
      rcases Action.fails_bind.1 h with refused | ⟨m, w₁, granted, h⟩
      · exact ⟨w, .refl, generate_refused sound refused⟩
      · have step : Granted ctx w w₁ := by
          refine ⟨name, m, granted, ?_⟩
          rcases generate_grows sound granted with ⟨_, same⟩ | ⟨_, _, _, ⟨_, one⟩ | ⟨_, unit⟩⟩
          · exact .inl same
          · exact .inr (.inr one)
          · exact .inr (.inl unit)
        rcases Action.fails_bind.1 h with failed | ⟨_, _, _, impossible⟩
        · obtain ⟨w₂, steps, same⟩ := ih ((keeps_generate name).of_answers granted sound) failed
          exact ⟨w₂, .head step steps, same⟩
        · exact absurd impossible Action.fails_pure

end Generation

namespace Compiler

variable {c c' : Compiler} {e : Error}

/-- One granted request of a run over all resources of a compiler. -/
def Granted (c c' : Compiler) : Prop :=
  ∃ name m, (generate name).Answers c m c' ∧
    (c = c' ∨ AddsUnit c.resources name c.workspace c'.workspace
      ∨ AddsAbstract name c.workspace c'.workspace)

theorem granted_lift {ctx : GenerationContext} (known : c.generationContext = .ok ctx)
    {w w' : Workspace} (h : Generation.Granted ctx w w') :
    Granted (c.withWorkspace w) (c.withWorkspace w') := by
  obtain ⟨name, m, answers, change⟩ := h
  have resources := (generationContext_eq_ok known).2.1
  refine ⟨name, m, answers_generating.2 ⟨ctx, w', known, answers, rfl⟩, ?_⟩
  rcases change with rfl | unit | one
  · exact .inl rfl
  · exact .inr (.inl (resources ▸ unit))
  · exact .inr (.inr one)

/-- Of a unit, everything is cached or nothing.  A request that fails leaves the cache and the marks
of generated descriptors as they were; a granted one for a resource with a table that has no model
yet adds exactly its unit; and a run over all resources that fails has added complete units and
abstract models only. -/
theorem generation_all_or_nothing (settings : Settings) (requests : List Request) (c : Compiler)
    (reached : (new settings).run requests = c) :
    (∀ name e c', (generate name).Fails c e c' → SameCache c.workspace c'.workspace) ∧
    (∀ name r m c', c.resources.get? name = some r → r.isAbstract = false →
      c.model? name = none → (generate name).Answers c m c' →
        AddsUnit c.resources name c.workspace c'.workspace) ∧
    ∀ e c', generateAll.Fails c e c' →
      ∃ c₁, Relation.ReflTransGen Granted c c₁ ∧ SameCache c₁.workspace c'.workspace := by
  have sound : Sound c.resources c.workspace := reached ▸ (coherent_run settings requests).sound
  refine ⟨?_, ?_, ?_⟩
  · intro name e c' h
    rcases fails_generating.1 h with ⟨_, rfl⟩ | ⟨ctx, w, known, failed, rfl⟩
    · exact .refl _
    · have resources := (generationContext_eq_ok known).2.1
      exact Generation.generate_refused (resources ▸ sound) failed
  · intro name r m c' hr concrete uncached h
    obtain ⟨ctx, w, known, answers, rfl⟩ := answers_generating.1 h
    have resources := (generationContext_eq_ok known).2.1
    rcases Generation.generate_grows (resources ▸ sound) answers with
      ⟨found, _⟩ | ⟨r', hr', _, ⟨abs, _⟩ | ⟨_, unit⟩⟩
    · rw [show c.workspace.models.get? name = none from uncached] at found
      cases found
    · rw [resources, hr, Option.some.injEq] at hr'
      rw [← hr', concrete] at abs
      cases abs
    · exact resources ▸ unit
  · intro e c' h
    rcases fails_generating.1 h with ⟨_, rfl⟩ | ⟨ctx, w, known, failed, rfl⟩
    · exact ⟨c, .refl, .refl _⟩
    · have resources := (generationContext_eq_ok known).2.1
      obtain ⟨w₁, steps, same⟩ := Generation.generateEach_refused (resources ▸ sound) failed
      refine ⟨c.withWorkspace w₁, ?_, same⟩
      exact steps.lift c.withWorkspace fun _ _ => granted_lift known

/-- A team, which lists its players. -/
def team : Resource :=
  { name := "Team", options := { tableName := some "teams" }
    properties := [⟨"players", 1, .relationship (.new .oneToMany "Player")⟩] }

/-- Teams and players, and bookings of a resource that is not declared. -/
def league : List Request :=
  [.declare team, .declare { name := "Player", options := { tableName := some "players" } },
    .declare { name := "Booking", options := { tableName := some "bookings" }
               properties := [⟨"venue", 2, .relationship (.new .manyToOne "Venue")⟩] }]

theorem generation_all_or_nothing_league :
    (∃ e c', (generate "Booking").Fails ((new {}).run league) e c'
      ∧ SameCache ((new {}).run league).workspace c'.workspace) ∧
    (∃ m c', (generate "Team").Answers ((new {}).run league) m c'
      ∧ AddsUnit ((new {}).run league).resources "Team" ((new {}).run league).workspace
          c'.workspace) ∧
    ∃ e c', generateAll.Fails ((new {}).run league) e c' ∧
      ∃ c₁, Relation.ReflTransGen Granted ((new {}).run league) c₁
        ∧ SameCache c₁.workspace c'.workspace := by
  obtain ⟨refused, granted, all⟩ := generation_all_or_nothing {} league _ rfl
  refine ⟨?_, ?_, ?_⟩
  · obtain ⟨e, c', fails⟩ := Action.exists_fails_of_isOk (x := generate "Booking")
      (s := (new {}).run league) (by cbv)
    exact ⟨e, c', fails, refused _ e c' fails⟩
  · obtain ⟨m, c', answers⟩ := Action.exists_answers_of_isOk (x := generate "Team")
      (s := (new {}).run league) (by cbv)
    exact ⟨m, c', answers, granted "Team" team m c' (by cbv) rfl (by cbv) answers⟩
  · obtain ⟨e, c', fails⟩ := Action.exists_fails_of_isOk (x := generateAll)
      (s := (new {}).run league) (by cbv)
    exact ⟨e, c', fails, all e c' fails⟩

end Compiler

end ResourceTables
