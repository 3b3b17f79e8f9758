/-
# `ResourceTables.Proofs.Origins` — new models beside the descriptors that they are made from

A request can compile several units and store several abstract models.  Each model stands beside the
descriptor that it is made from, and what comes later in the request leaves both: models are not made
again, and binding at most looks the targets of a generated resource up once more.  So what is true of a
model and its descriptor when it is made is true of all new models when the request ends.
-/
import ResourceTables.Proofs.Orderly

namespace ResourceTables

open Generation

/-- The models that are not among some older ones have a property, together with their descriptors. -/
def NewHave (P : Workspace → String → Descriptor → Model → Prop) (old : Roster Model)
    (w : Workspace) : Prop :=
  ∀ n m, old.get? n = none → w.models.get? n = some m →
    ∃ d, w.descriptors.get? n = some d ∧ d.isGenerated = true ∧ P w n d m

/-- A property that members of a unit have when it is compiled, where the cache is as `J` says, and
abstract models when they are stored; neither more models nor targets that are looked up take it back. -/
structure Original (ctx : GenerationContext) (J : Roster Model → Prop)
    (P : Workspace → String → Descriptor → Model → Prop) : Prop where
  lasts : ∀ {w w' n d d' m}, (∀ k m, w.models.get? k = some m → w'.models.get? k = some m) →
    Binding.Frozen d d' → P w n d m → P w' n d' m
  compiled : ∀ {w w' unit D' start finished D₁ n d d₁ m},
    Sound ctx.resources { w with descriptors := D' } →
    BuiltUnit ctx w w' unit D' start finished D₁ → J w.models → n ∈ unit → D'.get? n = some d →
    D₁.get? n = some d₁ → Worked d d₁ → finished.get? n = some m → P w' n d₁.markGenerated m
  stored : ∀ {w name r d}, w.models.get? name = none → P (stored w name (abstractModel ctx r d name))
    name d.markGenerated (abstractModel ctx r d name)

namespace Original

variable {ctx : GenerationContext} {J : Roster Model → Prop}
  {P : Workspace → String → Descriptor → Model → Prop} {old : Roster Model} {w w' : Workspace}
  {unit : List String} {D' D₁ : Roster Descriptor} {start finished : Roster Model}

/-- Binding leaves generated resources as they are, but for targets that it looks up. -/
theorem newHave_bound (original : Original ctx J P) {root : String} (sound : Sound ctx.resources w)
    (uncached : ∀ n ∈ Binding.members ctx.resources w.descriptors w.models root,
      w.models.get? n = none) (have_ : NewHave P old w) :
    NewHave P old { w with
      descriptors := (Binding.bind ctx.resources w.models root w.descriptors).state } := by
  intro n m new cached
  obtain ⟨d, found, generated, holds⟩ := have_ n m new cached
  obtain ⟨d', found', bound⟩ := (sound.bind_steps root).get?_forward found
  have outside : n ∉ Binding.members ctx.resources w.descriptors w.models root := by
    intro member
    rw [uncached n member] at cached
    cases cached
  have frozen := bound.frozen outside generated
  refine ⟨d', found', ?_, original.lasts (w := w) (fun _ _ => id) frozen holds⟩
  rw [Descriptor.isGenerated, frozen.rest_eq]
  exact generated

theorem newHave_compiled (original : Original ctx J P)
    (sound : Sound ctx.resources { w with descriptors := D' })
    (built : BuiltUnit ctx w w' unit D' start finished D₁) (holds : J w.models)
    (have_ : NewHave P old { w with descriptors := D' }) : NewHave P old w' := by
  have models := built.compiled.get?_models
  intro n m new cached
  rw [models n] at cached
  rcases Option.or_eq_some_iff.1 cached with before | ⟨_, made⟩
  · obtain ⟨d, found, generated, holds⟩ := have_ n m new before
    obtain ⟨d', found', same⟩ := built.compiled.descriptor found
    have outside : n ∉ unit := by
      intro member
      rw [built.uncached member] at before
      cases before
    rw [if_neg outside] at same
    subst same
    refine ⟨d', found', generated, original.lasts (fun k m cached => ?_) (.refl d') holds⟩
    rw [models k]
    exact Option.or_eq_some_iff.2 (.inl cached)
  · obtain ⟨member, _, d, _, found, _⟩ := built.compiled.exists_grown built.distinct made
    obtain ⟨d₁, found₁, worked, _⟩ := built.compiled.worked.get?_forward found
    obtain ⟨d', found', marked⟩ := built.compiled.descriptors.get?_forward found₁
    rw [if_pos member] at marked
    subst marked
    exact ⟨_, found', rfl, original.compiled sound built holds member found found₁ worked made⟩

theorem newHave_stored (original : Original ctx J P) {name : String} {r : Resource} {d : Descriptor}
    (uncached : w.models.get? name = none) (found : w.descriptors.get? name = some d)
    (have_ : NewHave P old w) :
    NewHave P old (Generation.stored w name (abstractModel ctx r d name)) := by
  intro n m new cached
  rcases (get?_models_stored uncached).1 cached with before | ⟨rfl, rfl⟩
  · obtain ⟨d', found', generated, holds⟩ := have_ n m new before
    have other : n ≠ name := by
      rintro rfl
      rw [uncached] at before
      cases before
    refine ⟨d', (Roster.get?_modify_other other _).trans found', generated, ?_⟩
    exact original.lasts (fun k m there => (get?_models_stored uncached).2 (.inl there)) (.refl d')
      holds
  · refine ⟨d.markGenerated, ?_, rfl, original.stored uncached⟩
    change (w.descriptors.modify n _).get? n = _
    rw [Roster.get?_modify_self, found]
    rfl

theorem kept (original : Original ctx J P) (cache : Kept ctx fun w => J w.models)
    (old : Roster Model) : Kept ctx fun w => J w.models ∧ NewHave P old w where
  bound := fun sound uncached holds =>
    ⟨cache.bound sound uncached holds.1, original.newHave_bound sound uncached holds.2⟩
  compiled := by
    rintro w w' unit D' start finished D₁ sound built ⟨holds, _⟩ ⟨holds', have_⟩
    obtain ⟨members, steps, _⟩ := built.steps sound
    exact ⟨cache.compiled sound built holds holds',
      original.newHave_compiled (sound.bound steps) built holds have_⟩
  stored := fun sound uncached hr abs found holds =>
    ⟨cache.stored sound uncached hr abs found holds.1,
      original.newHave_stored uncached found holds.2⟩

end Original

namespace Compiler

variable {c : Compiler} {J : Roster Model → Prop}
  {P : Workspace → String → Descriptor → Model → Prop}

/-- The models that a request makes have the property when it ends. -/
theorem newHave_after (coherent : c.Coherent) (request : Request)
    (original : ∀ ctx, c.generationContext = .ok ctx → Original ctx J P)
    (cache : ∀ ctx, c.generationContext = .ok ctx → Kept ctx fun w => J w.models)
    (stored : ∀ ctx, c.generationContext = .ok ctx → ∀ {w name r d}, w.models.get? name = none →
      J w.models → J (Generation.stored w name (abstractModel ctx r d name)).models)
    (holds : J c.workspace.models) :
    NewHave P c.workspace.models (c.after request).workspace := by
  have unchanged : ∀ D, NewHave P c.workspace.models { c.workspace with descriptors := D } := by
    intro D n m none some
    change c.workspace.models.get? n = _ at some
    rw [none] at some
    cases some
  have ends := workspace_after_of_kept
    (I := fun w => J w.models ∧ NewHave P c.workspace.models w) coherent request
    (fun _ _ _ _ _ holds => ⟨holds.1, unchanged _⟩)
    (fun name edit same holds => by subst same; exact ⟨holds.1, unchanged _⟩)
    (fun ctx known => (original ctx known).kept (cache ctx known) _)
    (fun ctx known _ _ _ _ _ uncached _ found holds => ⟨stored ctx known uncached holds.1,
      (original ctx known).newHave_stored uncached found holds.2⟩) ⟨holds, unchanged _⟩
  exact ends.2

end Compiler

end ResourceTables
