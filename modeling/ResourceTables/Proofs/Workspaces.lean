/-
# `ResourceTables.Proofs.Workspaces` — what holds in every state that a compiler can reach

Resources, descriptors and models are kept under the same names; a descriptor is well formed and
stands for its resource; one that counts as generated has its model in the cache, and one that does
not has builders that have recorded nothing.  `Sound` says all this, and every request keeps it,
whether it is granted or refused.
-/
import ResourceTables.Proofs.Compiling
import ResourceTables.Proofs.Histories

namespace ResourceTables

/-- A descriptor as it stands for its resource beside the models of a cache. -/
structure Standing (resource : Resource) (models : Roster Model) (d : Descriptor) : Prop where
  resource_eq : d.resource = resource.name
  options_eq : d.options = resource.options
  wellFormed : d.WellFormed
  cached : d.isGenerated = true → models.contains resource.name = true
  fresh : d.isGenerated = false → d.Fresh

/-- A model under its name: it is abstract just if it has no table. -/
structure Named (name : String) (m : Model) : Prop where
  name_eq : m.name = name
  resource_eq : m.resource = name
  isAbstract_iff : m.isAbstract = true ↔ m.table = none

/-- Resources, descriptors and models that fit together. -/
structure Sound (resources : Roster Resource) (w : Workspace) : Prop where
  distinct : resources.names.Nodup
  named : ∀ n r, resources.get? n = some r → r.name = n
  descriptors_names : w.descriptors.names = resources.names
  models_distinct : w.models.names.Nodup
  models_registered : ∀ n ∈ w.models.names, n ∈ resources.names
  models_named : ∀ n m, w.models.get? n = some m → Named n m
  standing : ∀ n r d, resources.get? n = some r → w.descriptors.get? n = some d →
    Standing r w.models d

theorem Descriptor.Pristine.standing {resource : Resource} {d : Descriptor}
    (h : Descriptor.Pristine resource d) (models : Roster Model) :
    Standing resource models d where
  resource_eq := h.resource_eq
  options_eq := h.options_eq
  wellFormed := h.wellFormed
  cached := by
    intro generated
    rw [Descriptor.isGenerated, h.unfinished] at generated
    cases generated
  fresh := fun _ => h.fresh

namespace Standing

variable {resource : Resource} {models models' : Roster Model} {d d' : Descriptor}

/-- More models change nothing about how a descriptor stands. -/
theorem mono (h : Standing resource models d)
    (more : ∀ n, models.contains n = true → models'.contains n = true) :
    Standing resource models' d :=
  ⟨h.resource_eq, h.options_eq, h.wellFormed, fun generated => more _ (h.cached generated), h.fresh⟩

theorem bound {unit : List String} {n : String} (h : Standing resource models d)
    (steps : Binding.Bound unit n d d') : Standing resource models d' := by
  have grown := steps.grown h.wellFormed
  have same : d'.isGenerated = d.isGenerated := grown.finished_eq
  refine ⟨grown.resource_eq.trans h.resource_eq, grown.options_eq.trans h.options_eq,
    steps.wellFormed h.wellFormed, ?_, ?_⟩
  · rw [same]
    exact h.cached
  · rw [same]
    exact fun generated => grown.fresh (h.fresh generated)

theorem edited (h : Standing resource models d) (edited : Descriptor.Edited d d') :
    Standing resource models d' := by
  have same : d'.isGenerated = d.isGenerated := edited.finished_eq
  refine ⟨edited.resource_eq.trans h.resource_eq, edited.options_eq.trans h.options_eq,
    edited.wellFormed h.wellFormed, ?_, ?_⟩
  · rw [same]
    exact h.cached
  · rw [same]
    exact fun generated => edited.fresh h.wellFormed (h.fresh generated)

/-- A descriptor with records of building, marked as generated, stands for a cached model. -/
theorem worked_marked (h : Standing resource models d) (worked : Worked d d')
    (cached : models'.contains resource.name = true) :
    Standing resource models' d'.markGenerated := by
  refine ⟨?_, ?_, ?_, fun _ => cached, fun impossible => by cases impossible⟩
  · exact (congrArg (fun x : Descriptor => x.resource) worked.rest_eq).trans h.resource_eq
  · exact (congrArg (fun x : Descriptor => x.options) worked.rest_eq).trans h.options_eq
  · exact (worked.wellFormed h.wellFormed).of_names rfl rfl rfl

end Standing

/-! ## Generations keep workspaces sound -/

namespace Sound

open Generation

variable {resources : Roster Resource} {ctx : GenerationContext} {w w' : Workspace}
  {unit : List String} {n : String} {m : Model} {D' : Roster Descriptor} {e : Error}

theorem descriptors_distinct (sound : Sound resources w) : w.descriptors.names.Nodup := by
  rw [sound.descriptors_names]
  exact sound.distinct

/-- Every descriptor has its resource. -/
theorem exists_resource (sound : Sound resources w) {d : Descriptor}
    (found : w.descriptors.get? n = some d) :
    ∃ r, resources.get? n = some r ∧ Standing r w.models d := by
  have mem : n ∈ resources.names := sound.descriptors_names ▸ Roster.mem_names_of_get? found
  obtain ⟨r, hr⟩ := Roster.exists_get?_of_mem mem
  exact ⟨r, hr, sound.standing n r d hr found⟩

/-- Every resource has its descriptor. -/
theorem exists_descriptor (sound : Sound resources w) {r : Resource}
    (found : resources.get? n = some r) :
    ∃ d, w.descriptors.get? n = some d ∧ Standing r w.models d := by
  have mem : n ∈ w.descriptors.names := sound.descriptors_names ▸ Roster.mem_names_of_get? found
  obtain ⟨d, hd⟩ := Roster.exists_get?_of_mem mem
  exact ⟨d, hd, sound.standing n r d found hd⟩

/-- What has a model has its descriptor. -/
theorem exists_descriptor_of_cached (sound : Sound resources w) (cached : w.models.get? n = some m) :
    ∃ d, w.descriptors.get? n = some d := by
  have known := sound.models_registered n (Roster.mem_names_of_get? cached)
  rw [← sound.descriptors_names] at known
  exact Roster.exists_get?_of_mem known

theorem allWellFormed (sound : Sound resources w) : Binding.AllWellFormed w.descriptors := by
  intro n d found
  obtain ⟨r, _, standing⟩ := sound.exists_resource found
  exact standing.wellFormed

/-- A pending resource has a fresh descriptor. -/
theorem fresh_of_pending (sound : Sound resources w)
    (pending : Binding.isPending w.descriptors w.models n = true) {d : Descriptor}
    (mem : (n, d) ∈ w.descriptors.entries) : d.Fresh := by
  obtain ⟨d', found, _, notGenerated, _⟩ := Binding.isPending_iff.1 pending
  have same := Roster.get?_of_mem_entries sound.descriptors_distinct mem
  rw [found, Option.some.injEq] at same
  subst same
  obtain ⟨r, _, standing⟩ := sound.exists_resource found
  exact standing.fresh notGenerated

/-- A resource with a table and without a model is pending. -/
theorem pending_of_uncached (sound : Sound resources w) {r : Resource}
    (found : resources.get? n = some r) (concrete : r.isAbstract = false)
    (uncached : w.models.get? n = none) :
    Binding.isPending w.descriptors w.models n = true := by
  obtain ⟨d, hd, standing⟩ := sound.exists_descriptor found
  have none : w.models.contains n = false := Roster.contains_eq_false_iff.2 uncached
  refine Binding.isPending_iff.2 ⟨d, hd, ?_, ?_, none⟩
  · rw [Descriptor.isAbstract, standing.options_eq]
    exact concrete
  · by_contra generated
    rw [Bool.not_eq_false] at generated
    have cached := standing.cached generated
    rw [sound.named n r found, none] at cached
    cases cached

theorem bound (sound : Sound resources w)
    (steps : Roster.Evolves (Binding.Bound unit) w.descriptors D') :
    Sound resources { w with descriptors := D' } where
  distinct := sound.distinct
  named := sound.named
  descriptors_names := steps.names_eq.trans sound.descriptors_names
  models_distinct := sound.models_distinct
  models_registered := sound.models_registered
  models_named := sound.models_named
  standing := by
    intro n r d' hr found
    obtain ⟨d, before, bound⟩ := steps.get?_backward found
    exact (sound.standing n r d hr before).bound bound

/-- Binding, whether it succeeds or fails, only takes its steps. -/
theorem bind_steps (sound : Sound resources w) (root : String) :
    Roster.Evolves (Binding.Bound (Binding.members resources w.descriptors w.models root))
      w.descriptors (Binding.bind resources w.models root w.descriptors).state :=
  Binding.evolves_bind sound.descriptors_distinct sound.allWellFormed root

/-- Binding, whether it succeeds or fails, keeps the workspace sound. -/
theorem bind_state (sound : Sound resources w) (root : String) :
    Sound resources
      { w with descriptors := (Binding.bind resources w.models root w.descriptors).state } :=
  sound.bound (sound.bind_steps root)

/-- What is pending before a unit is bound is pending afterwards. -/
theorem isPending_bound (sound : Sound resources w)
    (steps : Roster.Evolves (Binding.Bound unit) w.descriptors D') (models : Roster Model) :
    Binding.isPending D' models n = Binding.isPending w.descriptors models n :=
  Binding.isPending_evolved sound.allWellFormed steps models n

section Compiled

/-- A compiled unit: what it was drafted as, what it has become, and the workspace with it. -/
structure Compiled (ctx : GenerationContext) (unit : List String) (w w' : Workspace)
    (start finished : Roster Model) (D₁ : Roster Descriptor) : Prop where
  drafted : drafts ctx w.descriptors unit = .ok start
  built : (runPhases w.models unit).Answers (w.descriptors, start) () (D₁, finished)
  grown : DraftsGrow start finished
  worked : Roster.Evolves (fun n d d' => Worked d d' ∧ (n ∉ unit → d = d')) w.descriptors D₁
  names_eq : finished.names = unit
  models_eq : w'.models = ⟨w.models.entries ++ finished.entries⟩
  descriptors : Roster.Evolves (fun n d d' => d' = if n ∈ unit then d.markGenerated else d) D₁
    w'.descriptors

theorem exists_compiled (sound : Sound resources w) (distinct : unit.Nodup)
    (pending : ∀ n ∈ unit, Binding.isPending w.descriptors w.models n = true) {u : Unit}
    (h : (compile ctx unit).Answers w u w') :
    ∃ start finished D₁, Compiled ctx unit w w' start finished D₁ := by
  obtain ⟨start, D₁, finished, drafted, built, stored⟩ := answers_compile.1 h
  have start_distinct : start.names.Nodup := by
    rw [names_drafts drafted]
    exact distinct
  obtain ⟨worked, grown⟩ : UnitWorked unit (w.descriptors, start) (D₁, finished) :=
    (keeps_runPhases sound.descriptors_distinct start_distinct w.models).of_answers built (.refl _)
  have names : finished.names = unit := by
    rw [Roster.Evolves.names_eq grown]
    exact names_drafts drafted
  have each : List.Forall₂ (fun n e => e.1 = n ∧ finished.get? n = some e.2 ∧ e.2.resource = n)
      unit finished.entries := by
    conv => arg 2; rw [← names]
    rw [Roster.names, List.forall₂_map_left_iff]
    refine List.forall₂_same.2 fun entry mem => ?_
    have found := Roster.get?_of_mem_entries (names.symm ▸ distinct) mem
    obtain ⟨first, before, grows⟩ := Roster.Evolves.get?_backward grown found
    have member : entry.1 ∈ unit := names ▸ List.mem_map_of_mem mem
    obtain ⟨m, made, there⟩ := get?_drafts drafted distinct member
    rw [before, Option.some.injEq] at there
    subst there
    obtain ⟨_, _, _, _, _, rfl⟩ := draft_eq_ok.1 made
    exact ⟨rfl, found, grows.resource_eq⟩
  have new : ∀ n ∈ unit, w.models.get? n = none := by
    intro n member
    obtain ⟨_, _, _, _, none⟩ := Binding.isPending_iff.1 (pending n member)
    exact Roster.contains_eq_false_iff.1 none
  have ends := (answers_storeAll (w := { w with descriptors := D₁ }) distinct new each).1 stored
  subst ends
  refine ⟨start, finished, D₁, drafted, built, grown, worked, names, rfl, ?_⟩
  have idempotent : ∀ d : Descriptor, d.markGenerated.markGenerated = d.markGenerated := fun _ => rfl
  exact evolves_foldl_modify idempotent unit D₁

namespace Compiled

variable {start finished : Roster Model} {D₁ : Roster Descriptor}

theorem models_names (h : Compiled ctx unit w w' start finished D₁) :
    w'.models.names = w.models.names ++ unit := by
  rw [Roster.names, h.models_eq, List.map_append, ← h.names_eq]
  rfl

/-- A model of the new cache is one of the old cache or of the unit. -/
theorem get?_models (h : Compiled ctx unit w w' start finished D₁) (n : String) :
    w'.models.get? n = (w.models.get? n).or (finished.get? n) := by
  rw [h.models_eq, Roster.get?_append]

theorem contains_models (h : Compiled ctx unit w w' start finished D₁) (n : String) :
    w'.models.contains n = true ↔ w.models.contains n = true ∨ n ∈ unit := by
  rw [Roster.contains_iff_mem_names, h.models_names, List.mem_append,
    Roster.contains_iff_mem_names]

/-- A member starts with the columns of its fields and grows from there. -/
theorem member (h : Compiled ctx unit w w' start finished D₁) (distinct : unit.Nodup)
    (mem : n ∈ unit) :
    ∃ r d m, ctx.resources.get? n = some r ∧ w.descriptors.get? n = some d
      ∧ start.get? n = some (startModel ctx r d n) ∧ finished.get? n = some m
      ∧ (startModel ctx r d n).Grows m := by
  obtain ⟨first, made, there⟩ := get?_drafts h.drafted distinct mem
  obtain ⟨r, d, hr, hd, _, rfl⟩ := draft_eq_ok.1 made
  obtain ⟨m, found, grows⟩ := Roster.Evolves.get?_forward h.grown there
  exact ⟨r, d, m, hr, hd, there, found, grows⟩

/-- A model of the unit is that of a member, and has grown from what the member starts with. -/
theorem exists_grown (h : Compiled ctx unit w w' start finished D₁) (distinct : unit.Nodup)
    (made : finished.get? n = some m) :
    n ∈ unit ∧ ∃ r d, ctx.resources.get? n = some r ∧ w.descriptors.get? n = some d
      ∧ (startModel ctx r d n).Grows m := by
  have mem : n ∈ unit := h.names_eq ▸ Roster.mem_names_of_get? made
  obtain ⟨r, d, m', hr, hd, _, found, grows⟩ := h.member distinct mem
  obtain rfl : m = m' := Option.some.inj (made.symm.trans found)
  exact ⟨mem, r, d, hr, hd, grows⟩

/-- The descriptor of a member is marked; every other stays as it was. -/
theorem descriptor (h : Compiled ctx unit w w' start finished D₁) {d : Descriptor}
    (found : w.descriptors.get? n = some d) :
    ∃ d', w'.descriptors.get? n = some d' ∧
      if n ∈ unit then ∃ d₁, Worked d d₁ ∧ d' = d₁.markGenerated else d' = d := by
  obtain ⟨d₁, found₁, worked, same⟩ := h.worked.get?_forward found
  obtain ⟨d', found', marked⟩ := h.descriptors.get?_forward found₁
  refine ⟨d', found', ?_⟩
  by_cases mem : n ∈ unit
  · rw [if_pos mem] at marked ⊢
    exact ⟨d₁, worked, marked⟩
  · rw [if_neg mem] at marked ⊢
    rw [marked, same mem]

/-- Compiling changes no field and no relationship. -/
theorem declares (h : Compiled ctx unit w w' start finished D₁) :
    Roster.Evolves (fun _ d d' => d'.fields = d.fields ∧ d'.relationships = d.relationships)
      w.descriptors w'.descriptors := by
  refine Roster.Evolves.trans (fun n d d₁ d' worked marked => ?_) h.worked h.descriptors
  rw [marked]
  split
  · exact ⟨worked.1.fields_eq, worked.1.relationships_eq⟩
  · exact ⟨worked.1.fields_eq, worked.1.relationships_eq⟩

theorem sound (h : Compiled ctx unit w w' start finished D₁) (before : Sound ctx.resources w)
    (distinct : unit.Nodup)
    (pending : ∀ n ∈ unit, Binding.isPending w.descriptors w.models n = true) :
    Sound ctx.resources w' where
  distinct := before.distinct
  named := before.named
  descriptors_names := by
    rw [h.descriptors.names_eq, h.worked.names_eq]
    exact before.descriptors_names
  models_distinct := by
    rw [h.models_names]
    refine List.nodup_append.2 ⟨before.models_distinct, distinct, ?_⟩
    rintro n cached _ mem rfl
    obtain ⟨_, _, _, _, none⟩ := Binding.isPending_iff.1 (pending n mem)
    rw [← Roster.contains_iff_mem_names, none] at cached
    cases cached
  models_registered := by
    intro n mem
    rw [h.models_names] at mem
    rcases List.mem_append.1 mem with old | new
    · exact before.models_registered n old
    · rw [← before.descriptors_names]
      exact Binding.mem_names_of_isPending (pending n new)
  models_named := by
    intro n m found
    rw [h.get?_models] at found
    rcases Option.or_eq_some_iff.1 found with old | ⟨_, new⟩
    · exact before.models_named n m old
    · obtain ⟨_, r, d, _, _, grows⟩ := h.exists_grown distinct new
      refine ⟨grows.name_eq, grows.resource_eq, ?_⟩
      rw [grows.isAbstract_eq]
      rcases grows.table with ⟨impossible, _⟩ | ⟨_, t, _, table, _⟩
      · cases impossible
      · simp [startModel, table]
  standing := by
    intro n r d' hr found'
    have mem : n ∈ w.descriptors.names := by
      rw [before.descriptors_names]
      exact Roster.mem_names_of_get? hr
    obtain ⟨d, found⟩ := Roster.exists_get?_of_mem mem
    have standing := before.standing n r d hr found
    obtain ⟨d'', found'', marked⟩ := h.descriptor found
    rw [found', Option.some.injEq] at found''
    subst found''
    by_cases member : n ∈ unit
    · rw [if_pos member] at marked
      obtain ⟨d₁, worked, rfl⟩ := marked
      refine standing.worked_marked worked ?_
      rw [before.named n r hr, h.contains_models]
      exact .inr member
    · rw [if_neg member] at marked
      rw [marked]
      exact standing.mono fun k cached => (h.contains_models k).2 (.inl cached)

end Compiled

end Compiled

/-- An abstract model is stored under its name. -/
theorem stored (sound : Sound ctx.resources w) {r : Resource} {d : Descriptor}
    (uncached : w.models.get? n = none) (hr : ctx.resources.get? n = some r)
    (hd : w.descriptors.get? n = some d) :
    Sound ctx.resources (Generation.stored w n (abstractModel ctx r d n)) := by
  have entries := Roster.insertNew_eq_append (r := w.models) uncached (abstractModel ctx r d n)
  have models : w.models.insertNew n (abstractModel ctx r d n)
      = ⟨w.models.entries ++ [(n, abstractModel ctx r d n)]⟩ := by
    rw [← entries]
  have names : (w.models.insertNew n (abstractModel ctx r d n)).names = w.models.names ++ [n] := by
    rw [models, Roster.names, List.map_append]
    rfl
  have more : ∀ k, w.models.contains k = true →
      (w.models.insertNew n (abstractModel ctx r d n)).contains k = true := by
    intro k cached
    rw [Roster.contains_iff_mem_names] at cached ⊢
    rw [names]
    exact List.mem_append_left _ cached
  refine ⟨sound.distinct, sound.named, ?_, ?_, ?_, ?_, ?_⟩
  · exact (Roster.names_modify _ _ _).trans sound.descriptors_names
  · exact Roster.nodup_names_insertNew sound.models_distinct n _
  · intro k mem
    change k ∈ (w.models.insertNew n (abstractModel ctx r d n)).names at mem
    rw [names] at mem
    rcases List.mem_append.1 mem with old | new
    · exact sound.models_registered k old
    · rw [List.mem_singleton] at new
      exact new ▸ Roster.mem_names_of_get? hr
  · intro k m found
    rcases (get?_models_stored uncached).1 found with old | ⟨rfl, rfl⟩
    · exact sound.models_named k m old
    · exact ⟨rfl, rfl, by simp [abstractModel]⟩
  · intro k r' d' hr' found
    change (w.descriptors.modify n _).get? k = some d' at found
    rw [Roster.get?_modify] at found
    by_cases same : k = n
    · subst same
      rw [if_pos rfl, hd, Option.map_some, Option.some.injEq] at found
      subst found
      refine (sound.standing k r' d hr' hd).worked_marked rfl ?_
      rw [sound.named k r' hr', Roster.contains_iff_mem_names]
      change k ∈ (w.models.insertNew k (abstractModel ctx r d k)).names
      rw [names]
      simp
    · rw [if_neg same] at found
      exact (sound.standing k r' d' hr' found).mono more

/-- The members of a bound unit, as they are when it is compiled. -/
theorem bound_unit (sound : Sound resources w) {r : Resource} (hr : resources.get? n = some r)
    (concrete : r.isAbstract = false) (uncached : w.models.get? n = none) {ordered : List String}
    (h : (Binding.bind resources w.models n).Answers w.descriptors ordered D') :
    Sound resources { w with descriptors := D' } ∧ ordered.Nodup ∧
      (∀ k, k ∈ ordered ↔ Binding.InUnit w.descriptors w.models n k) ∧
      ∀ k ∈ ordered, Binding.isPending D' w.models k = true := by
  have steps := sound.bind_steps n
  rw [h.2] at steps
  obtain ⟨_, _, _, _, rfl⟩ := Binding.answers_bindUnit.1 h
  have order := Binding.inDeclarationOrder_perm resources
    (Binding.members resources w.descriptors w.models n)
  have members : ∀ k, k ∈ Binding.inDeclarationOrder resources
      (Binding.members resources w.descriptors w.models n) ↔
        Binding.InUnit w.descriptors w.models n k := by
    intro k
    rw [order.mem_iff]
    exact Binding.mem_members sound.descriptors_distinct sound.descriptors_names
  refine ⟨sound.bound steps, order.nodup_iff.2 (Binding.nodup_members n), members, fun k mem => ?_⟩
  rw [sound.isPending_bound steps w.models]
  exact ((members k).1 mem).pending (sound.pending_of_uncached hr concrete uncached)

/-- The members of a bound unit come as they were declared. -/
theorem bound_sublist (sound : Sound resources w) {r : Resource} (hr : resources.get? n = some r)
    (concrete : r.isAbstract = false) (uncached : w.models.get? n = none) {ordered : List String}
    (h : (Binding.bind resources w.models n).Answers w.descriptors ordered D') :
    ordered.Sublist resources.names := by
  obtain ⟨_, _, _, _, rfl⟩ := Binding.answers_bindUnit.1 h
  rw [Binding.inDeclarationOrder_eq sound.distinct (Binding.nodup_members n)]
  · exact List.filter_sublist
  · intro k mem
    rw [← sound.descriptors_names]
    have inside := (Binding.mem_members sound.descriptors_distinct sound.descriptors_names).1 mem
    exact Binding.mem_names_of_isPending
      (inside.pending (sound.pending_of_uncached hr concrete uncached))

/-- The relationships of a bound unit lead to its members and to resources with tables whose models
are already there. -/
theorem bound_targets (sound : Sound resources w) {ordered : List String}
    (h : (Binding.bind resources w.models n).Answers w.descriptors ordered D') {k : String}
    {d' : Descriptor} (member : k ∈ ordered) (found : D'.get? k = some d') {e : RelationshipEntry}
    (mem : e ∈ d'.relationships) :
    e.relationship.target ∈ ordered ∨ ∃ r m, resources.get? e.relationship.target = some r
      ∧ r.isAbstract = false ∧ w.models.get? e.relationship.target = some m := by
  have steps := sound.bind_steps n
  rw [h.2] at steps
  obtain ⟨D₁, looked, _, _, rfl⟩ := Binding.answers_bindUnit.1 h
  have order := Binding.inDeclarationOrder_perm resources
    (Binding.members resources w.descriptors w.models n)
  rw [order.mem_iff] at member ⊢
  obtain ⟨d, before, bound⟩ := steps.get?_backward found
  have grown := bound.grown (sound.allWellFormed k d before)
  rcases grown.origin mem with ⟨e₀, mem₀, _, _, inverse, same⟩ | ⟨⟨side, _, owner, same⟩, _⟩
  · rw [same]
    obtain ⟨_, known⟩ :=
      Binding.targets_of_lookUps sound.descriptors_distinct sound.allWellFormed looked
    obtain ⟨d₀, before₀, targets⟩ := known k member
    rw [before, Option.some.injEq] at before₀
    subst before₀
    obtain ⟨r, hr, concrete⟩ := targets e₀ mem₀
    cases cached : w.models.get? e₀.relationship.target with
    | some m => exact .inr ⟨r, m, hr, concrete, rfl⟩
    | none =>
        left
        rw [Binding.mem_members sound.descriptors_distinct sound.descriptors_names] at member ⊢
        refine member.pulls ⟨sound.pending_of_uncached hr concrete cached, .inl ?_⟩
        exact Binding.mem_targetsOf.2 ⟨d, before, e₀, mem₀, rfl⟩
  · rw [same]
    exact .inl owner

end Sound

/-! ## Requests keep workspaces sound -/

namespace Generation

variable {ctx : GenerationContext}

theorem keeps_generateAbstract (name : String) :
    Action.Keeps (Sound ctx.resources) (generateAbstract ctx name) := by
  refine Action.keeps_of_ends ?_ ?_
  · intro w m w' sound h
    rcases answers_generateAbstract.1 h with ⟨_, rfl⟩ | ⟨uncached, r, d, hr, hd, rfl, rfl⟩
    · exact sound
    · exact sound.stored uncached hr hd
  · intro w e w' sound h
    exact fails_generateAbstract h ▸ sound

/-- A bound unit that is compiled, or fails to be. -/
theorem compile_ends {w w' : Workspace} {name : String} {r : Resource} {ordered : List String}
    {D' : Roster Descriptor} (sound : Sound ctx.resources w) (hr : ctx.resources.get? name = some r)
    (concrete : r.isAbstract = false) (uncached : w.models.get? name = none)
    (bound : (Binding.bind ctx.resources w.models name).Answers w.descriptors ordered D') :
    ((compile ctx ordered).Answers { w with descriptors := D' } () w' →
      Sound ctx.resources w' ∧ ∃ start finished D₁,
        Sound.Compiled ctx ordered { w with descriptors := D' } w' start finished D₁) ∧
    ∀ e, (compile ctx ordered).Fails { w with descriptors := D' } e w' →
      { w with descriptors := D' } = w' := by
  obtain ⟨sound', distinct, _, pending⟩ := sound.bound_unit hr concrete uncached bound
  constructor
  · intro compiled
    obtain ⟨start, finished, D₁, spec⟩ := sound'.exists_compiled distinct pending compiled
    exact ⟨spec.sound sound' distinct pending, start, finished, D₁, spec⟩
  · intro e failed
    exact fails_compile sound'.descriptors_distinct distinct
      (fun n mem d inside => sound'.fresh_of_pending (pending n mem) inside) failed

theorem keeps_generate (name : String) :
    Action.Keeps (Sound ctx.resources) (generate ctx name) := by
  refine Action.keeps_of_ends ?_ ?_
  · intro w m w' sound h
    rcases answers_generate.1 h with ⟨_, rfl⟩ | ⟨uncached, r, hr, ⟨_, made⟩ |
      ⟨concrete, ordered, D', bound, compiled, _⟩⟩
    · exact sound
    · exact (keeps_generateAbstract name).of_answers made sound
    · exact ((compile_ends sound hr concrete uncached bound).1 compiled).1
  · intro w e w' sound h
    obtain ⟨uncached, rfl | ⟨r, hr, concrete, ⟨D', unbound, rfl⟩ |
      ⟨ordered, D', bound, failed | ⟨compiled, _⟩⟩⟩⟩ := fails_generate h
    · exact sound
    · exact unbound.2 ▸ sound.bind_state name
    · rw [← (compile_ends sound hr concrete uncached bound).2 e failed]
      exact (sound.bound_unit hr concrete uncached bound).1
    · exact ((compile_ends sound hr concrete uncached bound).1 compiled).1

theorem keeps_generateEach {I : Workspace → Prop} {names : List String}
    (h : ∀ name ∈ names, Action.Keeps I (generate ctx name)) :
    Action.Keeps I (generateEach ctx names) := by
  induction names with
  | nil => exact Action.keeps_pure _
  | cons name rest ih =>
      refine (h name List.mem_cons_self).bind fun _ => ?_
      exact (ih fun k mem => h k (List.mem_cons_of_mem _ mem)).bind fun _ => Action.keeps_pure _

end Generation

namespace Compiler

open Generation

variable {c : Compiler}

/-- A compiler whose configurators edit and whose workspace is sound. -/
structure Coherent (c : Compiler) : Prop where
  configurators_edit : ∀ k ∈ c.configurators, ∀ settings d,
    Relation.ReflTransGen Descriptor.Edit d (k.configure settings d).state
  sound : Sound c.resources c.workspace

theorem coherent_new (settings : Settings) : (new settings).Coherent := by
  refine ⟨?_, ?_⟩
  · intro k mem settings' d
    unfold new at mem
    by_cases auto : settings.autoPrimaryKey
    · simp only [auto, if_true, List.mem_singleton] at mem
      subst mem
      exact Configurator.addPrimaryKey_edits settings' d
    · simp [auto] at mem
  · exact ⟨List.nodup_nil, by simp [new], rfl, List.nodup_nil, by simp [new], by simp [new],
      by simp [new]⟩

/-- A filled descriptor is ready to be built from. -/
theorem pristine_fill (coherent : c.Coherent) {resource : Resource} {d : Descriptor}
    (h : (c.fill resource).Answers (.ofResource resource) () d) :
    Descriptor.Pristine resource d := by
  refine (keeps_fill (I := Descriptor.Pristine resource) ?_ ?_ ?_).of_answers h
    (Descriptor.pristine_ofResource resource)
  · intro p d pristine
    exact pristine.edited ((Descriptor.Edit.register d p).edited pristine.wellFormed)
  · rintro d methods ⟨name, options, wf, unfinished, fresh⟩
    exact ⟨name, options, wf.of_names rfl rfl rfl, unfinished, fresh⟩
  · intro k mem d pristine
    exact pristine.edited (Descriptor.edited_of_edits
      (coherent.configurators_edit k mem c.settings d) pristine.wellFormed)

theorem sound_registered (sound : Sound c.resources c.workspace) {resource : Resource}
    {d : Descriptor} (pristine : Descriptor.Pristine resource d) :
    Sound (c.registered resource d).resources (c.registered resource d).workspace where
  distinct := Roster.nodup_names_insert sound.distinct _ _
  named := by
    intro n r found
    simp only [registered, Roster.get?_insert] at found
    by_cases same : n = resource.name
    · rw [if_pos same, Option.some.injEq] at found
      rw [← found, same]
    · rw [if_neg same] at found
      exact sound.named n r found
  descriptors_names := by
    simp only [registered, Roster.names_insert, sound.descriptors_names]
  models_distinct := sound.models_distinct
  models_registered := by
    intro n mem
    simp only [registered, Roster.names_insert]
    by_cases known : resource.name ∈ c.resources.names
    · rw [if_pos known]
      exact sound.models_registered n mem
    · rw [if_neg known]
      exact List.mem_append_left _ (sound.models_registered n mem)
  models_named := sound.models_named
  standing := by
    intro n r d' hr hd
    simp only [registered, Roster.get?_insert] at hr hd
    by_cases same : n = resource.name
    · rw [if_pos same, Option.some.injEq] at hr hd
      subst hr
      subst hd
      exact pristine.standing _
    · rw [if_neg same] at hr hd
      exact sound.standing n r d' hr hd

theorem sound_edit (sound : Sound c.resources c.workspace) (name : String)
    (edit : DescriptorChange) :
    Sound c.resources { c.workspace with
      descriptors := c.workspace.descriptors.modify name edit.change } where
  distinct := sound.distinct
  named := sound.named
  descriptors_names := (Roster.names_modify _ _ _).trans sound.descriptors_names
  models_distinct := sound.models_distinct
  models_registered := sound.models_registered
  models_named := sound.models_named
  standing := by
    intro n r d' hr hd
    simp only [Roster.get?_modify] at hd
    by_cases same : n = name
    · rw [if_pos same] at hd
      obtain ⟨d, before, rfl⟩ := Option.map_eq_some_iff.1 hd
      have standing := sound.standing n r d hr before
      exact standing.edited (Descriptor.edited_of_edits (edit.edits d) standing.wellFormed)
    · rw [if_neg same] at hd
      exact sound.standing n r d' hr hd

theorem coherent_generating {α : Type} {x : GenerationContext → Action Workspace α}
    (h : ∀ ctx, Action.Keeps (Sound ctx.resources) (x ctx)) (coherent : c.Coherent) :
    (generating x c).state.Coherent := by
  rcases generating_state (x := x) c with same | ⟨ctx, known, changed⟩
  · rw [same]
    exact coherent
  · rw [changed]
    have resources := (generationContext_eq_ok known).2.1
    refine ⟨coherent.configurators_edit, ?_⟩
    have kept := h ctx c.workspace (resources ▸ coherent.sound)
    rw [resources] at kept
    exact kept

theorem coherent_generateAll (coherent : c.Coherent) : (generateAll c).state.Coherent :=
  coherent_generating (fun _ => keeps_generateEach fun name _ => keeps_generate name) coherent

/-- What a request does keeps a compiler coherent. -/
theorem coherent_after (coherent : c.Coherent) (request : Request) :
    (c.after request).Coherent := by
  cases request with
  | configure configurator =>
      refine ⟨?_, coherent.sound⟩
      intro k mem
      rcases List.mem_append.1 mem with old | new
      · exact coherent.configurators_edit k old
      · rw [List.mem_singleton] at new
        exact new ▸ configurator.edits
  | declare resource =>
      rcases declare_state c resource with same | ⟨d, filled, changed⟩
      · change (declare resource c).state.Coherent
        rw [same]
        exact coherent
      · change (declare resource c).state.Coherent
        rw [changed]
        exact ⟨coherent.configurators_edit,
          sound_registered coherent.sound (pristine_fill coherent filled)⟩
  | edit name edit => exact ⟨coherent.configurators_edit, sound_edit coherent.sound name edit⟩
  | generate name => exact coherent_generating (fun _ => keeps_generate name) coherent
  | generateAbstract name =>
      exact coherent_generating (fun _ => keeps_generateAbstract name) coherent
  | generateAll => exact coherent_generateAll coherent
  | initApp app =>
      rcases initApp_state c app with same | all
      · change (initApp (c, app)).state.1.Coherent
        rw [same]
        exact coherent
      · change (initApp (c, app)).state.1.Coherent
        rw [all]
        exact coherent_generateAll coherent

/-- A compiler is coherent wherever a history leads it. -/
theorem coherent_run (settings : Settings) (requests : List Request) :
    ((new settings).run requests).Coherent :=
  run_keeps (I := Coherent) (fun _ request _ coherent => coherent_after coherent request)
    (coherent_new settings) fun request (_ : request ∈ requests) => trivial

/-- What a generation finds wherever a history leads. -/
theorem sound_of_run {settings : Settings} {requests : List Request}
    (reached : (new settings).run requests = c) {ctx : GenerationContext}
    (known : c.generationContext = .ok ctx) : Sound ctx.resources c.workspace := by
  rw [(generationContext_eq_ok known).2.1, ← reached]
  exact (coherent_run settings requests).sound

/-- A concrete resource without a model, by the check that computes it. -/
theorem exists_requestable {name : String}
    (h : ((c.resources.get? name).any (!·.isAbstract) && (c.model? name).isNone) = true) :
    ∃ resource, c.resources.get? name = some resource ∧ resource.isAbstract = false
      ∧ c.model? name = none := by
  rw [Bool.and_eq_true, Option.any_eq_true, Option.isNone_iff_eq_none] at h
  obtain ⟨⟨resource, found, concrete⟩, uncached⟩ := h
  exact ⟨resource, found, by simpa using concrete, uncached⟩

/-! ## What holds of the workspace and the cache -/

section Requests

variable {I : Workspace → Prop}

theorem workspace_generating {α : Type} {x : GenerationContext → Action Workspace α}
    (h : ∀ ctx, c.generationContext = .ok ctx →
      Action.Keeps (fun w => Sound ctx.resources w ∧ I w) (x ctx))
    (coherent : c.Coherent) (holds : I c.workspace) : I (generating x c).state.workspace := by
  rcases generating_state (x := x) c with same | ⟨ctx, known, changed⟩
  · rw [same]
    exact holds
  · rw [changed]
    have resources := (generationContext_eq_ok known).2.1
    exact (h ctx known c.workspace ⟨resources ▸ coherent.sound, holds⟩).2

/-- What generations keep true of the workspace, a request keeps, if declaring or editing a resource
does. -/
theorem workspace_after (coherent : c.Coherent) (request : Request)
    (registers : ∀ resource d, request = .declare resource →
      checkNames resource = .ok () →
      (c.fill resource).Answers (.ofResource resource) () d →
      I c.workspace → I (c.registered resource d).workspace)
    (edits : ∀ name edit, request = .edit name edit → I c.workspace →
      I (c.after request).workspace)
    (abstracts : ∀ ctx name, c.generationContext = .ok ctx →
      Action.Keeps (fun w => Sound ctx.resources w ∧ I w) (Generation.generateAbstract ctx name))
    (generates : ∀ ctx name, c.generationContext = .ok ctx →
      Action.Keeps (fun w => Sound ctx.resources w ∧ I w) (Generation.generate ctx name))
    (holds : I c.workspace) : I (c.after request).workspace := by
  have all : I (generateAll c).state.workspace :=
    workspace_generating (fun ctx known => keeps_generateEach fun name _ => generates ctx name known)
      coherent holds
  cases request with
  | configure configurator => exact holds
  | declare resource =>
      change I (declare resource c).state.workspace
      rcases Action.answers_or_fails (declare resource) c with ⟨⟨⟩, c', h⟩ | ⟨e, c', h⟩
      · obtain ⟨d, names, filled, rfl⟩ := answers_declare.1 h
        rw [h.2]
        exact registers resource d rfl names filled holds
      · rw [h.2, ← fails_declare h]
        exact holds
  | edit name edit => exact edits name edit rfl holds
  | generate name =>
      exact workspace_generating (fun ctx known => generates ctx name known) coherent holds
  | generateAbstract name =>
      exact workspace_generating (fun ctx known => abstracts ctx name known) coherent holds
  | generateAll => exact all
  | initApp app =>
      change I (initApp (c, app)).state.1.workspace
      rcases initApp_state c app with same | generated
      · rw [same]
        exact holds
      · rw [generated]
        exact all

end Requests

section Cache

variable {P : Roster Model → Prop}
  (abstracts : ∀ ctx name, Action.Keeps (fun w => Sound ctx.resources w ∧ P w.models)
    (Generation.generateAbstract ctx name))
  (generates : ∀ ctx name, Action.Keeps (fun w => Sound ctx.resources w ∧ P w.models)
    (Generation.generate ctx name))

include abstracts generates

/-- What generations keep true of the cache, every request does: no other touches it. -/
theorem cache_after (coherent : c.Coherent) (request : Request) (holds : P c.workspace.models) :
    P (c.after request).workspace.models := by
  refine workspace_after (I := fun w => P w.models) coherent request (fun _ _ _ _ _ => id) ?_
    (fun ctx name _ => abstracts ctx name) (fun ctx name _ => generates ctx name) holds
  rintro name edit rfl
  exact id

theorem cache_run (start : P .empty) (settings : Settings) (requests : List Request) :
    P ((new settings).run requests).workspace.models := by
  have ends : ((new settings).run requests).Coherent
      ∧ P ((new settings).run requests).workspace.models := by
    refine run_keeps (I := fun c => c.Coherent ∧ P c.workspace.models) ?_
      ⟨coherent_new settings, start⟩ fun request (_ : request ∈ requests) => trivial
    intro c request _ ⟨coherent, holds⟩
    exact ⟨coherent_after coherent request, cache_after abstracts generates coherent request holds⟩
  exact ends.2

end Cache

end Compiler

end ResourceTables
