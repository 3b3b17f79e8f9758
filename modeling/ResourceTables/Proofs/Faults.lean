/-
# `ResourceTables.Proofs.Faults` — what can go wrong in compiling a unit that is bound

Binding has settled every name: members are registered and have descriptors, every builder has its
relationship, and every target is a member or has a model in the cache.  What is left to go wrong are
names of tables that are no identifiers, tables without a primary key to copy, key columns whose names
are taken, and targets that were cached without a table.
-/
import ResourceTables.Proofs.Atomicity
import ResourceTables.Proofs.References
import ResourceTables.Proofs.Retries
import ResourceTables.Proofs.Stops

namespace ResourceTables

/-! ## Builders without a relationship -/

theorem BuildSite.not_notes_addProperty {site : BuildSite} {p : MappedProperty}
    {drafts : Roster Model} {note : Note} : ¬ (site.addProperty p).Notes drafts note := by
  unfold addProperty
  rw [Action.notes_read_bind]
  cases drafts.get? site.owner with
  | none => exact Action.notes_fail
  | some m =>
      by_cases taken : (m.property? p.name).isSome
      · simp [taken]
      · simp [taken]

namespace RelationshipBuilder

variable {site : BuildSite} {view : PropertyView} {b : RelationshipBuilder} {drafts : Roster Model}
  {r : Relationship} {note : Note}

/-- The note of a builder that finds no relationship of its name. -/
def skipNote (b : RelationshipBuilder) (view : PropertyView) : Note :=
  ⟨.warn, s!"No relationship '{b.name}' registered on '{view.resource}', skipping builder"⟩

theorem notes_look {σ : Type} {s : σ} :
    (b.look view).Notes s note ↔ view.relationship? b.name = none ∧ note = b.skipNote view := by
  unfold look
  cases view.relationship? b.name <;> simp [skipNote]

theorem not_notes_addKeyColumn {target : Table} {key : Column} :
    ¬ (addKeyColumn site view target key).Notes (b, drafts) note := by
  unfold addKeyColumn
  rw [Action.notes_read_bind]
  intro h
  rcases Action.notes_bind.1 h with none | ⟨owner, _, _, h⟩
  · exact Action.notes_ofExcept none
  · by_cases taken : (owner.column? (b.keyColumn key).name).isSome
    · simp [taken] at h
    · simp [taken] at h

/-- A builder that has its relationship leaves only notes for debugging. -/
theorem notes_createKeyColumns (declared : view.relationship? b.name = some r)
    (h : (createKeyColumns site view).Notes (b, drafts) note) : note.level = .debug := by
  unfold createKeyColumns at h
  rw [Action.notes_read_bind] at h
  by_cases created : b.columnsCreated
  · simp [created] at h
  · simp only [created, Bool.false_eq_true, if_false] at h
    rcases Action.notes_bind.1 h with missing | ⟨found, _, looked, h⟩
    · rw [notes_look, declared] at missing
      cases missing.1
    · obtain ⟨rfl, rfl⟩ := answers_look.1 looked
      rw [declared] at h
      by_cases hosts : r.hostsKey
      · simp only [hosts, if_true] at h
        rcases Action.notes_bind.1 h with none | ⟨target, _, _, h⟩
        · exact absurd none Action.notes_ofExcept
        rcases Action.notes_bind.1 h with columns | ⟨_, _, _, h⟩
        · rw [List.forM_eq_forM] at columns
          obtain ⟨k, _, ⟨b', drafts'⟩, _, left⟩ := Action.notes_forM (I := fun _ => True) trivial
            (fun _ _ _ _ => trivial) columns
          exact absurd left not_notes_addKeyColumn
        · unfold addForeignKey at h
          rw [Action.notes_read_bind] at h
          rcases Action.notes_bind.1 h with none | ⟨owner, _, _, h⟩
          · exact absurd none Action.notes_ofExcept
          rcases Action.notes_bind.1 h with made | ⟨_, _, _, h⟩
          · rw [Action.notes_note.1 made]
          · exact absurd h Action.notes_change
      · simp [hosts] at h

theorem notes_createRelation (declared : view.relationship? b.name = some r) :
    ¬ (createRelation site view).Notes (b, drafts) note := by
  unfold createRelation
  rw [Action.notes_read_bind]
  intro h
  rcases Action.notes_bind.1 h with missing | ⟨found, _, looked, h⟩
  · rw [notes_look, declared] at missing
    cases missing.1
  · obtain ⟨rfl, rfl⟩ := answers_look.1 looked
    rw [declared] at h
    rcases Action.notes_bind.1 h with none | ⟨joins, _, _, h⟩
    · exact Action.notes_ofExcept none
    · rw [Action.notes_zoom] at h
      exact BuildSite.not_notes_addProperty h

end RelationshipBuilder

namespace Builder

variable {site : BuildSite} {view : PropertyView} {b : Builder} {drafts : Roster Model} {note : Note}

/-- The builder is of a field, or it finds its relationship. -/
def Served (view : PropertyView) : Builder → Prop
  | field _ => True
  | relationship b => ∃ r, view.relationship? b.name = some r

theorem notes_step {phase : Phase} (served : b.Served view)
    (h : (step phase site view).Notes (b, drafts) note) : note.level = .debug := by
  cases b with
  | field name =>
      cases phase with
      | keyColumns => cases h
      | properties => exact absurd h BuildSite.not_notes_addProperty
  | relationship b =>
      obtain ⟨r, declared⟩ := served
      cases phase with
      | keyColumns => exact RelationshipBuilder.notes_createKeyColumns declared h
      | properties => exact absurd h (RelationshipBuilder.notes_createRelation declared)

theorem notes_primaryKeyStep (served : b.Served view)
    (h : (primaryKeyStep site view).Notes (b, drafts) note) : note.level = .debug := by
  unfold primaryKeyStep at h
  rw [Action.notes_read_bind] at h
  by_cases forces : b.forcesPrimaryKey
  · simp only [forces, if_true] at h
    rcases Action.notes_bind.1 h with here | ⟨_, _, same, h⟩
    · rw [Action.notes_note.1 here]
    · cases Action.answers_note.1 same
      exact notes_step served h
  · simp [forces] at h

end Builder

namespace Descriptor

variable {site : BuildSite} {d : Descriptor} {drafts : Roster Model} {note : Note}

/-- In a well-formed descriptor every builder finds what it is for. -/
theorem WellFormed.served (wf : d.WellFormed) {b : Builder} (mem : b ∈ d.plan.builders) :
    b.Served d.view := by
  cases b with
  | field name => trivial
  | relationship b =>
      obtain ⟨e, inside, same⟩ := List.mem_map.1 ((wf.relationship_built b.name).1 ⟨b, mem, rfl⟩)
      refine ⟨e.relationship, ?_⟩
      rw [view_relationship?]
      exact wf.relationship?_eq_some_iff.2 ⟨e, inside, same, rfl⟩

theorem notes_build {phase : Phase} (wf : d.WellFormed)
    (h : (build phase site).Notes (d, drafts) note) : note.level = .debug := by
  unfold build BuildPlan.run at h
  rw [Action.notes_read_bind, Action.notes_zoom, Action.notes_read_bind] at h
  rcases Action.notes_bind.1 h with begins | ⟨_, _, same, h⟩
  · rw [Action.notes_note.1 begins]
  · cases Action.answers_note.1 same
    have each : (Action.onEach (Builder.step phase site d.view)).Notes (d.plan.builders, drafts)
        note := h
    obtain ⟨b, mem, _, left⟩ := Action.notes_onEach each
    exact Builder.notes_step (wf.served mem) left

theorem notes_buildPrimaryKey (wf : d.WellFormed)
    (h : (buildPrimaryKey site).Notes (d, drafts) note) : note.level = .debug := by
  unfold buildPrimaryKey BuildPlan.runPrimaryKey at h
  rw [Action.notes_read_bind, Action.notes_zoom] at h
  have each : (Action.onEach (Builder.primaryKeyStep site d.view)).Notes (d.plan.builders, drafts)
      note := h
  obtain ⟨b, mem, _, left⟩ := Action.notes_onEach each
  exact Builder.notes_primaryKeyStep (wf.served mem) left

end Descriptor

namespace Generation

variable {ctx : GenerationContext} {w w' : Workspace} {unit : List String} {n : String}
  {s₀ s : Roster Descriptor × Roster Model} {note : Note} {e : Error} {m : Model}
  {start finished : Roster Model}

theorem notes_onMember {x : Action (Descriptor × Roster Model) Unit}
    (h : (onMember n x).Notes s note) : ∃ d, s.1.get? n = some d ∧ x.Notes (d, s.2) note := by
  obtain ⟨D, drafts⟩ := s
  cases found : D.get? n with
  | none => simp [Action.Notes, onMember, found] at h
  | some d =>
      simp only [Action.Notes, onMember, found] at h
      exact ⟨d, rfl, h⟩

section Passes

variable (distinct : s₀.1.names.Nodup) (drafts_distinct : s₀.2.names.Nodup)
  (wf : ∀ n d, s₀.1.get? n = some d → d.WellFormed)

include distinct drafts_distinct wf

/-- A pass over members leaves no notes but those of its members, which are well formed throughout. -/
theorem notes_pass {x : BuildSite → Action (Descriptor × Roster Model) Unit} {names : List String}
    {generated : Roster Model} (members : ∀ n ∈ names, n ∈ unit)
    (works : ∀ site (s : Descriptor × Roster Model), s.2.names.Nodup →
      Worked s.1 (x site s).state.1 ∧ DraftsGrow s.2 (x site s).state.2)
    (debugs : ∀ site d drafts note, d.WellFormed → (x site).Notes (d, drafts) note →
      note.level = .debug) (begun : UnitWorked unit s₀ s)
    (h : (pass generated x names).Notes s note) : note.level = .debug := by
  obtain ⟨n, mem, ⟨D, drafts⟩, worked, left⟩ := Action.notes_forM begun
    (fun n mem => keeps_onMember distinct drafts_distinct (members n mem) (works _)) h
  obtain ⟨d, found, left⟩ := notes_onMember left
  obtain ⟨d₀, before, recorded, _⟩ := worked.1.get?_backward found
  exact debugs _ d drafts note (recorded.wellFormed (wf n d₀ before)) left

/-- Building a unit of well-formed descriptors leaves only notes for debugging. -/
theorem notes_runPhases {generated : Roster Model} (h : (runPhases generated unit).Notes s₀ note) :
    note.level = .debug := by
  have keep : ∀ {x : BuildSite → Action (Descriptor × Roster Model) Unit} {names : List String},
      (∀ n ∈ names, n ∈ unit) → (∀ site (s : Descriptor × Roster Model), s.2.names.Nodup →
        Worked s.1 (x site s).state.1 ∧ DraftsGrow s.2 (x site s).state.2) →
      Action.Keeps (UnitWorked unit s₀) (pass generated x names) := fun members works =>
    Action.keeps_forM fun n mem => keeps_onMember distinct drafts_distinct (members n mem) (works _)
  unfold runPhases at h
  rw [Action.notes_read_bind] at h
  simp only [List.forM_eq_forM] at h
  have keyed : ∀ n ∈ primaryKeyOrder s₀.1 unit, n ∈ unit := fun n mem => (mem_primaryKeyOrder.1 mem).1
  have builds : ∀ phase site (s : Descriptor × Roster Model), s.2.names.Nodup →
      Worked s.1 (Descriptor.build phase site s).state.1
        ∧ DraftsGrow s.2 (Descriptor.build phase site s).state.2 :=
    fun phase site _ names => Descriptor.worked_build site phase names
  have copies : ∀ site (s : Descriptor × Roster Model), s.2.names.Nodup →
      Worked s.1 (Descriptor.buildPrimaryKey site s).state.1
        ∧ DraftsGrow s.2 (Descriptor.buildPrimaryKey site s).state.2 :=
    fun site _ names => Descriptor.worked_buildPrimaryKey site names
  rcases Action.notes_bind.1 h with first | ⟨_, s₁, made, h⟩
  · exact notes_pass distinct drafts_distinct wf keyed copies
      (fun _ _ _ _ => Descriptor.notes_buildPrimaryKey) (.refl s₀) first
  have begun := (keep keyed copies).of_answers made (.refl s₀)
  obtain ⟨phase, _, s₂, worked, left⟩ := Action.notes_forM begun
    (fun phase _ => keep (fun _ => id) (builds phase)) h
  exact notes_pass distinct drafts_distinct wf (fun _ => id) (builds phase)
    (fun _ _ _ _ => Descriptor.notes_build) worked left

end Passes

/-- The note of a compilation that fails. -/
def failureNote (unit : List String) (e : Error) : Note :=
  ⟨.warn, s!"Compilation of {Text.quotedNames unit} failed: {e.message}"⟩

/-- Compiling warns of its failure and of nothing else. -/
theorem notes_compile (distinct : w.descriptors.names.Nodup) (once : unit.Nodup)
    (wf : ∀ n d, w.descriptors.get? n = some d → d.WellFormed)
    (h : (compile ctx unit).Notes w note) :
    note.level ≠ .warn ∨ ∃ e, note = failureNote unit e := by
  unfold compile at h
  rw [Action.notes_read_bind] at h
  rcases Action.notes_bind.1 h with none | ⟨start, _, ready, h⟩
  · exact absurd none Action.notes_ofExcept
  obtain ⟨drafted, rfl⟩ := Action.answers_ofExcept.1 ready
  rcases Action.notes_bind.1 h with building | ⟨finished, w₁, _, h⟩
  · rcases Action.notes_onFailure building with built | ⟨e, w₁, _, cleanup⟩
    · left
      have names : start.names.Nodup := by
        rw [names_drafts drafted]
        exact once
      have phases : (runPhases w.models unit).Notes (w.descriptors, start) note := built
      have debug : note.level = .debug := by
        refine notes_runPhases ?_ ?_ ?_ phases
        · exact distinct
        · exact names
        · exact wf
      rw [debug]
      decide
    · right
      rcases Action.notes_bind.1 cleanup with none | ⟨_, _, _, last⟩
      · exact absurd none Action.notes_change
      · exact ⟨e, Action.notes_note.1 last⟩
  · left
    rw [List.forM_eq_forM] at h
    obtain ⟨n, _, w₂, _, left⟩ := Action.notes_forM (I := fun _ => True) trivial
      (fun _ _ _ _ => trivial) h
    unfold storeMember at left
    cases found : finished.get? n with
    | none =>
        rw [found] at left
        exact absurd left Action.notes_pure
    | some m =>
        simp only [found, store] at left
        rcases Action.notes_bind.1 left with none | ⟨_, _, _, last⟩
        · exact absurd none Action.notes_change
        · rw [Action.notes_note.1 last]
          simp

/-! ## Units that are bound -/

theorem draft_eq_error (h : draft ctx w.descriptors false n = .error e) :
    ctx.resources.get? n = none ∨ w.descriptors.get? n = none ∨
      ∃ d, w.descriptors.get? n = some d ∧ Naming.isIdentifier (startTable ctx d n).name = false
        ∧ .invalidIdentifier "table" (startTable ctx d n).name = e := by
  unfold draft resolve descriptorOf at h
  cases hr : ctx.resources.get? n with
  | none => exact .inl rfl
  | some r =>
      cases hd : w.descriptors.get? n with
      | none => exact .inr (.inl rfl)
      | some d =>
          refine .inr (.inr ⟨d, rfl, ?_⟩)
          by_cases valid : Naming.isIdentifier (d.options.tableNameFor n ctx.generator)
          · simp [hr, hd, bind, Except.bind, draftTable, Naming.checkIdentifier, valid, pure,
              Except.pure, Functor.map, Except.map] at h
          · simp [hr, hd, bind, Except.bind, draftTable, Naming.checkIdentifier, valid, Functor.map,
              Except.map] at h
            exact ⟨by simpa [startTable] using valid, h⟩

theorem drafts_eq_error (h : drafts ctx w.descriptors unit = .error e) :
    ∃ n ∈ unit, draft ctx w.descriptors false n = .error e := by
  induction unit with
  | nil => cases h
  | cons n rest ih =>
      unfold drafts at h
      cases one : draft ctx w.descriptors false n with
      | error e' =>
          rw [one] at h
          cases h
          exact ⟨n, List.mem_cons_self, one⟩
      | ok first =>
          cases others : drafts ctx w.descriptors rest with
          | error e' =>
              rw [one, others] at h
              cases h
              obtain ⟨k, mem, failed⟩ := ih others
              exact ⟨k, List.mem_cons_of_mem _ mem, failed⟩
          | ok later => simp [one, others, bind, Except.bind, pure, Except.pure] at h

/-- A unit that cannot be compiled has no drafts, or cannot be built. -/
theorem undrafted_or_unbuilt (h : (compile ctx unit).Fails w e w') :
    drafts ctx w.descriptors unit = .error e ∨
      ∃ start s, drafts ctx w.descriptors unit = .ok start
        ∧ (runPhases w.models unit).Fails (w.descriptors, start) e s := by
  unfold compile at h
  rw [Action.fails_read_bind] at h
  rcases Action.fails_bind.1 h with undrafted | ⟨start, _, ready, h⟩
  · exact .inl (Action.fails_ofExcept.1 undrafted).1
  obtain ⟨drafted, rfl⟩ := Action.answers_ofExcept.1 ready
  rcases Action.fails_bind.1 h with unbuilt | ⟨finished, _, _, stored⟩
  · obtain ⟨_, failed, _⟩ := Action.fails_onFailure.1 unbuilt
    obtain ⟨D', drafts', ends, _⟩ := fails_build.1 failed
    exact .inr ⟨start, _, drafted, ends⟩
  · exact absurd stored not_fails_storeAll

theorem exists_fails_compile {s' : Roster Descriptor × Roster Model}
    (drafted : drafts ctx w.descriptors unit = .ok start)
    (failed : (runPhases w.models unit).Fails (w.descriptors, start) e s') :
    ∃ w', (compile ctx unit).Fails w e w' := by
  rcases Action.answers_or_fails (compile ctx unit) w with ⟨_, _, compiled⟩ | ⟨e', w', uncompiled⟩
  · obtain ⟨start', _, _, drafted', built, _⟩ := answers_compile.1 compiled
    obtain rfl : start = start' := Except.ok.inj (drafted.symm.trans drafted')
    exact absurd failed built.not_fails
  · rcases undrafted_or_unbuilt uncompiled with undrafted | ⟨start', _, drafted', unbuilt⟩
    · rw [drafted] at undrafted
      cases undrafted
    · obtain rfl : start = start' := Except.ok.inj (drafted.symm.trans drafted')
      obtain rfl : e' = e := Except.error.inj (unbuilt.1.symm.trans failed.1)
      exact ⟨w', uncompiled⟩

/-- A unit that is bound and not compiled yet. -/
structure BoundUnit (ctx : GenerationContext) (w : Workspace) (unit : List String) : Prop where
  sound : Sound ctx.resources w
  columns : ColumnsDistinct w.models
  once : unit.Nodup
  pending : ∀ n ∈ unit, Binding.isPending w.descriptors w.models n = true
  leads : ∀ n ∈ unit, ∀ d x r, w.descriptors.get? n = some d → d.relationship? x = some r →
    r.target ∈ unit ∨ ∃ m, w.models.get? r.target = some m

namespace BoundUnit

theorem known (h : BoundUnit ctx w unit) (member : n ∈ unit) : n ∈ w.descriptors.names :=
  Binding.mem_names_of_isPending (h.pending n member)

theorem uncached (h : BoundUnit ctx w unit) (member : n ∈ unit) : w.models.get? n = none := by
  obtain ⟨_, _, _, _, none⟩ := Binding.isPending_iff.1 (h.pending n member)
  exact Roster.contains_eq_false_iff.1 none

theorem standing (h : BoundUnit ctx w unit) (member : n ∈ unit) :
    ∃ r d, ctx.resources.get? n = some r ∧ w.descriptors.get? n = some d ∧ d.resource = n
      ∧ d.WellFormed ∧ d.Fresh := by
  obtain ⟨d, found, _, unbuilt, _⟩ := Binding.isPending_iff.1 (h.pending n member)
  obtain ⟨r, hr, standing⟩ := h.sound.exists_resource found
  exact ⟨r, d, hr, found, standing.resource_eq.trans (h.sound.named n r hr), standing.wellFormed,
    standing.fresh unbuilt⟩

theorem linked (h : BoundUnit ctx w unit) (drafted : drafts ctx w.descriptors unit = .ok start) :
    Linked w.descriptors w.models start :=
  linked_drafts h.once h.sound.allWellFormed drafted w.models

end BoundUnit

/-- Only the table of a target that is cached without one can be missing. -/
theorem targetTable_eq_error {drafts : Roster Model}
    (concrete : ∀ k m, drafts.get? k = some m → ∃ t, m.table = some t) (names : drafts.names = unit)
    {k : String}
    (leads : n ∈ unit ∨ ∃ m, w.models.get? n = some m)
    (missing : BuildSite.targetTable { owner := k, generated := w.models } drafts n = .error e) :
    n ∉ unit ∧ ∃ m, w.models.get? n = some m ∧ m.table = none ∧ .abstractTarget n = e := by
  have outside : n ∉ unit := by
    intro member
    rw [← names] at member
    obtain ⟨m, found⟩ := Roster.exists_get?_of_mem member
    obtain ⟨t, table⟩ := concrete n m found
    have there : BuildSite.targetTable { owner := k, generated := w.models } drafts n = .ok t :=
      targetTable_eq_ok_iff_known.2 ((knownTable_of_draft found).trans table)
    rw [there] at missing
    cases missing
  obtain ⟨m, cached⟩ := leads.resolve_left outside
  refine ⟨outside, m, cached, ?_⟩
  have absent : drafts.get? n = none := Roster.get?_eq_none_iff.2 (names ▸ outside)
  simp only [BuildSite.targetTable, absent, Option.none_or, cached, BuildSite.tableOf] at missing
  cases table : m.table with
  | some t => simp [table] at missing
  | none =>
      simp only [table, Except.error.injEq] at missing
      exact ⟨rfl, missing⟩

/-! ## Faults -/

/-- A pass that makes keys stops. -/
def StopsInKeys (generated : Roster Model) (unit : List String)
    (s : Roster Descriptor × Roster Model) (e : Error) (s' : Roster Descriptor × Roster Model) :
    Prop :=
  (pass generated Descriptor.buildPrimaryKey (primaryKeyOrder s.1 unit)).Fails s e s' ∨
  ∃ s₁, (pass generated Descriptor.buildPrimaryKey (primaryKeyOrder s.1 unit)).Answers s () s₁
    ∧ (pass generated (Descriptor.build .keyColumns) unit).Fails s₁ e s'

/-- Why a unit that is bound cannot be compiled. -/
inductive Fault (ctx : GenerationContext) (w : Workspace) (unit : List String) : Error → Prop
  /-- The table of a member would have a name that is no identifier. -/
  | tableName (n : String) (d : Descriptor) (member : n ∈ unit)
      (found : w.descriptors.get? n = some d)
      (invalid : Naming.isIdentifier (startTable ctx d n).name = false) :
      Fault ctx w unit (.invalidIdentifier "table" (startTable ctx d n).name)
  /-- A key has to repeat the primary key of a table that starts without one. -/
  | keyless (n : String) (d : Descriptor) (x : String) (r : Relationship) (start : Roster Model)
      (target : Table) (s : Roster Descriptor × Roster Model) (member : n ∈ unit)
      (found : w.descriptors.get? n = some d) (declared : d.relationship? x = some r)
      (hosts : r.hostsKey = true) (drafted : drafts ctx w.descriptors unit = .ok start)
      (stops : StopsInKeys w.models unit (w.descriptors, start) (.missingPrimaryKey target.name
        s!"relationship '{x}' on resource '{n}' needs a key to reference") s)
      (known : knownTable w.models start r.target = some target) (none : target.primaryKey = []) :
      Fault ctx w unit (.missingPrimaryKey target.name
        s!"relationship '{x}' on resource '{n}' needs a key to reference")
  /-- The table of a member has a column with the name of one that a key would add. -/
  | clash (n : String) (d : Descriptor) (x : String) (r : Relationship) (start : Roster Model)
      (owner target : Table) (k : Column) (s : Roster Descriptor × Roster Model)
      (member : n ∈ unit) (found : w.descriptors.get? n = some d)
      (declared : d.relationship? x = some r) (hosts : r.hostsKey = true)
      (drafted : drafts ctx w.descriptors unit = .ok start)
      (stops : StopsInKeys w.models unit (w.descriptors, start)
        (.duplicateProperty n (RelationshipBuilder.keyColumnName x k)) s)
      (here : knownTable w.models s.2 n = some owner)
      (there : knownTable w.models s.2 r.target = some target) (key : k ∈ target.primaryKey)
      (taken : RelationshipBuilder.keyColumnName x k ∈ owner.columnNames) :
      Fault ctx w unit (.duplicateProperty n (RelationshipBuilder.keyColumnName x k))
  /-- A relationship leads to a resource that was cached without a table. -/
  | tableless (n : String) (d : Descriptor) (x : String) (r : Relationship) (m : Model)
      (member : n ∈ unit) (found : w.descriptors.get? n = some d)
      (declared : d.relationship? x = some r) (outside : r.target ∉ unit)
      (cached : w.models.get? r.target = some m) (none : m.table = none) :
      Fault ctx w unit (.abstractTarget r.target)

namespace Fault

theorem isResolution_eq (h : Fault ctx w unit e) : e.isResolution = false := by
  cases h <;> rfl

end Fault

namespace BoundUnit

variable {selected : Builder → Bool} {done : List String} {d : Descriptor} {side : KeySide}
  {drafts : Roster Model} {s' : Roster Descriptor × Roster Model}

/-- Where a pass that makes keys stops there is a fault. -/
theorem fault_of_stopped (h : BoundUnit ctx w unit)
    (drafted : Generation.drafts ctx w.descriptors unit = .ok start) (member : n ∈ unit)
    (midway : Midway w.descriptors w.models s₀ done s) (grown : DraftsGrow start s₀.2)
    (found : s.1.get? n = some d)
    (stopped : Stopped w.descriptors w.models selected n d s.2 side drafts e s'.2)
    (stops : StopsInKeys w.models unit (w.descriptors, start) e s') : Fault ctx w unit e := by
  obtain ⟨_, d₀, _, found₀, name, wf, _⟩ := h.standing member
  obtain ⟨d₁, before, worked⟩ := midway.worked.get?_backward found
  obtain rfl : d₀ = d₁ := Option.some.inj (found₀.symm.trans before)
  obtain ⟨_, declared, hosts⟩ := Builder.keyFor?_eq_some_iff.1 stopped.wanted
  rw [worked.view_eq, Descriptor.view_relationship?] at declared
  have begun : DraftsGrow start drafts := (grown.trans midway.grown).trans stopped.inside.grown
  have names : drafts.names = unit := by
    rw [Roster.Evolves.names_eq begun]
    exact names_drafts drafted
  have resource : d.view.resource = n := by
    rw [worked.view_eq]
    exact name
  have leads := h.leads n member d₀ _ _ found₀ declared
  cases stopped.blocked with
  | tableless missing =>
      obtain ⟨outside, m, cached, none, rfl⟩ :=
        targetTable_eq_error stopped.inside.linked.concrete names leads missing
      exact .tableless n d₀ _ _ m member found₀ declared outside cached none
  | keyless target known none =>
      obtain ⟨target₀, known₀, grows⟩ := begun.knownTable_before known
      have none₀ : target₀.primaryKey = [] := List.prefix_nil.1 (none ▸ grows.primaryKey)
      rw [resource, grows.name_eq] at stops ⊢
      exact .keyless n d₀ _ _ start target₀ s' member found₀ declared hosts drafted stops known₀ none₀
  | taken owner target k here known key used =>
      rw [resource] at stops ⊢
      obtain ⟨m, drafted', table⟩ := BuildSite.ownerTable_eq_ok.1 here
      have known₀ : knownTable w.models drafts n = some owner :=
        (knownTable_of_draft drafted').trans table
      obtain ⟨owner', here', grows⟩ := stopped.grown.knownTable known₀
      obtain ⟨target', known', grows'⟩ := stopped.grown.knownTable known
      exact .clash n d₀ _ _ start owner' target' k s' member found₀ declared hosts drafted stops here'
        known' (grows'.primaryKey.subset key) (grows.columnNames.subset used)

theorem mem_drafts (drafted : Generation.drafts ctx w.descriptors unit = .ok start)
    (member : n ∈ unit) : n ∈ start.names :=
  (names_drafts drafted).symm ▸ member

section Passes

variable (h : BoundUnit ctx w unit)
  (drafted : Generation.drafts ctx w.descriptors unit = .ok start)
  {I : List String → Roster Descriptor × Roster Model → Prop}
  {s₁ : Roster Descriptor × Roster Model}

include h drafted

theorem begun :
    Midway w.descriptors w.models (w.descriptors, start) [] (w.descriptors, start) :=
  .start (.refl (fun _ => Worked.refl) _) (h.linked drafted)

section First

variable (holds : I [] (w.descriptors, start))
  (next : ∀ done n rest s s', primaryKeyOrder w.descriptors unit = done ++ n :: rest →
    Midway w.descriptors w.models (w.descriptors, start) done s → I done s →
    (onMember n (Descriptor.buildPrimaryKey { owner := n, generated := w.models })).Answers s () s' →
    I (done ++ [n]) s')

include holds next

/-- What the turns of the first pass keep holds when it ends. -/
theorem first_answers (first : (pass w.models Descriptor.buildPrimaryKey
      (primaryKeyOrder w.descriptors unit)).Answers (w.descriptors, start) () s₁) :
    Midway w.descriptors w.models (w.descriptors, start) (primaryKeyOrder w.descriptors unit) s₁
      ∧ I (primaryKeyOrder w.descriptors unit) s₁ :=
  keyPass_buildPrimaryKey.answers_induction h.sound.descriptors_distinct h.columns
    (fun _ mem => mem_drafts drafted (mem_primaryKeyOrder.1 mem).1) (h.begun drafted) holds next first

/-- What they keep holds where it stops. -/
theorem first_fails (first : (pass w.models Descriptor.buildPrimaryKey
      (primaryKeyOrder w.descriptors unit)).Fails (w.descriptors, start) e s') :
    ∃ done n rest s d side drafts, primaryKeyOrder w.descriptors unit = done ++ n :: rest ∧ n ∈ unit
      ∧ Midway w.descriptors w.models (w.descriptors, start) done s ∧ I done s ∧ s.1.get? n = some d
      ∧ Stopped w.descriptors w.models (·.forcesPrimaryKey) n d s.2 side drafts e s'.2 := by
  obtain ⟨done, n, rest, s, d, side, drafts, split, midway, holds, found, stopped⟩ :=
    keyPass_buildPrimaryKey.fails_induction h.sound.descriptors_distinct h.columns
      (fun n mem => h.known (mem_primaryKeyOrder.1 mem).1)
      (fun _ mem => mem_drafts drafted (mem_primaryKeyOrder.1 mem).1) (h.begun drafted) holds next first
  have mem : n ∈ primaryKeyOrder w.descriptors unit :=
    split ▸ List.mem_append_right _ List.mem_cons_self
  exact ⟨done, n, rest, s, d, side, drafts, split, (mem_primaryKeyOrder.1 mem).1, midway, holds, found,
    stopped⟩

end First

section Second

variable {done₁ : List String}
  (midway₁ : Midway w.descriptors w.models (w.descriptors, start) done₁ s₁) (holds : I [] s₁)
  (next : ∀ done n rest s s', unit = done ++ n :: rest →
    Midway w.descriptors w.models s₁ done s → I done s →
    (onMember n (Descriptor.build .keyColumns { owner := n, generated := w.models })).Answers s () s' →
    I (done ++ [n]) s')

include midway₁ holds next

/-- What the turns of the second pass keep holds when it ends. -/
theorem second_answers {s₂ : Roster Descriptor × Roster Model}
    (second : (pass w.models (Descriptor.build .keyColumns) unit).Answers s₁ () s₂) :
    Midway w.descriptors w.models s₁ unit s₂ ∧ I unit s₂ := by
  refine keyPass_build.answers_induction h.sound.descriptors_distinct h.columns (fun n mem => ?_)
    (.start midway₁.worked midway₁.linked) holds next second
  rw [Roster.Evolves.names_eq midway₁.grown]
  exact mem_drafts drafted mem

/-- What they keep holds where it stops. -/
theorem second_fails
    (second : (pass w.models (Descriptor.build .keyColumns) unit).Fails s₁ e s') :
    ∃ done n rest s d side drafts, unit = done ++ n :: rest ∧ n ∈ unit
      ∧ Midway w.descriptors w.models s₁ done s ∧ I done s ∧ s.1.get? n = some d
      ∧ Stopped w.descriptors w.models (fun _ => true) n d s.2 side drafts e s'.2 := by
  obtain ⟨done, n, rest, s, d, side, drafts, split, midway, holds, found, stopped⟩ :=
    keyPass_build.fails_induction h.sound.descriptors_distinct h.columns (fun n mem => h.known mem)
      (fun n mem => by
        rw [Roster.Evolves.names_eq midway₁.grown]
        exact mem_drafts drafted mem)
      (.start midway₁.worked midway₁.linked) holds next second
  exact ⟨done, n, rest, s, d, side, drafts, split, split ▸ List.mem_append_right _ List.mem_cons_self,
    midway, holds, found, stopped⟩

end Second

/-- A unit that cannot be built has a fault. -/
theorem fault_of_unbuilt
    (failed : (runPhases w.models unit).Fails (w.descriptors, start) e s') : Fault ctx w unit e := by
  -- Passes that make keys leave the drafts without properties.
  let Bare : List String → Roster Descriptor × Roster Model → Prop :=
    fun _ s => ∀ k m, s.2.get? k = some m → m.properties = []
  have bare : Bare [] (w.descriptors, start) := fun _ _ => properties_drafts drafted h.once
  rcases fails_runPhases.1 failed with first | ⟨s₁, first, later⟩
  · obtain ⟨done, n, rest, s, d, side, drafts, _, member, midway, _, found, stopped⟩ :=
      h.first_fails drafted bare (fun _ _ _ _ _ _ _ => keyPass_buildPrimaryKey.bare) first
    exact h.fault_of_stopped drafted member midway (.refl start) found stopped (.inl first)
  obtain ⟨midway₁, bare₁⟩ :=
    h.first_answers drafted bare (fun _ _ _ _ _ _ _ => keyPass_buildPrimaryKey.bare) first
  rcases later with second | ⟨s₂, second, third⟩
  · obtain ⟨done, n, rest, s, d, side, drafts, _, member, midway, _, found, stopped⟩ :=
      h.second_fails drafted midway₁ bare₁ (fun _ _ _ _ _ _ _ => keyPass_build.bare) second
    exact h.fault_of_stopped drafted member midway midway₁.grown found stopped
      (.inr ⟨s₁, first, second⟩)
  · obtain ⟨midway₂, bare₂⟩ :=
      h.second_answers drafted midway₁ bare₁ (fun _ _ _ _ _ _ _ => keyPass_build.bare) second
    have names₂ : s₂.2.names = unit :=
      (Roster.Evolves.names_eq (midway₁.grown.trans midway₂.grown)).trans (names_drafts drafted)
    obtain ⟨n, member, d, x, r, drafts, found, declared, grown, missing⟩ := fails_propertyPass
      h.sound.descriptors_distinct h.once (fun _ _ => h.sound.allWellFormed _ _) (fun n => h.known)
      (fun n mem => names₂.symm ▸ mem) midway₂.worked midway₂.linked bare₂ third
    have here : drafts.names = unit := (Roster.Evolves.names_eq grown).trans names₂
    obtain ⟨outside, m, cached, none, rfl⟩ := targetTable_eq_error
      (fun _ _ => grown.concrete midway₂.linked.concrete) here (h.leads n member d x r found declared)
      missing
    exact .tableless n d x r m member found declared outside cached none

end Passes

/-- A unit that is bound and cannot be compiled has a fault. -/
theorem fault_of_uncompiled (h : BoundUnit ctx w unit) (failed : (compile ctx unit).Fails w e w') :
    Fault ctx w unit e := by
  rcases undrafted_or_unbuilt failed with undrafted | ⟨start, s, drafted, unbuilt⟩
  · obtain ⟨n, member, undrafted⟩ := drafts_eq_error undrafted
    obtain ⟨r, d, hr, hd, _⟩ := h.standing member
    rcases draft_eq_error undrafted with none | none | ⟨d, found, invalid, rfl⟩
    · rw [hr] at none
      cases none
    · rw [hd] at none
      cases none
    · exact .tableName n d member found invalid
  · exact h.fault_of_unbuilt drafted unbuilt

end BoundUnit

/-! ## Requests for a unit that binds -/

/-- Once its unit is bound, a request fails just as the compilation does. -/
theorem fails_generate_iff {name : String} {r : Resource} {D' : Roster Descriptor}
    (sound : Sound ctx.resources w) (hr : ctx.resources.get? name = some r)
    (concrete : r.isAbstract = false) (uncached : w.models.get? name = none)
    (bound : (Binding.bind ctx.resources w.models name).Answers w.descriptors unit D') :
    (generate ctx name).Fails w e w' ↔ (compile ctx unit).Fails { w with descriptors := D' } e w' := by
  constructor
  · intro failed
    rcases Action.answers_or_fails (compile ctx unit) { w with descriptors := D' } with
      ⟨⟨⟩, w₁, compiled⟩ | ⟨e₁, w₁, uncompiled⟩
    · obtain ⟨_, m, cached⟩ := addsUnit_of_compiled sound hr concrete uncached bound compiled
      have granted : (generate ctx name).Answers w m w₁ :=
        answers_generate.2 (.inr ⟨uncached, r, hr, .inr ⟨concrete, unit, D', bound, compiled, cached⟩⟩)
      exact absurd failed granted.not_fails
    · have again := fails_generate_of_unit hr concrete uncached (.inr ⟨unit, D', bound, uncompiled⟩)
      obtain rfl : e₁ = e := Except.error.inj (again.1.symm.trans failed.1)
      obtain rfl : w₁ = w' := again.2.symm.trans failed.2
      exact uncompiled
  · exact fun uncompiled =>
      fails_generate_of_unit hr concrete uncached (.inr ⟨unit, D', bound, uncompiled⟩)

end Generation

namespace Compiler

open Generation

theorem generationContext_eq_error {c : Compiler} {e : Error} (h : c.generationContext = .error e) :
    .unknownGenerator c.settings.generatorName = e := by
  unfold generationContext Naming.generatorNamed at h
  split at h
  · cases h
  · exact Except.error.inj h

section Bound

variable {settings : Settings} {requests : List Request} {c c' : Compiler}
  (reached : (new settings).run requests = c) {name : String} {resource : Resource}
  (declared : c.resources.get? name = some resource) (concrete : resource.isAbstract = false)
  (uncached : c.model? name = none) {unit : List String} {D' : Roster Descriptor}
  (bound : (Binding.bind c.resources c.workspace.models name).Answers c.workspace.descriptors unit D')

include reached declared concrete uncached bound

/-- What binding leaves behind is ready to be compiled. -/
theorem boundUnit_of_bind {ctx : GenerationContext} (known : c.generationContext = .ok ctx) :
    BoundUnit ctx { c.workspace with descriptors := D' } unit := by
  have sound : Sound ctx.resources c.workspace := sound_of_run reached known
  rw [← (generationContext_eq_ok known).2.1] at declared bound
  obtain ⟨sound', once, _, pending⟩ := sound.bound_unit declared concrete uncached bound
  have referential : Referential c.workspace.models := by
    rw [← reached]
    exact cache_run referential_generateAbstract referential_generate referential_empty settings
      requests
  refine ⟨sound', referential.columns, once, pending, ?_⟩
  intro n member d x r found related
  obtain ⟨e, mem, _, rfl⟩ := (sound'.allWellFormed n d found).relationship?_eq_some_iff.1 related
  exact (sound.bound_targets bound member found mem).imp_right fun ⟨_, m, _, _, cached⟩ => ⟨m, cached⟩

/-- A request for a unit that is bound fails as its compilation does, if there is a context for it. -/
theorem fails_compile_of_fails {e : Error} (failed : (generate name).Fails c e c') :
    (c.generationContext = .error e ∧ c = c') ∨
    ∃ ctx w', c.generationContext = .ok ctx
      ∧ (compile ctx unit).Fails { c.workspace with descriptors := D' } e w'
      ∧ c.withWorkspace w' = c' := by
  refine (fails_generating.1 failed).imp_right ?_
  rintro ⟨ctx, w', known, ends, same⟩
  have sound : Sound ctx.resources c.workspace := sound_of_run reached known
  rw [← (generationContext_eq_ok known).2.1] at declared bound
  exact ⟨ctx, w', known, (fails_generate_iff sound declared concrete uncached bound).1 ends, same⟩

end Bound

/-- Wherever a history leads, the compilation of a unit that is bound fails only for a fault, none of
which concerns the pairing of relationships with their targets.  If it does not fail, the model that was
asked for is in the cache; it never skips a builder; and the request as a whole fails only as it does. -/
theorem bound_unit_compiles (settings : Settings) (requests : List Request) (c : Compiler)
    (reached : (new settings).run requests = c) (name : String) (resource : Resource)
    (declared : c.resources.get? name = some resource) (concrete : resource.isAbstract = false)
    (uncached : c.model? name = none) (unit : List String) (D' : Roster Descriptor)
    (bound : (Binding.bind c.resources c.workspace.models name).Answers c.workspace.descriptors unit D')
    (ctx : GenerationContext) (known : c.generationContext = .ok ctx) (w : Workspace)
    (left : ({ c.workspace with descriptors := D' } : Workspace) = w) :
    (∀ e w', (compile ctx unit).Fails w e w' → Fault ctx w unit e ∧ e.isResolution = false) ∧
    (∀ w', (compile ctx unit).Answers w () w' → ∃ m, w'.models.get? name = some m) ∧
    (∀ b view, ¬ (compile ctx unit).Notes w (RelationshipBuilder.skipNote b view)) ∧
    ∀ e c', (generate name).Fails c e c' →
      ∃ w', (compile ctx unit).Fails w e w' ∧ c.withWorkspace w' = c' := by
  have ready := boundUnit_of_bind reached declared concrete uncached bound known
  subst left
  refine ⟨fun e w' failed => ?_, fun w' compiled => ?_, fun b view skips => ?_, fun e c' failed => ?_⟩
  · have fault := ready.fault_of_uncompiled failed
    exact ⟨fault, fault.isResolution_eq⟩
  · have sound : Sound ctx.resources c.workspace := sound_of_run reached known
    rw [← (generationContext_eq_ok known).2.1] at declared bound
    exact (addsUnit_of_compiled sound declared concrete uncached bound compiled).2
  · rcases notes_compile ready.sound.descriptors_distinct ready.once ready.sound.allWellFormed skips with
      level | ⟨e, same⟩
    · exact level rfl
    · have texts := congrArg (fun note : Note => note.text.toList.head?) same
      simp [RelationshipBuilder.skipNote, failureNote, toString] at texts
  · rcases fails_compile_of_fails reached declared concrete uncached bound failed with
      ⟨unknown, _⟩ | ⟨ctx', w', known', uncompiled, same⟩
    · rw [known] at unknown
      cases unknown
    · obtain rfl : ctx = ctx' := Except.ok.inj (known.symm.trans known')
      exact ⟨w', uncompiled, same⟩

/-- Books with a field under the name that the key of their author would take. -/
def numberedAuthors : List Request :=
  [.declare { name := "Author" },
    .declare { name := "Book"
               properties := [⟨"author_id", 1, .field { storage := .integer }⟩,
                 ⟨"author", 2, .relationship (.new .manyToOne "Author")⟩] }]

/-- The books are bound with their authors and clash over the name of a column. -/
theorem bound_unit_compiles_clash :
    ∃ c ctx unit D' w w', (new {}).run numberedAuthors = c ∧ c.generationContext = .ok ctx
      ∧ (Binding.bind c.resources c.workspace.models "Book").Answers c.workspace.descriptors unit D'
      ∧ ({ c.workspace with descriptors := D' } : Workspace) = w
      ∧ (compile ctx unit).Fails w (.duplicateProperty "Book" "author_id") w'
      ∧ Fault ctx w unit (.duplicateProperty "Book" "author_id") := by
  obtain ⟨c, reached⟩ : ∃ c, (new {}).run numberedAuthors = c := ⟨_, rfl⟩
  obtain ⟨r, declared, concrete, uncached⟩ : ∃ r, c.resources.get? "Book" = some r
      ∧ r.isAbstract = false ∧ c.model? "Book" = none :=
    exists_requestable (by rw [← reached]; cbv)
  obtain ⟨unit, D', bound, order⟩ := Action.exists_answers_of_any (p := (· == ["Author", "Book"]))
    (show (Binding.bind c.resources c.workspace.models "Book" c.workspace.descriptors).result.toOption.any
      _ = true by rw [← reached]; cbv)
  obtain rfl := beq_iff_eq.1 order
  have clash : c.generationContext.toOption.any (fun ctx =>
      (drafts ctx (Binding.bind c.resources c.workspace.models "Book" c.workspace.descriptors).state
        ["Author", "Book"]).toOption.any fun start =>
      (runPhases c.workspace.models ["Author", "Book"]).stopsWith
        ((Binding.bind c.resources c.workspace.models "Book" c.workspace.descriptors).state, start)
        (.duplicateProperty "Book" "author_id")) = true := by
    rw [← reached]
    cbv
  rw [bound.2] at clash
  obtain ⟨ctx, known, clash⟩ := (Option.any_eq_true _ _).1 clash
  obtain ⟨start, drafted, clash⟩ := (Option.any_eq_true _ _).1 clash
  rw [Action.toOption_eq_some_iff] at known drafted
  obtain ⟨_, unbuilt⟩ := Action.exists_fails_of_stopsWith clash
  obtain ⟨w', failed⟩ :=
    exists_fails_compile (w := { c.workspace with descriptors := D' }) drafted unbuilt
  obtain ⟨faults, _⟩ := bound_unit_compiles {} numberedAuthors c reached "Book" r declared concrete
    uncached _ D' bound ctx known _ rfl
  exact ⟨c, ctx, _, D', _, w', reached, known, bound, rfl, failed, (faults _ w' failed).1⟩

end Compiler

end ResourceTables
