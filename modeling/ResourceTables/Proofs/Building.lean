/-
# `ResourceTables.Proofs.Building` — what building can change, whether it succeeds or fails

Building works on the descriptors of a unit and on its drafts.  Of a descriptor it changes only what
the builders have recorded, which a reset takes back; a draft only grows: its table keeps its name
and gets more columns and foreign keys at the end, and its properties get more at the end.
-/
import ResourceTables.Generation
import ResourceTables.Proofs.Actions
import ResourceTables.Proofs.Descriptors
import ResourceTables.Proofs.Ordering
import ResourceTables.Proofs.Rosters

namespace ResourceTables

/-! ## Drafts that grow -/

/-- A table with more columns and foreign keys at the end. -/
structure Table.Grows (t t' : Table) : Prop where
  name_eq : t'.name = t.name
  schema_eq : t'.schema = t.schema
  columns : t.columns <+: t'.columns
  constraints : t.constraints <+: t'.constraints

/-- A model whose table has grown, with more properties at the end. -/
structure Model.Grows (m m' : Model) : Prop where
  rest_eq : { m' with table := none, properties := [] } = { m with table := none, properties := [] }
  table : (m.table = none ∧ m'.table = none) ∨
    ∃ t t', m.table = some t ∧ m'.table = some t' ∧ t.Grows t'
  properties : m.properties <+: m'.properties

theorem Table.Grows.refl (t : Table) : t.Grows t := ⟨rfl, rfl, List.prefix_rfl, List.prefix_rfl⟩

theorem Table.Grows.trans {t t' t'' : Table} (h : t.Grows t') (h' : t'.Grows t'') : t.Grows t'' :=
  ⟨h'.name_eq.trans h.name_eq, h'.schema_eq.trans h.schema_eq, h.columns.trans h'.columns,
    h.constraints.trans h'.constraints⟩

theorem Table.Grows.fullName_eq {t t' : Table} (h : t.Grows t') : t'.fullName = t.fullName := by
  simp only [Table.fullName, h.name_eq, h.schema_eq]

theorem Table.grows_addColumn (t : Table) (column : Column) : t.Grows (t.addColumn column) :=
  ⟨rfl, rfl, List.prefix_append _ _, List.prefix_rfl⟩

theorem Table.grows_addConstraint (t : Table) (key : ForeignKey) : t.Grows (t.addConstraint key) :=
  ⟨rfl, rfl, List.prefix_rfl, List.prefix_append _ _⟩

theorem Model.Grows.refl (m : Model) : m.Grows m := by
  refine ⟨rfl, ?_, List.prefix_rfl⟩
  cases m.table with
  | none => exact .inl ⟨rfl, rfl⟩
  | some t => exact .inr ⟨t, t, rfl, rfl, .refl t⟩

theorem Model.Grows.trans {m m' m'' : Model} (h : m.Grows m') (h' : m'.Grows m'') :
    m.Grows m'' := by
  refine ⟨h'.rest_eq.trans h.rest_eq, ?_, h.properties.trans h'.properties⟩
  rcases h.table with ⟨none₁, none₂⟩ | ⟨t, t', some₁, some₂, grows⟩
  · rcases h'.table with ⟨_, none₃⟩ | ⟨_, _, some₃, _⟩
    · exact .inl ⟨none₁, none₃⟩
    · rw [none₂] at some₃; cases some₃
  · rcases h'.table with ⟨none₃, _⟩ | ⟨t₁, t₂, some₃, some₄, grows'⟩
    · rw [some₂] at none₃; cases none₃
    · rw [some₂, Option.some.injEq] at some₃
      exact .inr ⟨t, t₂, some₁, some₄, grows.trans (some₃ ▸ grows')⟩

theorem Model.grows_table {m : Model} {t t' : Table} (h : m.table = some t) (grows : t.Grows t') :
    m.Grows { m with table := some t' } :=
  ⟨rfl, .inr ⟨t, t', h, rfl, grows⟩, List.prefix_rfl⟩

theorem Model.grows_property (m : Model) (property : MappedProperty) :
    m.Grows { m with properties := m.properties ++ [property] } :=
  ⟨rfl, (Model.Grows.refl m).table, List.prefix_append _ _⟩

theorem Model.Grows.resource_eq {m m' : Model} (h : m.Grows m') : m'.resource = m.resource := by
  have := congrArg (fun x : Model => x.resource) h.rest_eq
  exact this

theorem Model.Grows.name_eq {m m' : Model} (h : m.Grows m') : m'.name = m.name := by
  have := congrArg (fun x : Model => x.name) h.rest_eq
  exact this

theorem Model.Grows.isAbstract_eq {m m' : Model} (h : m.Grows m') :
    m'.isAbstract = m.isAbstract := by
  have := congrArg (fun x : Model => x.isAbstract) h.rest_eq
  exact this

/-- Drafts that have grown, each under its name. -/
def DraftsGrow : Roster Model → Roster Model → Prop := Roster.Evolves fun _ => Model.Grows

theorem DraftsGrow.refl (drafts : Roster Model) : DraftsGrow drafts drafts :=
  Roster.Evolves.refl (fun _ => Model.Grows.refl) drafts

theorem DraftsGrow.trans {drafts drafts' drafts'' : Roster Model} (h : DraftsGrow drafts drafts')
    (h' : DraftsGrow drafts' drafts'') : DraftsGrow drafts drafts'' :=
  Roster.Evolves.trans (R := fun _ => Model.Grows) (fun _ _ _ _ => Model.Grows.trans) h h'

namespace BuildSite

variable {site : BuildSite} {drafts drafts' : Roster Model} {t : Table}

theorem tableOf_eq_ok {name : String} {m : Option Model} :
    tableOf name m = .ok t ↔ ∃ model, m = some model ∧ model.table = some t := by
  cases m with
  | none => simp [tableOf]
  | some model => cases h : model.table <;> simp [tableOf, h]

theorem ownerTable_eq_ok :
    site.ownerTable drafts = .ok t ↔ ∃ m, drafts.get? site.owner = some m ∧ m.table = some t :=
  tableOf_eq_ok

theorem targetTable_eq_ok {target : String} :
    site.targetTable drafts target = .ok t ↔
      ∃ m, (drafts.get? target).or (site.generated.get? target) = some m ∧ m.table = some t :=
  tableOf_eq_ok

theorem draftsGrow_putOwnerTable (distinct : drafts.names.Nodup)
    (here : site.ownerTable drafts = .ok t) {t' : Table} (grows : t.Grows t') :
    DraftsGrow drafts (site.putOwnerTable drafts t') := by
  obtain ⟨m, found, table⟩ := ownerTable_eq_ok.1 here
  refine Roster.evolves_modify (fun _ m _ => .refl m) ?_
  intro m' mem
  have same : drafts.get? site.owner = some m' := Roster.get?_of_mem_entries distinct mem
  rw [found, Option.some.injEq] at same
  exact same ▸ Model.grows_table table grows

theorem answers_addProperty {property : MappedProperty} {u : Unit} :
    (site.addProperty property).Answers drafts u drafts' ↔
      ∃ m, drafts.get? site.owner = some m ∧ m.property? property.name = none ∧
        drafts.modify site.owner (fun m => { m with properties := m.properties ++ [property] })
          = drafts' := by
  unfold addProperty
  rw [Action.answers_read_bind]
  cases found : drafts.get? site.owner with
  | none => simp
  | some m =>
      cases taken : m.property? property.name with
      | none => simp [taken]
      | some p => simp [taken]

theorem fails_addProperty {property : MappedProperty} {e : Error}
    (h : (site.addProperty property).Fails drafts e drafts') : drafts = drafts' := by
  unfold addProperty at h
  rw [Action.fails_read_bind] at h
  cases found : drafts.get? site.owner with
  | none =>
      rw [found] at h
      exact (Action.fails_fail.1 h).2
  | some m =>
      rw [found] at h
      by_cases taken : (m.property? property.name).isSome
      · simp only [taken, if_true, Action.fails_fail] at h
        exact h.2
      · simp [taken] at h

theorem draftsGrow_addProperty (property : MappedProperty) :
    DraftsGrow drafts (site.addProperty property drafts).state := by
  rcases Action.answers_or_fails (site.addProperty property) drafts with ⟨u, s, h⟩ | ⟨e, s, h⟩
  · rw [h.2]
    obtain ⟨_, _, _, rfl⟩ := answers_addProperty.1 h
    exact Roster.evolves_modify (fun _ m _ => .refl m) fun m _ => Model.grows_property m property
  · rw [h.2, ← fails_addProperty h]
    exact .refl drafts

end BuildSite

/-! ## Builders -/

namespace RelationshipBuilder

/-- The builder has at most recorded more, and the drafts have grown. -/
def Builds (s s' : RelationshipBuilder × Roster Model) : Prop :=
  s'.1.reset = s.1.reset ∧ DraftsGrow s.2 s'.2

variable {site : BuildSite} {view : PropertyView} {s₀ : RelationshipBuilder × Roster Model}

theorem Builds.refl (s : RelationshipBuilder × Roster Model) : Builds s s := ⟨rfl, .refl s.2⟩

theorem keeps_look (b : RelationshipBuilder) {σ : Type} {I : σ → Prop} :
    Action.Keeps I (b.look view : Action σ _) := by
  unfold look
  split
  · exact Action.keeps_pure _
  · exact (Action.keeps_note _ _).bind fun _ => Action.keeps_pure _

/-! ### One column, one foreign key -/

section KeyColumns

variable {b : RelationshipBuilder} {drafts : Roster Model} {r : Relationship} {target : Table}
  {key : Column} {u : Unit} {e : Error} {s' : RelationshipBuilder × Roster Model}

/-- The join of a key column with the column that it repeats. -/
def keyJoin (b : RelationshipBuilder) (owner target : Table) (key : Column) : JoinClause :=
  { own := s!"{owner.fullName}.{keyColumnName b.name key}"
    remote := s!"{target.fullName}.{key.name}" }

theorem answers_addKeyColumn :
    (addKeyColumn site view target key).Answers (b, drafts) u s' ↔
      ∃ owner, site.ownerTable drafts = .ok owner
        ∧ owner.column? (keyColumnName b.name key) = none
        ∧ ({ b with joinClauses := b.joinClauses ++ [b.keyJoin owner target key] },
            site.putOwnerTable drafts (owner.addColumn (b.keyColumn key))) = s' := by
  unfold addKeyColumn
  rw [Action.answers_read_bind]
  cases here : site.ownerTable drafts with
  | error e => simp [here]
  | ok owner =>
      cases taken : owner.column? (keyColumnName b.name key) with
      | none => simp [here, keyColumn, taken, keyJoin]
      | some column => simp [here, keyColumn, taken]

theorem fails_addKeyColumn (h : (addKeyColumn site view target key).Fails (b, drafts) e s') :
    (b, drafts) = s' := by
  unfold addKeyColumn at h
  rw [Action.fails_read_bind] at h
  cases here : site.ownerTable drafts with
  | error e => exact And.right (by simpa [here] using h)
  | ok owner =>
      by_cases taken : (owner.column? (b.keyColumn key).name).isSome
      · exact And.right (by simpa [here, taken] using h)
      · simp [here, taken] at h

theorem answers_addForeignKey :
    (addForeignKey site view r target).Answers (b, drafts) u s' ↔
      ∃ owner, site.ownerTable drafts = .ok owner
        ∧ ({ b with columnsCreated := true },
            site.putOwnerTable drafts (owner.addConstraint (b.foreignKey r owner target))) = s' := by
  unfold addForeignKey
  rw [Action.answers_read_bind]
  cases here : site.ownerTable drafts with
  | error e => simp [here]
  | ok owner => simp [here]

theorem fails_addForeignKey (h : (addForeignKey site view r target).Fails (b, drafts) e s') :
    (b, drafts) = s' := by
  unfold addForeignKey at h
  rw [Action.fails_read_bind] at h
  cases here : site.ownerTable drafts with
  | error e => exact And.right (by simpa [here] using h)
  | ok owner => simp [here] at h

end KeyColumns

/-- What adding the key columns and the foreign key keeps, the first phase keeps. -/
theorem keeps_createKeyColumns_of {I : RelationshipBuilder × Roster Model → Prop}
    (column : ∀ b drafts r target, I (b, drafts) → b.keyedTarget site view r drafts = .ok target →
      ∀ key ∈ target.primaryKey, Action.Keeps I (addKeyColumn site view target key))
    (foreignKey : ∀ r target, Action.Keeps I (addForeignKey site view r target)) :
    Action.Keeps I (createKeyColumns site view) := by
  rintro ⟨b, drafts⟩ holds
  unfold createKeyColumns
  rw [Action.read_bind]
  refine (?_ : Action.Keeps I _) (b, drafts) holds
  by_cases created : b.columnsCreated
  · simp only [created, if_true]
    exact Action.keeps_pure _
  · simp only [created, if_false, Bool.false_eq_true]
    refine (keeps_look b).bind fun found => ?_
    cases found with
    | none => exact Action.keeps_pure _
    | some r =>
        by_cases hosts : r.hostsKey
        · simp only [hosts, if_true]
          refine Action.keeps_ofExcept_bind fun target targeted => ?_
          refine Action.Keeps.bind ?_ fun _ => foreignKey r target
          exact Action.keeps_forM fun key mem => column b drafts r target holds targeted key mem
        · simp only [hosts, if_false, Bool.false_eq_true]
          exact Action.keeps_pure _

section Keeping

variable (distinct : s₀.2.names.Nodup)

include distinct

theorem keeps_addKeyColumn (target : Table) (key : Column) :
    Action.Keeps (Builds s₀) (addKeyColumn site view target key) := by
  refine Action.keeps_of_ends ?_ ?_
  · rintro ⟨b, drafts⟩ u s' ⟨same, grown⟩ h
    have names : drafts.names.Nodup := by rw [Roster.Evolves.names_eq grown]; exact distinct
    obtain ⟨owner, here, _, rfl⟩ := answers_addKeyColumn.1 h
    refine ⟨same, DraftsGrow.trans grown ?_⟩
    exact BuildSite.draftsGrow_putOwnerTable names here (owner.grows_addColumn _)
  · rintro ⟨b, drafts⟩ e s' built h
    exact fails_addKeyColumn h ▸ built

theorem keeps_addForeignKey (r : Relationship) (target : Table) :
    Action.Keeps (Builds s₀) (addForeignKey site view r target) := by
  refine Action.keeps_of_ends ?_ ?_
  · rintro ⟨b, drafts⟩ u s' ⟨same, grown⟩ h
    have names : drafts.names.Nodup := by rw [Roster.Evolves.names_eq grown]; exact distinct
    obtain ⟨owner, here, rfl⟩ := answers_addForeignKey.1 h
    refine ⟨same, DraftsGrow.trans grown ?_⟩
    exact BuildSite.draftsGrow_putOwnerTable names here (owner.grows_addConstraint _)
  · rintro ⟨b, drafts⟩ e s' built h
    exact fails_addForeignKey h ▸ built

theorem keeps_createKeyColumns : Action.Keeps (Builds s₀) (createKeyColumns site view) :=
  keeps_createKeyColumns_of (fun _ _ _ target _ _ key _ => keeps_addKeyColumn distinct target key)
    (keeps_addForeignKey distinct)

end Keeping

theorem keeps_createRelation : Action.Keeps (Builds s₀) (createRelation site view) := by
  unfold createRelation
  refine Action.keeps_read.bind ?_
  rintro ⟨b, drafts⟩
  refine (keeps_look b).bind fun found => ?_
  cases found with
  | none => exact Action.keeps_pure _
  | some r =>
      refine (Action.keeps_ofExcept _).bind fun joins => Action.keeps_zoom ?_
      exact fun s built => ⟨built.1, built.2.trans (BuildSite.draftsGrow_addProperty _)⟩

end RelationshipBuilder

namespace Builder

/-- The builder has at most recorded more, and the drafts have grown. -/
def Builds (s s' : Builder × Roster Model) : Prop :=
  s'.1.reset = s.1.reset ∧ DraftsGrow s.2 s'.2

variable {site : BuildSite} {view : PropertyView}

theorem builds_step (site : BuildSite) (view : PropertyView) (phase : Phase) {s : Builder × Roster Model} (distinct : s.2.names.Nodup) :
    Builds s (step phase site view s).state := by
  obtain ⟨b, drafts⟩ := s
  cases b with
  | field name =>
      cases phase with
      | keyColumns => exact ⟨rfl, .refl drafts⟩
      | properties => exact ⟨rfl, BuildSite.draftsGrow_addProperty _⟩
  | relationship b =>
      cases phase with
      | keyColumns =>
          have done : RelationshipBuilder.Builds (b, drafts)
              (RelationshipBuilder.createKeyColumns site view (b, drafts)).state :=
            RelationshipBuilder.keeps_createKeyColumns distinct _ (.refl _)
          exact ⟨congrArg Builder.relationship done.1, done.2⟩
      | properties =>
          have done : RelationshipBuilder.Builds (b, drafts)
              (RelationshipBuilder.createRelation site view (b, drafts)).state :=
            RelationshipBuilder.keeps_createRelation _ (.refl _)
          exact ⟨congrArg Builder.relationship done.1, done.2⟩

theorem builds_primaryKeyStep (site : BuildSite) (view : PropertyView) {s : Builder × Roster Model} (distinct : s.2.names.Nodup) :
    Builds s (primaryKeyStep site view s).state := by
  unfold primaryKeyStep
  rw [Action.read_bind]
  by_cases forces : s.1.forcesPrimaryKey
  · simp only [forces, if_true]
    exact builds_step site view .keyColumns distinct
  · simp only [forces, if_false, Bool.false_eq_true]
    exact ⟨rfl, .refl s.2⟩

end Builder

/-! ## Plans -/

theorem draftsGrow_each {step : Action (Builder × Roster Model) Unit}
    (h : ∀ s : Builder × Roster Model, s.2.names.Nodup → Builder.Builds s (step s).state)
    (builders : List Builder) {drafts : Roster Model} (distinct : drafts.names.Nodup) :
    (Action.each step builders drafts).state.1.map (·.reset) = builders.map (·.reset)
      ∧ DraftsGrow drafts (Action.each step builders drafts).state.2 := by
  induction builders generalizing drafts with
  | nil => exact ⟨rfl, .refl drafts⟩
  | cons b rest ih =>
      have one := h (b, drafts) distinct
      rcases ends : step (b, drafts) with ⟨_ | _, ⟨b', drafts'⟩, notes⟩
      · rw [ends] at one
        simp only [Action.each, ends, List.map_cons]
        exact ⟨by rw [one.1], one.2⟩
      · rw [ends] at one
        have names : drafts'.names.Nodup := by
          rw [show drafts'.names = drafts.names from Roster.Evolves.names_eq one.2]
          exact distinct
        obtain ⟨builders_eq, grown⟩ := ih names
        simp only [Action.each, ends, List.map_cons]
        exact ⟨by rw [one.1, builders_eq], DraftsGrow.trans one.2 grown⟩

/-- A descriptor of which building has at most recorded something. -/
def Worked (d d' : Descriptor) : Prop :=
  d'.resetPlan = d.resetPlan

theorem Worked.refl (d : Descriptor) : Worked d d := rfl

theorem Worked.trans {d d' d'' : Descriptor} (h : Worked d d') (h' : Worked d' d'') :
    Worked d d'' :=
  Eq.trans h' h

/-- Only the builders of a descriptor that was worked on may differ. -/
theorem Worked.rest_eq {d d' : Descriptor} (h : Worked d d') : { d' with plan := d.plan } = d := by
  have := congrArg (fun x : Descriptor => { x with plan := d.plan }) h
  exact this

theorem Worked.finished_eq {d d' : Descriptor} (h : Worked d d') :
    d'.plan.finished = d.plan.finished := by
  have := congrArg (fun x : Descriptor => x.plan.finished) h
  exact this

theorem Worked.plan_names_eq {d d' : Descriptor} (h : Worked d d') :
    d'.plan.names = d.plan.names := by
  have := congrArg (fun x : Descriptor => x.plan.names) h
  rw [← Descriptor.names_reset, ← Descriptor.names_reset d.plan]
  exact this

theorem Worked.relationships_eq {d d' : Descriptor} (h : Worked d d') :
    d'.relationships = d.relationships := by
  have := congrArg (fun x : Descriptor => x.relationships) h
  exact this

theorem Worked.fields_eq {d d' : Descriptor} (h : Worked d d') : d'.fields = d.fields := by
  have := congrArg (fun x : Descriptor => x.fields) h
  exact this

theorem Worked.view_eq {d d' : Descriptor} (h : Worked d d') : d'.view = d.view := by
  have := congrArg Descriptor.view h.rest_eq
  exact this

theorem Worked.wellFormed {d d' : Descriptor} (h : Worked d d') (wf : d.WellFormed) :
    d'.WellFormed := by
  rw [← Descriptor.wellFormed_resetPlan, show d'.resetPlan = d.resetPlan from h,
    Descriptor.wellFormed_resetPlan]
  exact wf

namespace Descriptor

variable {site : BuildSite} {s : Descriptor × Roster Model}

theorem worked_onBuilders {step : Action (Builder × Roster Model) Unit}
    (h : ∀ s : Builder × Roster Model, s.2.names.Nodup → Builder.Builds s (step s).state)
    (d : Descriptor) {drafts : Roster Model} (distinct : drafts.names.Nodup) :
    Worked d { d with plan := (BuildPlan.onBuilders step (d.plan, drafts)).state.1 }
      ∧ DraftsGrow drafts (BuildPlan.onBuilders step (d.plan, drafts)).state.2 := by
  obtain ⟨builders, grown⟩ := draftsGrow_each h d.plan.builders distinct
  refine ⟨?_, grown⟩
  simp only [Worked, resetPlan, BuildPlan.reset, BuildPlan.onBuilders, builders]

theorem worked_build (site : BuildSite) (phase : Phase) (distinct : s.2.names.Nodup) :
    Worked s.1 (build phase site s).state.1 ∧ DraftsGrow s.2 (build phase site s).state.2 := by
  obtain ⟨d, drafts⟩ := s
  have done := worked_onBuilders
    (fun s names => Builder.builds_step site d.view phase names) d distinct
  unfold build
  rw [Action.read_bind]
  exact done

theorem worked_buildPrimaryKey (site : BuildSite) (distinct : s.2.names.Nodup) :
    Worked s.1 (buildPrimaryKey site s).state.1
      ∧ DraftsGrow s.2 (buildPrimaryKey site s).state.2 := by
  obtain ⟨d, drafts⟩ := s
  have done := worked_onBuilders
    (fun s names => Builder.builds_primaryKeyStep site d.view names) d distinct
  unfold buildPrimaryKey
  rw [Action.read_bind]
  exact done

end Descriptor

/-! ## Units -/

namespace Generation

variable {unit : List String} {n : String} {D D' : Roster Descriptor}
  {drafts drafts' : Roster Model} {s₀ : Roster Descriptor × Roster Model}

section Members

variable {x : Action (Descriptor × Roster Model) Unit} {u : Unit} {e : Error}
  {s' : Roster Descriptor × Roster Model}

theorem answers_onMember :
    (onMember n x).Answers (D, drafts) u s' ↔
      ∃ d d' drafts', D.get? n = some d ∧ x.Answers (d, drafts) u (d', drafts')
        ∧ (D.modify n (fun _ => d'), drafts') = s' := by
  cases found : D.get? n with
  | none => simp [Action.Answers, onMember, found]
  | some d => simp [Action.Answers, onMember, found, and_assoc, Prod.ext_iff]

theorem onMember_state_of_none (missing : D.get? n = none) :
    (onMember n x (D, drafts)).state = (D, drafts) := by
  simp [onMember, missing]

theorem onMember_state_of_some {d : Descriptor} (found : D.get? n = some d) :
    (onMember n x (D, drafts)).state
      = (D.modify n fun _ => (x (d, drafts)).state.1, (x (d, drafts)).state.2) := by
  simp [onMember, found]

end Members

/-- Descriptors of members have been worked on, the others are as they were, and the drafts have
grown. -/
def UnitWorked (unit : List String) (s s' : Roster Descriptor × Roster Model) : Prop :=
  Roster.Evolves (fun n d d' => Worked d d' ∧ (n ∉ unit → d = d')) s.1 s'.1 ∧ DraftsGrow s.2 s'.2

theorem UnitWorked.refl (s : Roster Descriptor × Roster Model) : UnitWorked unit s s :=
  ⟨.refl (fun _ _ => ⟨rfl, fun _ => rfl⟩) s.1, .refl s.2⟩

section Keeping

variable (descriptors_distinct : s₀.1.names.Nodup) (drafts_distinct : s₀.2.names.Nodup)

include descriptors_distinct drafts_distinct

theorem keeps_onMember (member : n ∈ unit) {x : Action (Descriptor × Roster Model) Unit}
    (h : ∀ s : Descriptor × Roster Model, s.2.names.Nodup →
      Worked s.1 (x s).state.1 ∧ DraftsGrow s.2 (x s).state.2) :
    Action.Keeps (UnitWorked unit s₀) (onMember n x) := by
  rintro ⟨D, drafts⟩ ⟨worked, grown⟩
  have names : D.names.Nodup := by
    rw [Roster.Evolves.names_eq worked]
    exact descriptors_distinct
  have draft_names : drafts.names.Nodup := by
    rw [Roster.Evolves.names_eq grown]
    exact drafts_distinct
  cases found : D.get? n with
  | none =>
      rw [onMember_state_of_none found]
      exact ⟨worked, grown⟩
  | some d =>
      obtain ⟨one, more⟩ := h (d, drafts) draft_names
      rw [onMember_state_of_some found]
      refine ⟨worked.trans (S := fun m d d' => Worked d d' ∧ (m ∉ unit → d = d')) ?_ ?_,
        grown.trans more⟩
      · rintro m a b c ⟨ab, same⟩ ⟨bc, same'⟩
        exact ⟨ab.trans bc, fun other => (same other).trans (same' other)⟩
      · refine Roster.evolves_modify (R := fun m d d' => Worked d d' ∧ (m ∉ unit → d = d'))
          (fun _ _ _ => ⟨rfl, fun _ => rfl⟩) fun a mem => ?_
        have here : D.get? n = some a := Roster.get?_of_mem_entries names mem
        rw [found, Option.some.injEq] at here
        exact ⟨here ▸ one, fun other => absurd member other⟩

/-- Whether building a unit succeeds or fails, it works on the members only. -/
theorem keeps_runPhases (generated : Roster Model) :
    Action.Keeps (UnitWorked unit s₀) (runPhases generated unit) := by
  unfold runPhases
  refine Action.keeps_read.bind ?_
  rintro ⟨D, drafts⟩
  simp only [List.forM_eq_forM]
  refine Action.Keeps.bind (Action.keeps_forM fun n mem => ?_) fun _ => ?_
  · exact keeps_onMember descriptors_distinct drafts_distinct (mem_primaryKeyOrder.1 mem).1
      fun s names => Descriptor.worked_buildPrimaryKey _ names
  · refine Action.keeps_forM fun phase _ => Action.keeps_forM fun n mem => ?_
    exact keeps_onMember descriptors_distinct drafts_distinct mem
      fun s names => Descriptor.worked_build _ phase names

end Keeping

end Generation

end ResourceTables
