/-
# `ResourceTables.Proofs.Stops` — where the building of a unit can stop

A builder that has a key to make can be stopped by three things: the target has no table, the target's
table has no primary key, or a key column would get the name of a column that is there already.  In the
second phase only the first of them is left, since builders have names of their own.  Building stops at
one builder of one member, and what was built before it is as in a run that goes on.
-/
import ResourceTables.Proofs.Keys

namespace ResourceTables

/-! ## Single builders -/

namespace RelationshipBuilder

variable {site : BuildSite} {view : PropertyView} {b : RelationshipBuilder} {drafts : Roster Model}
  {r : Relationship} {owner target : Table} {k : Column} {x : String} {e : Error}
  {s' : RelationshipBuilder × Roster Model}

/-- Why a builder cannot make its key for a relationship, from the drafts that it finds. -/
inductive Blocked (site : BuildSite) (view : PropertyView) (drafts : Roster Model)
    (b : RelationshipBuilder) (r : Relationship) : Error → Prop
  /-- The target has no table. -/
  | tableless {e : Error} (absent : site.targetTable drafts r.target = .error e) :
      Blocked site view drafts b r e
  /-- The table of the target has no primary key. -/
  | keyless (target : Table) (known : knownTable site.generated drafts r.target = some target)
      (none : target.primaryKey = []) :
      Blocked site view drafts b r (.missingPrimaryKey target.name
        s!"relationship '{b.name}' on resource '{view.resource}' needs a key to reference")
  /-- The table of the owner has a column with the name of a key column. -/
  | taken (owner target : Table) (k : Column) (here : site.ownerTable drafts = .ok owner)
      (known : knownTable site.generated drafts r.target = some target)
      (mem : k ∈ target.primaryKey) (used : keyColumnName b.name k ∈ owner.columnNames) :
      Blocked site view drafts b r (.duplicateProperty view.resource (keyColumnName b.name k))

theorem keyColumnName_inj {k k' : Column} :
    keyColumnName x k = keyColumnName x k' ↔ k.name = k'.name := by
  have joined : ∀ k : Column, keyColumnName x k = x ++ ("_" ++ k.name) := by
    intro k
    simp [keyColumnName, toString, String.append_assoc]
  rw [joined, joined, String.append_right_inj, String.append_right_inj]

theorem fails_addKeyColumn_iff (here : site.ownerTable drafts = .ok owner) :
    (addKeyColumn site view target k).Fails (b, drafts) e s' ↔
      keyColumnName b.name k ∈ owner.columnNames
        ∧ .duplicateProperty view.resource (keyColumnName b.name k) = e ∧ (b, drafts) = s' := by
  unfold addKeyColumn
  rw [Action.fails_read_bind]
  cases found : owner.column? (keyColumnName b.name k) with
  | none => simp [here, keyColumn, found, Table.column?_eq_none_iff.1 found]
  | some column =>
      have used : keyColumnName b.name k ∈ owner.columnNames := by
        by_contra free
        rw [← Table.column?_eq_none_iff, found] at free
        cases free
      simp [here, keyColumn, found, used]

/-- Of key columns with names of their own, one that cannot be added meets a column that was there
before all of them. -/
theorem fails_addKeyColumns {key : List Column} (names : (key.map (·.name)).Nodup)
    (here : site.ownerTable drafts = .ok owner)
    (h : (forM key (addKeyColumn site view target)).Fails (b, drafts) e s') :
    ∃ k ∈ key, keyColumnName b.name k ∈ owner.columnNames
      ∧ .duplicateProperty view.resource (keyColumnName b.name k) = e := by
  induction key generalizing b drafts owner with
  | nil => exact absurd h Action.fails_forM_nil
  | cons column rest ih =>
      obtain ⟨apart, names⟩ := List.nodup_cons.1 names
      rcases Action.fails_forM_cons.1 h with first | ⟨t, one, later⟩
      · obtain ⟨used, same, _⟩ := (fails_addKeyColumn_iff here).1 first
        exact ⟨column, List.mem_cons_self, used, same⟩
      · obtain ⟨owner', here', _, rfl⟩ := answers_addKeyColumn.1 one
        obtain rfl : owner = owner' := Except.ok.inj (here.symm.trans here')
        obtain ⟨k, mem, used, same⟩ :=
          ih names (BuildSite.ownerTable_putOwnerTable here _) later
        refine ⟨k, List.mem_cons_of_mem _ mem, ?_, same⟩
        rw [Table.columnNames_addColumn] at used
        rcases List.mem_append.1 used with before | new
        · exact before
        · have equal : keyColumnName b.name k = keyColumnName b.name column := List.mem_singleton.1 new
          have again : column.name ∈ rest.map (·.name) :=
            keyColumnName_inj.1 equal ▸ List.mem_map_of_mem mem
          exact absurd again apart

theorem keyedTarget_eq_error (h : b.keyedTarget site view r drafts = .error e) :
    Blocked site view drafts b r e := by
  unfold keyedTarget at h
  cases found : site.targetTable drafts r.target with
  | error e' =>
      rw [found] at h
      obtain rfl : e' = e := Except.error.inj h
      exact .tableless found
  | ok target =>
      rw [found] at h
      by_cases none : target.primaryKey = []
      · simp only [bind, Except.bind, none, List.isEmpty_nil, if_true] at h
        obtain rfl := Except.error.inj h
        exact .keyless target (targetTable_eq_ok_iff_known.1 found) none
      · simp [bind, Except.bind, none, pure, Except.pure] at h

/-- The first phase of one builder stops only if it has a key to make and is blocked. -/
theorem fails_createKeyColumns (distinct : drafts.names.Nodup)
    (here : site.ownerTable drafts = .ok owner) (names : owner.columnNames.Nodup)
    (columns : ∀ n t, knownTable site.generated drafts n = some t → t.columnNames.Nodup)
    (h : (createKeyColumns site view).Fails (b, drafts) e s') :
    ∃ r, b.keyFor? view = some r ∧ Blocked site view drafts b r e := by
  unfold createKeyColumns at h
  rw [Action.fails_read_bind] at h
  by_cases created : b.columnsCreated
  · simp [created] at h
  · simp only [created, Bool.false_eq_true, if_false] at h
    rcases Action.fails_bind.1 h with impossible | ⟨found, _, looked, h⟩
    · unfold look at impossible
      cases declared : view.relationship? b.name <;> simp [declared] at impossible
    · obtain ⟨declared, rfl⟩ := answers_look.1 looked
      cases found with
      | none => simp at h
      | some r =>
          by_cases hosts : r.hostsKey
          · simp only [hosts, if_true] at h
            refine ⟨r, by simp [keyFor?, created, declared, hosts], ?_⟩
            rcases Action.fails_bind.1 h with untargeted | ⟨target, _, targeted, h⟩
            · exact keyedTarget_eq_error (Action.fails_ofExcept.1 untargeted).1
            obtain ⟨ok, rfl⟩ := Action.answers_ofExcept.1 targeted
            have known := targetTable_eq_ok_iff_known.1 (keyedTarget_eq_ok.1 ok).1
            rw [List.forM_eq_forM] at h
            rcases Action.fails_bind.1 h with clash | ⟨_, _, made, h⟩
            · have keyNames : (target.primaryKey.map (·.name)).Nodup :=
                (List.filter_sublist.map _).nodup (columns _ target known)
              obtain ⟨k, mem, used, rfl⟩ := fails_addKeyColumns keyNames here clash
              exact .taken owner target k here known mem used
            · obtain ⟨_, rfl⟩ := (answers_addKeyColumns distinct here names _).1 made
              unfold addForeignKey at h
              rw [Action.fails_read_bind] at h
              simp [BuildSite.ownerTable_putOwnerTable here] at h
          · simp [hosts] at h

theorem joins_eq_error (h : b.joins site r drafts = .error e) :
    site.targetTable drafts r.target = .error e ∨ site.ownerTable drafts = .error e := by
  unfold joins at h
  split at h
  · cases found : site.targetTable drafts r.target with
    | error e' =>
        rw [found] at h
        exact .inl (congrArg _ (Except.error.inj h))
    | ok target =>
        cases here : site.ownerTable drafts with
        | error e' =>
            rw [found, here] at h
            exact .inr (congrArg _ (Except.error.inj h))
        | ok owner => simp [found, here, bind, Except.bind, pure, Except.pure] at h
  · cases h

/-- The second phase of one builder stops at its joins, or at a property of its name. -/
theorem fails_createRelation (h : (createRelation site view).Fails (b, drafts) e s') :
    ∃ r, view.relationship? b.name = some r ∧ (b.joins site r drafts = .error e ∨
      ∃ joins, (site.addProperty (.relation (b.relationOf r joins))).Fails drafts e s'.2) := by
  unfold createRelation at h
  rw [Action.fails_read_bind] at h
  rcases Action.fails_bind.1 h with impossible | ⟨found, _, looked, h⟩
  · unfold look at impossible
    cases declared : view.relationship? b.name <;> simp [declared] at impossible
  · obtain ⟨declared, rfl⟩ := answers_look.1 looked
    cases found with
    | none => simp at h
    | some r =>
        refine ⟨r, declared, ?_⟩
        rcases Action.fails_bind.1 h with unjoined | ⟨joins, _, joined, h⟩
        · exact .inl (Action.fails_ofExcept.1 unjoined).1
        · obtain ⟨_, rfl⟩ := Action.answers_ofExcept.1 joined
          obtain ⟨drafts', added, rfl⟩ := Action.fails_zoom.1 h
          exact .inr ⟨joins, added⟩

end RelationshipBuilder

namespace Builder

variable {site : BuildSite} {view : PropertyView} {b : Builder} {drafts : Roster Model} {e : Error}
  {s' : Builder × Roster Model}

/-- The first phase stops at a builder that has a side and is blocked. -/
theorem fails_step_keyColumns (distinct : drafts.names.Nodup) {owner : Table}
    (here : site.ownerTable drafts = .ok owner) (names : owner.columnNames.Nodup)
    (columns : ∀ n t, knownTable site.generated drafts n = some t → t.columnNames.Nodup)
    (h : (step .keyColumns site view).Fails (b, drafts) e s') :
    ∃ s, b.keySide? view = some s ∧ s.builder.Blocked site view drafts s.relationship e := by
  cases b with
  | field name => cases h.1
  | relationship b =>
      obtain ⟨r, wanted, blocked⟩ :=
        RelationshipBuilder.fails_createKeyColumns distinct here names columns ⟨h.1, rfl⟩
      exact ⟨⟨b, r⟩, by simp [keySide?, wanted], blocked⟩

/-- The second phase stops at a builder whose joins cannot be read off the tables, or whose name is
taken on the model. -/
theorem fails_step_properties (h : (step .properties site view).Fails (b, drafts) e s') :
    (∃ b' r, b = relationship b' ∧ view.relationship? b'.name = some r
      ∧ b'.joins site r drafts = .error e) ∨
    ∃ p : MappedProperty, p.name = b.name ∧ ∃ drafts', (site.addProperty p).Fails drafts e drafts' := by
  cases b with
  | field name => exact .inr ⟨.column name name, rfl, _, h.1, rfl⟩
  | relationship b =>
      have failed : (RelationshipBuilder.createRelation site view).Fails (b, drafts) e _ := ⟨h.1, rfl⟩
      obtain ⟨r, declared, unjoined | ⟨joins, added⟩⟩ :=
        RelationshipBuilder.fails_createRelation failed
      · exact .inl ⟨b, r, rfl, declared, unjoined⟩
      · exact .inr ⟨.relation (b.relationOf r joins), rfl, _, added⟩

end Builder

/-! ## What a step leaves alone -/

/-- What changing the table of the owner keeps of the drafts, the first phase of a builder keeps. -/
theorem RelationshipBuilder.keeps_createKeyColumns_drafts {site : BuildSite} {view : PropertyView}
    {J : Roster Model → Prop} (put : ∀ drafts t, J drafts → J (site.putOwnerTable drafts t)) :
    Action.Keeps (fun s => J s.2) (createKeyColumns site view) := by
  refine keeps_createKeyColumns_of (I := fun s => J s.2) ?_ ?_
  · intro _ _ r target _ _ k _
    refine Action.keeps_of_ends ?_ ?_
    · rintro ⟨b, drafts⟩ u s' holds h
      obtain ⟨_, _, _, rfl⟩ := answers_addKeyColumn.1 h
      exact put _ _ holds
    · rintro ⟨b, drafts⟩ e s' holds h
      exact fails_addKeyColumn h ▸ holds
  · intro r target
    refine Action.keeps_of_ends ?_ ?_
    · rintro ⟨b, drafts⟩ u s' holds h
      obtain ⟨_, _, rfl⟩ := answers_addForeignKey.1 h
      exact put _ _ holds
    · rintro ⟨b, drafts⟩ e s' holds h
      exact fails_addForeignKey h ▸ holds

/-- The drafts of all other names are the same. -/
def Elsewhere (n : String) (drafts drafts' : Roster Model) : Prop :=
  ∀ x, x ≠ n → drafts'.get? x = drafts.get? x

namespace Elsewhere

variable {n : String} {site : BuildSite} {view : PropertyView} {drafts drafts' : Roster Model}

theorem refl (n : String) (drafts : Roster Model) : Elsewhere n drafts drafts := fun _ _ => rfl

theorem trans {drafts'' : Roster Model} (h : Elsewhere n drafts drafts')
    (h' : Elsewhere n drafts' drafts'') : Elsewhere n drafts drafts'' :=
  fun x other => (h' x other).trans (h x other)

theorem modify (n : String) (drafts : Roster Model) (f : Model → Model) :
    Elsewhere n drafts (drafts.modify n f) :=
  fun _ other => Roster.get?_modify_other other f

theorem addProperty (site : BuildSite) (p : MappedProperty) (drafts : Roster Model) :
    Elsewhere site.owner drafts (site.addProperty p drafts).state := by
  rcases Action.answers_or_fails (site.addProperty p) drafts with ⟨u, s, h⟩ | ⟨e, s, h⟩
  · rw [h.2]
    obtain ⟨_, _, _, rfl⟩ := BuildSite.answers_addProperty.1 h
    exact modify site.owner drafts _
  · rw [h.2, ← BuildSite.fails_addProperty h]
    exact refl site.owner drafts

theorem createKeyColumns (b : RelationshipBuilder) (drafts : Roster Model) :
    Elsewhere site.owner drafts
      (RelationshipBuilder.createKeyColumns site view (b, drafts)).state.2 :=
  RelationshipBuilder.keeps_createKeyColumns_drafts
    (fun _ _ same => same.trans (modify site.owner _ _)) (b, drafts) (refl site.owner drafts)

/-- One phase of one builder changes the draft of the owner only. -/
theorem step (site : BuildSite) (view : PropertyView) (phase : Phase) (s : Builder × Roster Model) :
    Elsewhere site.owner s.2 (Builder.step phase site view s).state.2 := by
  obtain ⟨b, drafts⟩ := s
  cases b with
  | field name =>
      cases phase with
      | keyColumns => exact refl site.owner drafts
      | properties => exact addProperty site _ drafts
  | relationship b =>
      cases phase with
      | keyColumns => exact createKeyColumns b drafts
      | properties =>
          refine (?_ : Action.Keeps (fun s => Elsewhere site.owner drafts s.2)
            (RelationshipBuilder.createRelation site view)) (b, drafts) (refl site.owner drafts)
          unfold RelationshipBuilder.createRelation
          refine Action.keeps_read.bind ?_
          rintro ⟨b, _⟩
          refine (RelationshipBuilder.keeps_look b).bind fun found => ?_
          cases found with
          | none => exact Action.keeps_pure _
          | some r =>
              refine (Action.keeps_ofExcept _).bind fun joins => Action.keeps_zoom ?_
              exact fun s same => same.trans (addProperty site _ s.2)

end Elsewhere

/-! ## Tables that have grown -/

theorem Table.Grows.primaryKey {t t' : Table} (h : t.Grows t') : t.primaryKey <+: t'.primaryKey :=
  h.columns.filter _

theorem Table.Grows.columnNames {t t' : Table} (h : t.Grows t') :
    t.columnNames <+: t'.columnNames :=
  h.columns.map _

/-- A table that is known has grown from one that was known before. -/
theorem DraftsGrow.knownTable_before {generated drafts drafts' : Roster Model} {n : String}
    {t' : Table} (h : DraftsGrow drafts drafts')
    (known : ResourceTables.knownTable generated drafts' n = some t') :
    ∃ t, ResourceTables.knownTable generated drafts n = some t ∧ t.Grows t' := by
  obtain ⟨m', found, table'⟩ := knownTable_eq_some_iff.1 known
  rcases Roster.Evolves.get? h n with ⟨before, after⟩ | ⟨m, m₁, before, after, grows⟩
  · rw [after, Option.none_or] at found
    refine ⟨t', knownTable_eq_some_iff.2 ⟨m', ?_, table'⟩, .refl t'⟩
    rw [before, Option.none_or, found]
  · rw [after, Option.some_or, Option.some.injEq] at found
    subst found
    rw [knownTable_of_draft before]
    rcases grows.table with ⟨_, none⟩ | ⟨t, t₁, first, second, tables⟩
    · rw [table'] at none
      cases none
    · obtain rfl : t' = t₁ := Option.some.inj (table'.symm.trans second)
      exact ⟨t, first, tables⟩

/-- Drafts keep their tables. -/
theorem DraftsGrow.concrete {drafts drafts' : Roster Model} (h : DraftsGrow drafts drafts')
    (concrete : ∀ k m, drafts.get? k = some m → ∃ t, m.table = some t) {k : String} {m' : Model}
    (found : drafts'.get? k = some m') : ∃ t, m'.table = some t := by
  obtain ⟨m, before, grows⟩ := Roster.Evolves.get?_backward h found
  obtain ⟨t, table⟩ := concrete k m before
  rcases grows.table with ⟨none, _⟩ | ⟨_, t', _, table', _⟩
  · rw [table] at none
    cases none
  · exact ⟨t', table'⟩

/-! ## Members -/

namespace Descriptor

variable {site : BuildSite} {d : Descriptor} {drafts : Roster Model} {e : Error}
  {s' : Descriptor × Roster Model}

theorem fails_build {phase : Phase} (h : (build phase site).Fails (d, drafts) e s') :
    ∃ builders, (Action.onEach (Builder.step phase site d.view)).Fails (d.plan.builders, drafts) e
      (builders, s'.2) := by
  unfold build BuildPlan.run at h
  rw [Action.fails_read_bind, Action.fails_zoom] at h
  simp only [Action.fails_read_bind, Action.fails_note_bind] at h
  obtain ⟨_, ⟨failed, rfl⟩, rfl⟩ := h
  exact ⟨_, failed, rfl⟩

theorem fails_buildPrimaryKey (h : (buildPrimaryKey site).Fails (d, drafts) e s') :
    ∃ builders, (Action.onEach (Builder.primaryKeyStep site d.view)).Fails (d.plan.builders, drafts)
      e (builders, s'.2) := by
  unfold buildPrimaryKey BuildPlan.runPrimaryKey at h
  rw [Action.fails_read_bind, Action.fails_zoom] at h
  obtain ⟨_, ⟨failed, rfl⟩, rfl⟩ := h
  exact ⟨_, failed, rfl⟩

end Descriptor

/-- The drafts in the middle of the work on one member: they are linked, those of other members are as
they were, and that of the member has grown. -/
structure Inside (D : Roster Descriptor) (generated : Roster Model) (n : String)
    (drafts drafts' : Roster Model) : Prop where
  linked : Linked D generated drafts'
  grown : DraftsGrow drafts drafts'
  elsewhere : Elsewhere n drafts drafts'

namespace Inside

variable {D : Roster Descriptor} {generated drafts drafts' : Roster Model} {n : String}
  {d : Descriptor} {b : Builder}

theorem refl (linked : Linked D generated drafts) (n : String) : Inside D generated n drafts drafts :=
  ⟨linked, .refl drafts, .refl n drafts⟩

/-- A builder that makes its key leads from one such state to the next. -/
theorem step (h : Inside D generated n drafts drafts') (old : ColumnsDistinct generated)
    (found : D.get? n = some d) (member : n ∈ drafts.names) {s' : Builder × Roster Model}
    (one : (Builder.step .keyColumns { owner := n, generated } d.view).Answers (b, drafts') () s') :
    Inside D generated n drafts s'.2 := by
  have grown := (Builder.builds_step { owner := n, generated } d.view .keyColumns
    (s := (b, drafts')) h.linked.distinct).2
  have elsewhere : Elsewhere n drafts' _ :=
    Elsewhere.step { owner := n, generated } d.view .keyColumns (b, drafts')
  rw [one.2] at grown elsewhere
  have here : n ∈ drafts'.names := by
    rw [Roster.Evolves.names_eq h.grown]
    exact member
  refine ⟨(h.linked.step_keyColumns old ?_ ?_ one).1, h.grown.trans grown, h.elsewhere.trans elsewhere⟩
  · exact found
  · exact here

/-- The member has a table, in which no two columns have one name. -/
theorem ownerTable (h : Inside D generated n drafts drafts') (member : n ∈ drafts.names) :
    ∃ owner, BuildSite.ownerTable { owner := n, generated } drafts' = .ok owner
      ∧ owner.columnNames.Nodup := by
  have here : n ∈ drafts'.names := by
    rw [Roster.Evolves.names_eq h.grown]
    exact member
  obtain ⟨m, found⟩ := Roster.exists_get?_of_mem here
  exact h.linked.ownerTable found

end Inside

namespace Generation

variable {D : Roster Descriptor} {generated drafts : Roster Model} {unit names done : List String}
  {n : String} {d : Descriptor} {e : Error} {selected : Builder → Bool}
  {s₀ s s' : Roster Descriptor × Roster Model}

theorem fails_onMember {x : Action (Descriptor × Roster Model) Unit} (found : s.1.get? n = some d)
    (h : (onMember n x).Fails s e s') : ∃ d', x.Fails (d, s.2) e (d', s'.2) := by
  obtain ⟨D, drafts⟩ := s
  simp only [Action.Fails, onMember, found] at h
  exact ⟨_, h.1, by rw [← h.2]⟩

/-! ## Passes that make keys -/

/-- A pass over members that makes the keys of their selected builders. -/
structure KeyPass (selected : Builder → Bool)
    (x : BuildSite → Action (Descriptor × Roster Model) Unit)
    (step : BuildSite → PropertyView → Action (Builder × Roster Model) Unit) : Prop where
  selects : ∀ site view, Builder.Selects site view selected (step site view)
  stops : ∀ site view b drafts e s', (step site view).Fails (b, drafts) e s' →
    selected b = true ∧ (Builder.step .keyColumns site view).Fails (b, drafts) e s'
  answers : ∀ site d drafts s', (x site).Answers (d, drafts) () s' ↔
    ∃ builders drafts', (Action.onEach (step site d.view)).Answers (d.plan.builders, drafts) ()
      (builders, drafts') ∧ (d.withBuilders builders, drafts') = s'
  fails : ∀ site d drafts e s', (x site).Fails (d, drafts) e s' →
    ∃ builders, (Action.onEach (step site d.view)).Fails (d.plan.builders, drafts) e (builders, s'.2)
  works : ∀ site (s : Descriptor × Roster Model), s.2.names.Nodup →
    Worked s.1 (x site s).state.1 ∧ DraftsGrow s.2 (x site s).state.2

theorem keyPass_buildPrimaryKey :
    KeyPass (·.forcesPrimaryKey) Descriptor.buildPrimaryKey Builder.primaryKeyStep where
  selects := fun _ _ => Builder.selects_primaryKeyStep
  stops := by
    intro site view b drafts e s' h
    unfold Builder.primaryKeyStep at h
    rw [Action.fails_read_bind] at h
    by_cases forces : b.forcesPrimaryKey
    · simp only [forces, if_true, Action.fails_note_bind] at h
      exact ⟨forces, h⟩
    · simp [forces] at h
  answers := fun _ _ _ _ => Descriptor.answers_buildPrimaryKey
  fails := fun _ _ _ _ _ => Descriptor.fails_buildPrimaryKey
  works := fun site _ => Descriptor.worked_buildPrimaryKey site

theorem keyPass_build :
    KeyPass (fun _ => true) (Descriptor.build .keyColumns) (Builder.step .keyColumns) where
  selects := fun _ _ => Builder.selects_step
  stops := fun _ _ _ _ _ _ h => ⟨rfl, h⟩
  answers := fun _ _ _ _ => Descriptor.answers_build
  fails := fun _ _ _ _ _ => Descriptor.fails_build
  works := fun site _ => Descriptor.worked_build site .keyColumns

/-- A state in the middle of a pass that makes keys, by the state in which the pass began: the members
done so far have been worked on, and everything else is as it was. -/
structure Midway (D : Roster Descriptor) (generated : Roster Model)
    (s₀ : Roster Descriptor × Roster Model) (done : List String)
    (s : Roster Descriptor × Roster Model) : Prop where
  worked : Roster.Evolves (fun _ => Worked) D s.1
  linked : Linked D generated s.2
  grown : DraftsGrow s₀.2 s.2
  descriptors : ∀ k, k ∉ done → s.1.get? k = s₀.1.get? k
  drafts : ∀ k, k ∉ done → s.2.get? k = s₀.2.get? k

/-- A builder of a member is blocked in the middle of a pass. -/
structure Stopped (D : Roster Descriptor) (generated : Roster Model) (selected : Builder → Bool)
    (n : String) (d : Descriptor) (before : Roster Model) (side : KeySide) (drafts : Roster Model)
    (e : Error) (after : Roster Model) : Prop where
  built : .relationship side.builder ∈ d.plan.builders
  chosen : selected (.relationship side.builder) = true
  wanted : side.builder.keyFor? d.view = some side.relationship
  inside : Inside D generated n before drafts
  grown : DraftsGrow drafts after
  blocked : side.builder.Blocked { owner := n, generated } d.view drafts side.relationship e

namespace KeyPass

variable {x : BuildSite → Action (Descriptor × Roster Model) Unit}
  {step : BuildSite → PropertyView → Action (Builder × Roster Model) Unit}

section Steps

variable (pass : KeyPass selected x step)

include pass

/-- One builder in a pass over its member. -/
theorem inside_step (old : ColumnsDistinct generated) (found : D.get? n = some d)
    (member : n ∈ s.2.names) {b : Builder} {s' : Builder × Roster Model}
    (h : Inside D generated n s.2 drafts)
    (one : (step { owner := n, generated } d.view).Answers (b, drafts) () s') :
    Inside D generated n s.2 s'.2 := by
  rcases (pass.selects _ _ _ _ _).1 one with ⟨_, made⟩ | ⟨_, same⟩
  · exact h.step old found member made
  · exact same ▸ h

/-- A member that is done in a pass. -/
theorem next (distinct : D.names.Nodup) (old : ColumnsDistinct generated)
    (h : Midway D generated s₀ done s) (member : n ∈ s₀.2.names)
    (one : (onMember n (x { owner := n, generated })).Answers s () s') :
    Midway D generated s₀ (done ++ [n]) s' := by
  obtain ⟨D₁, drafts₁⟩ := s
  obtain ⟨d', d'', drafts₂, found', built, rfl⟩ := answers_onMember.1 one
  obtain ⟨d, found, worked⟩ := h.worked.get?_backward found'
  have here : n ∈ drafts₁.names := by
    rw [show drafts₁.names = s₀.2.names from Roster.Evolves.names_eq h.grown]
    exact member
  have names : D₁.names.Nodup := by
    rw [h.worked.names_eq]
    exact distinct
  have recorded := (pass.works { owner := n, generated } (d', drafts₁) h.linked.distinct).1
  rw [built.2] at recorded
  obtain ⟨builders, _, each, same⟩ := (pass.answers _ _ _ _).1 built
  cases same
  rw [worked.view_eq] at each
  have inside : Inside D generated n drafts₁ drafts₂ :=
    each.onEach_induction (I := fun _ drafts => Inside D generated n drafts₁ drafts)
      (.refl h.linked n) fun _ _ _ _ _ _ _ before one =>
        pass.inside_step (s := (D₁, drafts₁)) old found here before one
  refine ⟨?_, inside.linked, h.grown.trans inside.grown, fun k other => ?_, fun k other => ?_⟩
  · refine Roster.Evolves.trans (S := fun _ => Worked) (fun _ _ _ _ => Worked.trans) h.worked ?_
    refine Roster.evolves_modify (R := fun _ => Worked) (fun _ _ _ => rfl) fun a mem => ?_
    have first : D₁.get? n = some a := Roster.get?_of_mem_entries names mem
    obtain rfl : d' = a := Option.some.inj (found'.symm.trans first)
    exact recorded
  · have apart : k ≠ n := by
      rintro rfl
      simp at other
    rw [Roster.get?_modify_other apart]
    exact h.descriptors k fun mem => other (List.mem_append_left _ mem)
  · have apart : k ≠ n := by
      rintro rfl
      simp at other
    exact (inside.elsewhere k apart).trans
      (h.drafts k fun mem => other (List.mem_append_left _ mem))

/-- A member at which a pass stops has a builder that is blocked. -/
theorem stop (old : ColumnsDistinct generated) (h : Midway D generated s₀ done s)
    (known : n ∈ D.names) (member : n ∈ s₀.2.names)
    (failed : (onMember n (x { owner := n, generated })).Fails s e s') :
    ∃ d side drafts, s.1.get? n = some d ∧ Stopped D generated selected n d s.2 side drafts e s'.2 := by
  have here : n ∈ s.2.names := by
    rw [show s.2.names = s₀.2.names from Roster.Evolves.names_eq h.grown]
    exact member
  obtain ⟨d₀, found₀⟩ := Roster.exists_get?_of_mem known
  obtain ⟨d, found, worked⟩ := h.worked.get?_forward found₀
  obtain ⟨_, unbuilt⟩ := fails_onMember found failed
  obtain ⟨_, each⟩ := pass.fails _ _ _ _ _ unbuilt
  have view := worked.view_eq
  rw [view] at each
  obtain ⟨before, b, rest, drafts, b', split, inside, one⟩ := each.onEach_induction
    (I := fun _ drafts => Inside D generated n s.2 drafts) (.refl h.linked n)
    fun _ _ _ _ _ _ _ before one => pass.inside_step old found₀ here before one
  obtain ⟨chosen, made⟩ := pass.stops _ _ _ _ _ _ one
  obtain ⟨owner, table, columns⟩ := inside.ownerTable here
  obtain ⟨side, has, blocked⟩ := Builder.fails_step_keyColumns inside.linked.distinct table columns
    (fun _ _ known => old.known inside.linked.columns known) made
  obtain ⟨rfl, wanted⟩ := Builder.keySide?_eq_some_iff.1 has
  have grown := (Builder.builds_step { owner := n, generated } d₀.view .keyColumns
    (s := (.relationship side.builder, drafts)) inside.linked.distinct).2
  rw [made.2] at grown
  refine ⟨d, side, drafts, found, ?_, chosen, ?_, inside, grown, ?_⟩
  · exact split ▸ List.mem_append_right _ List.mem_cons_self
  · rw [view]
    exact wanted
  · rw [view]
    exact blocked

/-- What holds of the members done so far and the state holds at the end of a pass, or where it
stops. -/
theorem next_of (distinct : D.names.Nodup) (old : ColumnsDistinct generated)
    (members : ∀ n ∈ names, n ∈ s₀.2.names)
    {I : List String → Roster Descriptor × Roster Model → Prop}
    (next : ∀ done n rest s s', names = done ++ n :: rest → Midway D generated s₀ done s → I done s →
      (onMember n (x { owner := n, generated })).Answers s () s' → I (done ++ [n]) s')
    (done : List String) (n : String) (rest : List String) (s s' : Roster Descriptor × Roster Model)
    (split : names = done ++ n :: rest) (h : Midway D generated s₀ done s ∧ I done s)
    (one : (onMember n (x { owner := n, generated })).Answers s () s') :
    Midway D generated s₀ (done ++ [n]) s' ∧ I (done ++ [n]) s' :=
  ⟨pass.next distinct old h.1 (members n (split ▸ List.mem_append_right _ List.mem_cons_self)) one,
    next done n rest s s' split h.1 h.2 one⟩

theorem answers_induction (distinct : D.names.Nodup) (old : ColumnsDistinct generated)
    (members : ∀ n ∈ names, n ∈ s₀.2.names) (begins : Midway D generated s₀ [] s₀)
    {I : List String → Roster Descriptor × Roster Model → Prop} (start : I [] s₀)
    (next : ∀ done n rest s s', names = done ++ n :: rest → Midway D generated s₀ done s → I done s →
      (onMember n (x { owner := n, generated })).Answers s () s' → I (done ++ [n]) s') {u : Unit}
    (h : (Generation.pass generated x names).Answers s₀ u s') :
    Midway D generated s₀ names s' ∧ I names s' :=
  h.forM_induction (I := fun done s => Midway D generated s₀ done s ∧ I done s) ⟨begins, start⟩
    (pass.next_of distinct old members next)

/-- A pass stops at one member, at a builder that is blocked. -/
theorem fails_induction (distinct : D.names.Nodup) (old : ColumnsDistinct generated)
    (known : ∀ n ∈ names, n ∈ D.names) (members : ∀ n ∈ names, n ∈ s₀.2.names)
    (begins : Midway D generated s₀ [] s₀)
    {I : List String → Roster Descriptor × Roster Model → Prop} (start : I [] s₀)
    (next : ∀ done n rest s s', names = done ++ n :: rest → Midway D generated s₀ done s → I done s →
      (onMember n (x { owner := n, generated })).Answers s () s' → I (done ++ [n]) s')
    (h : (Generation.pass generated x names).Fails s₀ e s') :
    ∃ done n rest s d side drafts, names = done ++ n :: rest ∧ Midway D generated s₀ done s
      ∧ I done s ∧ s.1.get? n = some d
      ∧ Stopped D generated selected n d s.2 side drafts e s'.2 := by
  obtain ⟨done, n, rest, s, split, ⟨midway, holds⟩, failed⟩ := h.forM_induction
    (I := fun done s => Midway D generated s₀ done s ∧ I done s) ⟨begins, start⟩
    (pass.next_of distinct old members next)
  have mem : n ∈ names := split ▸ List.mem_append_right _ List.mem_cons_self
  obtain ⟨d, side, drafts, found, stopped⟩ :=
    pass.stop old midway (known n mem) (members n mem) failed
  exact ⟨done, n, rest, s, d, side, drafts, split, midway, holds, found, stopped⟩

end Steps

end KeyPass

theorem Midway.start (worked : Roster.Evolves (fun _ => Worked) D s₀.1)
    (linked : Linked D generated s₀.2) : Midway D generated s₀ [] s₀ :=
  ⟨worked, linked, .refl s₀.2, fun _ _ => rfl, fun _ _ => rfl⟩

/-- A unit that is not built stops in one of the three passes. -/
theorem fails_runPhases :
    (runPhases generated unit).Fails s e s' ↔
      (pass generated Descriptor.buildPrimaryKey (primaryKeyOrder s.1 unit)).Fails s e s' ∨
      ∃ s₁, (pass generated Descriptor.buildPrimaryKey (primaryKeyOrder s.1 unit)).Answers s () s₁ ∧
        ((pass generated (Descriptor.build .keyColumns) unit).Fails s₁ e s' ∨
          ∃ s₂, (pass generated (Descriptor.build .keyColumns) unit).Answers s₁ () s₂ ∧
            (pass generated (Descriptor.build .properties) unit).Fails s₂ e s') := by
  unfold runPhases pass
  rw [Action.fails_read_bind]
  simp only [List.forM_eq_forM, Phase.all, Action.fails_bind (x := forM _ _),
    Action.fails_forM_cons, Action.fails_forM_nil, and_false, exists_false, or_false]
  constructor
  · rintro (first | ⟨_, s₁, first, others⟩)
    · exact .inl first
    · exact .inr ⟨s₁, first, others⟩
  · rintro (first | ⟨s₁, first, others⟩)
    · exact .inl first
    · exact .inr ⟨_, s₁, first, others⟩

/-! ## The pass that makes properties -/

/-- The drafts while properties are put on one member: they have grown, and the properties of the
member are named after the builders done so far. -/
structure Mapping (n : String) (drafts : Roster Model) (done : List Builder) (drafts' : Roster Model) :
    Prop where
  grown : DraftsGrow drafts drafts'
  elsewhere : Elsewhere n drafts drafts'
  named : ∀ m, drafts'.get? n = some m → ∀ p ∈ m.properties, p.name ∈ done.map (·.name)

theorem Mapping.step {drafts' : Roster Model} {done : List Builder} {view : PropertyView}
    (distinct : drafts.names.Nodup) (h : Mapping n drafts done drafts') {b b' : Builder}
    {drafts'' : Roster Model}
    (one : (Builder.step .properties { owner := n, generated } view).Answers (b, drafts') ()
      (b', drafts'')) : Mapping n drafts (done ++ [b]) drafts'' := by
  have names : drafts'.names.Nodup := by
    rw [Roster.Evolves.names_eq h.grown]
    exact distinct
  have grown := (Builder.builds_step { owner := n, generated } view .properties
    (s := (b, drafts')) names).2
  have elsewhere : Elsewhere n drafts' _ :=
    Elsewhere.step { owner := n, generated } view .properties (b, drafts')
  rw [one.2] at grown elsewhere
  refine ⟨h.grown.trans grown, h.elsewhere.trans elsewhere, fun m found p mem => ?_⟩
  rw [List.map_append, List.mem_append]
  cases before : drafts'.get? (BuildSite.owner { owner := n, generated }) with
  | none =>
      have absent : n ∉ drafts''.names := by
        rw [Roster.Evolves.names_eq grown]
        exact Roster.get?_eq_none_iff.1 before
      exact absurd (Roster.mem_names_of_get? found) absent
  | some m₀ =>
      obtain ⟨q, made, _, skip, put⟩ :=
        (Builder.answers_step_properties before).1 one
      cases q with
      | none =>
          cases skip rfl
          exact .inl (h.named m found p mem)
      | some q =>
          cases put q rfl
          rw [Builder.get?_withProperties before, Option.some.injEq] at found
          subst found
          rcases List.mem_append.1 mem with old | new
          · exact .inl (h.named m₀ before p old)
          · obtain rfl := List.mem_singleton.1 new
            exact .inr (by simp [Builder.name_of_mapped made])

/-- A member whose properties cannot be put on stops at a target without a table. -/
theorem fails_mapMember (distinct : drafts.names.Nodup)
    (member : n ∈ drafts.names) (concrete : ∀ k m, drafts.get? k = some m → ∃ t, m.table = some t)
    (bare : ∀ m, drafts.get? n = some m → m.properties = []) (wf : d.WellFormed)
    {s' : Descriptor × Roster Model}
    (h : (Descriptor.build .properties { owner := n, generated }).Fails (d, drafts) e s') :
    ∃ x r drafts', d.relationship? x = some r ∧ DraftsGrow drafts drafts'
      ∧ BuildSite.targetTable { owner := n, generated } drafts' r.target = .error e := by
  obtain ⟨_, each⟩ := Descriptor.fails_build h
  obtain ⟨done, b, rest, drafts', b', split, mapping, one⟩ := each.onEach_induction
    (I := fun done drafts' => Mapping n drafts done drafts')
    ⟨.refl drafts, .refl n drafts, fun m found p mem => by simp [bare m found] at mem⟩
    fun _ _ _ _ _ _ _ before one => before.step distinct one
  obtain ⟨m₀, found₀⟩ := Roster.exists_get?_of_mem member
  obtain ⟨m, found, _⟩ := Roster.Evolves.get?_forward mapping.grown found₀
  rcases Builder.fails_step_properties one with ⟨b₁, r, rfl, declared, unjoined⟩ |
    ⟨p, named, _, unadded⟩
  · rw [Descriptor.view_relationship?] at declared
    refine ⟨b₁.name, r, drafts', declared, mapping.grown, ?_⟩
    refine (RelationshipBuilder.joins_eq_error unjoined).resolve_right fun missing => ?_
    obtain ⟨t, table⟩ := mapping.grown.concrete concrete found
    rw [BuildSite.ownerTable_eq_ok.2 ⟨m, found, table⟩] at missing
    cases missing
  · -- The name of the builder is new to the model, so its property is not refused.
    exfalso
    unfold BuildSite.addProperty at unadded
    rw [Action.fails_read_bind, found] at unadded
    cases taken : m.property? p.name with
    | none => simp [taken] at unadded
    | some q =>
        have mem := List.mem_of_find?_eq_some taken
        have same : q.name = p.name := by simpa using List.find?_some taken
        have again := mapping.named m found q mem
        have once : (d.plan.builders.map (·.name)).Nodup := wf.plan_distinct
        rw [split, List.map_append, List.nodup_append] at once
        rw [same, named] at again
        exact once.2.2 _ again _ (by simp) rfl

/-- A state in the middle of the pass that makes properties, by the state in which it began. -/
structure Mapped (D : Roster Descriptor) (s₀ : Roster Descriptor × Roster Model) (done : List String)
    (s : Roster Descriptor × Roster Model) : Prop where
  worked : Roster.Evolves (fun _ => Worked) D s.1
  grown : DraftsGrow s₀.2 s.2
  drafts : ∀ k, k ∉ done → s.2.get? k = s₀.2.get? k

theorem Mapped.next (distinct : D.names.Nodup) (drafts_distinct : s₀.2.names.Nodup)
    (h : Mapped D s₀ done s)
    (one : (onMember n (Descriptor.build .properties { owner := n, generated })).Answers s () s') :
    Mapped D s₀ (done ++ [n]) s' := by
  obtain ⟨D₁, drafts₁⟩ := s
  obtain ⟨d', d'', drafts₂, found', built, rfl⟩ := answers_onMember.1 one
  have names : drafts₁.names.Nodup := by
    rw [show drafts₁.names = s₀.2.names from Roster.Evolves.names_eq h.grown]
    exact drafts_distinct
  obtain ⟨recorded, grown⟩ := Descriptor.worked_build { owner := n, generated }
    (s := (d', drafts₁)) .properties names
  rw [built.2] at recorded grown
  obtain ⟨builders, _, each, same⟩ := Descriptor.answers_build.1 built
  cases same
  have elsewhere : Elsewhere n drafts₁ drafts₂ :=
    each.onEach_induction (I := fun _ drafts => Elsewhere n drafts₁ drafts) (.refl n drafts₁)
      fun _ b _ drafts _ _ _ before one => by
        have step := Elsewhere.step { owner := n, generated } d'.view .properties (b, drafts)
        rw [one.2] at step
        exact before.trans step
  refine ⟨?_, h.grown.trans grown, fun k other => ?_⟩
  · refine Roster.Evolves.trans (S := fun _ => Worked) (fun _ _ _ _ => Worked.trans) h.worked ?_
    refine Roster.evolves_modify (R := fun _ => Worked) (fun _ _ _ => rfl) fun a mem => ?_
    have first : D₁.get? n = some a :=
      Roster.get?_of_mem_entries (by rw [h.worked.names_eq]; exact distinct) mem
    obtain rfl : d' = a := Option.some.inj (found'.symm.trans first)
    exact recorded
  · have apart : k ≠ n := by
      rintro rfl
      simp at other
    exact (elsewhere k apart).trans (h.drafts k fun mem => other (List.mem_append_left _ mem))

/-- The pass that makes properties stops only at a target without a table. -/
theorem fails_propertyPass (distinct : D.names.Nodup) (once : names.Nodup)
    (wf : ∀ n d, D.get? n = some d → d.WellFormed) (known : ∀ n ∈ names, n ∈ D.names)
    (members : ∀ n ∈ names, n ∈ s₀.2.names) (worked : Roster.Evolves (fun _ => Worked) D s₀.1)
    (linked : Linked D generated s₀.2) (bare : ∀ k m, s₀.2.get? k = some m → m.properties = [])
    (h : (pass generated (Descriptor.build .properties) names).Fails s₀ e s') :
    ∃ n ∈ names, ∃ d x r drafts, D.get? n = some d ∧ d.relationship? x = some r
      ∧ DraftsGrow s₀.2 drafts
      ∧ BuildSite.targetTable { owner := n, generated } drafts r.target = .error e := by
  obtain ⟨done, n, rest, s, split, mapped, failed⟩ := h.forM_induction
    (I := fun done s => Mapped D s₀ done s) ⟨worked, .refl s₀.2, fun _ _ => rfl⟩
    fun _ _ _ _ _ _ before one => before.next distinct linked.distinct one
  have mem : n ∈ names := split ▸ List.mem_append_right _ List.mem_cons_self
  have fresh : n ∉ done := by
    intro early
    rw [split, List.nodup_append] at once
    exact once.2.2 n early n List.mem_cons_self rfl
  obtain ⟨d, found⟩ := Roster.exists_get?_of_mem (known n mem)
  obtain ⟨d', found', recorded⟩ := mapped.worked.get?_forward found
  obtain ⟨_, unbuilt⟩ := fails_onMember found' failed
  have names_eq : s.2.names = s₀.2.names := Roster.Evolves.names_eq mapped.grown
  obtain ⟨x, r, drafts, declared, grown, missing⟩ := fails_mapMember
    (by rw [names_eq]; exact linked.distinct) (by rw [names_eq]; exact members n mem)
    (fun _ _ => mapped.grown.concrete linked.concrete)
    (fun m here => bare n m ((mapped.drafts n fresh) ▸ here)) (recorded.wellFormed (wf n d found))
    unbuilt
  refine ⟨n, mem, d, x, r, drafts, found, ?_, mapped.grown.trans grown, missing⟩
  rw [← Descriptor.view_relationship?, ← recorded.view_eq, Descriptor.view_relationship?]
  exact declared

/-- Passes that make keys put no properties on the drafts. -/
theorem KeyPass.bare {x : BuildSite → Action (Descriptor × Roster Model) Unit}
    {step : BuildSite → PropertyView → Action (Builder × Roster Model) Unit}
    (pass : KeyPass selected x step) (bare : ∀ k m, s.2.get? k = some m → m.properties = [])
    (one : (onMember n (x { owner := n, generated })).Answers s () s') :
    ∀ k m, s'.2.get? k = some m → m.properties = [] := by
  obtain ⟨D₁, drafts₁⟩ := s
  obtain ⟨d', d'', drafts₂, found', built, rfl⟩ := answers_onMember.1 one
  obtain ⟨builders, _, each, same⟩ := (pass.answers _ _ _ _).1 built
  cases same
  have put : ∀ (drafts : Roster Model) (t : Table),
      (∀ k m, drafts.get? k = some m → m.properties = []) →
      ∀ k m, (BuildSite.putOwnerTable { owner := n, generated } drafts t).get? k = some m →
        m.properties = [] := by
    intro drafts t bare k m found
    rw [BuildSite.putOwnerTable, Roster.get?_modify] at found
    split at found
    · obtain ⟨m₀, before, rfl⟩ := Option.map_eq_some_iff.1 found
      exact bare k m₀ before
    · exact bare k m found
  refine each.onEach_induction
    (I := fun _ drafts => ∀ k m, drafts.get? k = some m → m.properties = []) bare ?_
  rintro _ b _ drafts b' drafts' _ before one
  rcases (pass.selects _ _ _ _ _).1 one with ⟨_, made⟩ | ⟨_, same⟩
  · cases b with
    | field name =>
        cases Builder.answers_step_keyColumns_field.1 made
        exact before
    | relationship b =>
        obtain ⟨b₁, drafts₁, made, same⟩ := Builder.answers_step_keyColumns_relationship.1 made
        cases same
        exact (RelationshipBuilder.keeps_createKeyColumns_drafts put).of_answers made before
  · cases same
    exact before

end Generation

end ResourceTables
