/-
# `ResourceTables.Proofs.Keyless` — relations without a key, however keys depend on each other

A builder whose relationship hosts no key has nothing to do in the passes that make keys, and in the
pass that makes properties no table changes any more.  So its relation joins along what the finished
tables show, also in a unit where primary keys wait for each other and no order of them is right.
-/
import ResourceTables.Proofs.Links

namespace ResourceTables

/-- The same properties under the same names. -/
def SameProperties (drafts drafts' : Roster Model) : Prop :=
  ∀ x, (drafts'.get? x).map (·.properties) = (drafts.get? x).map (·.properties)

/-! ## Builders without a key -/

section Builders

variable {site : BuildSite} {view : PropertyView} {drafts drafts₀ : Roster Model}

theorem BuildSite.sameProperties_putOwnerTable (same : SameProperties drafts₀ drafts) (t : Table) :
    SameProperties drafts₀ (site.putOwnerTable drafts t) := by
  intro x
  rw [← same x, putOwnerTable, Roster.get?_modify]
  by_cases here : x = site.owner
  · rw [if_pos here, Option.map_map]
    rfl
  · rw [if_neg here]

namespace RelationshipBuilder

variable {b : RelationshipBuilder}

/-- The first phase changes no name and no property, whether it succeeds or fails. -/
theorem keeps_name_createKeyColumns (x : String) (drafts₀ : Roster Model) :
    Action.Keeps (fun s : RelationshipBuilder × Roster Model => s.1.name = x
      ∧ SameProperties drafts₀ s.2) (createKeyColumns site view) := by
  have column : ∀ target key, Action.Keeps (fun s : RelationshipBuilder × Roster Model =>
      s.1.name = x ∧ SameProperties drafts₀ s.2) (addKeyColumn site view target key) := by
    refine fun target key => Action.keeps_of_ends ?_ ?_
    · rintro ⟨b, drafts⟩ u s' ⟨name, same⟩ h
      obtain ⟨owner, _, _, rfl⟩ := answers_addKeyColumn.1 h
      exact ⟨name, BuildSite.sameProperties_putOwnerTable same _⟩
    · rintro ⟨b, drafts⟩ e s' kept h
      exact fails_addKeyColumn h ▸ kept
  have key : ∀ r target, Action.Keeps (fun s : RelationshipBuilder × Roster Model =>
      s.1.name = x ∧ SameProperties drafts₀ s.2) (addForeignKey site view r target) := by
    refine fun r target => Action.keeps_of_ends ?_ ?_
    · rintro ⟨b, drafts⟩ u s' ⟨name, same⟩ h
      obtain ⟨owner, _, rfl⟩ := answers_addForeignKey.1 h
      exact ⟨name, BuildSite.sameProperties_putOwnerTable same _⟩
    · rintro ⟨b, drafts⟩ e s' kept h
      exact fails_addForeignKey h ▸ kept
  exact keeps_createKeyColumns_of (fun _ _ _ target _ _ k _ => column target k) key

/-- Where there is no key to host, the first phase does nothing. -/
theorem createKeyColumns_keyless {r : Relationship} (found : view.relationship? b.name = some r)
    (keyless : r.hostsKey = false) :
    (createKeyColumns site view (b, drafts)).state = (b, drafts) := by
  unfold createKeyColumns look
  rw [Action.read_bind]
  by_cases created : b.columnsCreated
  · simp [created]
  · simp [created, found, keyless, bind, Action.bind]

end RelationshipBuilder

namespace Builder

variable {b : Builder}

/-- If it stands for a relationship without a key, it has recorded no joins. -/
def Idle (view : PropertyView) (b : Builder) : Prop :=
  ∀ rb r, b = .relationship rb → view.relationship? rb.name = some r → r.hostsKey = false →
    rb.joinClauses = []

theorem idle_of_fresh (fresh : b.reset = b) : b.Idle view := by
  rintro rb r rfl _ _
  simp only [reset, relationship.injEq] at fresh
  rw [← fresh]
  rfl

/-- A step that makes keys, if anything: builders without a key stay idle, and models keep their
properties. -/
structure MakesKeys (view : PropertyView) (step : Action (Builder × Roster Model) Unit) : Prop where
  idle : ∀ b drafts, b.Idle view → (step (b, drafts)).state.1.Idle view
  properties : ∀ b drafts, SameProperties drafts (step (b, drafts)).state.2

theorem makesKeys_step (site : BuildSite) (view : PropertyView) :
    MakesKeys view (step .keyColumns site view) where
  idle := by
    intro b drafts idle
    cases b with
    | field name => exact idle
    | relationship b =>
        rintro rb r same found keyless
        have here : (RelationshipBuilder.createKeyColumns site view (b, drafts)).state.1 = rb :=
          Builder.relationship.inj same
        have name : (RelationshipBuilder.createKeyColumns site view (b, drafts)).state.1.name = b.name :=
          (RelationshipBuilder.keeps_name_createKeyColumns b.name drafts (b, drafts)
            ⟨rfl, fun _ => rfl⟩).1
        rw [← here, name] at found
        rw [RelationshipBuilder.createKeyColumns_keyless found keyless] at here
        exact here ▸ idle b r rfl found keyless
  properties := by
    intro b drafts
    cases b with
    | field name => exact fun _ => rfl
    | relationship b =>
        exact (RelationshipBuilder.keeps_name_createKeyColumns b.name drafts (b, drafts)
          ⟨rfl, fun _ => rfl⟩).2

theorem makesKeys_primaryKeyStep (site : BuildSite) (view : PropertyView) :
    MakesKeys view (primaryKeyStep site view) where
  idle := by
    intro b drafts idle
    unfold primaryKeyStep
    rw [Action.read_bind]
    by_cases forces : b.forcesPrimaryKey
    · simp only [forces, if_true]
      exact (makesKeys_step site view).idle b drafts idle
    · simp only [forces, if_false, Bool.false_eq_true]
      exact idle
  properties := by
    intro b drafts
    unfold primaryKeyStep
    rw [Action.read_bind]
    by_cases forces : b.forcesPrimaryKey
    · simp only [forces, if_true]
      exact (makesKeys_step site view).properties b drafts
    · simp only [forces, if_false, Bool.false_eq_true]
      exact fun _ => rfl

end Builder

end Builders

/-! ## Passes -/

namespace Generation

variable {D D' : Roster Descriptor} {generated drafts drafts' : Roster Model} {unit : List String}
  {n : String} {d : Descriptor} {u : Unit} {s' : Roster Descriptor × Roster Model}

/-- The builders of some resources that stand for relationships without a key are idle. -/
def AllIdle (unit : List String) (D : Roster Descriptor) : Prop :=
  ∀ n ∈ unit, ∀ d, D.get? n = some d → ∀ b ∈ d.plan.builders, b.Idle d.view

theorem AllIdle.modify (idle : AllIdle unit D) (found : D.get? n = some d) {builders : List Builder}
    (still : n ∈ unit → ∀ b ∈ builders, b.Idle d.view) :
    AllIdle unit (D.modify n fun _ => d.withBuilders builders) := by
  intro k member d' found' b mem
  rw [Roster.get?_modify] at found'
  by_cases here : k = n
  · subst here
    rw [if_pos rfl, found, Option.map_some, Option.some.injEq] at found'
    subst found'
    exact still member b mem
  · rw [if_neg here] at found'
    exact idle k member d' found' b mem

/-- A pass that makes keys leaves builders without a key idle, and models with their properties. -/
theorem idle_keyPass {x : BuildSite → Action (Descriptor × Roster Model) Unit}
    {step : BuildSite → PropertyView → Action (Builder × Roster Model) Unit}
    (builds : ∀ site d drafts s', (x site).Answers (d, drafts) () s' →
      ∃ builders drafts', (Action.onEach (step site d.view)).Answers (d.plan.builders, drafts) ()
        (builders, drafts') ∧ (d.withBuilders builders, drafts') = s')
    (makes : ∀ site view, Builder.MakesKeys view (step site view)) {names : List String}
    (idle : AllIdle unit D) (h : (pass generated x names).Answers (D, drafts) u s') :
    AllIdle unit s'.1 ∧ SameProperties drafts s'.2 := by
  refine h.forM_induction (I := fun _ s => AllIdle unit s.1 ∧ SameProperties drafts s.2)
    ⟨idle, fun _ => rfl⟩ ?_
  rintro _ n _ ⟨D₁, drafts₁⟩ s' _ ⟨idle₁, same⟩ one
  obtain ⟨d, _, _, found, built, rfl⟩ := answers_onMember.1 one
  obtain ⟨builders, drafts₂, each, ends⟩ := builds _ _ _ _ built
  cases ends
  constructor
  · refine idle₁.modify found fun member b mem => ?_
    have steps : List.Forall₂ (fun b b' : Builder => b.Idle d.view → b'.Idle d.view) d.plan.builders
        (Action.each (step { owner := n, generated } d.view) d.plan.builders drafts₁).state.1 :=
      Action.forall₂_each (fun _ => id) (fun b drafts => (makes _ _).idle b drafts) _ _
    rw [show (Action.each _ _ _).state = _ from each.2] at steps
    obtain ⟨b₀, mem₀, keeps⟩ := exists_left_of_forall₂ steps mem
    exact keeps (idle₁ n member d found b₀ mem₀)
  · refine each.onEach_induction (I := fun _ drafts' => SameProperties drafts drafts') same ?_
    rintro _ b _ drafts₁ b' drafts₂ _ same one x
    have step := (makes { owner := n, generated } d.view).properties b drafts₁ x
    rw [one.2] at step
    exact step.trans (same x)

/-- A relation as it stands for a relationship of a resource: without a key, it joins along the keys
that the target's table shows. -/
structure StandsFor (tables : String → Option Table) (n : String) (r : Relationship)
    (relation : Relation) : Prop where
  target_eq : relation.target = r.target
  backPopulates_eq : relation.backPopulates = r.inverse
  joins : r.hostsKey = false → relation.joinClauses ≠ [] →
    ∃ i own far, r.inverse = some i ∧ tables n = some own ∧ tables r.target = some far
      ∧ relation.joinClauses = RelationshipBuilder.inverseJoins own far i

/-- More tables change nothing about what a relation stands for. -/
theorem StandsFor.mono {tables tables' : String → Option Table} {r : Relationship}
    {relation : Relation} (h : StandsFor tables n r relation)
    (more : ∀ x t, tables x = some t → tables' x = some t) : StandsFor tables' n r relation := by
  refine ⟨h.target_eq, h.backPopulates_eq, fun keyless some => ?_⟩
  obtain ⟨i, own, far, inverse, here, there, joins⟩ := h.joins keyless some
  exact ⟨i, own, far, inverse, more _ _ here, more _ _ there, joins⟩

/-- Every relation stands for the relationship of its name. -/
def AllStand (D : Roster Descriptor) (generated drafts : Roster Model) : Prop :=
  ∀ n m, drafts.get? n = some m → ∀ relation, .relation relation ∈ m.properties →
    ∃ d r, D.get? n = some d ∧ d.relationship? relation.name = some r
      ∧ StandsFor (knownTable generated drafts) n r relation

theorem knownTable_congr (same : SameTables drafts drafts') (x : String) :
    knownTable generated drafts' x = knownTable generated drafts x := by
  have tables := same x
  unfold knownTable
  cases before : drafts.get? x with
  | none =>
      rw [before, Option.map_none, Option.map_eq_none_iff] at tables
      rw [tables]
  | some m =>
      rw [before] at tables
      obtain ⟨m', after, table⟩ := Option.map_eq_some_iff.1 tables
      simp [after, table]

/-- What an idle builder puts on its model stands for its relationship. -/
theorem standsFor_of_mapped {site : BuildSite} {view : PropertyView} {b : Builder}
    {relation : Relation} (idle : b.Idle view)
    (made : b.mapped site view drafts = .ok (some (.relation relation))) :
    ∃ r, view.relationship? relation.name = some r
      ∧ StandsFor (knownTable site.generated drafts) site.owner r relation := by
  obtain ⟨rb, r, joins, rfl, seen, joined, rfl⟩ := Builder.mapped_eq_relation_iff.1 made
  refine ⟨r, seen, rfl, rfl, fun keyless some => ?_⟩
  have recorded := idle rb r rfl seen keyless
  change joins ≠ [] at some
  unfold RelationshipBuilder.joins at joined
  rw [recorded] at joined
  cases inverse : r.inverse with
  | none =>
      rw [inverse, Except.ok.injEq] at joined
      exact absurd joined.symm some
  | some i =>
      rw [inverse] at joined
      cases far : site.targetTable drafts r.target with
      | error e =>
          simp only [far] at joined
          cases joined
      | ok target =>
          cases own : site.ownerTable drafts with
          | error e =>
              simp only [far, own] at joined
              cases joined
          | ok owner =>
              simp only [far, own] at joined
              obtain ⟨m, found, table⟩ := BuildSite.ownerTable_eq_ok.1 own
              exact ⟨i, owner, target, rfl, (knownTable_of_draft found).trans table,
                targetTable_eq_ok_iff_known.1 far, (Except.ok.inj joined).symm⟩

/-- The properties of a member's idle builders stand for its relationships, and others stay. -/
theorem AllStand.withProperties (site : BuildSite) (stand : AllStand D site.generated drafts)
    (found : D.get? site.owner = some d) {properties : List MappedProperty}
    (new : ∀ relation, .relation relation ∈ properties →
      ∃ r, d.relationship? relation.name = some r
        ∧ StandsFor (knownTable site.generated drafts) site.owner r relation) :
    AllStand D site.generated (Builder.withProperties site drafts properties) := by
  have same : ∀ x t, knownTable site.generated drafts x = some t →
      knownTable site.generated (Builder.withProperties site drafts properties) x = some t := by
    intro x t known
    exact (knownTable_congr (BuildSite.sameTables_addProperties site drafts properties) x).trans known
  intro k m hm relation mem
  rw [Builder.withProperties, Roster.get?_modify] at hm
  by_cases here : k = site.owner
  · rw [if_pos here] at hm
    obtain ⟨m₀, before, rfl⟩ := Option.map_eq_some_iff.1 hm
    rcases List.mem_append.1 mem with old | added
    · obtain ⟨d', r, found', named, stands⟩ := stand k m₀ before relation old
      exact ⟨d', r, found', named, stands.mono same⟩
    · obtain ⟨r, named, stands⟩ := new relation added
      exact ⟨d, r, here ▸ found, named, here ▸ stands.mono same⟩
  · rw [if_neg here] at hm
    obtain ⟨d', r, found', named, stands⟩ := stand k m hm relation mem
    exact ⟨d', r, found', named, stands.mono same⟩

/-- The pass that makes properties lets every relation stand for its relationship. -/
theorem stand_propertyPass (distinct : D.names.Nodup) (names_distinct : drafts.names.Nodup)
    (members : ∀ n ∈ unit, n ∈ drafts.names) (worked : Roster.Evolves (fun _ => Worked) D D')
    (idle : AllIdle unit D') (bare : ∀ n m, drafts.get? n = some m → m.properties = [])
    (h : (pass generated (Descriptor.build .properties) unit).Answers (D', drafts) u s') :
    AllStand D generated s'.2 := by
  have ends := h.forM_induction (I := fun _ s => s.1 = D' ∧ s.2.names = drafts.names
    ∧ AllStand D generated s.2) ?_ ?_
  · exact ends.2.2
  · refine ⟨rfl, rfl, fun n m found relation mem => ?_⟩
    rw [bare n m found] at mem
    cases mem
  · rintro done n rest ⟨D₁, drafts₁⟩ s' split ⟨rfl, names, stand⟩ one
    obtain ⟨d', _, _, found', built, rfl⟩ := answers_onMember.1 one
    obtain ⟨d, found, before⟩ := worked.get?_backward found'
    obtain ⟨builders, drafts₂, each, ends⟩ := Descriptor.answers_build.1 built
    cases ends
    have member : n ∈ unit := by simp [split]
    obtain ⟨m, hm⟩ := Roster.exists_get?_of_mem (names ▸ members n member)
    have own : drafts₁.get? ({ owner := n, generated } : BuildSite).owner = some m := hm
    obtain ⟨ps, mapped, _, same⟩ :=
      (Builder.answers_eachProperty (names ▸ names_distinct) own).1 each
    cases same
    have unchanged : D₁.modify n (fun _ => d'.withBuilders d'.plan.builders) = D₁ :=
      Roster.modify_of_get? (worked.names_eq ▸ distinct) found' rfl
    refine ⟨unchanged, (Roster.names_modify _ _ _).trans names, ?_⟩
    refine AllStand.withProperties { owner := n, generated } stand found fun relation mem => ?_
    obtain ⟨b, inside, made⟩ := exists_left_of_forall₂ mapped (List.reduceOption_mem_iff.1 mem)
    obtain ⟨r, named, stands⟩ := standsFor_of_mapped (idle n member d' found' b inside) made
    rw [before.view_eq, Descriptor.view_relationship?] at named
    exact ⟨r, named, stands⟩

/-- What a unit has come to before the pass that makes properties: builders have recorded keys, and the
models have the properties that they started with. -/
structure Prepared (unit : List String) (D : Roster Descriptor) (start : Roster Model)
    (D' : Roster Descriptor) (drafts : Roster Model) : Prop where
  worked : Roster.Evolves (fun _ => Worked) D D'
  names_eq : drafts.names = start.names
  idle : AllIdle unit D'
  same : SameProperties start drafts

theorem Prepared.bare {start : Roster Model} (prepared : Prepared unit D start D' drafts)
    (bare : ∀ n m, start.get? n = some m → m.properties = []) {m : Model}
    (found : drafts.get? n = some m) : m.properties = [] := by
  have same := prepared.same n
  rw [found, Option.map_some] at same
  obtain ⟨m₀, before, here⟩ := Option.map_eq_some_iff.1 same.symm
  rw [← here, bare n m₀ before]

/-- A unit that is built from fresh builders makes its keys first, and its properties last. -/
theorem exists_prepared {start : Roster Model} (distinct : D.names.Nodup)
    (names : start.names = unit) (unit_distinct : unit.Nodup)
    (fresh : ∀ n ∈ unit, ∀ d, D.get? n = some d → d.Fresh)
    (h : (runPhases generated unit).Answers (D, start) u s') :
    ∃ D' drafts, Prepared unit D start D' drafts
      ∧ (pass generated (Descriptor.build .properties) unit).Answers (D', drafts) u s' := by
  obtain ⟨⟨D₁, drafts₁⟩, ⟨D₂, drafts₂⟩, first, keys, properties⟩ := answers_runPhases.1 h
  have idle : AllIdle unit D := fun n member d found b mem =>
    Builder.idle_of_fresh (fresh n member d found b mem)
  obtain ⟨idle₁, same₁⟩ := idle_keyPass (fun _ _ _ _ => Descriptor.answers_buildPrimaryKey.1)
    Builder.makesKeys_primaryKeyStep idle first
  obtain ⟨idle₂, same₂⟩ := idle_keyPass (fun _ _ _ _ => Descriptor.answers_build.1)
    Builder.makesKeys_step idle₁ keys
  have start_distinct : start.names.Nodup := names ▸ unit_distinct
  have worked₁ : UnitWorked unit (D, start) (D₁, drafts₁) :=
    (Action.keeps_forM fun n mem => keeps_onMember distinct start_distinct
      (mem_primaryKeyOrder.1 mem).1 fun s names => Descriptor.worked_buildPrimaryKey _ names).of_answers
        first (.refl _)
  have worked₂ : UnitWorked unit (D, start) (D₂, drafts₂) :=
    (Action.keeps_forM fun n mem => keeps_onMember distinct start_distinct mem
      fun s names => Descriptor.worked_build _ .keyColumns names).of_answers keys worked₁
  refine ⟨D₂, drafts₂, ⟨?_, ?_, idle₂, fun n => (same₂ n).trans (same₁ n)⟩, properties⟩
  · exact Roster.Evolves.imp (fun _ _ _ => And.left) worked₂.1
  · exact Roster.Evolves.names_eq worked₂.2

/-- In a unit that is built from fresh builders, every relation stands for the relationship of its
name. -/
theorem stand_runPhases {start : Roster Model} (distinct : D.names.Nodup)
    (names : start.names = unit) (unit_distinct : unit.Nodup)
    (fresh : ∀ n ∈ unit, ∀ d, D.get? n = some d → d.Fresh)
    (bare : ∀ n m, start.get? n = some m → m.properties = [])
    (h : (runPhases generated unit).Answers (D, start) u s') : AllStand D generated s'.2 := by
  obtain ⟨D', drafts, prepared, properties⟩ := exists_prepared distinct names unit_distinct fresh h
  have members : drafts.names = unit := prepared.names_eq.trans names
  exact stand_propertyPass distinct (members ▸ unit_distinct) (fun n member => members ▸ member)
    prepared.worked prepared.idle (fun n m found => prepared.bare bare found) properties

end Generation

end ResourceTables
