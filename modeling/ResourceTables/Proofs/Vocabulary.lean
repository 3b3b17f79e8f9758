/-
# `ResourceTables.Proofs.Vocabulary` — where the names come from

Names of properties and columns come in by a few ways only: they are declared, they are set for the
primary key, they complete a one-to-many under its inverse or under its owner's name in snake case, and
key columns join the name of a relationship with that of a column.  Whatever holds of all of these, in
every history, holds of every name that a descriptor or a model has.
-/
import ResourceTables.Proofs.Orderly
import ResourceTables.Proofs.Permanence
import ResourceTables.Proofs.Precedence

namespace ResourceTables

variable {P : String → Prop}

/-- With two words, the name of a key column that joins them is a word. -/
def Vocabulary (P : String → Prop) : Prop :=
  ∀ x (k : Column), P x → P k.name → P (RelationshipBuilder.keyColumnName x k)

/-- Where a one-to-many leads to, the other side has a word for a name: the inverse, or the name of the
owner in snake case, if no inverse is given or the owner has inherited it. -/
structure Relationship.Worded (P : String → Prop) (owner : String) (inherited : Bool)
    (r : Relationship) : Prop where
  inverse : r.kind = .oneToMany → ∀ i, r.inverse = some i → P i
  default : r.kind = .oneToMany → inherited = true ∨ r.inverse = none → P (Naming.snakeCase owner)

/-- The names in a declaration are words. -/
structure Resource.Worded (P : String → Prop) (r : Resource) : Prop where
  names : ∀ p ∈ r.properties, P p.name
  inverses : ∀ p ∈ r.properties, ∀ s, p.property = .relationship s → s.kind = .oneToMany →
    ∀ i, s.inverse = some i → P i
  /-- A one-to-many may be declared or inherited. -/
  default : (r.parent ≠ none ∨ ∃ p ∈ r.properties, ∃ s, p.property = .relationship s
    ∧ s.kind = .oneToMany ∧ s.inverse = none) → P (Naming.snakeCase r.name)

/-- The names in the descriptor of the resource `n` are words, and so are those that binding takes from
its one-to-manys. -/
structure Descriptor.Worded (P : String → Prop) (n : String) (d : Descriptor) : Prop where
  fields : ∀ e ∈ d.fields, P e.name
  relationships : ∀ e ∈ d.relationships, P e.name
  sides : ∀ e ∈ d.relationships, e.relationship.Worded P n (e.declaredBy != n)

/-- The names of a model are words: those of its columns, of its properties, and of the columns that
its properties stand for. -/
structure Model.Worded (P : String → Prop) (m : Model) : Prop where
  table : ∀ t, m.table = some t → ∀ c ∈ t.columns, P c.name
  mixin : ∀ c ∈ m.mixinColumns, P c.name
  properties : ∀ p ∈ m.properties, P p.name
  mapped : ∀ x c, .column x c ∈ m.properties → P c

/-- All names are words. -/
structure Workspace.Worded (P : String → Prop) (w : Workspace) : Prop where
  descriptors : ∀ n d, w.descriptors.get? n = some d → d.Worded P n
  models : ∀ n m, w.models.get? n = some m → m.Worded P

/-! ## Descriptors -/

namespace Descriptor

variable {n : String} {d d' : Descriptor}

theorem Worded.congr (h : d.Worded P n) (fields : d'.fields = d.fields)
    (relationships : d'.relationships = d.relationships) : d'.Worded P n := by
  refine ⟨?_, ?_, ?_⟩
  · rw [fields]
    exact h.fields
  · rw [relationships]
    exact h.relationships
  · rw [relationships]
    exact h.sides

theorem worded_ofResource (r : Resource) : (ofResource r).Worded P n := by
  refine ⟨?_, ?_, ?_⟩ <;> simp [ofResource]

/-- Properties under worded names are entered among such. -/
theorem Worded.entered (h : d.Worded P n) (wf : d.WellFormed) {p : CollectedProperty}
    (name : P p.name) (side : ∀ s, p.property = .relationship s → s.Worded P n (p.declaredBy != n)) :
    (d.entered p).Worded P n := by
  cases property : p.property with
  | field f =>
      have fields : (d.entered p).fields = putFirst (·.name == p.name)
          { name := p.name, field := f, declaredBy := p.declaredBy } d.fields := by
        simp only [Descriptor.entered, put, property]
      have relationships : (d.entered p).relationships
          = d.relationships.filter (·.name != p.name) := by
        simp only [Descriptor.entered, put, property]
      refine ⟨fun e mem => ?_, fun e mem => ?_, fun e mem => ?_⟩
      · rcases (mem_putFirst wf.fields_distinct).1 (fields ▸ mem) with rfl | ⟨old, _⟩
        · exact name
        · exact h.fields e old
      · exact h.relationships e (List.mem_filter.1 (relationships ▸ mem)).1
      · exact h.sides e (List.mem_filter.1 (relationships ▸ mem)).1
  | relationship s =>
      have fields : (d.entered p).fields = d.fields.filter (·.name != p.name) := by
        simp only [Descriptor.entered, put, property]
      have relationships : (d.entered p).relationships = putFirst (·.name == p.name)
          { name := p.name, relationship := s, declaredBy := p.declaredBy } d.relationships := by
        simp only [Descriptor.entered, put, property]
      refine ⟨fun e mem => ?_, fun e mem => ?_, fun e mem => ?_⟩
      · exact h.fields e (List.mem_filter.1 (fields ▸ mem)).1
      · rcases (mem_putFirst wf.relationships_distinct).1 (relationships ▸ mem) with rfl | ⟨old, _⟩
        · exact name
        · exact h.relationships e old
      · rcases (mem_putFirst wf.relationships_distinct).1 (relationships ▸ mem) with rfl | ⟨old, _⟩
        · exact side s property
        · exact h.sides e old

theorem keeps_worded_register {p : CollectedProperty} (name : P p.name)
    (side : ∀ s, p.property = .relationship s → s.Worded P n (p.declaredBy != n)) :
    Action.Keeps (fun d => d.WellFormed ∧ d.Worded P n) (register p) := by
  rintro d ⟨wf, h⟩
  rcases register_state wf p with same | changed
  · rw [same]
    exact ⟨wf, h⟩
  · rw [changed]
    exact ⟨wf.entered p, h.entered wf name side⟩

theorem keeps_worded_prependField {x : String} (name : P x) (f : Field) :
    Action.Keeps (Worded P n) (prependField x f) := by
  intro d h
  rcases prependField_state d x f with same | ⟨_, changed⟩
  · rw [same]
    exact h
  · rw [changed]
    exact ⟨List.forall_mem_cons.2 ⟨name, h.fields⟩, h.relationships, h.sides⟩

end Descriptor

/-! ## Binding -/

namespace Binding

variable {resources : Roster Resource} {models : Roster Model} {D D' : Roster Descriptor}
  {n : String} {d : Descriptor} {side : ManySide} {unit : List String}

/-- The names in some descriptors are words. -/
def AllWorded (P : String → Prop) (D : Roster Descriptor) : Prop :=
  ∀ n d, D.get? n = some d → d.Worded P n

theorem AllWorded.modify (h : AllWorded P D) {f : Descriptor → Descriptor}
    (one : ∀ d, D.get? n = some d → (f d).Worded P n) : AllWorded P (D.modify n f) := by
  intro k d' found
  rw [Roster.get?_modify] at found
  by_cases here : k = n
  · subst here
    rw [if_pos rfl] at found
    obtain ⟨d, before, rfl⟩ := Option.map_eq_some_iff.1 found
    exact one d before
  · rw [if_neg here] at found
    exact h k d' found

/-- Looking targets up changes no name. -/
theorem keeps_worded_lookUpTargets (n : String) :
    Action.Keeps (AllWorded P) (lookUpTargets resources n) := by
  intro D h
  rw [lookUpTargets_eq]
  unfold within
  cases found : D.get? n with
  | none => exact h
  | some d =>
      refine h.modify fun d' found' => ?_
      rw [found, Option.some.injEq] at found'
      subst found'
      have marked : List.Forall₂ Marked d.relationships (lookUpAll resources n d).state.relationships :=
        Action.forall₂_each Marked.refl marked_lookUpOne d.relationships ()
      have worded := h n d found
      refine ⟨worded.fields, fun e mem => ?_, fun e mem => ?_⟩
      · obtain ⟨e₀, mem₀, _, rfl⟩ := exists_left_of_forall₂ marked mem
        exact worded.relationships e₀ mem₀
      · obtain ⟨e₀, mem₀, _, rfl⟩ := exists_left_of_forall₂ marked mem
        exact worded.sides e₀ mem₀

/-- What a side is completed under is a word. -/
def ManySide.Worded (P : String → Prop) (side : ManySide) : Prop :=
  (side.inherited = true ∨ side.inverse = none → P (Naming.snakeCase side.owner))
    ∧ ∀ i, side.inverse = some i → P i

theorem worded_of_mem_manySides (h : AllWorded P D) (mem : side ∈ manySides D unit) :
    ManySide.Worded P side := by
  obtain ⟨n, _, d, found, inside⟩ := mem_manySides.1 mem
  obtain ⟨e, entry, many, rfl⟩ := mem_manySidesOf.1 inside
  have worded := (h n d found).sides e entry
  exact ⟨worded.default many, worded.inverse many⟩

theorem ManySide.Worded.inverseName (h : ManySide.Worded P side) (D : Roster Descriptor) :
    P (Binding.inverseName D side) := by
  unfold Binding.inverseName
  cases inverse : side.inverse with
  | none => exact h.1 (.inr inverse)
  | some i =>
      change P (if !side.inherited || pointsBack D side i then i else Naming.snakeCase side.owner)
      by_cases keep : (!side.inherited || pointsBack D side i) = true
      · rw [if_pos keep]
        exact h.2 i inverse
      · rw [if_neg keep]
        simp only [Bool.or_eq_true, Bool.not_eq_true', not_or, Bool.not_eq_false] at keep
        exact h.1 (.inl keep.1)

/-- A settled side and its completion are under words. -/
theorem keeps_worded_completeSide (worded : ManySide.Worded P side) :
    Action.Keeps (AllWorded P) (completeSide resources models side) := by
  have settles : ∀ D, AllWorded P D → AllWorded P (settledIn D side (inverseName D side)) := by
    intro D h
    refine h.modify fun d found => ?_
    have before := h side.owner d found
    refine ⟨before.fields, fun e mem => ?_, fun e mem => ?_⟩
    · rcases mem_changeFirst mem with old | ⟨e₀, old, rfl⟩
      · exact before.relationships e old
      · exact before.relationships e₀ old
    · rcases mem_changeFirst mem with old | ⟨e₀, old, rfl⟩
      · exact before.sides e old
      · refine ⟨fun many i same => ?_, fun many open_ => (before.sides e₀ old).default many ?_⟩
        · cases same
          exact worded.inverseName D
        · exact .inl (open_.resolve_right (by simp))
  refine Action.keeps_of_ends ?_ ?_
  · intro D u D' h done
    obtain ⟨t, there, ⟨_, rfl⟩ | ⟨_, _, _, owner, _, rfl⟩⟩ := answers_completeSide.1 done
    · exact settles D h
    · refine (settles D h).modify fun _ _ => ?_
      have before := settles D h side.target t there
      refine ⟨before.fields, fun e mem => ?_, fun e mem => ?_⟩
      · rcases List.mem_append.1 mem with old | new
        · exact before.relationships e old
        · rw [List.mem_singleton.1 new]
          exact worded.inverseName D
      · rcases List.mem_append.1 mem with old | new
        · exact before.sides e old
        · -- What completes a side is no one-to-many itself.
          rw [List.mem_singleton.1 new]
          exact ⟨fun many => (by cases many), fun many => (by cases many)⟩
  · intro D e D' h failed
    exact fails_completeSide failed ▸ settles D h

theorem keeps_worded_bind (root : String) :
    Action.Keeps (AllWorded P) (bind resources models root) :=
  keeps_bind keeps_worded_lookUpTargets
    (fun _ _ h _ mem => keeps_worded_completeSide (worded_of_mem_manySides h mem)) root

end Binding

/-! ## Building -/

section Building

variable {site : BuildSite} {view : PropertyView} {drafts : Roster Model}

/-- The names in some models are words. -/
def ModelsWorded (P : String → Prop) (models : Roster Model) : Prop :=
  ∀ n m, models.get? n = some m → m.Worded P

theorem ModelsWorded.modify {n : String} (h : ModelsWorded P drafts) {f : Model → Model}
    (one : ∀ m, m.Worded P → (f m).Worded P) : ModelsWorded P (drafts.modify n f) := by
  intro k m' found
  rw [Roster.get?_modify] at found
  by_cases here : k = n
  · rw [if_pos here] at found
    obtain ⟨m, before, rfl⟩ := Option.map_eq_some_iff.1 found
    exact one m (h k m before)
  · rw [if_neg here] at found
    exact h k m' found

theorem BuildSite.worded_putOwnerTable (h : ModelsWorded P drafts) {t : Table}
    (columns : ∀ c ∈ t.columns, P c.name) : ModelsWorded P (site.putOwnerTable drafts t) :=
  h.modify fun _ worded => ⟨fun t' same => by
    cases same
    exact columns, worded.mixin, worded.properties, worded.mapped⟩

theorem BuildSite.worded_ownerTable (h : ModelsWorded P drafts) {t : Table}
    (here : site.ownerTable drafts = .ok t) : ∀ c ∈ t.columns, P c.name := by
  obtain ⟨m, found, table⟩ := ownerTable_eq_ok.1 here
  exact (h _ m found).table t table

theorem BuildSite.worded_targetTable (h : ModelsWorded P drafts) (old : ModelsWorded P site.generated)
    {target : String} {t : Table} (there : site.targetTable drafts target = .ok t) :
    ∀ c ∈ t.columns, P c.name := by
  obtain ⟨m, found, table⟩ := targetTable_eq_ok.1 there
  rcases Option.or_eq_some_iff.1 found with own | ⟨_, cached⟩
  · exact (h _ m own).table t table
  · exact (old _ m cached).table t table

theorem BuildSite.worded_addProperty (h : ModelsWorded P drafts) {property : MappedProperty}
    (name : P property.name) (mapped : ∀ x c, property = .column x c → P c) :
    ModelsWorded P (site.addProperty property drafts).state := by
  rcases Action.answers_or_fails (site.addProperty property) drafts with ⟨u, s, ends⟩ | ⟨e, s, ends⟩
  · rw [ends.2]
    obtain ⟨_, _, _, rfl⟩ := answers_addProperty.1 ends
    refine h.modify fun m worded => ⟨worded.table, worded.mixin, fun p mem => ?_, fun x c mem => ?_⟩
    · rcases List.mem_append.1 mem with before | new
      · exact worded.properties p before
      · rw [List.mem_singleton.1 new]
        exact name
    · rcases List.mem_append.1 mem with before | new
      · exact worded.mapped x c before
      · exact mapped x c (List.mem_singleton.1 new).symm
  · rw [ends.2, ← fails_addProperty ends]
    exact h

variable (vocabulary : Vocabulary P)

include vocabulary in
/-- Key columns are under words: their names join that of the relationship with that of a column. -/
theorem RelationshipBuilder.keeps_worded_createKeyColumns (old : ModelsWorded P site.generated) :
    Action.Keeps (fun s : RelationshipBuilder × Roster Model => P s.1.name ∧ ModelsWorded P s.2)
      (createKeyColumns site view) := by
  refine keeps_createKeyColumns_of ?_ ?_
  · rintro _ drafts₀ r target ⟨_, worded₀⟩ targeted key mem
    have named := BuildSite.worded_targetTable worded₀ old (keyedTarget_eq_ok.1 targeted).1
    refine Action.keeps_of_ends ?_ ?_
    · rintro ⟨b, drafts⟩ u s' ⟨name, worded⟩ h
      obtain ⟨owner, here, _, rfl⟩ := answers_addKeyColumn.1 h
      refine ⟨name, BuildSite.worded_putOwnerTable worded fun c inside => ?_⟩
      rcases List.mem_append.1 inside with before | new
      · exact BuildSite.worded_ownerTable worded here c before
      · rw [List.mem_singleton.1 new]
        exact vocabulary _ key name (named key (List.mem_filter.1 mem).1)
    · rintro ⟨b, drafts⟩ e s' kept h
      exact fails_addKeyColumn h ▸ kept
  · refine fun r target => Action.keeps_of_ends ?_ ?_
    · rintro ⟨b, drafts⟩ u s' ⟨name, worded⟩ h
      obtain ⟨owner, here, rfl⟩ := answers_addForeignKey.1 h
      exact ⟨name, BuildSite.worded_putOwnerTable worded fun c inside =>
        BuildSite.worded_ownerTable worded here c inside⟩
    · rintro ⟨b, drafts⟩ e s' kept h
      exact fails_addForeignKey h ▸ kept

theorem RelationshipBuilder.keeps_worded_createRelation :
    Action.Keeps (fun s : RelationshipBuilder × Roster Model => P s.1.name ∧ ModelsWorded P s.2)
      (createRelation site view) := by
  rintro ⟨b, drafts⟩ ⟨name, worded⟩
  unfold createRelation
  rw [Action.read_bind]
  refine (?_ : Action.Keeps (fun s : RelationshipBuilder × Roster Model =>
    P s.1.name ∧ ModelsWorded P s.2) _) (b, drafts) ⟨name, worded⟩
  refine (keeps_look b).bind fun found => ?_
  cases found with
  | none => exact Action.keeps_pure _
  | some r =>
      refine (Action.keeps_ofExcept _).bind fun joins => Action.keeps_zoom ?_
      exact fun s kept => ⟨kept.1, BuildSite.worded_addProperty kept.2 name fun _ _ same => by cases same⟩

include vocabulary in
/-- Every step of a builder whose name is a word keeps the names in the drafts words. -/
theorem Builder.worded_step (phase : Phase) (old : ModelsWorded P site.generated) {b : Builder}
    (name : P b.name) (h : ModelsWorded P drafts) :
    ModelsWorded P (step phase site view (b, drafts)).state.2 := by
  cases b with
  | field x =>
      cases phase with
      | keyColumns => exact h
      | properties =>
          refine BuildSite.worded_addProperty h name fun _ _ same => ?_
          cases same
          exact name
  | relationship b =>
      cases phase with
      | keyColumns =>
          exact (RelationshipBuilder.keeps_worded_createKeyColumns vocabulary old (b, drafts)
            ⟨name, h⟩).2
      | properties => exact (RelationshipBuilder.keeps_worded_createRelation (b, drafts) ⟨name, h⟩).2

end Building

/-! ## Generations -/

namespace Generation

variable {ctx : GenerationContext} {w w' : Workspace} {unit : List String} {name : String}
  {D' D₁ : Roster Descriptor} {start finished : Roster Model} {r : Resource} {d : Descriptor}

theorem fieldColumns_worded {n : String} (h : d.Worded P n) : ∀ c ∈ fieldColumns d, P c.name := by
  rintro _ mem
  obtain ⟨e, inside, rfl⟩ := List.mem_map.1 mem
  exact h.fields e inside

/-- Drafts have the columns of worded fields, and no properties yet. -/
theorem worded_drafts (distinct : unit.Nodup) (h : Binding.AllWorded P w.descriptors)
    (drafted : drafts ctx w.descriptors unit = .ok start) : ModelsWorded P start := by
  intro n m found
  obtain ⟨r, d, _, hd, _, rfl⟩ := exists_startModel drafted distinct found
  refine ⟨fun t same => ?_, fun c mem => (by cases mem), fun p mem => (by cases mem),
    fun x c mem => (by cases mem)⟩
  cases same
  exact fieldColumns_worded (h n d hd)

variable (vocabulary : Vocabulary P)

include vocabulary in
/-- Compiling a unit keeps all names words. -/
theorem worded_compiled (sound : Sound ctx.resources { w with descriptors := D' })
    (built : BuiltUnit ctx w w' unit D' start finished D₁)
    (h : Workspace.Worded P { w with descriptors := D' }) : w'.Worded P := by
  constructor
  · intro n d' found'
    obtain ⟨d, found, fields, relationships⟩ := built.compiled.declares.get?_backward found'
    exact (h.descriptors n d found).congr fields relationships
  · have made : ModelsWorded P finished := by
      refine drafts_runPhases (C := P) (fun phase site view b drafts same name worded => ?_)
        sound.descriptors_distinct (fun n _ d found y mem => ?_) built.compiled.built
        (names_drafts built.compiled.drafted ▸ built.distinct)
        (worded_drafts built.distinct h.descriptors built.compiled.drafted)
      · refine Builder.worded_step vocabulary phase ?_ name worded
        rw [same]
        exact h.models
      · have worded := h.descriptors n d found
        rcases (sound.allWellFormed n d found).mem_plan_names.1 mem with field | relationship
        · obtain ⟨e, inside, rfl⟩ := List.mem_map.1 field
          exact worded.fields e inside
        · obtain ⟨e, inside, rfl⟩ := List.mem_map.1 relationship
          exact worded.relationships e inside
    intro n m found
    rw [built.compiled.get?_models] at found
    rcases Option.or_eq_some_iff.1 found with old | ⟨_, new⟩
    · exact h.models n m old
    · exact made n m new

theorem worded_stored (uncached : w.models.get? name = none)
    (found : w.descriptors.get? name = some d) (h : w.Worded P) :
    (stored w name (abstractModel ctx r d name)).Worded P := by
  constructor
  · exact Binding.AllWorded.modify h.descriptors fun d' found' => (h.descriptors _ d' found').congr rfl rfl
  · intro n m cached
    rcases (get?_models_stored uncached).1 cached with old | ⟨_, rfl⟩
    · exact h.models n m old
    · have worded := h.descriptors name d found
      refine ⟨fun t same => (by cases same), fieldColumns_worded worded, fun p mem => ?_,
        fun x c mem => ?_⟩
      · obtain ⟨e, inside, rfl⟩ := List.mem_map.1 mem
        exact worded.fields e inside
      · obtain ⟨e, inside, same⟩ := List.mem_map.1 mem
        cases same
        exact worded.fields e inside

include vocabulary in
theorem kept_worded : Kept ctx (Workspace.Worded P) where
  bound := fun _ _ h => ⟨Binding.keeps_worded_bind _ _ h.descriptors, h.models⟩
  compiled := by
    intro w w' unit D' start finished D₁ sound built _ h
    obtain ⟨members, steps, _⟩ := built.steps sound
    exact worded_compiled vocabulary (sound.bound steps) built h
  stored := fun _ uncached _ _ found h => worded_stored uncached found h

end Generation

/-! ## Requests -/

/-- The names in declarations are words, unless the declaration is refused because the name of the
resource or of a property is no identifier. -/
def Request.Worded (P : String → Prop) : Request → Prop
  | .declare resource => Compiler.checkNames resource = .ok () → resource.Worded P
  | .configure _ => False
  | .edit .. => False
  | _ => True

namespace Compiler

variable {c : Compiler} {resource : Resource} {d : Descriptor}

theorem checkNames_eq_ok :
    checkNames resource = .ok () ↔ Naming.isIdentifier resource.name = true
      ∧ ∀ p ∈ resource.properties, Naming.isIdentifier p.name = true := by
  have check : ∀ kind name, Naming.checkIdentifier kind name = .ok () ↔
      Naming.isIdentifier name = true := by
    intro kind name
    unfold Naming.checkIdentifier
    by_cases ok : Naming.isIdentifier name <;> simp [ok]
  have each : resource.properties.forM (fun p => Naming.checkIdentifier "property" p.name) = .ok ()
      ↔ ∀ p ∈ resource.properties, Naming.checkIdentifier "property" p.name = .ok () :=
    Binding.forM_eq_ok
  simp only [check] at each
  unfold checkNames
  cases first : Naming.checkIdentifier "resource" resource.name with
  | error e =>
      have wrong : ¬ Naming.isIdentifier resource.name = true := by
        rw [← check "resource", first]
        simp
      simp [bind, Except.bind, wrong]
  | ok _ => simpa [bind, Except.bind, (check _ _).1 first] using each

/-- A descriptor is filled under words. -/
theorem worded_fill (builtIn : ∀ k ∈ c.configurators, k = .primaryKey)
    (key : c.configurators ≠ [] → P c.settings.primaryKeyColumn)
    (named : ∀ n r, c.resources.get? n = some r → r.name = n)
    (declared : ∀ n r, c.resources.get? n = some r → r.Worded P) (worded : resource.Worded P)
    (filled : (c.fill resource).Answers (.ofResource resource) () d) : d.Worded P resource.name := by
  obtain ⟨chain, methods, d₁, ancestors, _, entered, configured⟩ := answers_fill.1 filled
  have each : ∀ p ∈ Ancestry.inherited chain ++ Ancestry.own resource, P p.name
      ∧ ∀ s, p.property = .relationship s →
        s.Worded P resource.name (p.declaredBy != resource.name) := by
    intro p mem
    rcases List.mem_append.1 mem with far | near
    · obtain ⟨k, inside, q, made, rfl⟩ := Ancestry.mem_inherited.1 far
      have above := declared k.name k ((Ancestry.chainFrom_eq_ok named ancestors).1 k inside).1
      refine ⟨above.names q made, fun s same => ⟨above.inverses q made s same, fun _ _ => ?_⟩⟩
      refine worded.default (.inl fun none => ?_)
      -- Without a parent there is nobody to inherit from.
      rw [Ancestry.ancestors, none, Ancestry.chainFrom] at ancestors
      cases ancestors
      cases inside
    · obtain ⟨q, made, rfl⟩ := Ancestry.mem_own.1 near
      refine ⟨worded.names q made, fun s same => ⟨worded.inverses q made s same,
        fun many open_ => worded.default (.inr ⟨q, made, s, same, many, ?_⟩)⟩⟩
      exact open_.resolve_left (by simp [Ancestry.collected])
  have collected : d₁.WellFormed ∧ d₁.Worded P resource.name :=
    (Action.keeps_forM fun p mem =>
      Descriptor.keeps_worded_register (each p mem).1 (each p mem).2).of_answers entered
        ⟨(Descriptor.pristine_ofResource resource).wellFormed, Descriptor.worded_ofResource resource⟩
  have configure : Action.Keeps (Descriptor.Worded P resource.name)
      (Configurator.applyAll c.settings c.configurators) := by
    refine keeps_applyAll fun k mem => ?_
    rw [builtIn k mem]
    exact Configurator.keeps_addPrimaryKey fun f => Descriptor.keeps_worded_prependField
      (key (List.ne_nil_of_mem mem)) f
  exact configure.of_answers configured (collected.2.congr rfl rfl)

/-- A compiler with the built-in configurator at most, in which all names are words. -/
structure Worded (P : String → Prop) (c : Compiler) : Prop where
  builtIn : ∀ k ∈ c.configurators, k = .primaryKey
  key : c.configurators ≠ [] → P c.settings.primaryKeyColumn
  declared : ∀ n r, c.resources.get? n = some r → r.Worded P
  workspace : c.workspace.Worded P

theorem worded_new {settings : Settings}
    (key : settings.autoPrimaryKey = true → P settings.primaryKeyColumn) :
    (new settings).Worded P := by
  refine ⟨(inOrder_new settings).builtIn, fun some => key ?_, fun n r found => (by cases found),
    fun n d found => (by cases found), fun n m found => (by cases found)⟩
  by_contra manual
  simp [new, manual] at some

theorem declared_after {request : Request} (named : request.Worded P)
    (h : ∀ n r, c.resources.get? n = some r → r.Worded P) :
    ∀ n r, (c.after request).resources.get? n = some r → r.Worded P := by
  intro n r found
  rcases resources_after c request with same | ⟨resource, rfl, names, changed⟩
  · exact h n r (same ▸ found)
  · rw [changed, Roster.get?_insert] at found
    by_cases here : n = resource.name
    · rw [if_pos here, Option.some.injEq] at found
      exact found ▸ named names
    · rw [if_neg here] at found
      exact h n r found

/-- A declaration under words registers a descriptor under words. -/
theorem worded_registered (coherent : c.Coherent) (h : c.Worded P) (worded : resource.Worded P)
    (filled : (c.fill resource).Answers (.ofResource resource) () d) :
    (c.registered resource d).workspace.Worded P := by
  refine ⟨fun n d' found => ?_, h.workspace.models⟩
  simp only [registered, Roster.get?_insert] at found
  by_cases here : n = resource.name
  · rw [if_pos here, Option.some.injEq] at found
    rw [← found, here]
    exact worded_fill h.builtIn h.key coherent.sound.named h.declared worded filled
  · rw [if_neg here] at found
    exact h.workspace.descriptors n d' found

variable (vocabulary : Vocabulary P)

include vocabulary

/-- A request whose names are words keeps all names words. -/
theorem worded_after {request : Request} (named : request.Worded P) (coherent : c.Coherent)
    (h : c.Worded P) : (c.after request).Worded P := by
  have configurators : (c.after request).configurators = c.configurators := by
    refine configurators_after c ?_
    rintro k rfl
    exact named
  refine ⟨?_, ?_, declared_after named h.declared, ?_⟩
  · rw [configurators]
    exact h.builtIn
  · rw [configurators, settings_after]
    exact h.key
  · refine workspace_after_of_kept coherent request ?_ ?_
      (fun _ _ => Generation.kept_worded vocabulary)
      (fun _ _ _ _ _ _ _ uncached _ found => Generation.worded_stored uncached found) h.workspace
    · rintro resource d rfl names filled -
      exact worded_registered coherent h (named names) filled
    · rintro name edit rfl
      exact absurd named id

/-- Wherever a history of such requests leads, all names are words. -/
theorem worded_run {requests : List Request} (named : ∀ request ∈ requests, request.Worded P)
    (coherent : c.Coherent) (h : c.Worded P) : (c.run requests).Coherent ∧ (c.run requests).Worded P :=
  run_keeps (I := fun c => c.Coherent ∧ c.Worded P)
    (fun _ request named ⟨coherent, h⟩ =>
      ⟨coherent_after coherent request, worded_after vocabulary named coherent h⟩)
    ⟨coherent, h⟩ named

end Compiler

end ResourceTables
