/-
# `ResourceTables.Proofs.Descriptors` — descriptors that hold together, and what keeps them so

A descriptor keeps its fields, its relationships and their builders in three lists.  It is well
formed when no name stands twice and each property has exactly one builder, of its own kind.  Every
way of changing a descriptor from outside is an `Edit`, and an edit keeps it well formed.

At the start no builder has recorded anything: the plan is as if it had been reset.
-/
import ResourceTables.Configurator
import ResourceTables.Proofs.Actions
import ResourceTables.Proofs.Keyed
import Mathlib.Logic.Relation

namespace ResourceTables

namespace Descriptor

/-- The names of the fields, in order. -/
def fieldNames (d : Descriptor) : List String := d.fields.map (·.name)

/-- The names of the relationships, in order. -/
def relationshipNames (d : Descriptor) : List String := d.relationships.map (·.name)

/-- No name stands twice, and every property has one builder, of its own kind. -/
structure WellFormed (d : Descriptor) : Prop where
  fields_distinct : d.fieldNames.Nodup
  relationships_distinct : d.relationshipNames.Nodup
  apart : ∀ n ∈ d.fieldNames, n ∉ d.relationshipNames
  plan_distinct : d.plan.names.Nodup
  field_built : ∀ n, .field n ∈ d.plan.builders ↔ n ∈ d.fieldNames
  relationship_built : ∀ n,
    (∃ b, .relationship b ∈ d.plan.builders ∧ b.name = n) ↔ n ∈ d.relationshipNames

/-! ## Names -/

theorem fieldNamed?_eq_none_iff {d : Descriptor} {n : String} :
    d.fieldNamed? n = none ↔ n ∉ d.fieldNames :=
  find?_key_eq_none_iff

theorem relationshipNamed?_eq_none_iff {d : Descriptor} {n : String} :
    d.relationshipNamed? n = none ↔ n ∉ d.relationshipNames :=
  find?_key_eq_none_iff

theorem declaredBy?_eq_none_iff {d : Descriptor} {n : String} :
    d.declaredBy? n = none ↔ n ∉ d.fieldNames ∧ n ∉ d.relationshipNames := by
  rw [← fieldNamed?_eq_none_iff, ← relationshipNamed?_eq_none_iff, declaredBy?]
  cases d.fieldNamed? n <;> cases d.relationshipNamed? n <;> simp

theorem hasProperty_iff {d : Descriptor} {n : String} :
    d.hasProperty n = true ↔ n ∈ d.fieldNames ∨ n ∈ d.relationshipNames := by
  rw [hasProperty, Option.isSome_iff_ne_none, ne_eq, declaredBy?_eq_none_iff]
  tauto

theorem hasProperty_eq_false_iff {d : Descriptor} {n : String} :
    d.hasProperty n = false ↔ n ∉ d.fieldNames ∧ n ∉ d.relationshipNames := by
  rw [Bool.eq_false_iff, ne_eq, hasProperty_iff, not_or]

theorem WellFormed.mem_plan_names {d : Descriptor} (wf : d.WellFormed) {n : String} :
    n ∈ d.plan.names ↔ n ∈ d.fieldNames ∨ n ∈ d.relationshipNames := by
  rw [← wf.field_built, ← wf.relationship_built]
  simp only [BuildPlan.names, List.mem_map]
  constructor
  · rintro ⟨b, mem, rfl⟩
    cases b with
    | field n => exact .inl mem
    | relationship b => exact .inr ⟨b, mem, rfl⟩
  · rintro (mem | ⟨b, mem, rfl⟩)
    · exact ⟨_, mem, rfl⟩
    · exact ⟨_, mem, rfl⟩

theorem WellFormed.relationship?_eq_some_iff {d : Descriptor} (wf : d.WellFormed) {n : String}
    {r : Relationship} :
    d.relationship? n = some r ↔ ∃ e ∈ d.relationships, e.name = n ∧ e.relationship = r := by
  rw [relationship?, Option.map_eq_some_iff]
  constructor
  · rintro ⟨e, found, rfl⟩
    exact ⟨e, List.mem_of_find?_eq_some found, key_eq_of_find? found, rfl⟩
  · rintro ⟨e, mem, rfl, rfl⟩
    exact ⟨e, find?_key_of_mem wf.relationships_distinct mem, rfl⟩

/-- What builders see is what the descriptor holds. -/
theorem view_relationship? (d : Descriptor) (n : String) :
    d.view.relationship? n = d.relationship? n := by
  simp only [view, PropertyView.relationship?, relationship?, relationshipNamed?]
  induction d.relationships with
  | nil => rfl
  | cons e rest ih =>
      by_cases h : e.name = n
      · simp [h]
      · have : (n == e.name) = false := by simpa using Ne.symm h
        simp [List.lookup_cons, h, this, ih]

/-! ## Entering properties -/

/-- The descriptor once a property is entered under its name, with a fresh builder. -/
def entered (d : Descriptor) (p : CollectedProperty) : Descriptor :=
  { d.put p with plan := d.plan.replace p.name (Builder.ofProperty p.name p.property) }

theorem name_ofProperty (n : String) (p : Property) : (Builder.ofProperty n p).name = n := by
  cases p <;> rfl

theorem reset_ofProperty (n : String) (p : Property) :
    (Builder.ofProperty n p).reset = Builder.ofProperty n p := by
  cases p <;> rfl

/-- A builder for a new name comes last. -/
theorem replace_eq_add {plan : BuildPlan} {n : String} (h : n ∉ plan.names) (b : Builder) :
    plan.replace n b = plan.add b := by
  simp only [BuildPlan.replace, BuildPlan.add, putFirst_eq_append h]

theorem put_eq (d : Descriptor) (p : CollectedProperty) :
    d.put p = { d with fields := (d.put p).fields, relationships := (d.put p).relationships } := by
  unfold put
  cases p.property <;> rfl

theorem answers_register {d d' : Descriptor} {p : CollectedProperty} {u : Unit}
    (wf : d.WellFormed) :
    (register p).Answers d u d' ↔ d.declaredBy? p.name ≠ some p.declaredBy ∧ d.entered p = d' := by
  simp only [register, Action.answers_bind, Action.answers_read, and_assoc]
  cases found : d.declaredBy? p.name with
  | none =>
      have fresh : p.name ∉ d.plan.names := by
        rw [wf.mem_plan_names, not_or]
        exact declaredBy?_eq_none_iff.1 found
      simp [found, entered, replace_eq_add fresh]
  | some origin =>
      by_cases same : origin = p.declaredBy
      · simp [found, same]
      · simp [found, same, entered]

theorem fails_register {d d' : Descriptor} {p : CollectedProperty} {e : Error} :
    (register p).Fails d e d' ↔
      d.declaredBy? p.name = some p.declaredBy ∧ .duplicateProperty d.resource p.name = e
        ∧ d = d' := by
  simp only [register, Action.fails_bind, Action.answers_read, Action.fails_read, false_or,
    and_assoc]
  cases found : d.declaredBy? p.name with
  | none => simp [found]
  | some origin =>
      by_cases same : origin = p.declaredBy
      · simp [found, same]
      · simp [found, same]

section Entered

variable {d : Descriptor} {p : CollectedProperty} {n : String}

theorem mem_fieldNames_entered :
    n ∈ (d.entered p).fieldNames ↔
      (n = p.name ∧ ∃ f, p.property = .field f) ∨ (n ≠ p.name ∧ n ∈ d.fieldNames) := by
  cases h : p.property with
  | field f =>
      simp only [entered, put, h, fieldNames, mem_map_key_putFirst]
      by_cases same : n = p.name <;> simp [same]
  | relationship r =>
      simp only [entered, put, h, fieldNames, List.mem_map, List.mem_filter, bne_iff_ne]
      constructor
      · rintro ⟨e, ⟨mem, other⟩, rfl⟩
        exact .inr ⟨other, e, mem, rfl⟩
      · rintro (⟨_, _, impossible⟩ | ⟨other, e, mem, rfl⟩)
        · cases impossible
        · exact ⟨e, ⟨mem, other⟩, rfl⟩

theorem mem_relationshipNames_entered :
    n ∈ (d.entered p).relationshipNames ↔
      (n = p.name ∧ ∃ r, p.property = .relationship r) ∨ (n ≠ p.name ∧ n ∈ d.relationshipNames) := by
  cases h : p.property with
  | field f =>
      simp only [entered, put, h, relationshipNames, List.mem_map, List.mem_filter, bne_iff_ne]
      constructor
      · rintro ⟨e, ⟨mem, other⟩, rfl⟩
        exact .inr ⟨other, e, mem, rfl⟩
      · rintro (⟨_, _, impossible⟩ | ⟨other, e, mem, rfl⟩)
        · cases impossible
        · exact ⟨e, ⟨mem, other⟩, rfl⟩
  | relationship r =>
      simp only [entered, put, h, relationshipNames, mem_map_key_putFirst]
      by_cases same : n = p.name <;> simp [same]

theorem mem_builders_entered (wf : d.WellFormed) {b : Builder} :
    b ∈ (d.entered p).plan.builders ↔
      b = Builder.ofProperty p.name p.property ∨ (b ∈ d.plan.builders ∧ b.name ≠ p.name) :=
  mem_putFirst wf.plan_distinct

theorem WellFormed.entered (wf : d.WellFormed) (p : CollectedProperty) :
    (d.entered p).WellFormed where
  fields_distinct := by
    cases h : p.property with
    | field f =>
        simp only [Descriptor.entered, put, h, fieldNames]
        exact nodup_map_key_putFirst rfl wf.fields_distinct
    | relationship r =>
        simp only [Descriptor.entered, put, h, fieldNames]
        exact (List.filter_sublist.map _).nodup wf.fields_distinct
  relationships_distinct := by
    cases h : p.property with
    | field f =>
        simp only [Descriptor.entered, put, h, relationshipNames]
        exact (List.filter_sublist.map _).nodup wf.relationships_distinct
    | relationship r =>
        simp only [Descriptor.entered, put, h, relationshipNames]
        exact nodup_map_key_putFirst rfl wf.relationships_distinct
  apart := by
    intro n hf hr
    rw [mem_fieldNames_entered] at hf
    rw [mem_relationshipNames_entered] at hr
    rcases hf with ⟨rfl, f, hf⟩ | ⟨other, hf⟩
    · rcases hr with ⟨_, r, hr⟩ | ⟨other, _⟩
      · rw [hf] at hr; cases hr
      · exact other rfl
    · rcases hr with ⟨same, _⟩ | ⟨_, hr⟩
      · exact other same
      · exact wf.apart n hf hr
  plan_distinct :=
    nodup_map_key_putFirst (name_ofProperty p.name p.property) wf.plan_distinct
  field_built := by
    intro n
    rw [mem_builders_entered wf, mem_fieldNames_entered, wf.field_built]
    cases h : p.property with
    | field f => simp [Builder.ofProperty, Builder.name, and_comm]
    | relationship r => simp [Builder.ofProperty, Builder.name, and_comm]
  relationship_built := by
    intro n
    rw [mem_relationshipNames_entered, ← wf.relationship_built]
    simp only [mem_builders_entered wf]
    cases h : p.property with
    | field f =>
        simp only [Builder.ofProperty, reduceCtorEq, false_or, exists_false, and_false]
        constructor
        · rintro ⟨b, ⟨mem, other⟩, rfl⟩
          exact ⟨other, b, mem, rfl⟩
        · rintro ⟨other, b, mem, rfl⟩
          exact ⟨b, ⟨mem, other⟩, rfl⟩
    | relationship r =>
        simp only [Builder.ofProperty, Builder.relationship.injEq, Property.relationship.injEq,
          exists_eq', and_true]
        constructor
        · rintro ⟨b, rfl | ⟨mem, other⟩, rfl⟩
          · exact .inl rfl
          · exact .inr ⟨other, b, mem, rfl⟩
        · rintro (rfl | ⟨other, b, mem, rfl⟩)
          · exact ⟨_, .inl rfl, rfl⟩
          · exact ⟨b, .inr ⟨mem, other⟩, rfl⟩

end Entered

/-! ## Changing what is entered -/

theorem fieldNames_modifyField (d : Descriptor) (n : String) (f : Field → Field) :
    (d.modifyField n f).fieldNames = d.fieldNames :=
  map_changeFirst fun _ => rfl

theorem relationshipNames_modifyRelationship (d : Descriptor) (n : String)
    (f : Relationship → Relationship) :
    (d.modifyRelationship n f).relationshipNames = d.relationshipNames :=
  map_changeFirst fun _ => rfl

/-- Whether a descriptor is well formed depends on its names and builders only. -/
theorem WellFormed.of_names {d d' : Descriptor} (wf : d.WellFormed)
    (fields : d'.fieldNames = d.fieldNames)
    (relationships : d'.relationshipNames = d.relationshipNames)
    (plan : d'.plan.builders = d.plan.builders) : d'.WellFormed where
  fields_distinct := fields ▸ wf.fields_distinct
  relationships_distinct := relationships ▸ wf.relationships_distinct
  apart := fields ▸ relationships ▸ wf.apart
  plan_distinct := by rw [BuildPlan.names, plan]; exact wf.plan_distinct
  field_built := by rw [fields, plan]; exact wf.field_built
  relationship_built := by rw [relationships, plan]; exact wf.relationship_built

theorem WellFormed.prependField {d : Descriptor} (wf : d.WellFormed) {n : String}
    (free : d.declaredBy? n = none) (f : Field) :
    ({ d with
        fields := { name := n, field := f, declaredBy := d.resource } :: d.fields
        plan := d.plan.insertAt 0 (.field n) } : Descriptor).WellFormed := by
  have free := declaredBy?_eq_none_iff.1 free
  have unbuilt : n ∉ d.plan.names := by
    rw [wf.mem_plan_names, not_or]
    exact free
  constructor
  · exact List.nodup_cons.2 ⟨free.1, wf.fields_distinct⟩
  · exact wf.relationships_distinct
  · intro m hf
    rcases List.mem_cons.1 hf with rfl | hf
    · exact free.2
    · exact wf.apart m hf
  · exact List.nodup_cons.2 ⟨unbuilt, wf.plan_distinct⟩
  · intro m
    simp [BuildPlan.insertAt, fieldNames, wf.field_built]
  · intro m
    simp only [BuildPlan.insertAt, List.take_zero, List.drop_zero, List.nil_append, List.mem_cons,
      reduceCtorEq, false_or]
    exact wf.relationship_built m

/-! ## Resetting -/

theorem names_reset (plan : BuildPlan) : plan.reset.names = plan.names := by
  simp only [BuildPlan.reset, BuildPlan.names, List.map_map]
  refine List.map_congr_left fun b _ => ?_
  cases b <;> rfl

theorem field_mem_reset {plan : BuildPlan} {n : String} :
    .field n ∈ plan.reset.builders ↔ .field n ∈ plan.builders := by
  simp only [BuildPlan.reset, List.mem_map]
  constructor
  · rintro ⟨b, mem, same⟩
    cases b with
    | field m => cases same; exact mem
    | relationship b => cases same
  · exact fun mem => ⟨_, mem, rfl⟩

theorem relationship_mem_reset {plan : BuildPlan} {n : String} :
    (∃ b, .relationship b ∈ plan.reset.builders ∧ b.name = n) ↔
      ∃ b, .relationship b ∈ plan.builders ∧ b.name = n := by
  simp only [BuildPlan.reset, List.mem_map]
  constructor
  · rintro ⟨_, ⟨b, mem, same⟩, rfl⟩
    cases b with
    | field m => cases same
    | relationship b => cases same; exact ⟨b, mem, rfl⟩
  · rintro ⟨b, mem, rfl⟩
    exact ⟨b.reset, ⟨_, mem, rfl⟩, rfl⟩

/-- Whether a descriptor is well formed does not depend on what building has recorded. -/
theorem wellFormed_resetPlan {d : Descriptor} : d.resetPlan.WellFormed ↔ d.WellFormed := by
  constructor
  · intro wf
    refine ⟨wf.fields_distinct, wf.relationships_distinct, wf.apart, ?_, fun n => ?_, fun n => ?_⟩
    · rw [← names_reset]
      exact wf.plan_distinct
    · rw [← field_mem_reset]
      exact wf.field_built n
    · rw [← relationship_mem_reset]
      exact wf.relationship_built n
  · intro wf
    refine ⟨wf.fields_distinct, wf.relationships_distinct, wf.apart, ?_, fun n => ?_, fun n => ?_⟩
    · exact (names_reset d.plan).symm ▸ wf.plan_distinct
    · exact field_mem_reset.trans (wf.field_built n)
    · exact relationship_mem_reset.trans (wf.relationship_built n)

/-! ## Edits -/

/-- What can be done to a descriptor from outside, whether it is done or refused. -/
inductive Edit : Descriptor → Descriptor → Prop
  | register (d : Descriptor) (p : CollectedProperty) : Edit d (register p d).state
  | prependField (d : Descriptor) (name : String) (field : Field) :
      Edit d (prependField name field d).state
  | modifyField (d : Descriptor) (name : String) (f : Field → Field) :
      Edit d (d.modifyField name f)
  | modifyRelationship (d : Descriptor) (name : String) (f : Relationship → Relationship) :
      Edit d (d.modifyRelationship name f)

theorem register_state {d : Descriptor} (wf : d.WellFormed) (p : CollectedProperty) :
    (register p d).state = d ∨ (register p d).state = d.entered p := by
  rcases Action.answers_or_fails (register p) d with ⟨u, d', h⟩ | ⟨e, d', h⟩
  · exact .inr (h.2.trans ((answers_register wf).1 h).2.symm)
  · exact .inl (h.2.trans (fails_register.1 h).2.2.symm)

theorem prependField_state (d : Descriptor) (n : String) (f : Field) :
    (prependField n f d).state = d ∨ (d.declaredBy? n = none ∧ (prependField n f d).state =
      { d with
        fields := { name := n, field := f, declaredBy := d.resource } :: d.fields
        plan := d.plan.insertAt 0 (.field n) }) := by
  cases free : d.declaredBy? n with
  | none =>
      refine .inr ⟨rfl, ?_⟩
      simp [prependField, bind, Action.bind, Action.read, free, Action.change]
  | some origin =>
      refine .inl ?_
      simp [prependField, bind, Action.bind, Action.read, free, Action.fail]

/-- Every builder is as it was before any phase. -/
def Fresh (d : Descriptor) : Prop := ∀ b ∈ d.plan.builders, b.reset = b

/-- What edits leave as it is. -/
structure Edited (d d' : Descriptor) : Prop where
  resource_eq : d'.resource = d.resource
  options_eq : d'.options = d.options
  finished_eq : d'.plan.finished = d.plan.finished
  wellFormed : d.WellFormed → d'.WellFormed
  fresh : d.WellFormed → d.Fresh → d'.Fresh

theorem edited_refl (d : Descriptor) : Edited d d := ⟨rfl, rfl, rfl, id, fun _ => id⟩

theorem Edited.trans {d d' d'' : Descriptor} (h : Edited d d') (h' : Edited d' d'') :
    Edited d d'' :=
  ⟨h'.resource_eq.trans h.resource_eq, h'.options_eq.trans h.options_eq,
    h'.finished_eq.trans h.finished_eq, h'.wellFormed ∘ h.wellFormed,
    fun wf fresh => h'.fresh (h.wellFormed wf) (h.fresh wf fresh)⟩

theorem edited_entered (d : Descriptor) (p : CollectedProperty) : Edited d (d.entered p) where
  resource_eq := by rw [Descriptor.entered, put_eq]
  options_eq := by rw [Descriptor.entered, put_eq]
  finished_eq := rfl
  wellFormed := fun wf => wf.entered p
  fresh := by
    intro wf fresh b mem
    rcases (mem_builders_entered wf).1 mem with rfl | ⟨mem, _⟩
    · exact reset_ofProperty p.name p.property
    · exact fresh b mem

/-- A property of a well-formed descriptor is entered or refused. -/
theorem Edit.edited {d d' : Descriptor} (h : Edit d d') (wf : d.WellFormed) : Edited d d' := by
  cases h with
  | register p =>
      rcases register_state wf p with same | changed
      · rw [same]; exact edited_refl d
      · rw [changed]; exact edited_entered d p
  | prependField n f =>
      rcases prependField_state d n f with same | ⟨free, changed⟩
      · rw [same]; exact edited_refl d
      · rw [changed]
        refine ⟨rfl, rfl, rfl, fun wf => wf.prependField free f, fun _ fresh b mem => ?_⟩
        rcases List.mem_cons.1 mem with rfl | mem
        · rfl
        · exact fresh b mem
  | modifyField n f =>
      exact ⟨rfl, rfl, rfl, fun wf => wf.of_names (fieldNames_modifyField d n f) rfl rfl,
        fun _ => id⟩
  | modifyRelationship n f =>
      exact ⟨rfl, rfl, rfl,
        fun wf => wf.of_names rfl (relationshipNames_modifyRelationship d n f) rfl, fun _ => id⟩

theorem edited_of_edits {d d' : Descriptor} (h : Relation.ReflTransGen Edit d d')
    (wf : d.WellFormed) : Edited d d' := by
  induction h with
  | refl => exact edited_refl d
  | tail _ last ih => exact ih.trans (last.edited (ih.wellFormed wf))

/-- A descriptor as it stands before anything is generated from it: well formed, named after its
resource, and with builders that have recorded nothing. -/
structure Pristine (resource : Resource) (d : Descriptor) : Prop where
  resource_eq : d.resource = resource.name
  options_eq : d.options = resource.options
  wellFormed : d.WellFormed
  unfinished : d.plan.finished = false
  fresh : d.Fresh

theorem pristine_ofResource (resource : Resource) : Pristine resource (ofResource resource) where
  resource_eq := rfl
  options_eq := rfl
  wellFormed := by constructor <;> simp [ofResource, fieldNames, relationshipNames, BuildPlan.names]
  unfinished := rfl
  fresh := by simp [Fresh, ofResource]

theorem Pristine.edited {resource : Resource} {d d' : Descriptor} (h : Pristine resource d)
    (edited : Edited d d') : Pristine resource d' :=
  ⟨edited.resource_eq.trans h.resource_eq, edited.options_eq.trans h.options_eq,
    edited.wellFormed h.wellFormed, edited.finished_eq.trans h.unfinished,
    edited.fresh h.wellFormed h.fresh⟩

/-! ## Builders that fit their relationships -/

/-- Every relationship has a builder that agrees with it on lists and on keys. -/
def Faithful (d : Descriptor) : Prop :=
  ∀ b e, .relationship b ∈ d.plan.builders → e ∈ d.relationships → e.name = b.name →
    b.useList = e.relationship.useList ∧ b.forcesPrimaryKey = e.relationship.identifying

/-- A key that a builder makes joins the primary key just if the relationship says so. -/
def KeysFit (d : Descriptor) : Prop :=
  ∀ b e, .relationship b ∈ d.plan.builders → e ∈ d.relationships → e.name = b.name →
    e.relationship.hostsKey = true → b.forcesPrimaryKey = e.relationship.identifying

theorem Faithful.keysFit {d : Descriptor} (h : d.Faithful) : d.KeysFit :=
  fun b e built mem name _ => (h b e built mem name).2

theorem faithful_ofResource (resource : Resource) : (ofResource resource).Faithful := by
  intro b e mem
  simp [ofResource] at mem

theorem Faithful.entered {d : Descriptor} (h : d.Faithful) (wf : d.WellFormed)
    (p : CollectedProperty) : (d.entered p).Faithful := by
  intro b e hb he same
  have kept : b.name = p.name ∨ (.relationship b ∈ d.plan.builders ∧ b.name ≠ p.name) := by
    rcases (mem_builders_entered wf).1 hb with new | ⟨old, other⟩
    · exact .inl ((congrArg Builder.name new).trans (name_ofProperty _ _))
    · exact .inr ⟨old, other⟩
  cases hp : p.property with
  | field f =>
      simp only [Descriptor.entered, put, hp, List.mem_filter, bne_iff_ne] at he
      rcases kept with new | ⟨old, _⟩
      · exact absurd (same.trans new) he.2
      · exact h b e old he.1 same
  | relationship r =>
      simp only [Descriptor.entered, put, hp] at he
      rcases (mem_putFirst wf.relationships_distinct).1 he with rfl | ⟨he, other⟩
      · rcases (mem_builders_entered wf).1 hb with new | ⟨_, other⟩
        · rw [hp, Builder.ofProperty, Builder.relationship.injEq] at new
          subst new
          exact ⟨rfl, rfl⟩
        · exact absurd same.symm other
      · rcases kept with new | ⟨old, _⟩
        · exact absurd (same.trans new) other
        · exact h b e old he same

end Descriptor

end ResourceTables
