/-
# `ResourceTables.Proofs.Bindings` — what binding does to descriptors

Binding touches descriptors in three ways: it looks targets up, it settles inverses, and it adds the
many-to-ones that are missing.  `BindStep` lists them, and `Bound` is any number of them, so that
what binding leaves alone is seen step by step.  Binding that fails has taken such steps too.
-/
import ResourceTables.Binding
import ResourceTables.Proofs.Descriptors
import ResourceTables.Proofs.Rosters

namespace ResourceTables

section Within

variable {α : Type} {name : String} {x : Action Descriptor α} {D D' : Roster Descriptor} {a : α}
  {e : Error}

theorem answers_within :
    (within name x).Answers D a D' ↔
      ∃ d d', D.get? name = some d ∧ x.Answers d a d' ∧ D.modify name (fun _ => d') = D' := by
  cases found : D.get? name with
  | none => simp [Action.Answers, within, found]
  | some d => simp [Action.Answers, within, found, and_assoc]

theorem fails_within :
    (within name x).Fails D e D' ↔
      (D.get? name = none ∧ .unresolvedTarget name = e ∧ D = D') ∨
      ∃ d d', D.get? name = some d ∧ x.Fails d e d' ∧ D.modify name (fun _ => d') = D' := by
  cases found : D.get? name with
  | none => simp [Action.Fails, within, found]
  | some d => simp [Action.Fails, within, found, and_assoc]

end Within

namespace Binding

variable {resources : Roster Resource} {models : Roster Model} {unit : List String}
  {n : String} {d d' : Descriptor} {D D' : Roster Descriptor} {u : Unit} {e : Error}

/-! ## Looking up targets -/

/-- An entry whose target may have been looked up since. -/
def Marked (e e' : RelationshipEntry) : Prop := ∃ resolved, e' = { e with resolved }

/-- An entry whose target has been looked up and has a table. -/
def LookedUp (resources : Roster Resource) (e e' : RelationshipEntry) : Prop :=
  ∃ target, resources.get? e.relationship.target = some target ∧ target.isAbstract = false
    ∧ e' = { e with resolved := some target }

theorem Marked.refl (e : RelationshipEntry) : Marked e e := ⟨e.resolved, rfl⟩

theorem Marked.trans {e e' e'' : RelationshipEntry} (h : Marked e e') (h' : Marked e' e'') :
    Marked e e'' := by
  obtain ⟨_, rfl⟩ := h
  obtain ⟨resolved, rfl⟩ := h'
  exact ⟨resolved, rfl⟩

theorem LookedUp.marked {e e' : RelationshipEntry} (h : LookedUp resources e e') : Marked e e' := by
  obtain ⟨target, _, _, rfl⟩ := h
  exact ⟨some target, rfl⟩

/-- The step that looks up one target among those of a resource. -/
def lookUpOne (resources : Roster Resource) (resource : String) :
    Action (RelationshipEntry × Unit) Unit :=
  Action.zoom (·.1) (fun _ entry => (entry, ())) (lookUpTarget resources resource)

theorem answers_lookUpOne {entry : RelationshipEntry} {s : RelationshipEntry × Unit} :
    (lookUpOne resources n).Answers (entry, ()) u s ↔ LookedUp resources entry s.1 := by
  obtain ⟨entry', ⟨⟩⟩ := s
  simp only [lookUpOne, lookUpTarget, Action.answers_zoom, Action.answers_bind,
    Action.answers_read, Action.answers_ofExcept, Action.answers_change, LookedUp, resolveIn]
  constructor
  · rintro ⟨_, ⟨_, _, ⟨rfl, rfl⟩, target, _, ⟨found, rfl⟩, _, _, rfl, last⟩, same⟩
    cases hr : resources.get? entry.relationship.target with
    | none => simp [hr] at found
    | some r =>
        simp only [hr, Except.ok.injEq] at found
        subst found
        by_cases abs : r.isAbstract
        · simp [abs] at last
        · simp only [abs, Bool.false_eq_true, if_false, Action.answers_note] at last
          rw [← last] at same
          exact ⟨r, rfl, by simpa using abs, (Prod.mk.inj same).1.symm⟩
  · rintro ⟨r, hr, abs, rfl⟩
    refine ⟨_, ⟨entry, entry, ⟨rfl, rfl⟩, r, entry, ⟨?_, rfl⟩, (), _, rfl, ?_⟩, rfl⟩
    · simp [hr]
    · simp [abs]

theorem marked_lookUpOne (entry : RelationshipEntry) (t : Unit) :
    Marked entry (lookUpOne resources n (entry, t)).state.1 := by
  have : Action.Keeps (Marked entry) (lookUpTarget resources n) := by
    unfold lookUpTarget
    refine Action.keeps_read.bind fun _ => (Action.keeps_ofExcept _).bind fun target => ?_
    refine (Action.keeps_change ?_).bind fun _ => ?_
    · rintro _ ⟨_, rfl⟩
      exact ⟨some target, rfl⟩
    · split
      · exact Action.keeps_fail _
      · exact Action.keeps_note _ _
  exact this entry (Marked.refl entry)

theorem answers_lookUpEach {entries entries' : List RelationshipEntry} :
    (Action.onEach (lookUpOne resources n)).Answers (entries, ()) u (entries', ()) ↔
      List.Forall₂ (LookedUp resources) entries entries' := by
  induction entries generalizing entries' with
  | nil => simp
  | cons entry rest ih =>
      rw [Action.answers_onEach_cons, List.forall₂_cons_left_iff]
      constructor
      · rintro ⟨one, others, h, hs, same⟩
        obtain ⟨rfl, _⟩ := Prod.mk.inj same
        exact ⟨one.1, others.1, answers_lookUpOne.1 h, ih.1 hs, rfl⟩
      · rintro ⟨entry', rest', h, hs, rfl⟩
        exact ⟨(entry', ()), (rest', ()), answers_lookUpOne.2 h, ih.2 hs, rfl⟩

/-- The step that looks up the targets of one descriptor. -/
def lookUpAll (resources : Roster Resource) (resource : String) : Action Descriptor Unit := fun d =>
  let done := Action.each (lookUpOne resources resource) d.relationships ()
  ⟨done.result, { d with relationships := done.state.1 }, done.notes⟩

theorem lookUpTargets_eq (resources : Roster Resource) (resource : String) :
    lookUpTargets resources resource = within resource (lookUpAll resources resource) := rfl

theorem answers_lookUpTargets :
    (lookUpTargets resources n).Answers D u D' ↔
      ∃ d entries, D.get? n = some d ∧ List.Forall₂ (LookedUp resources) d.relationships entries
        ∧ D.modify n (fun _ => { d with relationships := entries }) = D' := by
  rw [lookUpTargets_eq, answers_within]
  constructor
  · rintro ⟨d, d', found, ends, rfl⟩
    refine ⟨d, _, found, answers_lookUpEach.1 ⟨ends.1, rfl⟩, ?_⟩
    rw [← ends.2]
    rfl
  · rintro ⟨d, entries, found, looked, rfl⟩
    have ends := (answers_lookUpEach (n := n) (u := u)).2 looked
    refine ⟨d, _, found, ⟨ends.1, rfl⟩, ?_⟩
    have same : (Action.each (lookUpOne resources n) d.relationships ()).state.1 = entries :=
      congrArg Prod.fst ends.2
    rw [← same]
    rfl

/-! ## Completing -/

/-- The entry that completes a side into a resource, with the owner of the side looked up. -/
def completionEntry (side : ManySide) (inverse : String) (owner : Resource) (resource : String) :
    RelationshipEntry :=
  { name := inverse, relationship := completion side, declaredBy := resource,
    resolved := some owner }

/-- The descriptor with the completion of a side into it, under a name that is free. -/
def completed (side : ManySide) (inverse : String) (owner : Resource) (d : Descriptor) :
    Descriptor :=
  { d with
    relationships := d.relationships ++ [completionEntry side inverse owner d.resource]
    plan := d.plan.add
      (.relationship { name := inverse, useList := false, forcesPrimaryKey := false }) }

/-- The descriptor of the owner of a side once its inverse is settled. -/
def settled (side : ManySide) (inverse : String) (d : Descriptor) : Descriptor :=
  d.modifyRelationship side.relationship fun r => { r with inverse := some inverse }

theorem put_completion {inverse : String} (free : d.hasProperty inverse = false)
    (side : ManySide) :
    d.put ⟨inverse, .relationship (completion side), d.resource⟩ =
      { d with relationships := d.relationships ++
          [{ name := inverse, relationship := completion side, declaredBy := d.resource }] } := by
  obtain ⟨noField, noRelationship⟩ := Descriptor.hasProperty_eq_false_iff.1 free
  have fields : d.fields.filter (·.name != inverse) = d.fields := by
    rw [List.filter_eq_self]
    intro e he
    exact bne_iff_ne.2 fun same => noField (same ▸ List.mem_map_of_mem he)
  simp only [Descriptor.put, fields, putFirst_eq_append noRelationship]

/-- Where the name is free, nothing stands in the way of a completion. -/
theorem answers_addCompletion {side : ManySide} {inverse : String} {owner : Resource}
    (free : d.hasProperty inverse = false) :
    (addCompletion side inverse owner).Answers d u d' ↔ completed side inverse owner d = d' := by
  have undeclared : d.declaredBy? inverse = none :=
    Descriptor.declaredBy?_eq_none_iff.2 (Descriptor.hasProperty_eq_false_iff.1 free)
  have noRelationship := (Descriptor.hasProperty_eq_false_iff.1 free).2
  have last : ∀ f, changeFirst (fun e : RelationshipEntry => e.name == inverse) f
      (d.relationships ++
        [{ name := inverse, relationship := completion side, declaredBy := d.resource }])
      = d.relationships ++
        [f { name := inverse, relationship := completion side, declaredBy := d.resource }] :=
    fun f => changeFirst_append_last noRelationship rfl f
  simp only [addCompletion, Descriptor.add, Descriptor.register, Action.answers_bind,
    Action.answers_read, Action.answers_change]
  constructor
  · rintro ⟨_, _, ⟨_, _, ⟨rfl, rfl⟩, _, _, ⟨rfl, rfl⟩, added⟩, rfl⟩
    simp only [undeclared, Action.answers_change, put_completion free] at added
    rw [← added]
    simp only [last, completed, completionEntry]
    rfl
  · rintro rfl
    refine ⟨(), { d with
        relationships := d.relationships ++
          [{ name := inverse, relationship := completion side, declaredBy := d.resource }]
        plan := d.plan.add (Builder.ofProperty inverse (.relationship (completion side))) },
      ⟨d, d, ⟨rfl, rfl⟩, d, d, ⟨rfl, rfl⟩, ?_⟩, ?_⟩
    · simp only [undeclared, Action.answers_change, put_completion free]
    · simp only [last, completed, completionEntry]
      rfl

section Sides

variable {side : ManySide}

/-- Settling an inverse, among all descriptors. -/
def settledIn (D : Roster Descriptor) (side : ManySide) (inverse : String) : Roster Descriptor :=
  D.modify side.owner (settled side inverse)

theorem answers_completeSide :
    (completeSide resources models side).Answers D u D' ↔
      ∃ t, (settledIn D side (inverseName D side)).get? side.target = some t ∧
        ((t.hasProperty (inverseName D side) = true
            ∧ settledIn D side (inverseName D side) = D') ∨
          (t.hasProperty (inverseName D side) = false ∧ models.contains side.target = false
            ∧ t.isGenerated = false ∧ ∃ owner, resources.get? side.owner = some owner
              ∧ (settledIn D side (inverseName D side)).modify side.target
                  (fun _ => completed side (inverseName D side) owner t) = D')) := by
  unfold completeSide settledIn settled
  simp only [Action.answers_bind, Action.answers_reads, Action.answers_change]
  constructor
  · rintro ⟨_, _, ⟨rfl, rfl⟩, _, _, rfl, found, _, ⟨rfl, rfl⟩, last⟩
    cases ht : Roster.get? _ side.target with
    | none =>
        rw [ht] at last
        simp at last
    | some t =>
        rw [ht] at last
        refine ⟨t, rfl, ?_⟩
        by_cases has : t.hasProperty (inverseName D side)
        · simp only [has, if_true, Action.answers_pure, true_and] at last
          exact .inl ⟨has, last⟩
        · simp only [Bool.not_eq_true] at has
          refine .inr ⟨has, ?_⟩
          by_cases closed : models.contains side.target || t.isGenerated
          · simp [has, closed] at last
          · simp only [has, closed, Bool.false_eq_true, if_false, Action.answers_bind,
              Action.answers_ofExcept, Action.answers_note, resolveIn] at last
            simp only [Bool.or_eq_true, not_or, Bool.not_eq_true] at closed
            obtain ⟨owner, _, ⟨resolved, rfl⟩, _, _, added, rfl⟩ := last
            cases ho : resources.get? side.owner with
            | none => simp [ho] at resolved
            | some r =>
                rw [ho] at resolved
                cases resolved
                obtain ⟨_, _, found, one, rfl⟩ := answers_within.1 added
                rw [ht] at found
                cases found
                rw [← (answers_addCompletion has).1 one]
                exact ⟨closed.1, closed.2, _, rfl, rfl⟩
  · rintro ⟨t, ht, choice⟩
    refine ⟨_, _, ⟨rfl, rfl⟩, (), _, rfl, some t, _, ⟨ht, rfl⟩, ?_⟩
    rcases choice with ⟨has, rfl⟩ | ⟨has, notCached, notGenerated, owner, ho, rfl⟩
    · simp [has]
    · simp only [has, notCached, notGenerated, Bool.or_self, Bool.false_eq_true, if_false,
        Action.answers_bind, Action.answers_ofExcept, Action.answers_note, resolveIn, ho]
      exact ⟨owner, _, ⟨rfl, rfl⟩, (), _,
        answers_within.2 ⟨t, _, ht, (answers_addCompletion has).2 rfl, rfl⟩, rfl⟩

/-- A side that cannot be completed has its inverse settled; its target or its owner is unknown, or the
inverse cannot be added to the target any more. -/
theorem fails_completeSide_cases (h : (completeSide resources models side).Fails D e D') :
    settledIn D side (inverseName D side) = D' ∧
      (D.get? side.target = none ∨ resources.get? side.owner = none ∨
        ∃ reason, e = .invalidInverse side.owner side.relationship (inverseName D side) reason) := by
  unfold completeSide at h
  rcases Action.fails_bind.1 h with impossible | ⟨_, _, one, h⟩
  · exact absurd impossible Action.fails_reads
  obtain ⟨rfl, rfl⟩ := Action.answers_reads.1 one
  rcases Action.fails_bind.1 h with impossible | ⟨_, _, one, h⟩
  · exact absurd impossible Action.fails_change
  rw [← Action.answers_change.1 one] at *
  rcases Action.fails_bind.1 h with impossible | ⟨_, _, one, h⟩
  · exact absurd impossible Action.fails_reads
  obtain ⟨rfl, rfl⟩ := Action.answers_reads.1 one
  change Action.Fails _ (settledIn D side (inverseName D side)) e D' at h
  cases ht : (settledIn D side (inverseName D side)).get? side.target with
  | none =>
      have absent : D.get? side.target = none := by
        rw [Roster.get?_eq_none_iff] at ht ⊢
        rwa [settledIn, Roster.names_modify] at ht
      unfold settledIn settled at ht
      rw [ht] at h
      exact ⟨(Action.fails_fail.1 h).2, .inl absent⟩
  | some t =>
      unfold settledIn settled at ht
      rw [ht] at h
      by_cases has : t.hasProperty (inverseName D side)
      · simp [has] at h
      · simp only [Bool.not_eq_true] at has
        simp only [has, Bool.false_eq_true, if_false] at h
        by_cases closed : models.contains side.target || t.isGenerated
        · simp only [closed, if_true, Action.fails_fail] at h
          exact ⟨h.2, .inr (.inr ⟨_, h.1.symm⟩)⟩
        · simp only [closed, Bool.false_eq_true, if_false, Action.fails_bind,
            Action.fails_ofExcept, Action.fails_note, or_false, and_false, exists_false] at h
          rcases h with ⟨unknown, same⟩ | ⟨owner, _, one, inner⟩
          · refine ⟨same, .inr (.inl ?_)⟩
            cases ho : resources.get? side.owner with
            | none => rfl
            | some r => simp [resolveIn, ho] at unknown
          · obtain ⟨_, rfl⟩ := Action.answers_ofExcept.1 one
            rcases fails_within.1 inner with ⟨missing, _, _⟩ | ⟨t', _, found, add, _⟩
            · rw [show (settledIn D side (inverseName D side)).get? side.target = some t from ht]
                at missing
              cases missing
            · rw [show (settledIn D side (inverseName D side)).get? side.target = some t from ht]
                at found
              cases found
              exact absurd add ((answers_addCompletion (u := ()) has).2 rfl).not_fails

/-- A side that cannot be completed has its inverse settled. -/
theorem fails_completeSide (h : (completeSide resources models side).Fails D e D') :
    settledIn D side (inverseName D side) = D' :=
  (fails_completeSide_cases h).1

end Sides

/-! ## Steps of binding -/

/-- The relationship of an entry as it was, up to the name of its inverse. -/
def Follows (e e' : RelationshipEntry) : Prop :=
  e'.name = e.name ∧ e'.declaredBy = e.declaredBy
    ∧ ∃ inverse, e'.relationship = { e.relationship with inverse }

theorem Follows.refl (e : RelationshipEntry) : Follows e e := ⟨rfl, rfl, e.relationship.inverse, rfl⟩

theorem Follows.trans {e e' e'' : RelationshipEntry} (h : Follows e e') (h' : Follows e' e'') :
    Follows e e'' := by
  obtain ⟨name, origin, inverse, same⟩ := h
  obtain ⟨name', origin', inverse', same'⟩ := h'
  refine ⟨name'.trans name, origin'.trans origin, inverse', ?_⟩
  rw [same', same]

theorem Marked.follows {e e' : RelationshipEntry} (h : Marked e e') : Follows e e' := by
  obtain ⟨resolved, rfl⟩ := h
  exact ⟨rfl, rfl, e.relationship.inverse, rfl⟩

/-- One thing that binding a unit does to the descriptor of the resource `n`. -/
inductive BindStep (unit : List String) (n : String) : Descriptor → Descriptor → Prop
  /-- Targets are looked up. -/
  | lookUp (d : Descriptor) (entries : List RelationshipEntry)
      (marked : List.Forall₂ Marked d.relationships entries) :
      BindStep unit n d { d with relationships := entries }
  /-- The inverse of a one-to-many of a member is settled. -/
  | settle (d : Descriptor) (side : ManySide) (inverse : String) (owner : side.owner = n)
      (member : n ∈ unit)
      (many : ∀ r, d.relationship? side.relationship = some r → r.kind = .oneToMany) :
      BindStep unit n d (settled side inverse d)
  /-- A one-to-many of a member into the resource is completed under a free name, as long as the
  resource is not generated. -/
  | complete (d : Descriptor) (side : ManySide) (inverse : String) (owner : Resource)
      (target : side.target = n) (member : side.owner ∈ unit)
      (free : d.hasProperty inverse = false) (unbuilt : d.isGenerated = false) :
      BindStep unit n d (completed side inverse owner d)

/-- What binding a unit makes of the descriptor of the resource `n`. -/
def Bound (unit : List String) (n : String) : Descriptor → Descriptor → Prop :=
  Relation.ReflTransGen (BindStep unit n)

theorem Bound.of_step (h : BindStep unit n d d') : Bound unit n d d' := .single h

/-- The completion of some side of a member into the resource `n`. -/
def IsCompletion (unit : List String) (n : String) (e : RelationshipEntry) : Prop :=
  ∃ side : ManySide, side.target = n ∧ side.owner ∈ unit ∧ e.relationship = completion side

/-- The builder of a completion. -/
def completionBuilder (e : RelationshipEntry) : Builder :=
  .relationship { name := e.name, useList := false, forcesPrimaryKey := false }

theorem follows_changeFirst {name : String} {f : Relationship → Relationship}
    (hf : ∀ r, ∃ inverse, f r = { r with inverse }) (entries : List RelationshipEntry) :
    List.Forall₂ Follows entries (changeFirst (·.name == name)
      (fun e => { e with relationship := f e.relationship }) entries) := by
  induction entries with
  | nil => exact .nil
  | cons e rest ih =>
      by_cases h : e.name = name
      · simp only [changeFirst, h, beq_self_eq_true, if_true]
        exact .cons ⟨h.symm, rfl, hf e.relationship⟩ (List.forall₂_same.2 fun e _ => .refl e)
      · simp only [changeFirst, beq_iff_eq, h, if_false]
        exact .cons (.refl e) ih

/-- Entries stay at their place and follow what they were; completions come after them, each with
its builder. -/
structure Grown (unit : List String) (n : String) (d d' : Descriptor) : Prop where
  resource_eq : d'.resource = d.resource
  options_eq : d'.options = d.options
  fields_eq : d'.fields = d.fields
  methods_eq : d'.methods = d.methods
  finished_eq : d'.plan.finished = d.plan.finished
  entries : ∃ kept added, d'.relationships = kept ++ added
    ∧ List.Forall₂ Follows d.relationships kept
    ∧ (∀ e ∈ added, IsCompletion unit n e ∧ e.declaredBy = d.resource)
    ∧ d'.plan.builders = d.plan.builders ++ added.map completionBuilder

theorem BindStep.grown (h : BindStep unit n d d') : Grown unit n d d' := by
  cases h with
  | lookUp entries marked =>
      refine ⟨rfl, rfl, rfl, rfl, rfl, entries, [], by simp, ?_, by simp, by simp⟩
      exact marked.imp fun _ _ => Marked.follows
  | settle side inverse owner inside many =>
      refine ⟨rfl, rfl, rfl, rfl, rfl, _, [], (List.append_nil _).symm, ?_, by simp, ?_⟩
      · exact follows_changeFirst (fun r => ⟨some inverse, rfl⟩) d.relationships
      · simp [settled, Descriptor.modifyRelationship]
  | complete side inverse owner target member free unbuilt =>
      refine ⟨rfl, rfl, rfl, rfl, rfl, d.relationships, _, rfl, ?_, ?_, rfl⟩
      · exact List.forall₂_same.2 fun e _ => .refl e
      · intro e he
        rw [List.mem_singleton] at he
        subst he
        exact ⟨⟨side, target, member, rfl⟩, rfl⟩

theorem names_of_follows {entries entries' : List RelationshipEntry}
    (h : List.Forall₂ Follows entries entries') :
    entries'.map (·.name) = entries.map (·.name) :=
  map_eq_map_of_forall₂ h fun _ _ one => one.1

theorem wellFormed_completed (wf : d.WellFormed) {inverse : String}
    (free : d.hasProperty inverse = false) (side : ManySide) (owner : Resource) :
    (completed side inverse owner d).WellFormed := by
  have put := put_completion free side
  have unbuilt : inverse ∉ d.plan.names := by
    rw [wf.mem_plan_names, not_or]
    exact Descriptor.hasProperty_eq_false_iff.1 free
  refine (wf.entered ⟨inverse, .relationship (completion side), d.resource⟩).of_names ?_ ?_ ?_
  · simp only [Descriptor.entered, put]
    rfl
  · simp only [Descriptor.entered, put, Descriptor.relationshipNames, completed, completionEntry,
      List.map_append, List.map_cons, List.map_nil]
  · simp only [Descriptor.entered, Descriptor.replace_eq_add unbuilt]
    rfl

theorem BindStep.wellFormed (h : BindStep unit n d d') (wf : d.WellFormed) : d'.WellFormed := by
  cases h with
  | lookUp entries marked =>
      exact wf.of_names rfl (names_of_follows (marked.imp fun _ _ => Marked.follows)) rfl
  | settle side inverse owner inside many =>
      exact wf.of_names rfl (Descriptor.relationshipNames_modifyRelationship d _ _) rfl
  | complete side inverse owner target member free unbuilt => exact wellFormed_completed wf free side owner

theorem Bound.wellFormed (h : Bound unit n d d') (wf : d.WellFormed) : d'.WellFormed := by
  induction h with
  | refl => exact wf
  | tail _ last ih => exact last.wellFormed ih

theorem Grown.refl (d : Descriptor) : Grown unit n d d :=
  ⟨rfl, rfl, rfl, rfl, rfl, d.relationships, [], by simp,
    List.forall₂_same.2 fun e _ => .refl e, by simp, by simp⟩

/-- No step of binding touches a completion again except to look up its target. -/
theorem Grown.step {d'' : Descriptor} (h : Grown unit n d d') (wf : d'.WellFormed)
    (step : BindStep unit n d' d'') : Grown unit n d d'' := by
  obtain ⟨resource, options, fields, methods, finished, kept, added, split, follows, completions,
    plan⟩ := h
  cases step with
  | lookUp entries marked =>
      rw [split] at marked
      obtain ⟨kept', added', rfl, hk, ha⟩ := forall₂_append_left_split marked
      refine ⟨resource, options, fields, methods, finished, kept', added', rfl, ?_, ?_, ?_⟩
      · exact forall₂_trans (S := Follows) (fun _ _ _ => Follows.trans) follows (hk.imp fun _ _ => Marked.follows)
      · intro e he
        obtain ⟨before, hb, resolved, rfl⟩ := exists_left_of_forall₂ ha he
        exact completions before hb
      · have builders : added'.map completionBuilder = added.map completionBuilder := by
          refine map_eq_map_of_forall₂ ha ?_
          rintro e _ ⟨resolved, rfl⟩
          rfl
        rw [builders]
        exact plan
  | settle side inverse owner inside many =>
      have apart : side.relationship ∉ added.map (·.name) := by
        intro mem
        obtain ⟨e, he, name⟩ := List.mem_map.1 mem
        obtain ⟨⟨completing, _, _, same⟩, _⟩ := completions e he
        have found : d'.relationship? side.relationship = some e.relationship := by
          rw [wf.relationship?_eq_some_iff]
          exact ⟨e, split ▸ List.mem_append_right _ he, name, rfl⟩
        have kind := many _ found
        rw [same] at kind
        cases kind
      refine ⟨resource, options, fields, methods, finished, changeFirst (·.name == side.relationship)
        (fun e => { e with relationship := { e.relationship with inverse := some inverse } }) kept,
        added, ?_, ?_, completions, plan⟩
      · simp only [settled, Descriptor.modifyRelationship, split]
        exact changeFirst_append apart _
      · exact forall₂_trans (S := Follows) (fun _ _ _ => Follows.trans) follows (follows_changeFirst (fun r => ⟨some inverse, rfl⟩) kept)
  | complete side inverse owner target member free unbuilt =>
      refine ⟨resource, options, fields, methods, finished, kept,
        added ++ [completionEntry side inverse owner d'.resource], ?_, follows, ?_, ?_⟩
      · simp only [completed, split, List.append_assoc]
      · intro e he
        rcases List.mem_append.1 he with he | he
        · exact completions e he
        · rw [List.mem_singleton] at he
          subst he
          exact ⟨⟨side, target, member, rfl⟩, resource⟩
      · simp only [completed, BuildPlan.add, plan, List.append_assoc, List.map_append]
        rfl

theorem Bound.grown (h : Bound unit n d d') (wf : d.WellFormed) : Grown unit n d d' := by
  induction h with
  | refl => exact .refl d
  | tail before last ih => exact ih.step (Bound.wellFormed before wf) last

/-- Of a generated resource that is no member, binding only looks targets up. -/
structure Frozen (d d' : Descriptor) : Prop where
  marked : List.Forall₂ Marked d.relationships d'.relationships
  rest_eq : d' = { d with relationships := d'.relationships }

theorem Frozen.refl (d : Descriptor) : Frozen d d :=
  ⟨List.forall₂_same.2 fun e _ => .refl e, rfl⟩

theorem Frozen.trans {d'' : Descriptor} (h : Frozen d d') (h' : Frozen d' d'') : Frozen d d'' := by
  refine ⟨forall₂_trans (S := Marked) (fun _ _ _ => Marked.trans) h.marked h'.marked, ?_⟩
  rw [h'.rest_eq, h.rest_eq]

theorem Bound.frozen (h : Bound unit n d d') (outside : n ∉ unit) (built : d.isGenerated = true) :
    Frozen d d' := by
  induction h with
  | refl => exact ⟨List.forall₂_same.2 fun e _ => .refl e, rfl⟩
  | @tail d₁ d₂ _ last ih =>
      obtain ⟨marked, rest⟩ := ih
      cases last with
      | lookUp entries again =>
          refine ⟨forall₂_trans (S := Marked) (fun _ _ _ => Marked.trans) marked again, ?_⟩
          rw [rest]
      | settle side inverse owner inside many => exact absurd inside outside
      | complete side inverse owner target member free unbuilt =>
          rw [rest] at unbuilt
          change d.isGenerated = false at unbuilt
          rw [built] at unbuilt
          cases unbuilt

/-! ## What is bound still holds together -/

theorem Grown.hasProperty (h : Grown unit n d d') {name : String}
    (has : d.hasProperty name = true) : d'.hasProperty name = true := by
  obtain ⟨kept, added, split, follows, _⟩ := h.entries
  rw [Descriptor.hasProperty_iff] at has ⊢
  rcases has with field | relationship
  · exact .inl (by rw [Descriptor.fieldNames, h.fields_eq]; exact field)
  · refine .inr ?_
    rw [Descriptor.relationshipNames, split, List.map_append, names_of_follows follows]
    exact List.mem_append_left _ relationship

/-- An entry from before stays. -/
theorem Grown.exists_follows (h : Grown unit n d d') {e : RelationshipEntry}
    (mem : e ∈ d.relationships) : ∃ e' ∈ d'.relationships, Follows e e' := by
  obtain ⟨kept, added, split, follows, _⟩ := h.entries
  obtain ⟨e', mem', same⟩ := exists_right_of_forall₂ follows mem
  exact ⟨e', split ▸ List.mem_append_left _ mem', same⟩

/-- A relationship stays under its name, and only its inverse may have changed. -/
theorem Grown.relationship? (h : Grown unit n d d') (wf' : d'.WellFormed) {name : String}
    {r : Relationship} (found : d.relationship? name = some r) :
    ∃ inverse, d'.relationship? name = some { r with inverse } := by
  obtain ⟨e, entry, rfl⟩ := Option.map_eq_some_iff.1 found
  have name_eq : e.name = name := key_eq_of_find? entry
  obtain ⟨e', mem', name', _, inverse, same⟩ := h.exists_follows (List.mem_of_find?_eq_some entry)
  refine ⟨inverse, ?_⟩
  rw [wf'.relationship?_eq_some_iff]
  exact ⟨e', mem', name'.trans name_eq, same⟩

/-- An entry afterwards is one from before or a completion. -/
theorem Grown.origin (h : Grown unit n d d') {e' : RelationshipEntry} (mem : e' ∈ d'.relationships) :
    (∃ e ∈ d.relationships, Follows e e') ∨
      (IsCompletion unit n e' ∧ e'.declaredBy = d.resource
        ∧ completionBuilder e' ∈ d'.plan.builders) := by
  obtain ⟨kept, added, split, follows, completions, plan⟩ := h.entries
  rw [split] at mem
  rcases List.mem_append.1 mem with mem | mem
  · exact .inl (exists_left_of_forall₂ follows mem)
  · right
    refine ⟨(completions e' mem).1, (completions e' mem).2, ?_⟩
    rw [plan]
    exact List.mem_append_right _ (List.mem_map_of_mem mem)

/-- A primary key copies those that it did before: completions are identifying nowhere. -/
theorem Grown.mem_identifyingTargets (h : Grown unit n d d') {t : String} :
    t ∈ d'.identifyingTargets ↔ t ∈ d.identifyingTargets := by
  simp only [Descriptor.identifyingTargets, List.mem_map, List.mem_filter]
  constructor
  · rintro ⟨e', ⟨entry, copies⟩, rfl⟩
    rcases h.origin entry with ⟨e, before, _, _, inverse, same⟩ | ⟨⟨side, _, _, same⟩, _⟩
    · rw [same] at copies ⊢
      exact ⟨e, ⟨before, copies⟩, rfl⟩
    · rw [same] at copies
      cases copies
  · rintro ⟨e, ⟨entry, copies⟩, rfl⟩
    obtain ⟨e', entry', _, _, inverse, same⟩ := h.exists_follows entry
    refine ⟨e', ⟨entry', ?_⟩, by rw [same]⟩
    rw [same]
    exact copies

/-- A builder afterwards is one from before or that of a completion. -/
theorem Grown.builder (h : Grown unit n d d') {b : Builder} (mem : b ∈ d'.plan.builders) :
    b ∈ d.plan.builders ∨ ∃ e ∈ d'.relationships, IsCompletion unit n e ∧ b = completionBuilder e := by
  obtain ⟨kept, added, split, _, completions, plan⟩ := h.entries
  rw [plan] at mem
  rcases List.mem_append.1 mem with mem | mem
  · exact .inl mem
  · obtain ⟨e, he, rfl⟩ := List.mem_map.1 mem
    exact .inr ⟨e, split ▸ List.mem_append_right _ he, (completions e he).1, rfl⟩

theorem Grown.fresh (h : Grown unit n d d') (fresh : d.Fresh) : d'.Fresh := by
  intro b mem
  rcases h.builder mem with old | ⟨e, _, _, rfl⟩
  · exact fresh b old
  · rfl

theorem Grown.faithful (h : Grown unit n d d') (wf : d.WellFormed) (wf' : d'.WellFormed)
    (faithful : d.Faithful) : d'.Faithful := by
  intro b e' hb he' same
  rcases h.builder hb with old | ⟨e, he, ⟨side, _, _, completion⟩, new⟩
  · have built : b.name ∈ d.relationshipNames := (wf.relationship_built b.name).1 ⟨b, old, rfl⟩
    obtain ⟨e₀, he₀, name⟩ := List.mem_map.1 built
    have found : d.relationship? b.name = some e₀.relationship := by
      rw [wf.relationship?_eq_some_iff]
      exact ⟨e₀, he₀, name, rfl⟩
    obtain ⟨inverse, found'⟩ := h.relationship? wf' found
    have here : d'.relationship? b.name = some e'.relationship := by
      rw [wf'.relationship?_eq_some_iff]
      exact ⟨e', he', same, rfl⟩
    rw [here, Option.some.injEq] at found'
    obtain ⟨list, key⟩ := faithful b e₀ old he₀ name
    rw [found']
    exact ⟨list, key⟩
  · rw [completionBuilder, Builder.relationship.injEq] at new
    subst new
    have one : e' = e := List.inj_on_of_nodup_map wf'.relationships_distinct he' he same
    rw [one, completion]
    exact ⟨rfl, rfl⟩

/-! ## Among all descriptors -/

/-- Every descriptor of a roster is well formed. -/
def AllWellFormed (D : Roster Descriptor) : Prop := ∀ n d, D.get? n = some d → d.WellFormed

theorem AllWellFormed.evolve (h : AllWellFormed D) (steps : Roster.Evolves (Bound unit) D D') :
    AllWellFormed D' := by
  intro n d' found
  obtain ⟨d, before, bound⟩ := steps.get?_backward found
  exact bound.wellFormed (h n d before)

/-- What is pending before steps of binding is pending after them. -/
theorem isPending_evolved (wf : AllWellFormed D) (steps : Roster.Evolves (Bound unit) D D')
    (models : Roster Model) (n : String) :
    isPending D' models n = isPending D models n := by
  unfold isPending
  rcases steps.get? n with ⟨before, after⟩ | ⟨d, d', before, after, bound⟩
  · rw [before, after]
  · rw [before, after]
    have grown := bound.grown (wf n d before)
    simp only [Descriptor.isAbstract, Descriptor.isGenerated, grown.options_eq, grown.finished_eq]

theorem evolves_refl (D : Roster Descriptor) : Roster.Evolves (Bound unit) D D :=
  .refl (fun _ _ => .refl) D

theorem evolves_trans {D'' : Roster Descriptor} (h : Roster.Evolves (Bound unit) D D')
    (h' : Roster.Evolves (Bound unit) D' D'') : Roster.Evolves (Bound unit) D D'' :=
  h.trans (fun _ _ _ _ => Relation.ReflTransGen.trans) h'

/-- A side of a descriptor that is there: a one-to-many into the target of the side. -/
def Fits (D : Roster Descriptor) (side : ManySide) : Prop :=
  ∃ d r, D.get? side.owner = some d ∧ d.relationship? side.relationship = some r
    ∧ r.kind = .oneToMany ∧ r.target = side.target

theorem Fits.evolve {side : ManySide} (h : Fits D side) (wf : AllWellFormed D)
    (steps : Roster.Evolves (Bound unit) D D') : Fits D' side := by
  obtain ⟨d, r, found, named, kind, target⟩ := h
  obtain ⟨d', found', bound⟩ := steps.get?_forward found
  have wf' := bound.wellFormed (wf _ _ found)
  obtain ⟨inverse, named'⟩ := (bound.grown (wf _ _ found)).relationship? wf' named
  exact ⟨d', _, found', named', kind, target⟩

theorem mem_manySidesOf {owner : String} {side : ManySide} :
    side ∈ manySidesOf owner d ↔ ∃ e ∈ d.relationships, e.relationship.kind = .oneToMany ∧
      side = { owner, inherited := e.declaredBy != owner, relationship := e.name,
               target := e.relationship.target, inverse := e.relationship.inverse,
               onUpdate := e.relationship.onUpdate, onDelete := e.relationship.onDelete } := by
  simp only [manySidesOf, List.mem_map, List.mem_filter, beq_iff_eq, and_assoc]
  constructor
  · rintro ⟨e, mem, kind, rfl⟩
    exact ⟨e, mem, kind, rfl⟩
  · rintro ⟨e, mem, kind, rfl⟩
    exact ⟨e, mem, kind, rfl⟩

theorem mem_manySides {side : ManySide} :
    side ∈ manySides D unit ↔
      ∃ n ∈ unit, ∃ d, D.get? n = some d ∧ side ∈ manySidesOf n d := by
  simp only [manySides, List.mem_flatMap]
  constructor
  · rintro ⟨n, member, mem⟩
    cases found : D.get? n with
    | none => simp [found] at mem
    | some d => exact ⟨n, member, d, found, by simpa [found] using mem⟩
  · rintro ⟨n, member, d, found, mem⟩
    exact ⟨n, member, by simpa [found] using mem⟩

theorem fits_of_mem_manySides (wf : AllWellFormed D) {side : ManySide}
    (h : side ∈ manySides D unit) : side.owner ∈ unit ∧ Fits D side := by
  obtain ⟨n, member, d, found, mem⟩ := mem_manySides.1 h
  obtain ⟨e, he, kind, rfl⟩ := mem_manySidesOf.1 mem
  refine ⟨member, d, e.relationship, found, ?_, kind, rfl⟩
  rw [(wf n d found).relationship?_eq_some_iff]
  exact ⟨e, he, rfl, rfl⟩

section Evolving

variable (distinct : D.names.Nodup)

include distinct

/-- A step on one descriptor is a step among all. -/
theorem evolves_modify_of (found : D.get? n = some d) (step : Bound unit n d d') :
    Roster.Evolves (Bound unit) D (D.modify n fun _ => d') := by
  refine Roster.evolves_modify (fun _ _ _ => .refl) ?_
  intro a mem
  have same : D.get? n = some a := Roster.get?_of_mem_entries distinct mem
  rw [found, Option.some.injEq] at same
  exact same ▸ step

theorem evolves_lookUpTargets (resources : Roster Resource) (unit : List String) (n : String) :
    Roster.Evolves (Bound unit) D (lookUpTargets resources n D).state := by
  rw [lookUpTargets_eq]
  unfold within
  cases found : D.get? n with
  | none => exact evolves_refl D
  | some d =>
      refine evolves_modify_of distinct found (.of_step ?_)
      exact .lookUp d _ (Action.forall₂_each Marked.refl marked_lookUpOne d.relationships ())

theorem evolves_settledIn {side : ManySide} (member : side.owner ∈ unit) (fits : Fits D side)
    (inverse : String) :
    Roster.Evolves (Bound unit) D (settledIn D side inverse) := by
  obtain ⟨d, r, found, named, kind, _⟩ := fits
  refine Roster.evolves_modify (fun _ _ _ => .refl) ?_
  intro a mem
  have same : D.get? side.owner = some a := Roster.get?_of_mem_entries distinct mem
  rw [found, Option.some.injEq] at same
  subst same
  refine .of_step (.settle d side inverse rfl member ?_)
  intro r' named'
  rw [named, Option.some.injEq] at named'
  exact named' ▸ kind

theorem evolves_completeSide (resources : Roster Resource) (models : Roster Model)
    {side : ManySide} (member : side.owner ∈ unit) (fits : Fits D side) :
    Roster.Evolves (Bound unit) D (completeSide resources models side D).state := by
  have first := evolves_settledIn distinct member fits (inverseName D side)
  rcases Action.answers_or_fails (completeSide resources models side) D with
    ⟨u, D', h⟩ | ⟨e, D', h⟩
  · rw [h.2]
    obtain ⟨t, ht, ⟨_, rfl⟩ | ⟨free, _, unbuilt, owner, _, rfl⟩⟩ := answers_completeSide.1 h
    · exact first
    · refine evolves_trans first (evolves_modify_of ?_ ht (.of_step ?_))
      · rw [first.names_eq]
        exact distinct
      · exact .complete t side _ owner rfl member free unbuilt
  · rw [h.2, ← fails_completeSide h]
    exact first

end Evolving

/-- Whether it succeeds or fails, binding only takes its steps on descriptors. -/
theorem evolves_bind (distinct : D.names.Nodup) (wf : AllWellFormed D) (root : String) :
    Roster.Evolves (Bound (members resources D models root)) D
      (bind resources models root D).state := by
  generalize unit_eq : members resources D models root = unit
  have names : ∀ {D'}, Roster.Evolves (Bound unit) D D' → D'.names.Nodup := by
    intro D' steps
    rw [steps.names_eq]
    exact distinct
  have lookUps : Action.Keeps (Roster.Evolves (Bound unit) D)
      (forM unit (lookUpTargets resources)) := by
    refine Action.keeps_forM fun n _ => ?_
    intro D' steps
    exact evolves_trans steps (evolves_lookUpTargets (names steps) resources unit n)
  have completions : ∀ D₁, Roster.Evolves (Bound unit) D D₁ →
      Action.Keeps (Roster.Evolves (Bound unit) D₁)
        (forM (manySides D₁ unit) (completeSide resources models)) := by
    intro D₁ before
    refine Action.keeps_forM fun side mem => ?_
    intro D' steps
    obtain ⟨member, fits⟩ := fits_of_mem_manySides (wf.evolve before) mem
    refine evolves_trans steps
      (evolves_completeSide ?_ resources models member (fits.evolve (wf.evolve before) steps))
    exact names (evolves_trans before steps)
  unfold bind
  rw [Action.bind_apply_ok (rfl : Action.reads _ D = ⟨.ok _, D, []⟩), unit_eq]
  simp only [List.forM_eq_forM]
  have start := lookUps D (evolves_refl D)
  rcases looked : forM unit (lookUpTargets resources) D with ⟨_ | u, D₁, notes⟩
  · rw [looked] at start
    rw [Action.bind_apply_error looked]
    exact start
  · rw [looked] at start
    rw [Action.bind_apply_ok looked, Action.bind_apply_ok (rfl : Action.reads _ D₁ = ⟨.ok _, D₁, []⟩)]
    have next := completions D₁ start D₁ (evolves_refl D₁)
    rcases done : forM (manySides D₁ unit) (completeSide resources models) D₁ with
      ⟨_ | u, D₂, notes'⟩
    · rw [done] at next
      simp only [Action.bind_apply_error done]
      exact evolves_trans start next
    · rw [done] at next
      simp only [Action.bind_apply_ok done]
      have last : ∀ x : Action (Roster Descriptor) (List String),
          Action.Keeps (Roster.Evolves (Bound unit) D) x → _ :=
        fun x keeps => keeps D₂ (evolves_trans start next)
      refine last _ (Action.keeps_read.bind fun _ => (Action.keeps_ofExcept _).bind fun _ => ?_)
      exact (Action.keeps_note _ _).bind fun _ => Action.keeps_pure _

/-! ## Binding that succeeds -/

/-- Binding succeeds just if every part of it does, and then answers with the members in order. -/
theorem answers_bindUnit {root : String} {ordered : List String} :
    (bind resources models root).Answers D ordered D' ↔
      ∃ D₁, (forM (members resources D models root) (lookUpTargets resources)).Answers D ⟨⟩ D₁
        ∧ (forM (manySides D₁ (members resources D models root))
            (completeSide resources models)).Answers D₁ ⟨⟩ D'
        ∧ (members resources D models root).forM (checkResource D') = .ok ⟨⟩
        ∧ inDeclarationOrder resources (members resources D models root) = ordered := by
  unfold bind
  rw [Action.answers_reads_bind]
  simp only [List.forM_eq_forM, Action.answers_bind (x := forM _ _)]
  constructor
  · rintro ⟨⟨⟩, D₁, looked, h⟩
    rw [Action.answers_reads_bind] at h
    obtain ⟨⟨⟩, D₂, completed, h⟩ := Action.answers_bind.1 h
    rw [Action.answers_read_bind] at h
    obtain ⟨⟨⟩, _, checked, h⟩ := Action.answers_bind.1 h
    obtain ⟨ok, rfl⟩ := Action.answers_ofExcept.1 checked
    rw [Action.answers_note_bind] at h
    obtain ⟨rfl, rfl⟩ := Action.answers_pure.1 h
    exact ⟨D₁, looked, completed, ok, rfl⟩
  · rintro ⟨D₁, looked, completed, ok, rfl⟩
    refine ⟨⟨⟩, D₁, looked, ?_⟩
    rw [Action.answers_reads_bind]
    refine Action.answers_bind.2 ⟨⟨⟩, D', completed, ?_⟩
    rw [Action.answers_read_bind]
    refine Action.answers_bind.2 ⟨⟨⟩, D', Action.answers_ofExcept.2 ⟨ok, rfl⟩, ?_⟩
    rw [Action.answers_note_bind]
    exact Action.answers_pure.2 ⟨rfl, rfl⟩

/-- Binding fails while it looks targets up, while it completes sides, or when it checks them. -/
theorem fails_bindUnit {root : String} :
    (bind resources models root).Fails D e D' ↔
      (forM (members resources D models root) (lookUpTargets resources)).Fails D e D' ∨
      ∃ D₁, (forM (members resources D models root) (lookUpTargets resources)).Answers D ⟨⟩ D₁ ∧
        ((forM (manySides D₁ (members resources D models root))
            (completeSide resources models)).Fails D₁ e D' ∨
          (forM (manySides D₁ (members resources D models root))
            (completeSide resources models)).Answers D₁ ⟨⟩ D'
          ∧ (members resources D models root).forM (checkResource D') = .error e) := by
  unfold bind
  rw [Action.fails_reads_bind]
  simp only [List.forM_eq_forM]
  constructor
  · intro h
    rcases Action.fails_bind.1 h with unknown | ⟨⟨⟩, D₁, looked, h⟩
    · exact .inl unknown
    refine .inr ⟨D₁, looked, ?_⟩
    rw [Action.fails_reads_bind] at h
    rcases Action.fails_bind.1 h with incomplete | ⟨⟨⟩, D₂, completed, h⟩
    · exact .inl incomplete
    refine .inr ?_
    rw [Action.fails_read_bind] at h
    rcases Action.fails_bind.1 h with unfit | ⟨⟨⟩, _, _, h⟩
    · obtain ⟨wrong, rfl⟩ := Action.fails_ofExcept.1 unfit
      exact ⟨completed, wrong⟩
    · rw [Action.fails_note_bind] at h
      exact absurd h Action.fails_pure
  · rintro (unknown | ⟨D₁, looked, h⟩)
    · exact Action.fails_bind.2 (.inl unknown)
    refine Action.fails_bind.2 (.inr ⟨⟨⟩, D₁, looked, ?_⟩)
    rw [Action.fails_reads_bind]
    rcases h with incomplete | ⟨completed, wrong⟩
    · exact Action.fails_bind.2 (.inl incomplete)
    · refine Action.fails_bind.2 (.inr ⟨⟨⟩, D', completed, ?_⟩)
      rw [Action.fails_read_bind]
      exact Action.fails_bind.2 (.inl (Action.fails_ofExcept.2 ⟨wrong, rfl⟩))

/-- What looking up targets and completing sides keep, binding keeps, whether it succeeds or
fails. -/
theorem keeps_bind {J : Roster Descriptor → Prop}
    (looks : ∀ n, Action.Keeps J (lookUpTargets resources n))
    (completes : ∀ D unit, J D → ∀ side ∈ manySides D unit,
      Action.Keeps J (completeSide resources models side)) (root : String) :
    Action.Keeps J (bind resources models root) := by
  have looked : ∀ D, Action.Keeps J
      (forM (members resources D models root) (lookUpTargets resources)) :=
    fun _ => Action.keeps_forM fun n _ => looks n
  have completed : ∀ D D₁, J D₁ → Action.Keeps J
      (forM (manySides D₁ (members resources D models root)) (completeSide resources models)) :=
    fun _ D₁ holds => Action.keeps_forM fun side mem => completes D₁ _ holds side mem
  refine Action.keeps_of_ends ?_ ?_
  · intro D ordered D' holds h
    obtain ⟨D₁, first, second, _, _⟩ := answers_bindUnit.1 h
    have next := (looked D).of_answers first holds
    exact (completed D D₁ next).of_answers second next
  · intro D e D' holds h
    rcases fails_bindUnit.1 h with first | ⟨D₁, first, second⟩
    · exact (looked D).of_fails first holds
    · have next := (looked D).of_answers first holds
      rcases second with fails | ⟨answers, _⟩
      · exact (completed D D₁ next).of_fails fails next
      · exact (completed D D₁ next).of_answers answers next

/-- Checking a unit succeeds just if it does for each member. -/
theorem forM_eq_ok {α : Type} {f : α → Except Error PUnit} {xs : List α} :
    xs.forM f = .ok ⟨⟩ ↔ ∀ x ∈ xs, f x = .ok ⟨⟩ := by
  rw [List.forM_eq_forM]
  induction xs with
  | nil => simp [pure, Except.pure]
  | cons x rest ih =>
      rw [List.forM_cons, List.forall_mem_cons, ← ih]
      cases one : f x with
      | error e => simp [Bind.bind, Except.bind]
      | ok _ => simp [Bind.bind, Except.bind]

theorem checkResource_eq_ok :
    checkResource D n = .ok () ↔
      ∀ d, D.get? n = some d → ∀ e ∈ d.relationships, checkEntry D n e = .ok () := by
  unfold checkResource
  cases found : D.get? n with
  | none => simp
  | some d =>
      simp only [Option.some.injEq, forall_eq']
      exact forM_eq_ok

/-- A unit whose targets are looked up refers to nothing but registered resources with tables. -/
theorem targets_of_lookUps (distinct : D.names.Nodup) (wf : AllWellFormed D)
    (h : (forM unit (lookUpTargets resources)).Answers D ⟨⟩ D') :
    Roster.Evolves (Bound unit) D D' ∧ ∀ n ∈ unit, ∃ d, D.get? n = some d ∧
      ∀ e ∈ d.relationships, ∃ r, resources.get? e.relationship.target = some r
        ∧ r.isAbstract = false := by
  refine h.forM_induction (I := fun done D' => Roster.Evolves (Bound unit) D D' ∧ ∀ n ∈ done,
    ∃ d, D.get? n = some d ∧ ∀ e ∈ d.relationships, ∃ r,
      resources.get? e.relationship.target = some r ∧ r.isAbstract = false) ?_ ?_
  · exact ⟨evolves_refl D, by simp⟩
  · rintro done n rest D₁ D₂ _ ⟨steps, known⟩ one
    have names : D₁.names.Nodup := by rw [steps.names_eq]; exact distinct
    have step := evolves_lookUpTargets names resources unit n
    rw [one.2] at step
    refine ⟨evolves_trans steps step, fun m mem => ?_⟩
    rcases List.mem_append.1 mem with before | here
    · exact known m before
    · rw [List.mem_singleton] at here
      subst here
      obtain ⟨d₁, entries, found₁, looked, _⟩ := answers_lookUpTargets.1 one
      obtain ⟨d, found, bound⟩ := steps.get?_backward found₁
      refine ⟨d, found, fun e he => ?_⟩
      obtain ⟨e₁, he₁, _, _, inverse, same⟩ := (bound.grown (wf _ _ found)).exists_follows he
      obtain ⟨_, _, r, hr, concrete, _⟩ := exists_right_of_forall₂ looked he₁
      rw [same] at hr
      exact ⟨r, hr, concrete⟩

/-- The steps of binding that succeeds, in two halves. -/
theorem evolves_of_answers (distinct : D.names.Nodup) (wf : AllWellFormed D)
    (h : (forM (manySides D unit) (completeSide resources models)).Answers D ⟨⟩ D') :
    Roster.Evolves (Bound unit) D D' := by
  refine h.forM_induction (I := fun _ D' => Roster.Evolves (Bound unit) D D') (evolves_refl D) ?_
  intro done side rest D₁ D₂ split steps one
  obtain ⟨member, fits⟩ := fits_of_mem_manySides wf
    (split ▸ List.mem_append_right _ List.mem_cons_self : side ∈ manySides D unit)
  have names : D₁.names.Nodup := by rw [steps.names_eq]; exact distinct
  have step := evolves_completeSide names resources models member (fits.evolve wf steps)
  rw [one.2] at step
  exact evolves_trans steps step

end Binding

end ResourceTables
