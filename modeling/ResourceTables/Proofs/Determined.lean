/-
# `ResourceTables.Proofs.Determined` — what binding makes of a resource, read off the declarations

Which resources are bound together depends on the request.  But all that have a one-to-many into a
resource are bound with it, and as long as no two of them ask for one free name, it ends up with the same
relationships in every unit.  Only the order of its completions depends on the unit.
-/
import Mathlib
import ResourceTables.Proofs.Drawings
import ResourceTables.Proofs.Leftovers
import ResourceTables.Proofs.Owners

namespace ResourceTables

/-! ## Descriptors that show the same -/

namespace Descriptor

/-- The same fields, and the same relationship under each name. -/
structure Shows (d d' : Descriptor) : Prop where
  fields_eq : d'.fields = d.fields
  relationship?_eq : ∀ x, d'.relationship? x = d.relationship? x

variable {d d' d'' : Descriptor}

theorem Shows.symm (h : d.Shows d') : d'.Shows d :=
  ⟨h.fields_eq.symm, fun x => (h.relationship?_eq x).symm⟩

theorem Shows.trans (h : d.Shows d') (h' : d'.Shows d'') : d.Shows d'' :=
  ⟨h'.fields_eq.trans h.fields_eq, fun x => (h'.relationship?_eq x).trans (h.relationship?_eq x)⟩

theorem Shows.hasProperty_eq (h : d.Shows d') (x : String) : d'.hasProperty x = d.hasProperty x := by
  rw [Binding.hasProperty_eq, Binding.fieldNamed?_congr h.fields_eq, h.relationship?_eq,
    Binding.hasProperty_eq]

end Descriptor

namespace Binding

open Descriptor

variable {resources : Roster Resource} {models : Roster Model} {unit : List String}
  {n x : String} {d d' d₁ d₂ t t' : Descriptor} {D D' D₁ E : Roster Descriptor} {u : Unit}
  {r : Relationship} {sides : List ManySide}

theorem Frozen.shows (h : Frozen d d') : d.Shows d' :=
  ⟨by rw [h.rest_eq], h.relationship?_eq⟩

theorem counterpart?_congr (there : D.get? r.target = some t) (there' : D'.get? r.target = some t')
    (same : t.Shows t') : counterpart? D' r = counterpart? D r := by
  simp only [counterpart?, there, there', Option.bind_eq_bind, Option.bind_some, same.hasProperty_eq,
    same.relationship?_eq]

/-- A check sees of other resources nothing but the counterpart. -/
theorem checkEntry_congr {e e' : RelationshipEntry} (name : e'.name = e.name)
    (origin : e'.declaredBy = e.declaredBy) (relationship : e'.relationship = e.relationship)
    (same : counterpart? D' e.relationship = counterpart? D e.relationship) :
    checkEntry D' n e' = checkEntry D n e := by
  simp only [checkEntry, name, origin, relationship, same]

/-! ## The completions of a descriptor that has grown -/

/-- The side of a completion, whose key is made with the others of its resource. -/
def completionSide (x : String) (r : Relationship) : KeySide :=
  ⟨{ name := x, useList := false, forcesPrimaryKey := false }, r⟩

/-- What a descriptor has gained: relationships that host keys, under names that were free, each with its
builder. -/
structure Gains (d d' : Descriptor) (added : List RelationshipEntry) : Prop where
  builders_eq : d'.plan.builders = d.plan.builders ++ added.map completionBuilder
  distinct : (added.map (·.name)).Nodup
  synthesized : ∀ e ∈ added, e.relationship.hostsKey = true ∧ e.relationship.synthesized = true
  exists_iff : ∀ x r, (∃ e ∈ added, e.name = x ∧ e.relationship = r) ↔
    d.hasProperty x = false ∧ d'.relationship? x = some r

theorem Grown.exists_gains (h : Grown unit n d d') (wf' : d'.WellFormed) : ∃ added, Gains d d' added := by
  obtain ⟨kept, added, split, follows, completions, plan⟩ := h.entries
  have names : kept.map (·.name) = d.relationshipNames := names_of_follows follows
  have distinct : (d.relationshipNames ++ added.map (·.name)).Nodup := by
    rw [← names, ← List.map_append, ← split]
    exact wf'.relationships_distinct
  obtain ⟨_, once, apart⟩ := List.nodup_append.1 distinct
  refine ⟨added, plan, once, fun e mem => ?_, fun x r => ⟨?_, ?_⟩⟩
  · obtain ⟨⟨side, _, _, same⟩, _⟩ := completions e mem
    rw [same]
    exact ⟨rfl, rfl⟩
  · rintro ⟨e, mem, rfl, rfl⟩
    have entry : e ∈ d'.relationships := split ▸ List.mem_append_right _ mem
    refine ⟨hasProperty_eq_false_iff.2 ⟨fun field => ?_, fun old => ?_⟩,
      wf'.relationship?_eq_some_iff.2 ⟨e, entry, rfl, rfl⟩⟩
    · refine wf'.apart e.name ?_ (List.mem_map_of_mem entry)
      rw [fieldNames, h.fields_eq]
      exact field
    · exact apart _ old _ (List.mem_map_of_mem mem) rfl
  · rintro ⟨free, found⟩
    obtain ⟨e, entry, rfl, rfl⟩ := wf'.relationship?_eq_some_iff.1 found
    refine ⟨e, ((List.mem_append.1 (split ▸ entry)).resolve_left fun old => ?_), rfl, rfl⟩
    exact (hasProperty_eq_false_iff.1 free).2 (names ▸ List.mem_map_of_mem old)

/-- What has grown ends with the builders of its completions, whose names were free. -/
theorem Grown.exists_sides (h : Grown unit n d d') (wf' : d'.WellFormed) :
    ∃ sides, d'.Ends d.plan.builders sides ∧ sides.Nodup
      ∧ (∀ s ∈ sides, s.Completes fun x => d.hasProperty x = false)
      ∧ ∀ s, s ∈ sides ↔ ∃ x r, d.hasProperty x = false ∧ d'.relationship? x = some r
          ∧ completionSide x r = s := by
  obtain ⟨added, gains⟩ := h.exists_gains wf'
  have known : ∀ e ∈ added, d.hasProperty e.name = false
      ∧ d'.relationship? e.name = some e.relationship :=
    fun e mem => (gains.exists_iff _ _).1 ⟨e, mem, rfl, rfl⟩
  refine ⟨added.map fun e => completionSide e.name e.relationship, ⟨?_, ?_, ?_⟩, ?_, ?_, fun s => ?_⟩
  · rw [gains.builders_eq, List.map_map]
    rfl
  · intro s mem
    obtain ⟨e, inside, rfl⟩ := List.mem_map.1 mem
    refine Builder.keyFor?_eq_some_iff.2 ⟨rfl, ?_, (gains.synthesized e inside).1⟩
    rw [view_relationship?]
    exact (known e inside).2
  · intro s mem
    obtain ⟨e, _, rfl⟩ := List.mem_map.1 mem
    rfl
  · refine List.Nodup.of_map (·.builder.name) ?_
    rw [List.map_map]
    exact gains.distinct
  · intro s mem
    obtain ⟨e, inside, rfl⟩ := List.mem_map.1 mem
    obtain ⟨hosts, synthesized⟩ := gains.synthesized e inside
    exact ⟨(known e inside).1, synthesized, hosts, rfl⟩
  · rw [List.mem_map]
    constructor
    · rintro ⟨e, inside, rfl⟩
      exact ⟨e.name, e.relationship, (known e inside).1, (known e inside).2, rfl⟩
    · rintro ⟨x, r, free, found, rfl⟩
      obtain ⟨e, inside, rfl, rfl⟩ := (gains.exists_iff x r).2 ⟨free, found⟩
      exact ⟨e, inside, rfl⟩

/-! ## The relationships in the end -/

/-- The resources with tables. -/
def tabled (D : Roster Descriptor) : List String :=
  (D.entries.filter fun p => !p.2.isAbstract).map (·.1)

theorem mem_tabled (distinct : D.names.Nodup) :
    n ∈ tabled D ↔ ∃ d, D.get? n = some d ∧ d.isAbstract = false := by
  simp only [tabled, List.mem_map, List.mem_filter]
  constructor
  · rintro ⟨p, ⟨mem, concrete⟩, rfl⟩
    exact ⟨p.2, Roster.get?_of_mem_entries distinct mem, by simpa using concrete⟩
  · rintro ⟨d, found, concrete⟩
    exact ⟨(n, d), ⟨Roster.mem_entries_of_get? found, by simpa using concrete⟩, rfl⟩

theorem surrounds_tabled (distinct : D.names.Nodup) (found : D.get? n = some d)
    (concrete : d.isAbstract = false) : Surrounds D (tabled D) n where
  tabled := fun _ mem => (mem_tabled distinct).1 mem
  member := (mem_tabled distinct).2 ⟨d, found, concrete⟩
  owners := fun _ ⟨o, owner, has, _⟩ _ => (mem_tabled distinct).2 ⟨o, owner, has⟩

/-- The relationship under a name of a declared resource once the sides of all resources are settled. -/
def finalRelationship? (D : Roster Descriptor) (n : String) (d : Descriptor) (x : String) :
    Option Relationship :=
  settledRelationship? d n ((tabled D).flatMap (ownSettlements D)) x

/-- What becomes of the descriptor of a declared resource by binding. -/
structure Final (D : Roster Descriptor) (n : String) (d d' : Descriptor) : Prop where
  grown : ∃ unit, Grown unit n d d'
  wellFormed : d'.WellFormed
  fresh : d'.Fresh
  keysFit : d'.KeysFit
  relationship?_eq : ∀ x, d'.relationship? x = finalRelationship? D n d x

namespace Final

theorem shows (h : Final D n d d₁) (h' : Final D n d d₂) : d₁.Shows d₂ := by
  obtain ⟨_, grown⟩ := h.grown
  obtain ⟨_, grown'⟩ := h'.grown
  exact ⟨grown'.fields_eq.trans grown.fields_eq.symm,
    fun x => (h'.relationship?_eq x).trans (h.relationship?_eq x).symm⟩

/-- Only the order of completions is left open. -/
theorem akin (wf : d.WellFormed) (h : Final D n d d₁) (h' : Final D n d d₂) :
    d₁.Akin (fun x => d.hasProperty x = false) d₂ := by
  obtain ⟨_, grown⟩ := h.grown
  obtain ⟨_, grown'⟩ := h'.grown
  obtain ⟨sides, ends, distinct, completes, mem⟩ := grown.exists_sides h.wellFormed
  obtain ⟨sides', ends', distinct', _, mem'⟩ := grown'.exists_sides h'.wellFormed
  have perm : sides.Perm sides' := by
    refine (List.perm_ext_iff_of_nodup distinct distinct').2 fun s => ?_
    simp only [mem, mem', (h.shows h').relationship?_eq]
  refine ⟨(h.shows h').relationship?_eq, _, sides, sides', ends, ends', perm, completes, ?_⟩
  -- What is there from the start was declared.
  intro b built undeclared
  have name : b.name ∈ d.plan.names := List.mem_map_of_mem built
  obtain ⟨field, relationship⟩ := hasProperty_eq_false_iff.1 undeclared
  exact (wf.mem_plan_names.1 name).elim field relationship

/-- An entry of the one descriptor has its like on the other. -/
theorem exists_entry (h : Final D n d d₁) (h' : Final D n d d₂) (wf : d.WellFormed)
    {e : RelationshipEntry} (mem : e ∈ d₂.relationships) :
    ∃ e₁ ∈ d₁.relationships, e.name = e₁.name ∧ e.declaredBy = e₁.declaredBy
      ∧ e.relationship = e₁.relationship := by
  obtain ⟨_, grown⟩ := h.grown
  obtain ⟨_, grown'⟩ := h'.grown
  have found := (h.shows h').relationship?_eq e.name
  rw [h'.wellFormed.relationship?_eq_some_iff.2 ⟨e, mem, rfl, rfl⟩] at found
  obtain ⟨e₁, mem₁, name, same⟩ := h.wellFormed.relationship?_eq_some_iff.1 found.symm
  refine ⟨e₁, mem₁, name.symm, ?_, same.symm⟩
  -- Both stand for one declared relationship, or both for completions of one name.
  have declared : ∀ {unit : List String} {d' : Descriptor} {e : RelationshipEntry},
      Grown unit n d d' → d'.WellFormed → e ∈ d'.relationships → e.declaredBy
        = ((d.relationshipNamed? e.name).map (·.declaredBy)).getD d.resource := by
    intro unit d' e grown wf' mem
    obtain ⟨kept, added, split, follows, completions, _⟩ := grown.entries
    have distinct := wf'.relationships_distinct
    rw [relationshipNames, split, List.map_append] at distinct
    rw [split] at mem
    rcases List.mem_append.1 mem with old | new
    · obtain ⟨e₀, before, name, origin, _⟩ := exists_left_of_forall₂ follows old
      rw [relationshipNamed?, name, find?_key_of_mem wf.relationships_distinct before, Option.map_some,
        Option.getD_some, origin]
    · have free : d.relationshipNamed? e.name = none := by
        refine relationshipNamed?_eq_none_iff.2 fun old => ?_
        rw [relationshipNames, ← names_of_follows follows] at old
        exact (List.nodup_append.1 distinct).2.2 _ old _ (List.mem_map_of_mem new) rfl
      rw [free, (completions e new).2]
      rfl
  rw [declared grown' h'.wellFormed mem, declared grown h.wellFormed mem₁, name]

end Final

/-! ## Units that have all they need -/

/-- A unit of resources that are as they were declared, with all that have sides into it and all that its
sides lead to. -/
structure Gathers (D E : Roster Descriptor) (unit : List String) : Prop where
  distinct : unit.Nodup
  declared : ∀ n ∈ unit, E.get? n = D.get? n
  surrounds : ∀ n ∈ unit, Surrounds D unit n
  targets : ∀ side ∈ manySides D unit, side.target ∈ unit

/-- Looking targets up changes members only. -/
theorem get?_of_lookUps (h : (forM unit (lookUpTargets resources)).Answers D ⟨⟩ D')
    (outside : n ∉ unit) : D'.get? n = D.get? n := by
  refine h.forM_induction (I := fun _ D' => D'.get? n = D.get? n) rfl ?_
  intro done k rest D₁ D₂ split before one
  obtain ⟨_, _, _, _, rfl⟩ := answers_lookUpTargets.1 one
  have other : n ≠ k := by
    rintro rfl
    exact outside (split ▸ List.mem_append_right _ List.mem_cons_self)
  rw [Roster.get?_modify_other other, before]

/-- Completing sides changes their owners and targets only. -/
theorem get?_of_completions (h : (forM sides (completeSide resources models)).Answers D ⟨⟩ D')
    (owner : ∀ side ∈ sides, n ≠ side.owner) (target : ∀ side ∈ sides, n ≠ side.target) :
    D'.get? n = D.get? n := by
  refine h.forM_induction (I := fun _ D' => D'.get? n = D.get? n) rfl ?_
  intro done side rest D₁ D₂ split before one
  have mem : side ∈ sides := split ▸ List.mem_append_right _ List.mem_cons_self
  obtain ⟨_, _, ⟨_, rfl⟩ | ⟨_, _, _, _, _, rfl⟩⟩ := answers_completeSide.1 one
  · rw [settledIn, Roster.get?_modify_other (owner side mem), before]
  · rw [Roster.get?_modify_other (target side mem), settledIn,
      Roster.get?_modify_other (owner side mem), before]

/-- Targets that are registered and have tables can be looked up. -/
theorem exists_lookUps (distinct : D.names.Nodup) (known : ∀ n ∈ unit, ∃ d, D.get? n = some d ∧
      ∀ e ∈ d.relationships, ∃ r, resources.get? e.relationship.target = some r
        ∧ r.isAbstract = false) :
    ∃ D', (forM unit (lookUpTargets resources)).Answers D ⟨⟩ D' := by
  refine (Action.exists_answers_forM (I := fun _ D' => Stays D D') (.refl D) ?_).imp
    fun _ ends => ends.1
  intro done n rest D₁ split stays
  obtain ⟨d, found, targets⟩ := known n (split ▸ List.mem_append_right _ List.mem_cons_self)
  obtain ⟨d₁, found₁, frozen⟩ := stays.get?_forward found
  obtain ⟨entries, looked⟩ : ∃ entries, List.Forall₂ (LookedUp resources) d₁.relationships entries := by
    refine exists_forall₂ fun e mem => ?_
    obtain ⟨e₀, before, _, _, same⟩ := frozen.exists_entry mem
    obtain ⟨r, registered, concrete⟩ := targets e₀ before
    exact ⟨{ e with resolved := some r }, r, same ▸ registered, concrete, rfl⟩
  have one : (lookUpTargets resources n).Answers D₁ ()
      (D₁.modify n fun _ => { d₁ with relationships := entries }) :=
    answers_lookUpTargets.2 ⟨d₁, entries, found₁, looked, rfl⟩
  have distinct₁ : D₁.names.Nodup := by
    rw [stays.names_eq]
    exact distinct
  have step : Stays D₁ (lookUpTargets resources n D₁).state := stays_lookUpTargets distinct₁ n
  rw [one.2] at step
  exact ⟨_, one, stays.trans step⟩

namespace Gathers

variable (h : Gathers D E unit)

include h

theorem exists_declared (member : n ∈ unit) :
    ∃ d, D.get? n = some d ∧ d.isAbstract = false ∧ E.get? n = some d := by
  obtain ⟨d, found, concrete⟩ := (h.surrounds n member).tabled n member
  exact ⟨d, found, concrete, (h.declared n member).trans found⟩

theorem manySides_eq (stays : Stays E D₁) : manySides D₁ unit = manySides D unit := by
  rw [stays.manySides_eq]
  unfold manySides
  exact List.flatMap_congr fun n member => by rw [h.declared n member]

/-- Before any side is completed everything is as it was declared. -/
theorem start (stays : Stays E D₁) : Settles D unit [] D₁ := by
  intro n member
  obtain ⟨d, found, _, there⟩ := h.exists_declared member
  obtain ⟨d₁, found₁, frozen⟩ := stays.get?_forward there
  refine ⟨d, d₁, found, found₁, frozen.shows.fields_eq, fun x => ?_⟩
  rw [settledRelationship?_nil, frozen.relationship?_eq]

theorem fits (wf : AllWellFormed D) : ∀ side ∈ manySides D unit, side.target ∈ unit ∧ Fits D side :=
  fun side mem => ⟨h.targets side mem, (fits_of_mem_manySides wf mem).2⟩

/-- Once the sides of such a unit are completed, its members have their relationships in the end. -/
theorem settles (distinct : D.names.Nodup) (wf : AllWellFormed D)
    (uncontested : ∀ n ∈ unit, Uncontested D n) (stays : Stays E D₁)
    (completed : (forM (manySides D₁ unit) (completeSide resources models)).Answers D₁ ⟨⟩ D')
    (member : n ∈ unit) :
    ∃ d d', D.get? n = some d ∧ D'.get? n = some d' ∧ d'.fields = d.fields
      ∧ ∀ x, d'.relationship? x = finalRelationship? D n d x := by
  rw [h.manySides_eq stays] at completed
  obtain ⟨d, d', found, found', fields, look⟩ := (h.start stays).run (h.fits wf)
    (nodup_keys_manySides h.distinct wf) completed n member
  refine ⟨d, d', found, found', fields, fun x => ?_⟩
  have around := (h.surrounds n member).tabled
  have apart : ∀ o ∈ unit, ∀ k ∈ unit, o ≠ k → Apart D (ownSettlements D o) (ownSettlements D k) := by
    intro o owner k owner' other q hq p hp target inverse
    have into : p.side.target ∈ unit := by
      refine h.targets p.side (mem_manySides.2 ⟨k, owner', ?_⟩)
      exact mem_sidesOf.1 (side_of_mem_ownSettlements hp)
    exact (uncontested _ into).apart (fun _ => around.isSide owner) (fun _ => around.isSide owner') other
      hq hp target rfl inverse
  obtain ⟨_, found₁, concrete⟩ := around n member
  obtain rfl := Option.some.inj (found.symm.trans found₁)
  rw [look, settle_unit h.distinct apart, settledRelationship?_congr (uncontested n member) found
    (h.surrounds n member) (surrounds_tabled distinct found concrete), finalRelationship?]

/-- The sides of such a unit can be completed, if its members are registered and not generated. -/
theorem exists_completed (wf : AllWellFormed D) (stays : Stays E D₁)
    (uncached : ∀ n ∈ unit, models.contains n = false)
    (unbuilt : ∀ n ∈ unit, ∀ d, D.get? n = some d → d.isGenerated = false)
    (registered : ∀ n ∈ unit, ∃ r, resources.get? n = some r) :
    ∃ D', (forM (manySides D₁ unit) (completeSide resources models)).Answers D₁ ⟨⟩ D' := by
  rw [h.manySides_eq stays]
  refine (h.start stays).exists_run (h.fits wf) (nodup_keys_manySides h.distinct wf) uncached ?_ ?_
  · intro n member d₁ found₁
    obtain ⟨d, found, _, there⟩ := h.exists_declared member
    obtain ⟨d₂, found₂, frozen⟩ := stays.get?_forward there
    obtain rfl := Option.some.inj (found₁.symm.trans found₂)
    rw [Descriptor.isGenerated, frozen.rest_eq]
    exact unbuilt n member d found
  · intro side mem
    exact registered _ (fits_of_mem_manySides wf mem).1

/-- Binding such a unit leaves all other resources alone. -/
theorem outside (wf : AllWellFormed D) (stays : Stays E D₁)
    (looked : (forM unit (lookUpTargets resources)).Answers E ⟨⟩ D₁)
    (completed : (forM (manySides D₁ unit) (completeSide resources models)).Answers D₁ ⟨⟩ D')
    (other : n ∉ unit) : D'.get? n = E.get? n := by
  rw [h.manySides_eq stays] at completed
  rw [get?_of_completions completed, get?_of_lookUps looked other]
  · rintro side mem rfl
    exact other (fits_of_mem_manySides wf mem).1
  · rintro side mem rfl
    exact other (h.targets side mem)

end Gathers

/-! ## Binding such a unit -/

/-- A unit that has all it needs, after its targets are looked up and its sides completed. -/
structure Gathered (resources : Roster Resource) (models : Roster Model) (D E : Roster Descriptor)
    (unit : List String) (D' : Roster Descriptor) : Prop where
  gathers : Gathers D E unit
  distinct : E.names.Nodup
  wellFormed : AllWellFormed E
  completed : ∃ D₁, (forM unit (lookUpTargets resources)).Answers E ⟨⟩ D₁
    ∧ (forM (manySides D₁ unit) (completeSide resources models)).Answers D₁ ⟨⟩ D'

namespace Gathered

variable (h : Gathered resources models D E unit D')

include h

theorem steps : Roster.Evolves (Bound unit) E D' := by
  obtain ⟨D₁, looked, completed⟩ := h.completed
  obtain ⟨first, _⟩ := targets_of_lookUps h.distinct h.wellFormed looked
  have distinct₁ : D₁.names.Nodup := by
    rw [first.names_eq]
    exact h.distinct
  exact evolves_trans first (evolves_of_answers distinct₁ (h.wellFormed.evolve first) completed)

/-- The settlements tell the inverse of a side that is not inherited. -/
theorem inverse_eq (wf : AllWellFormed D) {side : ManySide} (member : side.owner ∈ unit)
    (found : D.get? side.owner = some d) (mem : side ∈ manySidesOf side.owner d)
    (own : side.inherited = false) (found' : D'.get? side.owner = some d')
    (named : d'.relationship? side.relationship = some r) :
    r.inverse = some (side.inverse.getD (Naming.snakeCase side.owner)) := by
  obtain ⟨D₁, looked, completed⟩ := h.completed
  have stays : Stays E D₁ :=
    (keeps_stays h.distinct unit).of_answers looked (.refl E)
  have keys := nodup_keys_manySides h.gathers.distinct wf
  have inside : side ∈ manySides D unit := mem_manySides.2 ⟨_, member, d, found, mem⟩
  obtain ⟨_, _, found₁, found₁', _, look⟩ := (h.gathers.start stays).run (h.gathers.fits wf) keys
    (h.gathers.manySides_eq stays ▸ completed) _ member
  obtain rfl := Option.some.inj (found.symm.trans found₁)
  obtain rfl := Option.some.inj (found'.symm.trans found₁')
  obtain ⟨e, entry, _, shape⟩ := mem_manySidesOf.1 mem
  have declared : d.relationship? side.relationship = some e.relationship := by
    rw [shape]
    exact (wf _ d found).relationship?_eq_some_iff.2 ⟨e, entry, rfl, rfl⟩
  have settled := look side.relationship
  unfold settledRelationship? at settled
  simp only [declared, named, find?_settle_own keys inside own, Option.map_some, Option.some_or,
    Option.some.injEq] at settled
  rw [settled]

/-- A side of a member that is not inherited leads to and fro, once the unit passes its checks. -/
theorem leadsTo (wf : AllWellFormed D) (checked : ∀ n ∈ unit, checkResource D' n = .ok ())
    {side : ManySide} (is : IsSide D side) (member : side.owner ∈ unit)
    (own : side.inherited = false) :
    ∃ t, D'.get? side.target = some t
      ∧ LeadsTo t (side.inverse.getD (Naming.snakeCase side.owner)) side.owner := by
  obtain ⟨D₁, looked, completed⟩ := h.completed
  have stays : Stays E D₁ :=
    (keeps_stays h.distinct unit).of_answers looked (.refl E)
  have distinct₁ : D₁.names.Nodup := by
    rw [stays.names_eq]
    exact h.distinct
  obtain ⟨d, found, _, mem⟩ := is
  have inside : side ∈ manySides D₁ unit := by
    rw [h.gathers.manySides_eq stays]
    exact mem_manySides.2 ⟨_, member, d, found, mem⟩
  obtain ⟨d', r, i, t, found', named, other⟩ := hasOtherSide_of_completions distinct₁
    (h.wellFormed.stays stays) h.gathers.distinct completed side inside
  have inverse : i = side.inverse.getD (Naming.snakeCase side.owner) :=
    Option.some.inj (other.inverse_eq.symm.trans
      (h.inverse_eq wf member found mem own found' named))
  -- The entry is checked as one that the owner declares.
  have there : E.get? side.owner = some d := (h.gathers.declared _ member).trans found
  obtain ⟨d'', found'', bound⟩ := h.steps.get?_forward there
  obtain rfl := Option.some.inj (found'.symm.trans found'')
  have wf_d := wf _ d found
  obtain ⟨e, entry, _, shape⟩ := mem_manySidesOf.1 mem
  obtain ⟨e', entry', name, origin, _, same⟩ := (bound.grown wf_d).exists_follows entry
  have now : d'.relationship? side.relationship = some e'.relationship := by
    rw [shape]
    exact (bound.wellFormed wf_d).relationship?_eq_some_iff.2 ⟨e', entry', name, rfl⟩
  obtain rfl := Option.some.inj (named.symm.trans now)
  have mine : e'.declaredBy = side.owner := by
    rw [shape] at own
    rw [origin]
    simpa using own
  have target : e'.relationship.target = side.target := by rw [same, shape]
  have passed :=
    (checkEntry_eq_ok.1 (checkResource_eq_ok.1 (checked _ member) d' found' e' entry')).2 mine
  rw [counterpart?_eq_some other.inverse_eq other.target other.property] at passed
  obtain ⟨o, back, leads, _⟩ := checkPair_eq_ok.1 passed
  exact ⟨t, target ▸ other.target, o, inverse ▸ back, leads⟩

/-- No two owners have sides that ask a member for one name, if each has declared its own: the checks
would find that what the member has under that name leads back to one of them only. -/
theorem uncontested (wf : AllWellFormed D) (checked : ∀ n ∈ unit, checkResource D' n = .ok ())
    (declared : ∀ s s' x, Contest D n s s' x → s.inherited = false) (member : n ∈ unit) :
    Uncontested D n := by
  intro s s' x contest
  have leads : ∀ s s', Contest D n s s' x → ∃ t, D'.get? n = some t ∧ LeadsTo t x s.owner := by
    intro s s' contest
    have own := declared s s' x contest
    have name := contest.asks.name_eq
    simp only [own, Bool.false_eq_true, if_false] at name
    rw [name, ← contest.target_eq]
    refine h.leadsTo wf checked contest.side ?_ own
    exact (h.gathers.surrounds n member).owners s contest.side contest.target_eq
  obtain ⟨t, there, o, named, back⟩ := leads s s' contest
  obtain ⟨t', there', o', named', back'⟩ := leads s' s contest.symm
  obtain rfl := Option.some.inj (there.symm.trans there')
  obtain rfl := Option.some.inj (named.symm.trans named')
  exact contest.others (back.symm.trans back')

end Gathered

end Binding

end ResourceTables
