/-
# `ResourceTables.Proofs.Pairings` — binding changes nothing but how relationships are paired

Binding goes over many descriptors at once, and may stop anywhere.  However it ends, fields, methods
and what building has recorded are as they were, and every relationship is at its place with all
that was declared of it.  Only a one-to-many of a member of the unit may have another inverse.  What
is added comes last, each time with a builder, and is the other side of a one-to-many between two
members: its target is in the unit because a unit is closed, and is pending because no target of a
member is left unchecked before the first side is completed.

So a resource outside of the unit keeps its descriptor, and so does one that has a model or no table,
since a member is pending unless it is the root.  The root itself is not looked at: what generates a
model binds pending roots only, but a root that has a model or no table is bound like any other, and its
one-to-manys get their inverses.
-/
import ResourceTables.Proofs.Leftovers
import ResourceTables.Proofs.Units

namespace ResourceTables

/-- Values that may become `R` of what they were still may after one of them is changed. -/
theorem Roster.Evolves.modify {α : Type} {R : String → α → α → Prop} {r r' : Roster α}
    {name : String} (h : Roster.Evolves R r r') {f : α → α}
    (step : ∀ a b, (name, b) ∈ r'.entries → R name a b → R name a (f b)) :
    Roster.Evolves R r (r'.modify name f) := by
  refine h.trans (S := fun n b c => b = c ∨ (n = name ∧ (name, b) ∈ r'.entries ∧ c = f b)) ?_
    (Roster.evolves_modify (fun _ _ _ => .inl rfl) fun b mem => .inr ⟨rfl, mem, rfl⟩)
  rintro n a b c before (rfl | ⟨rfl, mem, rfl⟩)
  · exact before
  · exact step a b mem before

namespace Binding

variable {resources : Roster Resource} {models : Roster Model} {unit : List String}
  {n root : String} {d d' : Descriptor} {D D' : Roster Descriptor} {side : ManySide}

/-! ## What may become of a descriptor -/

/-- An entry at its place after binding: all that was declared of it is as it was, except that the
inverse of a one-to-many of a member may be another. -/
def Carried (unit : List String) (n : String) (e e' : RelationshipEntry) : Prop :=
  e'.name = e.name ∧ e'.declaredBy = e.declaredBy ∧
    ∃ inverse, e'.relationship = { e.relationship with inverse }
      ∧ (inverse = e.relationship.inverse ∨ (n ∈ unit ∧ e.relationship.kind = .oneToMany))

/-- The other side of a one-to-many of the resource `owner`. -/
def otherSide (owner : String) (s : RelationshipEntry) : Relationship :=
  { kind := .manyToOne
    target := owner
    inverse := some s.name
    primary := false
    identifying := false
    onUpdate := s.relationship.onUpdate.or (some .cascade)
    onDelete := s.relationship.onDelete
    synthesized := true }

/-- A relationship that is the other side of a one-to-many of a member into the resource `n`. -/
def PairsWith (D : Roster Descriptor) (unit : List String) (n : String) (r : Relationship) : Prop :=
  ∃ o ∈ unit, ∃ d, D.get? o = some d ∧ ∃ s ∈ d.relationships,
    s.relationship.kind = .oneToMany ∧ s.relationship.target = n ∧ r = otherSide o s

/-- What binding a unit makes of the descriptor of the resource `n`, where `D` are the descriptors
from before. -/
structure Rebound (D : Roster Descriptor) (models : Roster Model) (unit : List String) (n : String)
    (d d' : Descriptor) : Prop where
  outside : n ∉ unit → d' = d
  resource_eq : d'.resource = d.resource
  options_eq : d'.options = d.options
  fields_eq : d'.fields = d.fields
  methods_eq : d'.methods = d.methods
  finished_eq : d'.plan.finished = d.plan.finished
  entries : ∃ kept added, d'.relationships = kept ++ added
    ∧ List.Forall₂ (Carried unit n) d.relationships kept
    ∧ (∀ e ∈ added, e.declaredBy = d.resource ∧ PairsWith D unit n e.relationship
        ∧ n ∈ unit ∧ isPending D models n = true)
    ∧ d'.plan.builders = d.plan.builders ++ added.map completionBuilder

theorem Carried.refl (unit : List String) (n : String) (e : RelationshipEntry) : Carried unit n e e :=
  ⟨rfl, rfl, e.relationship.inverse, rfl, .inl rfl⟩

theorem Carried.trans {e e' e'' : RelationshipEntry} (h : Carried unit n e e')
    (h' : Carried unit n e' e'') : Carried unit n e e'' := by
  obtain ⟨name, origin, inverse, same, allowed⟩ := h
  obtain ⟨name', origin', inverse', same', allowed'⟩ := h'
  refine ⟨name'.trans name, origin'.trans origin, inverse', by rw [same', same], ?_⟩
  rw [same] at allowed'
  rcases allowed' with unchanged | many
  · exact unchanged ▸ allowed
  · exact .inr many

theorem Marked.carried {e e' : RelationshipEntry} (h : Marked e e') : Carried unit n e e' := by
  obtain ⟨resolved, rfl⟩ := h
  exact Carried.refl unit n e

/-- Where one entry is given an inverse, it is a one-to-many of a member. -/
theorem carried_changeFirst {name : String} (inverse : String) (member : n ∈ unit)
    {entries : List RelationshipEntry}
    (many : ∀ e, entries.find? (·.name == name) = some e → e.relationship.kind = .oneToMany) :
    List.Forall₂ (Carried unit n) entries (changeFirst (·.name == name)
      (fun e => { e with relationship := { e.relationship with inverse := some inverse } })
      entries) := by
  induction entries with
  | nil => exact .nil
  | cons e rest ih =>
      by_cases here : e.name = name
      · have kind := many e (by simp [here])
        simp only [changeFirst, here, beq_self_eq_true, if_true]
        exact .cons ⟨here.symm, rfl, some inverse, rfl, .inr ⟨member, kind⟩⟩
          (List.forall₂_same.2 fun e _ => .refl unit n e)
      · simp only [changeFirst, beq_iff_eq, here, if_false]
        exact .cons (.refl unit n e) (ih fun e' found => many e' (by simpa [here] using found))

/-- The completion of a side is the other side of the one-to-many that the side was read off. -/
theorem pairsWith_completion (mem : side ∈ manySides D unit) :
    PairsWith D unit side.target (completion side) := by
  obtain ⟨o, member, d, found, inside⟩ := mem_manySides.1 mem
  obtain ⟨s, entry, kind, rfl⟩ := mem_manySidesOf.1 inside
  refine ⟨o, member, d, found, s, entry, kind, rfl, ?_⟩
  simp [completion, otherSide, Relationship.new]

namespace Rebound

theorem refl (d : Descriptor) : Rebound D models unit n d d :=
  ⟨fun _ => rfl, rfl, rfl, rfl, rfl, rfl, d.relationships, [], by simp,
    List.forall₂_same.2 fun e _ => .refl unit n e, by simp, by simp⟩

/-- Looking up the targets of a member. -/
theorem lookedUp (h : Rebound D models unit n d d') (member : n ∈ unit)
    {entries : List RelationshipEntry} (marked : List.Forall₂ Marked d'.relationships entries) :
    Rebound D models unit n d { d' with relationships := entries } := by
  obtain ⟨kept, added, split, carried, added_ok, plan⟩ := h.entries
  rw [split] at marked
  obtain ⟨kept', added', rfl, hk, ha⟩ := forall₂_append_left_split marked
  refine { h with
    outside := fun outside => absurd member outside
    entries := ⟨kept', added', rfl, ?_, ?_, ?_⟩ }
  · exact forall₂_trans (S := Carried unit n) (fun _ _ _ => Carried.trans) carried
      (hk.imp fun _ _ => Marked.carried)
  · intro e he
    obtain ⟨before, hb, resolved, rfl⟩ := exists_left_of_forall₂ ha he
    exact added_ok before hb
  · have builders : added'.map completionBuilder = added.map completionBuilder := by
      refine map_eq_map_of_forall₂ ha ?_
      rintro e _ ⟨resolved, rfl⟩
      rfl
    rw [builders]
    exact plan

/-- Settling the inverse of a one-to-many of a member.  No completion is touched, since it is a
many-to-one. -/
theorem settled (h : Rebound D models unit n d d') (wf : d'.WellFormed) (member : n ∈ unit)
    (inverse : String)
    (many : ∀ r, d'.relationship? side.relationship = some r → r.kind = .oneToMany) :
    Rebound D models unit n d (Binding.settled side inverse d') := by
  obtain ⟨kept, added, split, carried, added_ok, plan⟩ := h.entries
  have kind : ∀ e ∈ d'.relationships, e.name = side.relationship →
      e.relationship.kind = .oneToMany :=
    fun e mem name => many _ (wf.relationship?_eq_some_iff.2 ⟨e, mem, name, rfl⟩)
  have apart : side.relationship ∉ added.map (·.name) := by
    intro mem
    obtain ⟨e, he, name⟩ := List.mem_map.1 mem
    obtain ⟨_, ⟨_, _, _, _, s, _, _, _, other⟩, _⟩ := added_ok e he
    have one := kind e (split ▸ List.mem_append_right _ he) name
    rw [other] at one
    cases one
  refine { h with
    outside := fun outside => absurd member outside
    entries := ⟨changeFirst (·.name == side.relationship) (fun e =>
      { e with relationship := { e.relationship with inverse := some inverse } }) kept, added,
      ?_, ?_, added_ok, plan⟩ }
  · simp only [Binding.settled, Descriptor.modifyRelationship, split]
    exact changeFirst_append apart _
  · refine forall₂_trans (S := Carried unit n) (fun _ _ _ => Carried.trans) carried
      (carried_changeFirst inverse member fun e found => ?_)
    exact kind e (split ▸ List.mem_append_left _ (List.mem_of_find?_eq_some found))
      (key_eq_of_find? found)

/-- Completing a side into a pending member. -/
theorem completed (h : Rebound D models unit n d d') (mem : side ∈ manySides D unit)
    (target : side.target = n) (member : n ∈ unit) (pending : isPending D models n = true)
    (inverse : String) (owner : Resource) :
    Rebound D models unit n d (Binding.completed side inverse owner d') := by
  obtain ⟨kept, added, split, carried, added_ok, plan⟩ := h.entries
  refine { h with
    outside := fun outside => absurd member outside
    entries := ⟨kept, added ++ [completionEntry side inverse owner d'.resource], ?_, carried,
      ?_, ?_⟩ }
  · simp only [Binding.completed, split, List.append_assoc]
  · intro e he
    rcases List.mem_append.1 he with he | he
    · exact added_ok e he
    · rw [List.mem_singleton] at he
      subst he
      exact ⟨h.resource_eq, target ▸ pairsWith_completion mem, member, pending⟩
  · simp only [Binding.completed, BuildPlan.add, plan, List.append_assoc, List.map_append]
    rfl

end Rebound

/-! ## Among all descriptors -/

/-- Descriptors that binding may have come to from `D`. -/
structure Pairing (D : Roster Descriptor) (models : Roster Model) (unit : List String)
    (D' : Roster Descriptor) : Prop where
  rebound : Roster.Evolves (Rebound D models unit) D D'
  bound : Roster.Evolves (Bound unit) D D'

theorem Pairing.refl (D : Roster Descriptor) : Pairing D models unit D :=
  ⟨.refl (fun _ => Rebound.refl) D, evolves_refl D⟩

theorem Pairing.get?_outside (h : Pairing D models unit D') (outside : n ∉ unit) :
    D'.get? n = D.get? n := by
  rcases h.rebound.get? n with ⟨before, after⟩ | ⟨d, d', before, after, rebound⟩
  · rw [before, after]
  · rw [before, after, rebound.outside outside]

theorem Pairing.distinct (h : Pairing D models unit D') (distinct : D.names.Nodup) :
    D'.names.Nodup := by
  rw [h.bound.names_eq]
  exact distinct

/-- Looking up targets of members. -/
theorem keeps_pairing_lookUps (distinct : D.names.Nodup) :
    Action.Keeps (Pairing D models unit) (forM unit (lookUpTargets resources)) := by
  refine Action.keeps_forM fun n member D' before => ?_
  have names := before.distinct distinct
  refine ⟨?_, evolves_trans before.bound (evolves_lookUpTargets names resources unit n)⟩
  rw [lookUpTargets_eq]
  unfold within
  cases found : D'.get? n with
  | none => exact before.rebound
  | some d' =>
      refine before.rebound.modify fun a b mem rebound => ?_
      obtain rfl : d' = b :=
        Option.some.inj (found.symm.trans (Roster.get?_of_mem_entries names mem))
      exact rebound.lookedUp member
        (Action.forall₂_each Marked.refl marked_lookUpOne d'.relationships ())

/-- Completing a side of the unit, as long as a target that waits for compilation is a member. -/
theorem keeps_pairing_completeSide (distinct : D.names.Nodup) (wf : AllWellFormed D)
    (mem : side ∈ manySides D unit)
    (waiting : models.contains side.target = false →
      side.target ∈ unit ∧ isPending D models side.target = true) :
    Action.Keeps (Pairing D models unit) (completeSide resources models side) := by
  obtain ⟨owner, fits⟩ := fits_of_mem_manySides wf mem
  have settles : ∀ {D'}, Pairing D models unit D' → ∀ inverse,
      Pairing D models unit (settledIn D' side inverse) := by
    intro D' before inverse
    have fits' := fits.evolve wf before.bound
    have names := before.distinct distinct
    have wf' := wf.evolve before.bound
    refine ⟨before.rebound.modify fun a b there rebound => ?_,
      evolves_trans before.bound (evolves_settledIn names owner fits' inverse)⟩
    have found := Roster.get?_of_mem_entries names there
    refine rebound.settled (wf' _ b found) owner inverse fun r named => ?_
    obtain ⟨b', r', found', named', kind, _⟩ := fits'
    obtain rfl : b = b' := Option.some.inj (found.symm.trans found')
    obtain rfl : r = r' := Option.some.inj (named.symm.trans named')
    exact kind
  refine Action.keeps_of_ends ?_ ?_
  · intro D' u D'' before h
    have all : Roster.Evolves (Bound unit) D D'' := by
      have step := evolves_completeSide (before.distinct distinct) resources models owner
        (fits.evolve wf before.bound)
      rw [h.2] at step
      exact evolves_trans before.bound step
    obtain ⟨t, ht, ⟨_, rfl⟩ | ⟨_, uncached, _, o, _, rfl⟩⟩ := answers_completeSide.1 h
    · exact settles before _
    · obtain ⟨member, pending⟩ := waiting uncached
      have first := settles before (inverseName D' side)
      refine ⟨first.rebound.modify fun a b there rebound => ?_, all⟩
      obtain rfl : t = b := Option.some.inj
        (ht.symm.trans (Roster.get?_of_mem_entries (first.distinct distinct) there))
      exact rebound.completed mem rfl member pending (inverseName D' side) o
  · intro D' e D'' before h
    rw [← fails_completeSide h]
    exact settles before _

end Binding

/-! ## A unit that is bound -/

namespace Sound

open Binding

variable {resources : Roster Resource} {w : Workspace} {root : String} {D₁ : Roster Descriptor}

/-- Once the targets of a unit are looked up, the target of a side is a member unless it has a model:
it is registered and has a table, so that it is pending, and a unit is closed. -/
theorem target_waits (sound : Sound resources w)
    (looked : (forM (members resources w.descriptors w.models root)
      (lookUpTargets resources)).Answers w.descriptors ⟨⟩ D₁)
    {side : ManySide}
    (mem : side ∈ manySides w.descriptors (members resources w.descriptors w.models root))
    (uncached : w.models.contains side.target = false) :
    side.target ∈ members resources w.descriptors w.models root
      ∧ isPending w.descriptors w.models side.target = true := by
  obtain ⟨o, member, d, found, inside⟩ := mem_manySides.1 mem
  obtain ⟨s, entry, _, rfl⟩ := mem_manySidesOf.1 inside
  obtain ⟨_, known⟩ := targets_of_lookUps sound.descriptors_distinct sound.allWellFormed looked
  obtain ⟨d', found', targets⟩ := known o member
  obtain rfl : d = d' := Option.some.inj (found.symm.trans found')
  obtain ⟨r, declared, concrete⟩ := targets s entry
  have pending := sound.pending_of_uncached declared concrete
    (Roster.contains_eq_false_iff.1 uncached)
  refine ⟨?_, pending⟩
  rw [mem_members sound.descriptors_distinct sound.descriptors_names] at member ⊢
  exact member.pulls ⟨pending, .inl (mem_targetsOf.2 ⟨d, found, s, entry, rfl⟩)⟩

/-- However binding ends, it only pairs. -/
theorem pairing_bind (sound : Sound resources w) (root : String) :
    Pairing w.descriptors w.models (members resources w.descriptors w.models root)
      (bind resources w.models root w.descriptors).state := by
  have distinct := sound.descriptors_distinct
  have looks : Action.Keeps
      (Pairing w.descriptors w.models (members resources w.descriptors w.models root))
      (forM (members resources w.descriptors w.models root) (lookUpTargets resources)) :=
    keeps_pairing_lookUps distinct
  have completes : ∀ {D₁}, (forM (members resources w.descriptors w.models root)
        (lookUpTargets resources)).Answers w.descriptors ⟨⟩ D₁ →
      Action.Keeps (Pairing w.descriptors w.models (members resources w.descriptors w.models root))
        (forM (manySides D₁ (members resources w.descriptors w.models root))
          (completeSide resources w.models)) := by
    intro D₁ looked
    have stays := (keeps_stays distinct _).of_answers looked (.refl w.descriptors)
    rw [stays.manySides_eq]
    exact Action.keeps_forM fun side mem =>
      keeps_pairing_completeSide distinct sound.allWellFormed mem (sound.target_waits looked mem)
  have start : Pairing w.descriptors w.models (members resources w.descriptors w.models root)
      w.descriptors := .refl w.descriptors
  rcases Action.answers_or_fails (bind resources w.models root) w.descriptors with
    ⟨ordered, D', ends⟩ | ⟨e, D', ends⟩
  · rw [ends.2]
    obtain ⟨D₁, looked, done, _, _⟩ := answers_bindUnit.1 ends
    exact (completes looked).of_answers done (looks.of_answers looked start)
  · rw [ends.2]
    rcases fails_bindUnit.1 ends with unknown | ⟨D₁, looked, incomplete | ⟨done, _⟩⟩
    · exact looks.of_fails unknown start
    · exact (completes looked).of_fails incomplete (looks.of_answers looked start)
    · exact (completes looked).of_answers done (looks.of_answers looked start)

/-- A member that has a model or no table is the root. -/
theorem eq_root_of_not_pending (sound : Sound resources w) {n : String}
    (member : n ∈ members resources w.descriptors w.models root)
    (settled : isPending w.descriptors w.models n = false) : n = root := by
  rw [mem_members sound.descriptors_distinct sound.descriptors_names] at member
  cases member with
  | refl => rfl
  | tail _ last => rw [last.1] at settled; cases settled

end Sound

namespace Compiler

open Binding

/-- Binding the unit of a resource, done on the compiler. -/
def bindUnit (name : String) : Action Compiler (List String) := do
  let c ← Action.read
  Action.zoom (·.workspace.descriptors)
    (fun c descriptors => c.withWorkspace { c.workspace with descriptors })
    (bind c.resources c.workspace.models name)

theorem isPending_eq_false {c : Compiler} {n : String}
    (settled : c.model? n ≠ none ∨ ∃ d, c.descriptor? n = some d ∧ d.isAbstract = true) :
    isPending c.workspace.descriptors c.workspace.models n = false := by
  by_contra pending
  rw [Bool.not_eq_false] at pending
  obtain ⟨d, found, concrete, _, uncached⟩ := isPending_iff.1 pending
  rcases settled with cached | ⟨d', found', abs⟩
  · exact cached (Roster.contains_eq_false_iff.1 uncached)
  · obtain rfl : d = d' := Option.some.inj (found.symm.trans found')
    rw [concrete] at abs
    cases abs

/-- Wherever a history leads and whatever unit is bound there, with success or not: the registered
resources and the models are the same, and every descriptor is what it was up to the pairing of its
relationships.  It is the very same outside of the unit, and for every resource but the root that has a
model or no table; if the root is pending, for every such resource. -/
theorem binding_only_pairs (settings : Settings) (requests : List Request) (root : String) :
    let c := (new settings).run requests
    let unit := members c.resources c.workspace.descriptors c.workspace.models root
    let c' := (bindUnit root c).state
    let settled := fun n => c.model? n ≠ none ∨ ∃ d, c.descriptor? n = some d ∧ d.isAbstract = true
    c'.resources = c.resources ∧ c'.workspace.models = c.workspace.models
      ∧ c'.workspace.descriptors.names = c.workspace.descriptors.names
      ∧ (∀ n d, c.descriptor? n = some d → ∃ d', c'.descriptor? n = some d'
          ∧ Rebound c.workspace.descriptors c.workspace.models unit n d d')
      ∧ (∀ n, n ∉ unit → c'.descriptor? n = c.descriptor? n)
      ∧ (∀ n, n ≠ root → settled n → c'.descriptor? n = c.descriptor? n)
      ∧ (isPending c.workspace.descriptors c.workspace.models root = true →
          ∀ n, settled n → c'.descriptor? n = c.descriptor? n) := by
  intro c unit c' settled
  have sound : Sound c.resources c.workspace := (coherent_run settings requests).sound
  have pairing : Pairing c.workspace.descriptors c.workspace.models unit c'.workspace.descriptors :=
    sound.pairing_bind root
  have outside : ∀ n, n ∉ unit → c'.descriptor? n = c.descriptor? n :=
    fun n out => pairing.get?_outside out
  have others : ∀ n, n ≠ root → settled n → c'.descriptor? n = c.descriptor? n :=
    fun n other built => outside n fun member =>
      other (sound.eq_root_of_not_pending member (isPending_eq_false built))
  refine ⟨rfl, rfl, pairing.bound.names_eq, fun n d found => pairing.rebound.get?_forward found,
    outside, others, fun pending n built => others n ?_ built⟩
  rintro rfl
  exact Bool.false_ne_true ((isPending_eq_false built).symm.trans pending)

/-- An author without a table. -/
def sketch : List Request :=
  [.declare { name := "Book" },
    .declare { name := "Author", options := { isAbstract := true }
               properties := [⟨"books", 1, .relationship (.new .oneToMany "Book")⟩] }]

/-- An author that is declared again after it is generated. -/
def reissue : List Request :=
  [.declare { name := "Book" }, .declare { name := "Author" }, .generate "Author",
    .declare { name := "Author"
               properties := [⟨"books", 1, .relationship (.new .oneToMany "Book")⟩] }]

/-- The inverse of a relationship of a resource. -/
def inverse? (c : Compiler) (n x : String) : Option String :=
  (c.descriptor? n).bind fun d => (d.relationship? x).bind (·.inverse)

/-- A root that has no table, or a model from before, is bound nevertheless, and its one-to-many gets
its inverse. -/
theorem binding_changes_root :
    (∃ c, (new {}).run sketch = c ∧ (∃ d, c.descriptor? "Author" = some d ∧ d.isAbstract = true)
      ∧ (bindUnit "Author" c).result.isOk = true ∧ c.inverse? "Author" "books" = none
      ∧ (bindUnit "Author" c).state.inverse? "Author" "books" = some "author")
    ∧ ∃ c, (new {}).run reissue = c ∧ c.model? "Author" ≠ none
      ∧ (bindUnit "Author" c).result.isOk = true ∧ c.inverse? "Author" "books" = none
      ∧ (bindUnit "Author" c).state.inverse? "Author" "books" = some "author" := by
  refine ⟨⟨_, rfl, ?_, by cbv, by cbv, by cbv⟩, ⟨_, rfl, ?_, by cbv, by cbv, by cbv⟩⟩
  · have abstract : (((new {}).run sketch).descriptor? "Author").any (·.isAbstract) = true := by cbv
    exact (Option.any_eq_true _ _).1 abstract
  · refine Option.isSome_iff_ne_none.1 ?_
    cbv

end Compiler

end ResourceTables
