/-
# `ResourceTables.Proofs.Pairs` — both sides of a pair agree on the key

A relationship without a key names one of its target that leads back.  If the target had been compiled
before, its relationship back would have made it compile the owner too; so the two belong to one unit,
and in a unit the joins of both are read off the same key.  Neither changes later.
-/
import Mathlib
import ResourceTables.Proofs.Mirrors
import ResourceTables.Proofs.Orderly

namespace ResourceTables

/-- A relationship names one of its target that leads back and hosts the key. -/
structure Hosted (D : Roster Descriptor) (n : String) (r : Relationship) (i : String)
    (t : Descriptor) (other : Relationship) : Prop where
  settled : r.inverse = some i
  described : D.get? r.target = some t
  inverse : t.relationship? i = some other
  back : other.target = n
  hosts : other.hostsKey = true

/-- A relationship without a key and its other side, as they stand on their models. -/
structure Paired (w : Workspace) (n : String) (e : RelationshipEntry) (m m' : Model)
    (d' : Descriptor) (i : String) (other : Relationship) (relation relation' : Relation) : Prop
    extends Hosted w.descriptors n e.relationship i d' other where
  owner : w.models.get? n = some m
  named : m.relation? e.name = some relation
  target_eq : relation.target = e.relationship.target
  backPopulates_eq : relation.backPopulates = some i
  target : w.models.get? e.relationship.target = some m'
  named' : m'.relation? i = some relation'
  back' : relation'.target = n
  joins : relation'.joinClauses ≠ []
  swapped : relation.joinClauses = relation'.joinClauses.map JoinClause.swap
  keyed : ∃ own host key, m.table = some own ∧ m'.table = some host
    ∧ ForeignKey.MadeBy key relation' host own

/-- What holds of a generated resource: its relationships lead to models, those that it declares
without a key are hosted by their targets, its one-to-manys have other sides, and whatever is hosted is
paired. -/
structure Agrees (w : Workspace) (n : String) (d : Descriptor) : Prop where
  closed : ∀ e ∈ d.relationships, ∃ m, w.models.get? e.relationship.target = some m
  declared : ∀ e ∈ d.relationships, e.declaredBy = n → e.relationship.hostsKey = false →
    ∃ i t other, Hosted w.descriptors n e.relationship i t other
  many : ∀ e ∈ d.relationships, e.relationship.kind = .oneToMany →
    ∃ i t, Binding.OtherSide w.descriptors n (e.declaredBy != n) e.relationship i t
  hosted : KeysAcyclic w.descriptors → ∀ e ∈ d.relationships, e.relationship.hostsKey = false →
    ∀ i t other, Hosted w.descriptors n e.relationship i t other →
      ∃ m m' relation relation', Paired w n e m m' t i other relation relation'

/-- Every generated resource with a table agrees with those it is paired with. -/
def AllAgree (w : Workspace) : Prop :=
  ∀ n m d, w.models.get? n = some m → m.isAbstract = false → w.descriptors.get? n = some d →
    Agrees w n d

section Targets

variable {D D' : Roster Descriptor} {n i : String} {r other : Relationship} {t t' : Descriptor}

theorem Hosted.congr (h : Hosted D n r i t other) (there : D'.get? r.target = some t')
    (same : t'.relationship? i = t.relationship? i) : Hosted D' n r i t' other :=
  ⟨h.settled, there, same.trans h.inverse, h.back, h.hosts⟩

theorem Hosted.mirrored (h : Hosted D n r i t other) : Binding.Mirrored D n r i t other := by
  refine ⟨h.settled, h.described, h.inverse, h.back, .inr ?_⟩
  simpa [Relationship.hostsKey] using h.hosts

theorem Binding.OtherSide.congr {inherited : Bool} (h : Binding.OtherSide D n inherited r i t)
    (there : D'.get? r.target = some t') (property : t'.hasProperty i = t.hasProperty i)
    (same : t'.relationship? i = t.relationship? i) :
    Binding.OtherSide D' n inherited r i t' := by
  refine ⟨h.inverse_eq, there, property.trans h.property, fun by_heir => ?_⟩
  refine (h.named by_heir).imp_right ?_
  rintro ⟨other, leads, back⟩
  exact ⟨other, same.trans leads, back⟩

end Targets

namespace Agrees

variable {resources : Roster Resource} {w w' : Workspace} {n : String} {d d' : Descriptor}

/-- Those that a resource declares without a key are paired. -/
theorem paired (h : Agrees w n d) (acyclic : KeysAcyclic w.descriptors) (e : RelationshipEntry)
    (mem : e ∈ d.relationships) (own : e.declaredBy = n) (keyless : e.relationship.hostsKey = false) :
    ∃ m m' d' i other relation relation', Paired w n e m m' d' i other relation relation' := by
  obtain ⟨i, t, other, hosted⟩ := h.declared e mem own keyless
  obtain ⟨m, m', relation, relation', pair⟩ := h.hosted acyclic e mem keyless i t other hosted
  exact ⟨m, m', t, i, other, relation, relation', pair⟩

/-- What agrees goes on to agree while the workspace grows. -/
theorem extend (h : Agrees w n d) (sound : Sound resources w) (ext : Extends w w')
    (frozen : Binding.Frozen d d') : Agrees w' n d' := by
  have target : ∀ e ∈ d.relationships, ∃ t t', w.descriptors.get? e.relationship.target = some t
      ∧ w'.descriptors.get? e.relationship.target = some t' ∧ Binding.Frozen t t' := by
    intro e mem
    obtain ⟨m, cached⟩ := h.closed e mem
    obtain ⟨t, there⟩ := sound.exists_descriptor_of_cached cached
    obtain ⟨t', there', still⟩ := ext.frozen _ m t cached there
    exact ⟨t, t', there, there', still⟩
  refine ⟨?_, ?_, ?_, ?_⟩
  · intro e' mem'
    obtain ⟨e, mem, _, _, same⟩ := frozen.exists_entry mem'
    obtain ⟨m, cached⟩ := h.closed e mem
    exact ⟨m, ext.models _ m (same ▸ cached)⟩
  · intro e' mem' own keyless
    obtain ⟨e, mem, _, origin, same⟩ := frozen.exists_entry mem'
    obtain ⟨i, t, other, hosted⟩ := h.declared e mem (origin.trans own) (same ▸ keyless)
    obtain ⟨t₀, t', there, there', still⟩ := target e mem
    obtain rfl : t = t₀ := Option.some.inj (hosted.described.symm.trans there)
    exact ⟨i, t', other, same ▸ hosted.congr there' (still.relationship?_eq i)⟩
  · intro e' mem' many
    obtain ⟨e, mem, _, origin, same⟩ := frozen.exists_entry mem'
    obtain ⟨i, t, side⟩ := h.many e mem (same ▸ many)
    obtain ⟨t₀, t', there, there', still⟩ := target e mem
    obtain rfl : t = t₀ := Option.some.inj (side.target.symm.trans there)
    exact ⟨i, t', same ▸ origin ▸ side.congr there' (still.hasProperty_eq i)
      (still.relationship?_eq i)⟩
  · intro acyclic e' mem' keyless i t' other hosted
    obtain ⟨e, mem, name, _, same⟩ := frozen.exists_entry mem'
    obtain ⟨t, t₀, there, there', still⟩ := target e mem
    rw [← same] at hosted keyless
    obtain rfl : t' = t₀ := Option.some.inj (hosted.described.symm.trans there')
    obtain ⟨m, m', relation, relation', pair⟩ := h.hosted (acyclic.mono ext.copies) e mem keyless i t
      other (hosted.congr there (still.relationship?_eq i).symm)
    exact ⟨m, m', relation, relation', same ▸ hosted, ext.models n m pair.owner, name ▸ pair.named,
      same ▸ pair.target_eq, pair.backPopulates_eq, ext.models _ m' (same ▸ pair.target), pair.named',
      pair.back', pair.joins, pair.swapped, pair.keyed⟩

end Agrees

namespace BuiltUnit

open Generation

variable {ctx : GenerationContext} {w w' : Workspace} {unit : List String} {n i : String}
  {D' D₁ : Roster Descriptor} {start finished : Roster Model} {d t t' : Descriptor}
  {e : RelationshipEntry} {other : Relationship}

/-- In a unit that is built, what is hosted is paired. -/
theorem paired (built : BuiltUnit ctx w w' unit D' start finished D₁)
    (orderly' : Orderly ctx.resources { w with descriptors := D' }) (acyclic : KeysAcyclic D')
    (member : n ∈ unit) (found : D'.get? n = some d) (mem : e ∈ d.relationships)
    (keyless : e.relationship.hostsKey = false) (hosted : Hosted D' n e.relationship i t other)
    (inside : e.relationship.target ∈ unit)
    (there : w'.descriptors.get? e.relationship.target = some t') :
    ∃ m m' relation relation', Paired w' n e m m' t' i other relation relation' := by
  have wf := orderly'.sound.allWellFormed _ d found
  have ready := built.ready orderly'.sound fun _ _ _ found => orderly'.fitting.keysFit found
  obtain ⟨refs, account, drawable, drawn⟩ := built.drawn ready (acyclic.unit unit)
  obtain ⟨relation, relation', key, mem, name, target, populates, mem', name', back, joins, swapped,
    made⟩ := mirrored_relations ready account drawable member found
      (wf.relationship?_eq_some_iff.2 ⟨e, mem, rfl, rfl⟩) keyless hosted.settled inside
      hosted.described hosted.inverse hosted.back hosted.hosts
  obtain ⟨m, owner, table, properties⟩ := built.exists_model member drawn
  obtain ⟨m', cached, table', properties'⟩ := built.exists_model inside drawn
  refine ⟨m, m', relation, relation', hosted.congr there ?_, owner, ?_, target, populates, cached, ?_,
    back, joins, swapped, _, _, key, table, table', made⟩
  · rw [Descriptor.relationship?, Descriptor.relationshipNamed?,
      built.relationships_eq hosted.described there]
    rfl
  · rw [← name]
    refine ModelShape.relation?_of_mem ?_ (properties ▸ mem)
    rw [properties]
    exact nodup_properties_finished ready member
  · rw [← name']
    refine ModelShape.relation?_of_mem ?_ (properties' ▸ mem')
    rw [properties']
    exact nodup_properties_finished ready inside

end BuiltUnit

namespace AllAgree

open Generation

variable {resources : Roster Resource} {ctx : GenerationContext} {w w' : Workspace} {n : String}
  {m : Model} {d d' : Descriptor} {unit : List String} {D' D₁ : Roster Descriptor}
  {start finished : Roster Model}

/-- What is generated before goes on to agree. -/
theorem old (h : AllAgree w) (sound : Sound resources w) (ext : Extends w w')
    (cached : w.models.get? n = some m) (concrete : m.isAbstract = false)
    (found : w'.descriptors.get? n = some d') : Agrees w' n d' := by
  obtain ⟨d, before⟩ := sound.exists_descriptor_of_cached cached
  obtain ⟨d'', found'', frozen⟩ := ext.frozen n m d cached before
  rw [found, Option.some.injEq] at found''
  exact (h n m d cached concrete before).extend sound ext (found'' ▸ frozen)

/-- The other side of a member's relationship without a key is on a member too: a resource compiled
before leads to compiled ones only. -/
theorem target_member (h : AllAgree { w with descriptors := D' })
    (orderly : Orderly ctx.resources w) (orderly' : Orderly ctx.resources { w with descriptors := D' })
    (built : BuiltUnit ctx w w' unit D' start finished D₁) (member : n ∈ unit)
    (found : D'.get? n = some d) {e : RelationshipEntry} (mem : e ∈ d.relationships) {i : String}
    {t : Descriptor} {other : Relationship}
    (mirrored : Binding.Mirrored D' n e.relationship i t other) : e.relationship.target ∈ unit := by
  obtain ⟨root, bound⟩ := built.bound
  rcases orderly.sound.bound_targets bound member found mem with inside | ⟨r, m, hr, concrete, cached⟩
  · exact inside
  · have table : m.isAbstract = false := (orderly.isAbstract_eq _ m r cached hr).trans concrete
    have wf := orderly'.sound.allWellFormed _ t mirrored.target
    obtain ⟨e', mem', _, same⟩ := wf.relationship?_eq_some_iff.1 mirrored.named
    obtain ⟨m', there⟩ := (h _ m t cached table mirrored.target).closed e' mem'
    rw [same, mirrored.back] at there
    exact absurd ((built.uncached member).symm.trans there) nofun

/-- A member of a unit that is built agrees. -/
theorem member (h : AllAgree { w with descriptors := D' }) (orderly : Orderly ctx.resources w)
    (orderly' : Orderly ctx.resources { w with descriptors := D' })
    (built : BuiltUnit ctx w w' unit D' start finished D₁) (member : n ∈ unit)
    (found' : w'.descriptors.get? n = some d') : Agrees w' n d' := by
  have ext := Orderly.extends_compiled built.compiled built.pending
  obtain ⟨root, bound⟩ := built.bound
  obtain ⟨d, found, _⟩ := Binding.isPending_iff.1 (built.pending n member)
  have relationships := built.relationships_eq found found'
  have distinct := orderly.sound.descriptors_distinct
  have wf := orderly.sound.allWellFormed
  refine ⟨?_, ?_, ?_, ?_⟩
  all_goals rw [relationships]
  · intro e mem
    rcases orderly.sound.bound_targets bound member found mem with inside | ⟨_, m', _, _, old⟩
    · obtain ⟨_, _, m', _, _, _, there, _⟩ := built.compiled.member built.distinct inside
      refine ⟨m', ?_⟩
      rw [built.compiled.get?_models]
      change (w.models.get? _).or _ = _
      rw [built.uncached inside, Option.none_or]
      exact there
    · exact ⟨m', ext.models _ m' old⟩
  · intro e mem own keyless
    obtain ⟨i, t, other, mirrored⟩ :=
      Binding.exists_mirrored distinct wf bound member found mem own keyless
    have inside := h.target_member orderly orderly' built member found mem mirrored
    have hosts := mirrored.hostsKey (orderly'.sound.allWellFormed _ t mirrored.target) bound inside
    obtain ⟨t', there, _, same⟩ := built.compiled.declares.get?_forward mirrored.target
    refine ⟨i, t', other, mirrored.inverse_eq, there, ?_, mirrored.back, hosts⟩
    rw [Descriptor.relationship?, Descriptor.relationshipNamed?, same]
    exact mirrored.named
  · intro e mem many
    obtain ⟨i, t, side⟩ := Binding.otherSide_of_bind distinct wf bound member found mem many
    obtain ⟨t', there, fields, same⟩ := built.compiled.declares.get?_forward side.target
    have relationship : t'.relationship? i = t.relationship? i := by
      rw [Descriptor.relationship?, Descriptor.relationshipNamed?, same]
      rfl
    refine ⟨i, t', side.congr there ?_ relationship⟩
    rw [Descriptor.hasProperty, Descriptor.declaredBy?, Descriptor.fieldNamed?,
      Descriptor.relationshipNamed?, fields, same]
    rfl
  · intro acyclic e mem keyless i t' other hosted
    obtain ⟨t, there, _, same⟩ := built.compiled.declares.get?_backward hosted.described
    have before : Hosted D' n e.relationship i t other := by
      refine hosted.congr there ?_
      rw [Descriptor.relationship?, Descriptor.relationshipNamed?, ← same]
      rfl
    have inside := h.target_member orderly orderly' built member found mem before.mirrored
    exact built.paired orderly' (acyclic.mono ext.copies) member found mem keyless before inside
      hosted.described

/-- Once a unit is built, everything agrees. -/
theorem builds (orderly : Orderly ctx.resources w)
    (orderly' : Orderly ctx.resources { w with descriptors := D' })
    (built : BuiltUnit ctx w w' unit D' start finished D₁)
    (h : AllAgree { w with descriptors := D' }) : AllAgree w' := by
  intro n m d' cached concrete found'
  have ext := Orderly.extends_compiled built.compiled built.pending
  cases before : w.models.get? n with
  | some m₀ =>
      have same := ext.models n m₀ before
      rw [cached, Option.some.injEq] at same
      exact h.old orderly'.sound ext before (same ▸ concrete) found'
  | none =>
      have new := cached
      rw [built.compiled.get?_models, before, Option.none_or] at new
      have member : n ∈ unit := built.compiled.names_eq ▸ Roster.mem_names_of_get? new
      exact h.member orderly orderly' built member found'

theorem empty : AllAgree {} := by
  intro n m d cached
  cases cached

theorem extends_ (h : AllAgree w) (orderly : Orderly resources w) (ext : Extends w w')
    (same : ∀ n m, w'.models.get? n = some m → m.isAbstract = false → w.models.get? n = some m) :
    AllAgree w' :=
  fun n m _ cached concrete found =>
    h.old orderly.sound ext (same n m cached concrete) concrete found

end AllAgree

namespace Compiler

/-- As long as nothing is declared again, everything that is generated agrees. -/
theorem allAgree_run (settings : Settings) {requests : List Request}
    (once : (new settings).DeclaresOnce requests) :
    ((new settings).run requests).InOrder ∧ AllAgree ((new settings).run requests).workspace :=
  inOrder_run (fun orderly ext same h => h.extends_ orderly ext same)
    (fun orderly orderly' built h => h.builds orderly orderly' built) once (inOrder_new settings)
    AllAgree.empty

/-- Wherever a history leads that declares no name twice, and as long as no primary key depends on
itself: of a generated resource, a relationship that it declares and that hosts no key has another side
on its target.  That one leads back and hosts the key, and both relations join on the same columns. -/
theorem pairs_agree (settings : Settings) (requests : List Request)
    (once : (new settings).DeclaresOnce requests) (c : Compiler)
    (reached : (new settings).run requests = c)
    (acyclic : KeysAcyclic c.workspace.descriptors) :
    ∀ n m d e, c.model? n = some m → m.isAbstract = false → c.descriptor? n = some d →
      e ∈ d.relationships → e.declaredBy = n → e.relationship.hostsKey = false →
      ∃ i relation relation' other m' d',
        m.relation? e.name = some relation ∧ relation.backPopulates = some i
          ∧ c.model? e.relationship.target = some m'
          ∧ c.descriptor? e.relationship.target = some d'
          ∧ d'.relationship? i = some other ∧ other.target = n ∧ other.hostsKey = true
          ∧ m'.relation? i = some relation' ∧ relation'.target = n
          ∧ relation.joinClauses ≠ []
          ∧ relation.joinClauses = relation'.joinClauses.map JoinClause.swap := by
  have agree : AllAgree c.workspace := reached ▸ (allAgree_run settings once).2
  intro n m d e cached concrete found mem own keyless
  obtain ⟨m₁, m', d', i, other, relation, relation', pair⟩ :=
    (agree n m d cached concrete found).paired acyclic e mem own keyless
  have same := pair.owner
  rw [show c.workspace.models.get? n = some m from cached, Option.some.injEq] at same
  subst same
  refine ⟨i, relation, relation', other, m', d', pair.named, pair.backPopulates_eq, pair.target,
    pair.described, pair.inverse, pair.back, pair.hosts, pair.named', pair.back', ?_, pair.swapped⟩
  rw [pair.swapped, ne_eq, List.map_eq_nil_iff]
  exact pair.joins

/-- Orders and their lines; the key of a line starts with that of its order. -/
def orders : List Request :=
  [.declare { name := "Order"
              properties := [⟨"lines", 1, .relationship
                { Relationship.new .oneToMany "Line" with inverse := some "order" }⟩] },
    .declare { name := "Line"
               properties := [⟨"number", 2, .field { storage := .integer
                                                     options := { primaryKey := true } }⟩,
                 ⟨"order", 3, .relationship
                   { Relationship.new .manyToOne "Order" with
                     inverse := some "lines", identifying := true }⟩] },
    .generate "Line"]

theorem pairs_agree_orders :
    (new {}).DeclaresOnce orders ∧ KeysAcyclic ((new {}).run orders).workspace.descriptors ∧
    ∃ m i relation relation' m',
      ((new {}).run orders).model? "Order" = some m ∧ m.relation? "lines" = some relation
        ∧ relation.backPopulates = some i
        ∧ ((new {}).run orders).model? "Line" = some m' ∧ m'.relation? i = some relation'
        ∧ relation.joinClauses ≠ []
        ∧ relation.joinClauses = relation'.joinClauses.map JoinClause.swap := by
  obtain ⟨c, reached⟩ : ∃ c, (new {}).run orders = c := ⟨_, rfl⟩
  have once : (new {}).DeclaresOnce orders :=
    ⟨.declare _ rfl, .declare _ (by cbv), .generate _, trivial⟩
  have facts : ((c.workspace.descriptors.entries.all fun p => p.2.identifyingTargets.all fun t =>
        ["Order", "Line"].idxOf t < ["Order", "Line"].idxOf p.1)
      && ((c.model? "Order").any (!·.isAbstract))
      && (c.descriptor? "Order").any fun d => d.relationships.any fun e =>
        e.name == "lines" && e.relationship.target == "Line" && e.declaredBy == "Order"
          && !e.relationship.hostsKey) = true := by
    rw [← reached]
    cbv
  simp only [Bool.and_eq_true, Bool.not_eq_true', Option.any_eq_true, List.any_eq_true,
    beq_iff_eq] at facts
  obtain ⟨⟨falls, m, found, concrete⟩, d, there, e, mem, ⟨⟨name, target⟩, own⟩, keyless⟩ := facts
  have acyclic : KeysAcyclic c.workspace.descriptors := keysAcyclic_of_order _ falls
  obtain ⟨i, relation, relation', _, m', _, named, populates, found', _, _, _, _, named', _, some,
    swapped⟩ := pairs_agree {} orders once c reached acyclic "Order" m d e found concrete there mem own
      keyless
  rw [reached]
  exact ⟨once, acyclic, m, i, relation, relation', m', found, name ▸ named, populates, target ▸ found',
    named', some, swapped⟩

end Compiler

end ResourceTables
