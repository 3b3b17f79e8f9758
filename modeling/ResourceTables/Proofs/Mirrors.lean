/-
# `ResourceTables.Proofs.Mirrors` — the joins of a side without a key, in a finished unit

Such a side looks among the foreign keys of its target for the one that its inverse would have made.
In a finished unit that key is there, since it was copied from the finished primary key, and whichever
key is found has the same columns.  So the joins are those of the other side, turned around.
-/
import ResourceTables.Proofs.Blueprint

namespace ResourceTables

/-- The join seen from the other table. -/
def JoinClause.swap (join : JoinClause) : JoinClause := { own := join.remote, remote := join.own }

/-- The joins along a foreign key, as its own table sees them. -/
def ForeignKey.joins (key : ForeignKey) (host : Table) : List JoinClause :=
  (key.columns.zip key.referredColumns).map fun (column, referred) =>
    { own := s!"{host.fullName}.{column}", remote := s!"{key.referredTable}.{referred}" }

/-- The foreign key of `host` over the primary key of `target` that a relation has made and joins
along. -/
structure ForeignKey.MadeBy (key : ForeignKey) (relation : Relation) (host target : Table) :
    Prop where
  mem : key ∈ host.constraints
  referredTable_eq : key.referredTable = target.fullName
  referredColumns_eq : key.referredColumns = target.primaryKey.map (·.name)
  columns_eq : key.columns
    = target.primaryKey.map (RelationshipBuilder.keyColumnName relation.name)
  joins_eq : relation.joinClauses = key.joins host

/-- Where properties have distinct names, a relation is found by its name. -/
theorem ModelShape.relation?_of_mem {m : ModelShape} {relation : Relation}
    (distinct : (m.properties.map (·.name)).Nodup) (mem : .relation relation ∈ m.properties) :
    m.relation? relation.name = some relation := by
  unfold relation?
  generalize m.properties = properties at distinct mem ⊢
  induction properties with
  | nil => cases mem
  | cons p rest ih =>
      rw [List.map_cons, List.nodup_cons] at distinct
      rcases List.mem_cons.1 mem with rfl | later
      · simp
      · have other : p.name ≠ relation.name := fun same =>
          distinct.1 (same ▸ List.mem_map_of_mem (f := (·.name)) later)
        cases p with
        | column name column =>
            rw [List.findSome?_cons_of_isNone rfl]
            exact ih distinct.2 later
        | relation r =>
            have other : (r.name == relation.name) = false := by simpa [MappedProperty.name] using other
            rw [List.findSome?_cons_of_isNone (by simp [other])]
            exact ih distinct.2 later

namespace RelationshipBuilder

variable {b : RelationshipBuilder} {r : Relationship} {owner target host : Table}

/-- The key that a builder makes is the one that its other side looks for. -/
theorem servesInverse_foreignKey (same : target.reference = owner.reference)
    (b : RelationshipBuilder) (r : Relationship) (host : Table) :
    servesInverse owner b.name (b.foreignKey r host target) = true := by
  obtain ⟨name, key⟩ := Table.reference_eq_iff.1 same
  simp [servesInverse, foreignKey, name, key]

/-- Along the key that a builder makes run the joins that it records. -/
theorem joins_foreignKey (b : RelationshipBuilder) (r : Relationship) (host target : Table) :
    (b.foreignKey r host target).joins host = target.primaryKey.map (b.keyJoin host target) := by
  simp only [ForeignKey.joins, foreignKey, List.zip_map', List.map_map]
  rfl

/-- Whichever key a side without one finds, its joins are those of the builder that makes such keys,
turned around. -/
theorem inverseJoins_eq (b : RelationshipBuilder)
    (served : ∃ key ∈ target.constraints, servesInverse owner b.name key = true) :
    inverseJoins owner target b.name
      = (owner.primaryKey.map (b.keyJoin target owner)).map JoinClause.swap := by
  unfold inverseJoins
  cases found : target.constraints.find? (servesInverse owner b.name) with
  | none =>
      obtain ⟨key, mem, serves⟩ := served
      exact absurd serves (List.find?_eq_none.1 found key mem)
  | some key =>
      have serves := List.find?_some found
      simp only [servesInverse, Bool.and_eq_true, beq_iff_eq] at serves
      obtain ⟨⟨_, columns⟩, referred⟩ := serves
      simp only [columns, referred, List.zip_map', List.map_map]
      rfl

theorem keyJoin_congr {host' target' : Table} (own : host.fullName = host'.fullName)
    (same : target.reference = target'.reference) : b.keyJoin host target = b.keyJoin host' target' := by
  funext k
  simp only [keyJoin, own, (Table.reference_eq_iff.1 same).1]

end RelationshipBuilder

namespace Generation

variable {D : Roster Descriptor} {start generated : Roster Model} {unit : List String}
  {refs : String → Option Table} {n x i : String} {d t : Descriptor} {r other : Relationship}

/-! ## Relations of finished members -/

theorem mem_properties_finished {p : MappedProperty} :
    p ∈ (finished D start generated refs n).properties ↔
      ∃ b ∈ (linked D start refs n).builders, b.mapped { owner := n, generated }
        (described D n).view (linkedDrafts D start refs) = .ok (some p) := by
  change p ∈ Builder.mappedAll _ _ _ _ ↔ _
  simp only [Builder.mappedAll, List.mem_filterMap]
  refine exists_congr fun b => and_congr_right fun _ => ?_
  cases b.mapped _ _ _ with
  | error e => simp
  | ok q => simp

theorem nodup_properties_finished (ready : Ready D unit start) (member : n ∈ unit) :
    ((finished D start generated refs n).properties.map (·.name)).Nodup :=
  (Builder.names_mappedAll _).nodup (names_linked ready member)

section Members

variable (ready : Ready D unit start)
  (first : ∀ n ∈ unit, (begun D start n).Keyable refs (described D n).view (·.forcesPrimaryKey))

/-- A relationship of a member has its builder, which has recorded nothing. -/
theorem Ready.exists_builder (ready : Ready D unit start) (member : n ∈ unit)
    (found : D.get? n = some d) (named : d.relationship? x = some r) :
    ∃ b : RelationshipBuilder, .relationship b ∈ d.plan.builders ∧ b.name = x
      ∧ b.joinClauses = [] ∧ b.columnsCreated = false := by
  obtain ⟨d', found', wf, fresh, _⟩ := ready.described n member
  rw [found, Option.some.injEq] at found'
  subst found'
  obtain ⟨e, mem, name, _⟩ := wf.relationship?_eq_some_iff.1 named
  obtain ⟨b, built, same⟩ := (wf.relationship_built x).2 (name ▸ List.mem_map_of_mem mem)
  have reset := fresh _ built
  simp only [Builder.reset, Builder.relationship.injEq] at reset
  refine ⟨b, built, same, ?_, ?_⟩
  · rw [← reset]
    rfl
  · rw [← reset]
    rfl

variable (generated) in
include ready first in
/-- A member's relationship without a key reads its joins off the finished table of its target. -/
theorem exists_keyless_relation (member : n ∈ unit) (found : D.get? n = some d)
    (named : d.relationship? x = some r) (keyless : r.hostsKey = false)
    (inverse : r.inverse = some i) (inside : r.target ∈ unit) :
    ∃ relation, .relation relation ∈ (finished D start generated refs n).properties
      ∧ relation.name = x ∧ relation.target = r.target ∧ relation.backPopulates = some i
      ∧ relation.joinClauses = RelationshipBuilder.inverseJoins (linked D start refs n).table
          (linked D start refs r.target).table i := by
  obtain ⟨b, built, rfl, joins, _⟩ := ready.exists_builder member found named
  have seen : (described D n).view.relationship? b.name = some r := by
    rw [described_eq found, Descriptor.view_relationship?, named]
  have idle : (Builder.relationship b).keySide? (described D n).view = none := by
    simp [Builder.keySide?, RelationshipBuilder.keyFor?, seen, keyless]
  refine ⟨b.relationOf r (RelationshipBuilder.inverseJoins (linked D start refs n).table
    (linked D start refs r.target).table i), mem_properties_finished.2 ⟨.relationship b, ?_, ?_⟩,
    rfl, rfl, inverse, rfl⟩
  · rw [builders_linked first member]
    refine List.mem_map.2 ⟨.relationship b, ?_, Builder.keyed_of_none idle⟩
    rw [described_eq found]
    exact built
  · refine (Builder.mapped_relationship_eq_ok_iff seen).2 ⟨_, ?_, rfl⟩
    have own : BuildSite.ownerTable { owner := n, generated } (linkedDrafts D start refs)
        = .ok (linked D start refs n).table := ownerTable_stateOf (ready.names_eq ▸ member)
    have far : BuildSite.targetTable { owner := n, generated } (linkedDrafts D start refs) r.target
        = .ok (linked D start refs r.target).table := by
      rw [targetTable_eq_ok_iff_known]
      refine (knownTable_stateOf _).trans ?_
      rw [if_pos (ready.names_eq ▸ inside)]
    simp only [RelationshipBuilder.joins, joins, inverse, own, far]
    rfl

variable (generated) in
include ready first in
/-- A member's relationship with a key has its joins and its foreign key over the whole primary key
of its target. -/
theorem exists_hosting_relation (account : Account D unit start generated refs)
    (second : ∀ n ∈ unit, (identified D start refs n).Keyable refs (described D n).view fun _ => true)
    (member : n ∈ unit) (found : D.get? n = some d) (named : d.relationship? x = some r)
    (hosts : r.hostsKey = true) (inside : r.target ∈ unit) :
    ∃ (b : RelationshipBuilder) (relation : Relation) (target : Table),
      b.name = x ∧ target.primaryKey ≠ []
        ∧ target.reference = (linked D start refs r.target).table.reference
        ∧ .relation relation ∈ (finished D start generated refs n).properties
        ∧ relation.name = x ∧ relation.target = r.target
        ∧ relation.joinClauses = target.primaryKey.map (b.keyJoin (drafted start n) target)
        ∧ b.foreignKey r (drafted start n) target ∈ (linked D start refs n).table.constraints := by
  obtain ⟨b, built, rfl, joins, uncreated⟩ := ready.exists_builder member found named
  have seen : (described D n).view.relationship? b.name = some r := by
    rw [described_eq found, Descriptor.view_relationship?, named]
  have wanted : b.keyFor? (described D n).view = some r :=
    Builder.keyFor?_eq_some_iff.2 ⟨uncreated, seen, hosts⟩
  have built' : .relationship b ∈ (described D n).plan.builders := described_eq found ▸ built
  have sides : (⟨b, r⟩ : KeySide) ∈ identifyingSides D n ++ plainSides D n := by
    by_cases forces : b.forcesPrimaryKey
    · exact List.mem_append_left _ (Builder.mem_keySides.2 ⟨built', forces, wanted⟩)
    · exact List.mem_append_right _
        (Builder.mem_keySides.2 ⟨built', by simpa [Builder.forcesPrimaryKey] using forces, wanted⟩)
  obtain ⟨target, known, key⟩ : (⟨b, r⟩ : KeySide).Keyed refs := by
    rcases List.mem_append.1 sides with identifying | plain
    · exact (first n member).1 _ identifying
    · exact (second n member).1 _ (by rw [sides_identified first member]; exact plain)
  have same : target.reference = (linked D start refs r.target).table.reference := by
    have inside' := account.inside _ inside
    rw [known, Option.map_some, Option.some.injEq] at inside'
    rw [inside', reference_linked first inside]
  have made : (Builder.relationship b).keyed refs (drafted start n) (described D n).view
      = .relationship (b.keyed (drafted start n) target) :=
    Builder.keyed_of_some (s := ⟨b, r⟩) (Builder.keySide?_eq_some_iff.2 ⟨rfl, wanted⟩) known
  refine ⟨b, (b.keyed (drafted start n) target).relationOf r
    (target.primaryKey.map (b.keyJoin (drafted start n) target)), target, rfl, key, same,
    mem_properties_finished.2 ⟨.relationship (b.keyed (drafted start n) target), ?_, ?_⟩,
    rfl, rfl, rfl, ?_⟩
  · rw [builders_linked first member]
    exact List.mem_map.2 ⟨_, built', made⟩
  · have seen' : (described D n).view.relationship? (b.keyed (drafted start n) target).name = some r :=
      seen
    exact (Builder.mapped_relationship_eq_ok_iff seen').2
      ⟨_, RelationshipBuilder.joins_keyed joins key r, rfl⟩
  · rw [table_linked first member]
    refine List.mem_append_right _ (List.mem_flatMap.2 ⟨⟨b, r⟩, sides, ?_⟩)
    simp [KeySide.keys, known]

end Members

/-- Both sides of a pair of members join along the key that the hosting side has made. -/
theorem mirrored_relations (ready : Ready D unit start)
    (account : Account D unit start generated refs)
    (drawable : ∀ n ∈ unit, Drawable D start generated refs n) (member : n ∈ unit)
    (found : D.get? n = some d) (named : d.relationship? x = some r) (keyless : r.hostsKey = false)
    (inverse : r.inverse = some i) (inside : r.target ∈ unit) (there : D.get? r.target = some t)
    (named' : t.relationship? i = some other) (back : other.target = n)
    (hosts : other.hostsKey = true) :
    ∃ (relation relation' : Relation) (key : ForeignKey),
      .relation relation ∈ (finished D start generated refs n).properties
      ∧ relation.name = x ∧ relation.target = r.target ∧ relation.backPopulates = some i
      ∧ .relation relation' ∈ (finished D start generated refs r.target).properties
      ∧ relation'.name = i ∧ relation'.target = n ∧ relation'.joinClauses ≠ []
      ∧ relation.joinClauses = relation'.joinClauses.map JoinClause.swap
      ∧ key.MadeBy relation' (finished D start generated refs r.target).table
          (finished D start generated refs n).table := by
  have first := fun n member => (drawable n member).identifying
  have second := fun n member => (drawable n member).plain
  obtain ⟨relation, mem, name, target, populates, joins⟩ := exists_keyless_relation
    generated ready first member found named keyless inverse inside
  obtain ⟨b, relation', own, rfl, key, same, mem', name', target', joins', constraint⟩ :=
    exists_hosting_relation generated ready first account second inside there named'
      hosts (back.symm ▸ member)
  rw [back] at same
  have host : (drafted start r.target).fullName = (linked D start refs r.target).table.fullName := by
    rw [table_linked first inside]
    rfl
  obtain ⟨fullName, primaryKey⟩ := Table.reference_eq_iff.1 same
  refine ⟨relation, relation', b.foreignKey other (drafted start r.target) own, mem, name, target,
    populates, mem', name', target'.trans back, ?_, ?_, constraint, fullName, ?_, ?_, ?_⟩
  · rw [joins']
    simpa using key
  · rw [joins, joins', RelationshipBuilder.inverseJoins_eq b
      ⟨_, constraint, RelationshipBuilder.servesInverse_foreignKey same b other _⟩,
      primaryKey, RelationshipBuilder.keyJoin_congr host same]
  · rw [RelationshipBuilder.foreignKey, primaryKey]
    rfl
  · rw [RelationshipBuilder.foreignKey, primaryKey, name']
    rfl
  · rw [joins', ← RelationshipBuilder.joins_foreignKey b other, ForeignKey.joins, host]
    rfl

end Generation

end ResourceTables
