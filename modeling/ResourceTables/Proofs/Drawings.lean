/-
# `ResourceTables.Proofs.Drawings` — what one descriptor makes of its draft

What a member of a unit becomes can be read off its own descriptor and the finished tables that its
relationships lead to.  Descriptors that differ in the order of their completions only draw the same
table and the same properties, up to the order of what the completions make; and what is drawn depends
on the other tables up to that order too.
-/
import ResourceTables.Proofs.Mirrors

namespace ResourceTables

/-! ## Drawing one resource -/

/-- The joins of a finished relation: over the primary key of the target, if the relationship hosts
the key, else those of the key that the target has made. -/
def RelationshipBuilder.drawnJoins (b : RelationshipBuilder) (tables : String → Option Table)
    (own : Table) (r : Relationship) : List JoinClause :=
  match tables r.target with
  | none => []
  | some target =>
    if r.hostsKey then target.primaryKey.map (b.keyJoin own target)
    else (r.inverse.map (inverseJoins own target)).getD []

/-- The property that a builder draws. -/
def Builder.drawn (view : PropertyView) (tables : String → Option Table) (own : Table) :
    Builder → Option MappedProperty
  | field name => some (.column name name)
  | relationship b =>
    (view.relationship? b.name).map fun r => .relation (b.relationOf r (b.drawnJoins tables own r))

theorem KeySide.Keyed.congr {s : KeySide} {refs refs' : String → Option Table} (h : s.Keyed refs)
    (same : (refs s.relationship.target).map Table.reference
      = (refs' s.relationship.target).map Table.reference) : s.Keyed refs' := by
  obtain ⟨target, found, key⟩ := h
  rw [found, Option.map_some, eq_comm, Option.map_eq_some_iff] at same
  obtain ⟨target', found', same⟩ := same
  exact ⟨target', found', (Table.reference_eq_iff.1 same).2 ▸ key⟩

namespace Descriptor

/-- The sides whose keys join the primary key, in the order of the builders. -/
def identifyingSides (d : Descriptor) : List KeySide :=
  Builder.keySides d.view (·.forcesPrimaryKey) d.plan.builders

/-- The other sides that have a key to make, in the order of the builders. -/
def plainSides (d : Descriptor) : List KeySide :=
  Builder.keySides d.view (!·.forcesPrimaryKey) d.plan.builders

/-- The table with all keys of the resource. -/
def drawnTable (d : Descriptor) (tables : String → Option Table) (start : Table) : Table :=
  start.withKeys tables (d.identifyingSides ++ d.plainSides)

/-- The properties of the resource, beside its own finished table. -/
def drawnProperties (d : Descriptor) (tables : String → Option Table) (own : Table) :
    List MappedProperty :=
  d.plan.builders.filterMap (·.drawn d.view tables own)

/-- The table can be drawn: all targets have primary keys, and no two columns one name. -/
structure CanDraw (d : Descriptor) (tables : String → Option Table) (start : Table) : Prop where
  keyed : ∀ s ∈ d.identifyingSides ++ d.plainSides, s.Keyed tables
  distinct : (d.drawnTable tables start).columnNames.Nodup

/-- Every relationship leads to a table. -/
def Leads (d : Descriptor) (tables : String → Option Table) : Prop :=
  ∀ x r, d.relationship? x = some r → ∃ t, tables r.target = some t

/-- Where the relationships lead, two accounts of tables have what keys copy in common. -/
def SameReferences (d : Descriptor) (tables tables' : String → Option Table) : Prop :=
  ∀ x r, d.relationship? x = some r →
    (tables r.target).map Table.reference = (tables' r.target).map Table.reference

variable {d : Descriptor} {tables tables' : String → Option Table} {start : Table} {s : KeySide}

/-- A side is one of a relationship of the resource. -/
theorem relationship?_of_mem_sides (mem : s ∈ d.identifyingSides ++ d.plainSides) :
    d.relationship? s.builder.name = some s.relationship := by
  have wanted : s.builder.keyFor? d.view = some s.relationship := by
    rcases List.mem_append.1 mem with mem | mem
    · exact (Builder.mem_keySides.1 mem).2.2
    · exact (Builder.mem_keySides.1 mem).2.2
  rw [← view_relationship?]
  exact (Builder.keyFor?_eq_some_iff.1 wanted).2.1

theorem drawnTable_congr (same : d.SameReferences tables tables') :
    d.drawnTable tables start = d.drawnTable tables' start :=
  Table.withKeys_congr fun _ mem => same _ _ (relationship?_of_mem_sides mem)

theorem CanDraw.congr (h : d.CanDraw tables start) (same : d.SameReferences tables tables') :
    d.CanDraw tables' start where
  keyed := fun s mem => (h.keyed s mem).congr (same _ _ (relationship?_of_mem_sides mem))
  distinct := by
    rw [← drawnTable_congr same]
    exact h.distinct

/-- Keys that do not join the primary key change nothing that others copy. -/
theorem reference_drawnTable (d : Descriptor) (tables : String → Option Table) (start : Table) :
    (d.drawnTable tables start).reference = (start.withKeys tables d.identifyingSides).reference := by
  rw [drawnTable, ← Table.withKeys_append]
  refine Table.reference_withKeys_plain ?_
  intro s mem
  have plain := (Builder.mem_keySides.1 mem).2.1
  simpa [Builder.forcesPrimaryKey] using plain

end Descriptor

/-! ## Members of a unit are drawn -/

section Mapped

variable {site : BuildSite} {view : PropertyView} {drafts : Roster Model}
  {refs tables : String → Option Table} {start own target t : Table} {b : RelationshipBuilder}
  {r : Relationship}

/-- A builder that has made a key maps it. -/
theorem RelationshipBuilder.mapped_hosting (found : view.relationship? b.name = some r)
    (hosts : r.hostsKey = true) (clauses : b.joinClauses = []) (key : target.primaryKey ≠ [])
    (name : start.fullName = own.fullName) (there : tables r.target = some t)
    (same : target.reference = t.reference) :
    (Builder.relationship (b.keyed start target)).mapped site view drafts
      = .ok ((Builder.relationship b).drawn view tables own) := by
  refine (Builder.mapped_relationship_eq_ok_iff (b := b.keyed start target) found).2
    ⟨_, RelationshipBuilder.joins_keyed clauses key r, ?_⟩
  simp only [Builder.drawn, found, Option.map_some, RelationshipBuilder.drawnJoins, there, hosts,
    if_true]
  rw [RelationshipBuilder.keyJoin_congr name same, (Table.reference_eq_iff.1 same).2]
  rfl

/-- A builder whose key is on the other side maps that one. -/
theorem RelationshipBuilder.mapped_far (found : view.relationship? b.name = some r)
    (hosts : r.hostsKey = false) (clauses : b.joinClauses = [])
    (here : site.ownerTable drafts = .ok own) (there : tables r.target = some t)
    (known : knownTable site.generated drafts r.target = some t) :
    (Builder.relationship b).mapped site view drafts
      = .ok ((Builder.relationship b).drawn view tables own) := by
  refine (Builder.mapped_relationship_eq_ok_iff found).2 ⟨b.drawnJoins tables own r, ?_, ?_⟩
  · have far : site.targetTable drafts r.target = .ok t := targetTable_eq_ok_iff_known.2 known
    unfold RelationshipBuilder.joins
    simp only [RelationshipBuilder.drawnJoins, there, hosts, Bool.false_eq_true, if_false, clauses,
      far, here]
    cases r.inverse <;> rfl
  · simp only [Builder.drawn, found, Option.map_some]

/-- In its second phase a builder that has made its key puts on the property that it draws. -/
theorem Builder.mapped_keyed {b : Builder} (fresh : b.reset = b)
    (keyed : ∀ s, b.keySide? view = some s → s.Keyed refs)
    (here : site.ownerTable drafts = .ok own) (name : start.fullName = own.fullName)
    (known : ∀ x r, view.relationship? x = some r → ∃ t, tables r.target = some t
      ∧ (refs r.target).map Table.reference = some t.reference
      ∧ knownTable site.generated drafts r.target = some t) :
    (b.keyed refs start view).mapped site view drafts = .ok (b.drawn view tables own) := by
  cases b with
  | field name => rfl
  | relationship b =>
      rw [Builder.reset, Builder.relationship.injEq] at fresh
      have clauses : b.joinClauses = [] := by rw [← fresh]; rfl
      have uncreated : b.columnsCreated = false := by rw [← fresh]; rfl
      cases found : view.relationship? b.name with
      | none =>
          have idle : (Builder.relationship b).keySide? view = none := by
            simp [Builder.keySide?, RelationshipBuilder.keyFor?, found]
          rw [Builder.keyed_of_none idle]
          simp only [Builder.mapped, Builder.drawn, found, Option.map_none]
      | some r =>
          obtain ⟨t, there, same, drafted⟩ := known b.name r found
          cases hosts : r.hostsKey with
          | true =>
              have side : (Builder.relationship b).keySide? view = some ⟨b, r⟩ :=
                Builder.keySide?_eq_some_iff.2
                  ⟨rfl, Builder.keyFor?_eq_some_iff.2 ⟨uncreated, found, hosts⟩⟩
              obtain ⟨target, referred, key⟩ := keyed _ side
              rw [referred, Option.map_some, Option.some.injEq] at same
              rw [Builder.keyed_of_some side referred]
              exact RelationshipBuilder.mapped_hosting found hosts clauses key name there same
          | false =>
              have idle : (Builder.relationship b).keySide? view = none := by
                simp [Builder.keySide?, RelationshipBuilder.keyFor?, found, hosts]
              rw [Builder.keyed_of_none idle]
              exact RelationshipBuilder.mapped_far found hosts clauses here there drafted

end Mapped

namespace Generation

variable {D : Roster Descriptor} {start generated : Roster Model} {unit : List String}
  {refs tables : String → Option Table} {n : String}

/-- Both passes can make the keys of a member just if its table can be drawn. -/
theorem keyable_iff_canDraw :
    (begun D start n).Keyable refs (described D n).view (·.forcesPrimaryKey) ∧
        (identified D start refs n).Keyable refs (described D n).view (fun _ => true) ↔
      (described D n).CanDraw refs (drafted start n) := by
  have table : ∀ first : ∀ k ∈ [n],
      (begun D start k).Keyable refs (described D k).view (·.forcesPrimaryKey),
      (linked D start refs n).table = (described D n).drawnTable refs (drafted start n) :=
    fun first => table_linked first (List.mem_singleton_self n)
  constructor
  · rintro ⟨first, keyed, distinct⟩
    have alone : ∀ k ∈ [n],
        (begun D start k).Keyable refs (described D k).view (·.forcesPrimaryKey) := by
      intro k mem
      rw [List.mem_singleton.1 mem]
      exact first
    rw [sides_identified alone (List.mem_singleton_self n)] at keyed
    refine ⟨fun s mem => ?_, ?_⟩
    · rcases List.mem_append.1 mem with mem | mem
      · exact first.1 s mem
      · exact keyed s mem
    · rw [← table alone]
      exact distinct
  · rintro ⟨keyed, distinct⟩
    have first : (begun D start n).Keyable refs (described D n).view (·.forcesPrimaryKey) := by
      refine ⟨fun s mem => keyed s (List.mem_append_left _ mem), ?_⟩
      rw [Descriptor.drawnTable, ← Table.withKeys_append, Table.columnNames_withKeys] at distinct
      exact (List.nodup_append.1 distinct).1
    have alone : ∀ k ∈ [n],
        (begun D start k).Keyable refs (described D k).view (·.forcesPrimaryKey) := by
      intro k mem
      rw [List.mem_singleton.1 mem]
      exact first
    refine ⟨first, fun s mem => ?_, ?_⟩
    · rw [sides_identified alone (List.mem_singleton_self n)] at mem
      exact keyed s (List.mem_append_right _ mem)
    · rw [← table alone] at distinct
      exact distinct

/-- Accounts of tables tell of those that the relationships of a member lead to once all keys of its
unit are made. -/
def Tells (D : Roster Descriptor) (start generated : Roster Model)
    (refs tables : String → Option Table) (n : String) : Prop :=
  ∀ x r, (described D n).relationship? x = some r → ∃ t, tables r.target = some t
    ∧ (refs r.target).map Table.reference = some t.reference
    ∧ knownTable generated (linkedDrafts D start refs) r.target = some t

theorem Tells.sameReferences (tells : Tells D start generated refs tables n) :
    (described D n).SameReferences refs tables := by
  intro x r found
  obtain ⟨t, there, same, _⟩ := tells x r found
  rw [same, there]
  rfl

section Members

variable (ready : Ready D unit start)
  (first : ∀ n ∈ unit, (begun D start n).Keyable refs (described D n).view (·.forcesPrimaryKey))
  (second : ∀ n ∈ unit, (identified D start refs n).Keyable refs (described D n).view fun _ => true)
  (member : n ∈ unit) (tells : Tells D start generated refs tables n)

include first member tells in
/-- The table of a member is drawn. -/
theorem table_drawn :
    (linked D start refs n).table = (described D n).drawnTable tables (drafted start n) := by
  rw [← Descriptor.drawnTable_congr tells.sameReferences]
  exact table_linked first member

include ready first second member tells in
/-- Every builder of a member puts on the property that it draws. -/
theorem mapped_drawn {b : Builder} (mem : b ∈ (described D n).plan.builders) :
    (b.keyed refs (drafted start n) (described D n).view).mapped { owner := n, generated }
        (described D n).view (linkedDrafts D start refs)
      = .ok (b.drawn (described D n).view tables (linked D start refs n).table) := by
  obtain ⟨d, found, _, fresh, _⟩ := ready.described n member
  refine Builder.mapped_keyed (fresh b (described_eq found ▸ mem)) ?_
    (ownerTable_stateOf (ready.names_eq ▸ member)) ?_ ?_
  · intro s side
    obtain ⟨rfl, wanted⟩ := Builder.keySide?_eq_some_iff.1 side
    have drawn := (keyable_iff_canDraw.1 ⟨first n member, second n member⟩).keyed s
    refine drawn (List.mem_append.2 ?_)
    cases forces : s.builder.forcesPrimaryKey with
    | true => exact .inl (Builder.mem_keySides.2 ⟨mem, forces, wanted⟩)
    | false =>
        refine .inr (Builder.mem_keySides.2 ⟨mem, ?_, wanted⟩)
        simpa [Builder.forcesPrimaryKey] using forces
  · rw [table_linked first member]
    rfl
  · intro x r named
    rw [Descriptor.view_relationship?] at named
    exact tells x r named

include ready first second member tells in
theorem mappable_of_tells : Mappable D start generated refs n := by
  intro b mem
  rw [builders_linked first member] at mem
  obtain ⟨b₀, built, rfl⟩ := List.mem_map.1 mem
  exact ⟨_, mapped_drawn ready first second member tells built⟩

include ready first second member tells in
/-- The properties of a member are drawn. -/
theorem properties_drawn :
    (finished D start generated refs n).properties
      = (described D n).drawnProperties tables (linked D start refs n).table := by
  change Builder.mappedAll _ _ _ (linked D start refs n).builders = _
  rw [builders_linked first member, Builder.mappedAll, List.filterMap_map]
  refine List.filterMap_congr fun b mem => ?_
  rw [Function.comp_apply, mapped_drawn ready first second member tells mem]

end Members

end Generation

/-! ## Up to the order of completions -/

/-- The relation that a side puts on the model of its table. -/
def KeySide.property (tables : String → Option Table) (own : Table) (s : KeySide) : MappedProperty :=
  .relation (s.builder.relationOf s.relationship (s.builder.drawnJoins tables own s.relationship))

/-- The model with all that some sides make, one after another: the columns of their keys, their foreign
keys and their relations. -/
def Model.withSides (m : Model) (tables : String → Option Table) (sides : List KeySide) : Model :=
  match m.table with
  | none => m
  | some own =>
    { m with
      table := some (own.withKeys tables sides)
      properties := m.properties ++ sides.map (·.property tables own) }

/-- A side of a name of some kind that was made to complete a one-to-many: its key joins no primary
key. -/
structure KeySide.Completes (late : String → Prop) (s : KeySide) : Prop where
  named : late s.builder.name
  synthesized : s.relationship.synthesized = true
  hosts : s.relationship.hostsKey = true
  plain : s.builder.forcesPrimaryKey = false

/-- Tables that are one and the same before the keys of completions, which come last, in two orders. -/
def Table.Alike (late : String → Prop) (t t' : Table) : Prop :=
  ∃ (base : Table) (tables : String → Option Table) (sides sides' : List KeySide),
    t = base.withKeys tables sides ∧ t' = base.withKeys tables sides'
      ∧ sides.Perm sides' ∧ ∀ s ∈ sides, s.Completes late

/-- Models that are one and the same before what completions make, which comes last, in two orders.  All
properties of the late kind are made by completions. -/
def Model.Alike (late : String → Prop) (m m' : Model) : Prop :=
  ∃ (base : Model) (tables : String → Option Table) (sides sides' : List KeySide),
    m = base.withSides tables sides ∧ m' = base.withSides tables sides'
      ∧ sides.Perm sides' ∧ (∀ s ∈ sides, s.Completes late) ∧ ∀ p ∈ base.properties, ¬ late p.name

/-! ## Descriptors with the same properties -/

theorem Builder.keySide?_congr {view view' : PropertyView} {b : Builder}
    (same : ∀ x, view'.relationship? x = view.relationship? x) :
    b.keySide? view' = b.keySide? view := by
  cases b with
  | field name => rfl
  | relationship b => simp only [keySide?, RelationshipBuilder.keyFor?, same]

theorem Builder.keySides_congr {view view' : PropertyView}
    (same : ∀ x, view'.relationship? x = view.relationship? x) (selected : Builder → Bool)
    (builders : List Builder) :
    keySides view' selected builders = keySides view selected builders :=
  List.filterMap_congr fun _ _ => keySide?_congr same

theorem Builder.keySides_append {view : PropertyView} (selected : Builder → Bool)
    (front back : List Builder) :
    keySides view selected (front ++ back)
      = keySides view selected front ++ keySides view selected back := by
  simp only [keySides, List.filter_append, List.filterMap_append]

theorem KeySide.property_congr {tables : String → Option Table} {own own' : Table} {s : KeySide}
    (hosts : s.relationship.hostsKey = true) (name : own.fullName = own'.fullName) :
    s.property tables own = s.property tables own' := by
  unfold KeySide.property RelationshipBuilder.drawnJoins
  cases tables s.relationship.target with
  | none => rfl
  | some target =>
      simp only [hosts, if_true]
      rw [RelationshipBuilder.keyJoin_congr name rfl]

/-- Builders of sides that host their keys draw the relations of the sides.  Joins over a key tell of the
own table the name only. -/
theorem Builder.drawn_sides {view : PropertyView} {tables : String → Option Table} {own base : Table}
    {sides : List KeySide} (wanted : ∀ s ∈ sides, s.builder.keyFor? view = some s.relationship)
    (hosts : ∀ s ∈ sides, s.relationship.hostsKey = true) (name : own.fullName = base.fullName)
    (front : List Builder) :
    (front ++ sides.map fun s => relationship s.builder).filterMap (·.drawn view tables own)
      = front.filterMap (·.drawn view tables own) ++ sides.map (·.property tables base) := by
  rw [List.filterMap_append, List.filterMap_map, ← List.filterMap_eq_map]
  refine congrArg _ (List.filterMap_congr fun s mem => ?_)
  have found := (keyFor?_eq_some_iff.1 (wanted s mem)).2.1
  rw [Function.comp_apply, drawn, found, Option.map_some, Function.comp_apply,
    ← KeySide.property_congr (hosts s mem) name, KeySide.property]

namespace Descriptor

/-- The builders of a descriptor are some `front` and then those of sides that join no primary key. -/
structure Ends (d : Descriptor) (front : List Builder) (sides : List KeySide) : Prop where
  builders_eq : d.plan.builders = front ++ sides.map (.relationship ·.builder)
  wanted : ∀ s ∈ sides, s.builder.keyFor? d.view = some s.relationship
  plain : ∀ s ∈ sides, s.builder.forcesPrimaryKey = false

namespace Ends

variable {d : Descriptor} {front : List Builder} {sides : List KeySide} {tables : String → Option Table}
  {start own : Table} (h : d.Ends front sides)

include h

theorem identifyingSides_eq :
    d.identifyingSides = Builder.keySides d.view (·.forcesPrimaryKey) front := by
  have none : Builder.keySides d.view (·.forcesPrimaryKey) (sides.map (.relationship ·.builder))
      = [] := by
    refine List.eq_nil_iff_forall_not_mem.2 fun s mem => ?_
    obtain ⟨built, forces, _⟩ := Builder.mem_keySides.1 mem
    obtain ⟨s', inside, same⟩ := List.mem_map.1 built
    rw [← same] at forces
    exact Bool.false_ne_true ((h.plain s' inside).symm.trans forces)
  rw [identifyingSides, h.builders_eq, Builder.keySides_append, none, List.append_nil]

theorem plainSides_eq :
    d.plainSides = Builder.keySides d.view (!·.forcesPrimaryKey) front ++ sides := by
  have all : Builder.keySides d.view (!·.forcesPrimaryKey) (sides.map (.relationship ·.builder))
      = sides := by
    have chosen : (sides.map fun s => Builder.relationship s.builder).filter (!·.forcesPrimaryKey)
        = sides.map (.relationship ·.builder) := by
      refine List.filter_eq_self.2 fun b mem => ?_
      obtain ⟨s, inside, rfl⟩ := List.mem_map.1 mem
      simpa [Builder.forcesPrimaryKey] using h.plain s inside
    rw [Builder.keySides, chosen, List.filterMap_map]
    refine (List.filterMap_congr fun s mem => ?_).trans List.filterMap_some
    exact Builder.keySide?_eq_some_iff.2 ⟨rfl, h.wanted s mem⟩
  rw [plainSides, h.builders_eq, Builder.keySides_append, all]

/-- The last keys of the table are those of the last sides. -/
theorem drawnTable_eq :
    d.drawnTable tables start = (start.withKeys tables (d.identifyingSides
      ++ Builder.keySides d.view (!·.forcesPrimaryKey) front)).withKeys tables sides := by
  rw [drawnTable, h.plainSides_eq, ← List.append_assoc, Table.withKeys_append]

end Ends

/-- Descriptors with the same relationships, and with the same builders up to the order of those of
completions, which come last. -/
structure Akin (late : String → Prop) (d d' : Descriptor) : Prop where
  relationship?_eq : ∀ x, d'.relationship? x = d.relationship? x
  builders : ∃ front sides sides', d.Ends front sides ∧ d'.Ends front sides' ∧ sides.Perm sides'
    ∧ (∀ s ∈ sides, s.Completes late) ∧ ∀ b ∈ front, ¬ late b.name

variable {late : String → Prop} {d d' : Descriptor} {tables tables' : String → Option Table}
  {start own own' : Table}

theorem Akin.view_eq (h : d.Akin late d') (x : String) :
    d'.view.relationship? x = d.view.relationship? x := by
  rw [view_relationship?, view_relationship?]
  exact h.relationship?_eq x

/-- What may come in another order joins no primary key. -/
theorem Akin.identifyingSides_eq (h : d.Akin late d') : d'.identifyingSides = d.identifyingSides := by
  obtain ⟨_, _, _, ends, ends', _⟩ := h.builders
  rw [ends'.identifyingSides_eq, ends.identifyingSides_eq, Builder.keySides_congr h.view_eq]

theorem Akin.sides_perm (h : d.Akin late d') :
    (d.identifyingSides ++ d.plainSides).Perm (d'.identifyingSides ++ d'.plainSides) := by
  obtain ⟨_, _, _, ends, ends', perm, _⟩ := h.builders
  rw [h.identifyingSides_eq, ends.plainSides_eq, ends'.plainSides_eq,
    Builder.keySides_congr h.view_eq]
  exact (perm.append_left _).append_left _

/-- From the same references such descriptors draw one table before the keys of completions. -/
theorem Akin.exists_drawnTable (h : d.Akin late d') (same : d'.SameReferences tables tables')
    (start : Table) :
    ∃ front sides sides', ∃ base : Table, d.Ends front sides ∧ d'.Ends front sides' ∧ sides.Perm sides'
      ∧ (∀ s ∈ sides, s.Completes late) ∧ (∀ b ∈ front, ¬ late b.name)
      ∧ d.drawnTable tables start = base.withKeys tables sides
      ∧ d'.drawnTable tables' start = base.withKeys tables sides' := by
  obtain ⟨front, sides, sides', ends, ends', perm, completes, apart⟩ := h.builders
  refine ⟨front, sides, sides', _, ends, ends', perm, completes, apart, ends.drawnTable_eq, ?_⟩
  rw [← drawnTable_congr same, ends'.drawnTable_eq, h.identifyingSides_eq,
    Builder.keySides_congr h.view_eq]

/-- From the same references such descriptors draw tables that are alike. -/
theorem Akin.drawnTable (h : d.Akin late d') (same : d'.SameReferences tables tables') :
    (d.drawnTable tables start).Alike late (d'.drawnTable tables' start) := by
  obtain ⟨_, sides, sides', base, _, _, perm, completes, _, drawn, drawn'⟩ :=
    h.exists_drawnTable same start
  exact ⟨base, tables, sides, sides', drawn, drawn', perm, completes⟩

/-- Of such descriptors the one can be drawn just if the other can. -/
theorem Akin.canDraw (h : d.Akin late d') (can : d.CanDraw tables start) : d'.CanDraw tables start where
  keyed := fun s mem => can.keyed s (h.sides_perm.mem_iff.2 mem)
  distinct := by
    have columns : (d.drawnTable tables start).columns.Perm (d'.drawnTable tables start).columns :=
      (h.sides_perm.flatMap_right _).append_left _
    exact (columns.map _).nodup can.distinct

end Descriptor

/-! ## Properties beside tables that are alike -/

namespace Table.Alike

variable {late late' : String → Prop} {t t' own own' : Table}

theorem reference_eq (h : t.Alike late t') : t'.reference = t.reference := by
  obtain ⟨base, tables, sides, sides', rfl, rfl, perm, completes⟩ := h
  rw [Table.reference_withKeys_plain fun s mem => (completes s (perm.mem_iff.2 mem)).plain,
    Table.reference_withKeys_plain fun s mem => (completes s mem).plain]

theorem mem_constraints (h : t.Alike late t') (k : ForeignKey) :
    k ∈ t'.constraints ↔ k ∈ t.constraints := by
  obtain ⟨base, tables, sides, sides', rfl, rfl, perm, _⟩ := h
  exact ((perm.flatMap_right _).append_left base.constraints).mem_iff.symm

/-- Which key a side without one finds does not matter to its joins, so neither does the order of
keys. -/
theorem inverseJoins_eq (mine : own.Alike late own') (far : t.Alike late' t') (i : String) :
    RelationshipBuilder.inverseJoins own' t' i = RelationshipBuilder.inverseJoins own t i := by
  obtain ⟨name, key⟩ := Table.reference_eq_iff.1 mine.reference_eq
  have serves : ∀ k, RelationshipBuilder.servesInverse own' i k
      = RelationshipBuilder.servesInverse own i k := by
    intro k
    rw [RelationshipBuilder.servesInverse, name, key, RelationshipBuilder.servesInverse]
  let b : RelationshipBuilder := { name := i, useList := false, forcesPrimaryKey := false }
  by_cases served : ∃ k ∈ t.constraints, RelationshipBuilder.servesInverse own i k = true
  · have served' : ∃ k ∈ t'.constraints, RelationshipBuilder.servesInverse own' b.name k = true := by
      obtain ⟨k, mem, serve⟩ := served
      exact ⟨k, (far.mem_constraints k).2 mem, (serves k).trans serve⟩
    rw [RelationshipBuilder.inverseJoins_eq b served', RelationshipBuilder.inverseJoins_eq b served,
      key, RelationshipBuilder.keyJoin_congr (Table.reference_eq_iff.1 far.reference_eq).1
        mine.reference_eq]
  · have missing : t.constraints.find? (RelationshipBuilder.servesInverse own i) = none := by
      rw [List.find?_eq_none]
      exact fun k mem serve => served ⟨k, mem, serve⟩
    have missing' : t'.constraints.find? (RelationshipBuilder.servesInverse own' i) = none := by
      rw [List.find?_eq_none]
      intro k mem serve
      exact served ⟨k, (far.mem_constraints k).1 mem, (serves k).symm.trans serve⟩
    rw [RelationshipBuilder.inverseJoins, missing', RelationshipBuilder.inverseJoins, missing]

end Table.Alike

/-- A builder draws the same property beside tables that are alike. -/
theorem Builder.drawn_congr {view view' : PropertyView} {tables tables' : String → Option Table}
    {own own' : Table} {late : String → Prop} {b : Builder}
    (same : ∀ x, view'.relationship? x = view.relationship? x) (mine : own.Alike late own')
    (far : ∀ x r, view.relationship? x = some r → ∃ t t' late, tables r.target = some t
      ∧ tables' r.target = some t' ∧ t.Alike late t') :
    b.drawn view' tables' own' = b.drawn view tables own := by
  cases b with
  | field name => rfl
  | relationship b =>
      simp only [drawn, same]
      cases found : view.relationship? b.name with
      | none => rfl
      | some r =>
          obtain ⟨t, t', _, there, there', alike⟩ := far b.name r found
          have name := (Table.reference_eq_iff.1 mine.reference_eq).1
          simp only [Option.map_some, RelationshipBuilder.drawnJoins, there, there']
          rw [(Table.reference_eq_iff.1 alike.reference_eq).2,
            RelationshipBuilder.keyJoin_congr name alike.reference_eq]
          cases r.inverse with
          | none => rfl
          | some i => rw [Option.map_some, mine.inverseJoins_eq alike, Option.map_some]

/-- A property that is drawn has the name of its builder. -/
theorem Builder.name_of_drawn {view : PropertyView} {tables : String → Option Table} {own : Table}
    {b : Builder} {p : MappedProperty} (drawn : b.drawn view tables own = some p) :
    p.name = b.name := by
  cases b with
  | field name =>
      cases drawn
      rfl
  | relationship b =>
      obtain ⟨r, _, rfl⟩ := Option.map_eq_some_iff.1 drawn
      rfl

namespace Descriptor

variable {late : String → Prop} {d d' : Descriptor} {tables tables' : String → Option Table}
  {own own' start : Table}

/-- Beside tables that are alike the one descriptor draws as the other does. -/
theorem Akin.drawnProperties_eq (h : d.Akin late d') (mine : own.Alike late own')
    (far : ∀ x r, d.relationship? x = some r → ∃ t t' late, tables r.target = some t
      ∧ tables' r.target = some t' ∧ t.Alike late t') :
    d'.drawnProperties tables' own' = d'.plan.builders.filterMap (·.drawn d.view tables own) := by
  refine List.filterMap_congr fun b _ => Builder.drawn_congr h.view_eq mine fun x r found => ?_
  rw [view_relationship?] at found
  exact far x r found

/-- From the same references such descriptors draw models that are alike, if the relationships lead to
tables that are. -/
theorem Akin.drawnModel (h : d.Akin late d') (model : Model) (same : d'.SameReferences tables tables')
    (far : ∀ x r, d.relationship? x = some r → ∃ t t' late, tables r.target = some t
      ∧ tables' r.target = some t' ∧ t.Alike late t') :
    Model.Alike late
      { model with table := some (d.drawnTable tables start)
                   properties := d.drawnProperties tables (d.drawnTable tables start) }
      { model with table := some (d'.drawnTable tables' start)
                   properties := d'.drawnProperties tables' (d'.drawnTable tables' start) } := by
  have mine : (d.drawnTable tables start).Alike late (d'.drawnTable tables' start) := h.drawnTable same
  obtain ⟨front, sides, sides', base, ends, ends', perm, completes, apart, drawn, drawn'⟩ :=
    h.exists_drawnTable same start
  have name : (d.drawnTable tables start).fullName = base.fullName := by
    rw [drawn]
    rfl
  have properties : d.drawnProperties tables (d.drawnTable tables start)
      = front.filterMap (·.drawn d.view tables (d.drawnTable tables start))
        ++ sides.map (·.property tables base) := by
    rw [drawnProperties, ends.builders_eq,
      Builder.drawn_sides ends.wanted (fun s mem => (completes s mem).hosts) name]
  have properties' : d'.drawnProperties tables' (d'.drawnTable tables' start)
      = front.filterMap (·.drawn d.view tables (d.drawnTable tables start))
        ++ sides'.map (·.property tables base) := by
    have mem : ∀ {s}, s ∈ sides' → s ∈ sides := perm.mem_iff.2
    rw [h.drawnProperties_eq mine far, ends'.builders_eq,
      Builder.drawn_sides (fun s inside => ends.wanted s (mem inside))
        (fun s inside => (completes s (mem inside)).hosts) name]
  let with_ (own : Table) (properties : List MappedProperty) : Model :=
    { model with table := some own, properties }
  refine ⟨with_ base (front.filterMap (·.drawn d.view tables (d.drawnTable tables start))), tables,
    sides, sides', congrArg₂ with_ drawn properties, congrArg₂ with_ drawn' properties', perm,
    completes, ?_⟩
  intro p mem
  obtain ⟨b, inside, one⟩ := List.mem_filterMap.1 mem
  rw [Builder.name_of_drawn one]
  exact apart b inside

end Descriptor

end ResourceTables
