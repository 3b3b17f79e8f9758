/-
# `ResourceTables.Proofs.Links` — foreign keys hold in every state that building goes through

A foreign key links two tables when each of its columns repeats a column of the other's primary key.
Both tables may still grow: what is linked stays linked, since columns only come to the end and none
of them changes.  So the drafts of a unit are linked from the first pass to the last, whatever order
their keys are made in and whether or not a key is complete when it is copied.
-/
import ResourceTables.Proofs.Builders
import ResourceTables.Proofs.Compiling

namespace ResourceTables

/-! ## Tables -/

namespace Table

variable {owner owner' target target' t t' : Table} {key : ForeignKey} {column : Column}
  {name c k : String}

/-- A column of one table repeats a column of the primary key of another. -/
def Repeats (owner target : Table) (c k : String) : Prop :=
  ∃ column key, owner.column? c = some column ∧ target.column? k = some key
    ∧ key.isPrimaryKey = true ∧ column.type = key.type

/-- A foreign key of one table that repeats columns of another's primary key, one by one. -/
structure Links (owner target : Table) (key : ForeignKey) : Prop where
  referredTable_eq : key.referredTable = target.fullName
  columns_ne_nil : key.columns ≠ []
  repeats : List.Forall₂ (owner.Repeats target) key.columns key.referredColumns

theorem column?_of_mem (distinct : t.columnNames.Nodup) (mem : column ∈ t.columns) :
    t.column? column.name = some column :=
  find?_key_of_mem distinct mem

theorem Grows.column? (h : t.Grows t') (found : t.column? name = some column) :
    t'.column? name = some column := by
  obtain ⟨more, columns⟩ := h.columns
  rw [Table.column?, ← columns, List.find?_append]
  rw [Table.column?] at found
  rw [found]
  rfl

theorem Repeats.grows (h : owner.Repeats target c k) (first : owner.Grows owner')
    (second : target.Grows target') : owner'.Repeats target' c k := by
  obtain ⟨column, key, own, referred, primary, type⟩ := h
  exact ⟨column, key, first.column? own, second.column? referred, primary, type⟩

/-- What is linked stays linked when tables grow. -/
theorem Links.grows (h : owner.Links target key) (first : owner.Grows owner')
    (second : target.Grows target') : owner'.Links target' key where
  referredTable_eq := h.referredTable_eq.trans second.fullName_eq.symm
  columns_ne_nil := h.columns_ne_nil
  repeats := h.repeats.imp fun _ _ one => one.grows first second

end Table

namespace RelationshipBuilder

variable {b : RelationshipBuilder} {owner target : Table}

theorem columnNames_keyedTable (b : RelationshipBuilder) (r : Relationship)
    (owner target : Table) :
    (b.keyedTable r owner target).columnNames
      = owner.columnNames ++ target.primaryKey.map (keyColumnName b.name) := by
  simp only [Table.columnNames, keyedTable, List.map_append, List.map_map]
  rfl

theorem grows_keyedTable (b : RelationshipBuilder) (r : Relationship) (owner target : Table) :
    owner.Grows (b.keyedTable r owner target) :=
  ⟨rfl, rfl, List.prefix_append _ _, List.prefix_append _ _⟩

/-- The key that a builder makes links its table to the target. -/
theorem links_keyedTable (r : Relationship) (target_distinct : target.columnNames.Nodup)
    (keyed : target.primaryKey ≠ []) (free : b.KeyNamesFree owner target.primaryKey) :
    (b.keyedTable r owner target).Links target (b.foreignKey r owner target) where
  referredTable_eq := rfl
  columns_ne_nil := by
    intro none
    exact keyed (List.map_eq_nil_iff.1 none)
  repeats := by
    simp only [foreignKey, List.forall₂_map_left_iff, List.forall₂_map_right_iff]
    refine List.forall₂_same.2 fun k mem => ?_
    obtain ⟨inside, primary⟩ := List.mem_filter.1 mem
    have made : b.keyColumn k ∈ (b.keyedTable r owner target).columns :=
      List.mem_append_right _ (List.mem_map_of_mem mem)
    have distinct : (b.keyedTable r owner target).columnNames.Nodup := by
      rw [columnNames_keyedTable]
      exact free
    exact ⟨b.keyColumn k, k, Table.column?_of_mem distinct made,
      Table.column?_of_mem target_distinct inside, primary, rfl⟩

end RelationshipBuilder

/-! ## Drafts -/

/-- The table of a resource as builders know it: its draft's, else the one generated before. -/
def knownTable (generated drafts : Roster Model) (n : String) : Option Table :=
  ((drafts.get? n).or (generated.get? n)).bind (·.table)

/-- No table of a roster has two columns of one name. -/
def ColumnsDistinct (models : Roster Model) : Prop :=
  ∀ n m t, models.get? n = some m → m.table = some t → t.columnNames.Nodup

section Known

variable {generated drafts drafts' : Roster Model} {site : BuildSite} {n : String} {m : Model}
  {t : Table}

theorem knownTable_eq_some_iff :
    knownTable generated drafts n = some t ↔
      ∃ m, (drafts.get? n).or (generated.get? n) = some m ∧ m.table = some t :=
  Option.bind_eq_some_iff

theorem targetTable_eq_ok_iff_known :
    site.targetTable drafts n = .ok t ↔ knownTable site.generated drafts n = some t := by
  rw [BuildSite.targetTable_eq_ok, knownTable_eq_some_iff]

theorem knownTable_of_draft (found : drafts.get? n = some m) :
    knownTable generated drafts n = m.table := by
  simp [knownTable, found]

/-- The drafts with another table for the owner. -/
theorem BuildSite.get?_putOwnerTable (found : drafts.get? site.owner = some m) (t : Table)
    (n : String) : (site.putOwnerTable drafts t).get? n =
      if n = site.owner then some { m with table := some t } else drafts.get? n := by
  rw [putOwnerTable, Roster.get?_modify]
  by_cases same : n = site.owner
  · rw [if_pos same, if_pos same, same, found, Option.map_some]
  · rw [if_neg same, if_neg same]

/-- With another table for the owner, a draft is what it was, but for that table. -/
theorem BuildSite.model_putOwnerTable {m₀ : Model} (found₀ : drafts.get? site.owner = some m₀)
    (found : (site.putOwnerTable drafts t).get? n = some m) :
    (n = site.owner ∧ m = { m₀ with table := some t }) ∨ drafts.get? n = some m := by
  rw [get?_putOwnerTable found₀] at found
  by_cases same : n = site.owner
  · rw [if_pos same, Option.some.injEq] at found
    exact .inl ⟨same, found.symm⟩
  · rw [if_neg same] at found
    exact .inr found

/-- A table that is known has grown when the drafts have. -/
theorem DraftsGrow.knownTable (h : DraftsGrow drafts drafts')
    (known : knownTable generated drafts n = some t) :
    ∃ t', ResourceTables.knownTable generated drafts' n = some t' ∧ t.Grows t' := by
  obtain ⟨m, found, table⟩ := knownTable_eq_some_iff.1 known
  rcases Roster.Evolves.get? h n with ⟨before, after⟩ | ⟨m₁, m₂, before, after, grows⟩
  · rw [before, Option.none_or] at found
    refine ⟨t, knownTable_eq_some_iff.2 ⟨m, ?_, table⟩, .refl t⟩
    rw [after, Option.none_or, found]
  · rw [before, Option.some_or, Option.some.injEq] at found
    subst found
    rw [knownTable_of_draft after]
    rcases grows.table with ⟨none, _⟩ | ⟨t₁, t₂, first, second, tables⟩
    · rw [table] at none
      cases none
    · rw [table, Option.some.injEq] at first
      exact ⟨t₂, second, first ▸ tables⟩

theorem ColumnsDistinct.known (h : ColumnsDistinct generated) (h' : ColumnsDistinct drafts)
    (known : knownTable generated drafts n = some t) : t.columnNames.Nodup := by
  obtain ⟨m, found, table⟩ := knownTable_eq_some_iff.1 known
  rcases Option.or_eq_some_iff.1 found with own | ⟨_, old⟩
  · exact h' n m t own table
  · exact h n m t old table

end Known

/-! ## Passes -/

/-- The drafts of a unit in the middle of building: every foreign key belongs to a relationship of
its resource and links to the table of its target, and every relation stands for a relationship. -/
structure Linked (D : Roster Descriptor) (generated drafts : Roster Model) : Prop where
  distinct : drafts.names.Nodup
  concrete : ∀ n m, drafts.get? n = some m → ∃ t, m.table = some t
  columns : ColumnsDistinct drafts
  keys : ∀ n m t, drafts.get? n = some m → m.table = some t → ∀ key ∈ t.constraints,
    ∃ d x r target, D.get? n = some d ∧ d.relationship? x = some r
      ∧ knownTable generated drafts r.target = some target ∧ t.Links target key
  relations : ∀ n m, drafts.get? n = some m → ∀ relation, .relation relation ∈ m.properties →
    ∃ d x r, D.get? n = some d ∧ d.relationship? x = some r ∧ relation.target = r.target

/-- A key that a builder of a member is about to make. -/
structure KeyDue (D : Roster Descriptor) (site : BuildSite) (drafts : Roster Model) (d : Descriptor)
    (b : RelationshipBuilder) (r : Relationship) (owner target : Table) : Prop where
  linked : Linked D site.generated drafts
  found : D.get? site.owner = some d
  here : site.ownerTable drafts = .ok owner
  declared : d.relationship? b.name = some r
  there : site.targetTable drafts r.target = .ok target
  nonempty : target.primaryKey ≠ []
  free : b.KeyNamesFree owner target.primaryKey

namespace Linked

variable {D : Roster Descriptor} {generated drafts drafts' : Roster Model} {site : BuildSite}
  {n : String} {d d' : Descriptor} {m : Model} {owner : Table} {u : Unit}

theorem ownerTable (h : Linked D generated drafts) (found : drafts.get? site.owner = some m) :
    ∃ t, site.ownerTable drafts = .ok t ∧ t.columnNames.Nodup := by
  obtain ⟨t, table⟩ := h.concrete _ m found
  exact ⟨t, BuildSite.ownerTable_eq_ok.2 ⟨m, found, table⟩, h.columns _ m t found table⟩

/-- A key that is there goes on to link to the table of its target, as the drafts grow. -/
theorem key_grown (h : Linked D generated drafts) (grown : DraftsGrow drafts drafts') {t t' : Table}
    (found : drafts.get? n = some m) (table : m.table = some t) (grows : t.Grows t')
    {key : ForeignKey} (mem : key ∈ t.constraints) :
    ∃ d x r target, D.get? n = some d ∧ d.relationship? x = some r
      ∧ knownTable generated drafts' r.target = some target ∧ t'.Links target key := by
  obtain ⟨d, x, r, target, described, declared, known, links⟩ := h.keys n m t found table key mem
  obtain ⟨target', known', more⟩ := grown.knownTable known
  exact ⟨d, x, r, target', described, declared, known', links.grows grows more⟩

/-- A key made by a builder of a member leaves the drafts linked. -/
theorem keyed (old : ColumnsDistinct site.generated) {b : RelationshipBuilder} {r : Relationship}
    {target : Table} (due : KeyDue D site drafts d b r owner target) :
    Linked D site.generated (site.putOwnerTable drafts (b.keyedTable r owner target)) := by
  obtain ⟨h, described, here, declared, targeted, nonempty, free⟩ := due
  have grows := b.grows_keyedTable r owner target
  have grown := BuildSite.draftsGrow_putOwnerTable h.distinct here grows
  obtain ⟨m₀, found₀, table₀⟩ := BuildSite.ownerTable_eq_ok.1 here
  refine ⟨?_, ?_, ?_, ?_, ?_⟩
  · rw [BuildSite.names_putOwnerTable]
    exact h.distinct
  · intro n m found
    rcases BuildSite.model_putOwnerTable found₀ found with ⟨_, rfl⟩ | before
    · exact ⟨_, rfl⟩
    · exact h.concrete n m before
  · intro n m t found table
    rcases BuildSite.model_putOwnerTable found₀ found with ⟨_, rfl⟩ | before
    · cases table
      rw [RelationshipBuilder.columnNames_keyedTable]
      exact free
    · exact h.columns n m t before table
  · intro n m t found table key mem
    rcases BuildSite.model_putOwnerTable found₀ found with ⟨rfl, rfl⟩ | before
    · cases table
      rcases List.mem_append.1 mem with earlier | new
      · exact h.key_grown grown found₀ table₀ grows earlier
      · have known := targetTable_eq_ok_iff_known.1 targeted
        obtain ⟨target', known', more⟩ := grown.knownTable known
        have links := RelationshipBuilder.links_keyedTable r (old.known h.columns known) nonempty free
        rw [List.mem_singleton.1 new]
        exact ⟨d, b.name, r, target', described, declared, known', links.grows (.refl _) more⟩
    · exact h.key_grown grown before table (.refl t) mem
  · intro n m found relation mem
    rcases BuildSite.model_putOwnerTable found₀ found with ⟨rfl, rfl⟩ | before
    · exact h.relations _ m₀ found₀ relation mem
    · exact h.relations n m before relation mem

/-- Properties that stand for relationships of the member leave the drafts linked. -/
theorem withProperties (h : Linked D generated drafts) (found : D.get? site.owner = some d)
    {properties : List MappedProperty}
    (stand : ∀ relation, .relation relation ∈ properties → ∃ x r, d.relationship? x = some r
      ∧ relation.target = r.target) :
    Linked D generated (Builder.withProperties site drafts properties) := by
  have now : ∀ n m, (Builder.withProperties site drafts properties).get? n = some m →
      ∃ m₀, drafts.get? n = some m₀ ∧ m.table = m₀.table ∧
        ∀ p ∈ m.properties, p ∈ m₀.properties ∨ (n = site.owner ∧ p ∈ properties) := by
    intro n m hm
    rw [Builder.withProperties, Roster.get?_modify] at hm
    by_cases same : n = site.owner
    · rw [if_pos same] at hm
      obtain ⟨m₀, before, rfl⟩ := Option.map_eq_some_iff.1 hm
      refine ⟨m₀, before, rfl, fun p mem => ?_⟩
      exact (List.mem_append.1 mem).imp_right fun new => ⟨same, new⟩
    · rw [if_neg same] at hm
      exact ⟨m, hm, rfl, fun p mem => .inl mem⟩
  have same : ∀ n, knownTable generated (Builder.withProperties site drafts properties) n
      = knownTable generated drafts n := by
    intro n
    rw [knownTable, knownTable, Builder.withProperties, Roster.get?_modify]
    by_cases here : n = site.owner
    · rw [if_pos here]
      cases drafts.get? n <;> rfl
    · rw [if_neg here]
  refine ⟨?_, ?_, ?_, ?_, ?_⟩
  · rw [Builder.withProperties, Roster.names_modify]
    exact h.distinct
  · intro n m hm
    obtain ⟨m₀, before, table, _⟩ := now n m hm
    exact table ▸ h.concrete n m₀ before
  · intro n m t hm ht
    obtain ⟨m₀, before, table, _⟩ := now n m hm
    exact h.columns n m₀ t before (table ▸ ht)
  · intro n m t hm ht key mem
    obtain ⟨m₀, before, table, _⟩ := now n m hm
    obtain ⟨d', x, r, target, hd, hr, known, links⟩ := h.keys n m₀ t before (table ▸ ht) key mem
    exact ⟨d', x, r, target, hd, hr, (same _).trans known, links⟩
  · intro n m hm relation mem
    obtain ⟨m₀, before, _, properties⟩ := now n m hm
    rcases properties _ mem with old | ⟨here, new⟩
    · exact h.relations n m₀ before relation old
    · obtain ⟨x, r, hr, target⟩ := stand relation new
      exact ⟨d, x, r, here ▸ found, hr, target⟩

/-- A step of a builder in a pass that makes keys makes one key or none. -/
theorem due_of_step (h : Linked D site.generated drafts) (found : D.get? site.owner = some d)
    (member : site.owner ∈ drafts.names) {b : Builder} {s' : Builder × Roster Model}
    (one : (Builder.step .keyColumns site d.view).Answers (b, drafts) u s') :
    s'.2 = drafts ∨ ∃ b r owner target, KeyDue D site drafts d b r owner target
      ∧ s'.2 = site.putOwnerTable drafts (b.keyedTable r owner target) := by
  cases b with
  | field name =>
      rw [Builder.answers_step_keyColumns_field] at one
      exact .inl (one ▸ rfl)
  | relationship b =>
      obtain ⟨b', drafts', made, rfl⟩ := Builder.answers_step_keyColumns_relationship.1 one
      obtain ⟨m, hm⟩ := Roster.exists_get?_of_mem member
      obtain ⟨owner, here, names⟩ := h.ownerTable hm
      rcases (RelationshipBuilder.answers_createKeyColumns h.distinct here names).1 made with
        ⟨_, same⟩ | ⟨r, target, wanted, there, keyed, free, same⟩
      · cases same
        exact .inl rfl
      · cases same
        have declared : d.relationship? b.name = some r := by
          rw [← Descriptor.view_relationship?]
          by_cases created : b.columnsCreated
          · simp [RelationshipBuilder.keyFor?, created] at wanted
          · simp only [RelationshipBuilder.keyFor?, created, if_false, Bool.false_eq_true] at wanted
            exact (Option.filter_eq_some_iff.1 wanted).1
        exact .inr ⟨b, r, owner, target, ⟨h, found, here, declared, there, keyed, free⟩, rfl⟩

/-- One builder of a member, in the first phase. -/
theorem step_keyColumns (h : Linked D site.generated drafts) (old : ColumnsDistinct site.generated)
    (found : D.get? site.owner = some d) (member : site.owner ∈ drafts.names) {b : Builder}
    {s' : Builder × Roster Model}
    (one : (Builder.step .keyColumns site d.view).Answers (b, drafts) u s') :
    Linked D site.generated s'.2 ∧ s'.2.names = drafts.names := by
  rcases h.due_of_step found member one with same | ⟨_, _, _, _, due, same⟩
  · rw [same]
    exact ⟨h, rfl⟩
  · rw [same]
    exact ⟨keyed old due, BuildSite.names_putOwnerTable _ _ _⟩

/-- All builders of a member, in a pass that makes keys, keep what every new key keeps. -/
theorem each_keyColumns {J : Roster Model → Prop} (site : BuildSite)
    (keeps : ∀ {drafts b r owner target}, KeyDue D site drafts d b r owner target → J drafts →
      J (site.putOwnerTable drafts (b.keyedTable r owner target)))
    (h : Linked D site.generated drafts) (old : ColumnsDistinct site.generated)
    (found : D.get? site.owner = some d) (member : site.owner ∈ drafts.names)
    {step : Action (Builder × Roster Model) Unit}
    (steps : ∀ b drafts s', step.Answers (b, drafts) () s' →
      (Builder.step .keyColumns site d.view).Answers (b, drafts) () s' ∨ (b, drafts) = s')
    {builders : List Builder} {s' : List Builder × Roster Model}
    (each : (Action.onEach step).Answers (builders, drafts) u s') (holds : J drafts) :
    Linked D site.generated s'.2 ∧ s'.2.names = drafts.names ∧ J s'.2 := by
  refine each.onEach_induction (I := fun _ drafts' => Linked D site.generated drafts'
    ∧ drafts'.names = drafts.names ∧ J drafts') ⟨h, rfl, holds⟩ ?_
  rintro _ b _ drafts₁ b' drafts₂ _ ⟨linked, names, holds₁⟩ one
  rcases steps b drafts₁ _ one with made | same
  · rcases linked.due_of_step found (names ▸ member) made with same | ⟨_, _, _, _, due, same⟩
    · obtain rfl : drafts₂ = drafts₁ := same
      exact ⟨linked, names, holds₁⟩
    · obtain rfl : drafts₂ = _ := same
      exact ⟨keyed old due, (BuildSite.names_putOwnerTable _ _ _).trans names, keeps due holds₁⟩
  · cases same
    exact ⟨linked, names, holds₁⟩

/-- All builders of a member, in the second phase: every relationship gets the relation of its name,
and the tables stay. -/
theorem each_properties (site : BuildSite) (h : Linked D site.generated drafts)
    (found : D.get? site.owner = some d) (member : site.owner ∈ drafts.names)
    {builders : List Builder}
    (built : ∀ x, x ∈ d.relationshipNames → ∃ b, .relationship b ∈ builders ∧ b.name = x)
    {s' : List Builder × Roster Model}
    (each : (Action.onEach (Builder.step .properties site d.view)).Answers (builders, drafts) u s') :
    Linked D site.generated s'.2 ∧ SameTables drafts s'.2
      ∧ ∀ x r, d.relationship? x = some r → ∃ m relation,
        s'.2.get? site.owner = some m ∧ .relation relation ∈ m.properties
          ∧ relation.name = x ∧ relation.target = r.target := by
  obtain ⟨m, hm⟩ := Roster.exists_get?_of_mem member
  obtain ⟨ps, mapped, _, rfl⟩ := (Builder.answers_eachProperty h.distinct hm).1 each
  refine ⟨?_, BuildSite.sameTables_addProperties site drafts _, ?_⟩
  · refine h.withProperties found fun relation mem => ?_
    obtain ⟨b, _, made⟩ := exists_left_of_forall₂ mapped (List.reduceOption_mem_iff.1 mem)
    obtain ⟨b', r, joins, _, declared, _, rfl⟩ := Builder.mapped_eq_relation_iff.1 made
    rw [Descriptor.view_relationship?] at declared
    exact ⟨b'.name, r, declared, rfl⟩
  · intro x r declared
    have named : x ∈ d.relationshipNames := by
      by_contra absent
      rw [← Descriptor.relationshipNamed?_eq_none_iff] at absent
      rw [Descriptor.relationship?, absent] at declared
      cases declared
    obtain ⟨b, mem, rfl⟩ := built x named
    obtain ⟨p, put, made⟩ := exists_right_of_forall₂ mapped mem
    rw [← Descriptor.view_relationship?] at declared
    obtain ⟨joins, _, rfl⟩ := (Builder.mapped_relationship_eq_ok_iff declared).1 made
    refine ⟨_, b.relationOf r joins, Builder.get?_withProperties hm _, ?_, rfl, rfl⟩
    exact List.mem_append_right _ (List.reduceOption_mem_iff.2 put)

end Linked

/-! ## Units -/

namespace Generation

variable {ctx : GenerationContext} {D : Roster Descriptor} {generated drafts start : Roster Model}
  {unit : List String} {u : Unit} {s' : Roster Descriptor × Roster Model}

/-- The drafts of a unit start without keys and relations. -/
theorem linked_drafts (distinct : unit.Nodup) (wf : ∀ n d, D.get? n = some d → d.WellFormed)
    (drafted : Generation.drafts ctx D unit = .ok start) (generated : Roster Model) :
    Linked D generated start := by
  have from_start : ∀ n m, start.get? n = some m →
      ∃ r d, D.get? n = some d ∧ startModel ctx r d n = m := by
    intro n m found
    obtain ⟨r, d, _, hd, _, same⟩ := exists_startModel drafted distinct found
    exact ⟨r, d, hd, same⟩
  refine ⟨names_drafts drafted ▸ distinct, ?_, ?_, ?_, ?_⟩
  · intro n m found
    obtain ⟨r, d, _, rfl⟩ := from_start n m found
    exact ⟨_, rfl⟩
  · intro n m t found table
    obtain ⟨r, d, hd, rfl⟩ := from_start n m found
    cases table
    simp only [Table.columnNames, startTable, fieldColumns, List.map_map]
    exact (wf n d hd).fields_distinct
  · intro n m t found table key mem
    obtain ⟨r, d, _, rfl⟩ := from_start n m found
    cases table
    cases mem
  · intro n m found relation mem
    obtain ⟨r, d, _, rfl⟩ := from_start n m found
    cases mem

/-- A pass that makes keys leaves the drafts linked, and keeps what every new key keeps. -/
theorem linked_keyPass {J : Roster Model → Prop}
    (keeps : ∀ {site drafts d b r owner target}, site.generated = generated →
      KeyDue D site drafts d b r owner target → J drafts →
        J (site.putOwnerTable drafts (b.keyedTable r owner target)))
    (distinct : D.names.Nodup) (old : ColumnsDistinct generated)
    {names : List String} (members : ∀ n ∈ names, n ∈ drafts.names)
    {x : BuildSite → Action (Descriptor × Roster Model) Unit}
    {step : BuildSite → PropertyView → Action (Builder × Roster Model) Unit}
    (builds : ∀ site d drafts s', (x site).Answers (d, drafts) () s' →
      ∃ builders drafts', (Action.onEach (step site d.view)).Answers (d.plan.builders, drafts) ()
        (builders, drafts') ∧ (d.withBuilders builders, drafts') = s')
    (steps : ∀ site view b drafts s', (step site view).Answers (b, drafts) () s' →
      (Builder.step .keyColumns site view).Answers (b, drafts) () s' ∨ (b, drafts) = s')
    (records : ∀ site (s : Descriptor × Roster Model), s.2.names.Nodup →
      Worked s.1 (x site s).state.1)
    {D' : Roster Descriptor} (worked : Roster.Evolves (fun _ => Worked) D D')
    (linked : Linked D generated drafts) (holds : J drafts)
    (h : (pass generated x names).Answers (D', drafts) u s') :
    Roster.Evolves (fun _ => Worked) D s'.1 ∧ Linked D generated s'.2
      ∧ s'.2.names = drafts.names ∧ J s'.2 := by
  refine pass_induction (I := fun _ drafts' => Linked D generated drafts'
    ∧ drafts'.names = drafts.names ∧ J drafts') distinct h worked ⟨linked, rfl, holds⟩ ?_
  rintro done n rest d d' d'' drafts₁ drafts₂ rfl found before ⟨linked₁, names, holds₁⟩ built
  have after := records { owner := n, generated } (d', drafts₁) linked₁.distinct
  rw [built.2] at after
  obtain ⟨builders, _, each, same⟩ := builds _ _ _ _ built
  cases same
  rw [before.view_eq] at each
  obtain ⟨linked₂, names₂, holds₂⟩ := Linked.each_keyColumns { owner := n, generated } (keeps rfl)
    linked₁ old found (names ▸ members n (by simp)) (steps _ _) each holds₁
  exact ⟨after, linked₂, names₂.trans names, holds₂⟩

/-- Every relationship of a member has its relation. -/
def Related (D : Roster Descriptor) (drafts : Roster Model) (n : String) : Prop :=
  ∀ d x r, D.get? n = some d → d.relationship? x = some r → ∃ m relation,
    drafts.get? n = some m ∧ .relation relation ∈ m.properties ∧ relation.target = r.target

/-- Every relationship of a member has the relation of its name. -/
def Represented (D : Roster Descriptor) (drafts : Roster Model) (n : String) : Prop :=
  ∀ d x r, D.get? n = some d → d.relationship? x = some r → ∃ m relation,
    drafts.get? n = some m ∧ .relation relation ∈ m.properties ∧ relation.name = x
      ∧ relation.target = r.target

theorem Represented.related {n : String} (h : Represented D drafts n) : Related D drafts n := by
  intro d x r hd hr
  obtain ⟨m, relation, found, mem, _, target⟩ := h d x r hd hr
  exact ⟨m, relation, found, mem, target⟩

theorem Represented.grow {n : String} {drafts' : Roster Model} (h : Represented D drafts n)
    (grown : DraftsGrow drafts drafts') : Represented D drafts' n := by
  intro d x r hd hr
  obtain ⟨m, relation, found, mem, same⟩ := h d x r hd hr
  obtain ⟨m', found', grows⟩ := Roster.Evolves.get?_forward grown found
  exact ⟨m', relation, found', grows.properties.subset mem, same⟩

/-- The pass that makes properties gives every relationship of every member its relation, and leaves
the tables. -/
theorem linked_propertyPass (distinct : D.names.Nodup) (wf : ∀ n d, D.get? n = some d → d.WellFormed)
    {names : List String} (members : ∀ n ∈ names, n ∈ drafts.names)
    {D' : Roster Descriptor} (worked : Roster.Evolves (fun _ => Worked) D D')
    (linked : Linked D generated drafts)
    (h : (pass generated (Descriptor.build .properties) names).Answers (D', drafts) u s') :
    Linked D generated s'.2 ∧ SameTables drafts s'.2 ∧ ∀ n ∈ names, Represented D s'.2 n := by
  have ends := pass_induction
    (I := fun done drafts' => Linked D generated drafts' ∧ drafts'.names = drafts.names
      ∧ SameTables drafts drafts' ∧ ∀ n ∈ done, Represented D drafts' n) distinct h worked
    ⟨linked, rfl, fun _ => rfl, by simp⟩ ?_
  · exact ⟨ends.2.1, ends.2.2.2⟩
  rintro done n rest d d' d'' drafts₁ drafts₂ rfl found before ⟨linked₁, same, tables, early⟩ built
  obtain ⟨after, grown⟩ := Descriptor.worked_build { owner := n, generated }
    (s := (d', drafts₁)) .properties linked₁.distinct
  rw [built.2] at after grown
  obtain ⟨builders, _, each, ends⟩ := Descriptor.answers_build.1 built
  cases ends
  rw [before.view_eq] at each
  have member : n ∈ drafts₁.names := same ▸ members n (by simp)
  obtain ⟨linked₂, tables₂, relations⟩ := linked₁.each_properties { owner := n, generated } found
    member (fun x named => ((before.wellFormed (wf n d found)).relationship_built x).2 (by
      rw [Descriptor.relationshipNames, before.relationships_eq]
      exact named)) each
  refine ⟨after, linked₂, (Roster.Evolves.names_eq grown).trans same,
    fun x => (tables₂ x).trans (tables x), fun k mem => ?_⟩
  rcases List.mem_append.1 mem with done_ | here
  · exact (early k done_).grow grown
  · rw [List.mem_singleton] at here
    subst here
    intro d₁ x r hd hr
    rw [found, Option.some.injEq] at hd
    subst hd
    exact relations x r hr

/-- The models of a unit that is built are linked, every relationship has the relation of its name,
and what every new key keeps and the tables decide still holds. -/
theorem represented_runPhases {J : Roster Model → Prop}
    (keeps : ∀ {site drafts d b r owner target}, site.generated = generated →
      KeyDue D site drafts d b r owner target → J drafts →
        J (site.putOwnerTable drafts (b.keyedTable r owner target)))
    (decided : ∀ {drafts drafts'}, SameTables drafts drafts' → J drafts → J drafts')
    (distinct : D.names.Nodup) (wf : ∀ n d, D.get? n = some d → d.WellFormed)
    (old : ColumnsDistinct generated) (linked : Linked D generated start) (holds : J start)
    (names : start.names = unit)
    (h : (runPhases generated unit).Answers (D, start) u s') :
    Linked D generated s'.2 ∧ (∀ n ∈ unit, Represented D s'.2 n) ∧ J s'.2 := by
  obtain ⟨⟨D₁, drafts₁⟩, ⟨D₂, drafts₂⟩, first, keys, properties⟩ := answers_runPhases.1 h
  have unchanged : Roster.Evolves (fun _ => Worked) D D := .refl (fun _ => Worked.refl) D
  obtain ⟨worked₁, linked₁, names₁, holds₁⟩ := linked_keyPass keeps distinct old
    (fun n mem => names ▸ (mem_primaryKeyOrder.1 mem).1)
    (fun _ _ _ _ => Descriptor.answers_buildPrimaryKey.1)
    (fun site view b drafts s' one => (Builder.answers_primaryKeyStep.1 one).imp And.right And.right)
    (fun _ _ distinct => (Descriptor.worked_buildPrimaryKey _ distinct).1) unchanged linked holds
    first
  obtain ⟨worked₂, linked₂, names₂, holds₂⟩ := linked_keyPass keeps distinct old
    (fun n mem => (names₁.trans names) ▸ mem) (fun _ _ _ _ => Descriptor.answers_build.1)
    (fun site view b drafts s' one => .inl one)
    (fun _ _ distinct => (Descriptor.worked_build _ .keyColumns distinct).1) worked₁ linked₁ holds₁
    keys
  obtain ⟨linked₃, tables, represented⟩ := linked_propertyPass distinct wf
    (fun n mem => ((names₂.trans names₁).trans names) ▸ mem) worked₂ linked₂ properties
  exact ⟨linked₃, represented, decided tables holds₂⟩

/-- The models of a unit that is built are linked, and every relationship has its relation. -/
theorem linked_runPhases (distinct : D.names.Nodup) (wf : ∀ n d, D.get? n = some d → d.WellFormed)
    (old : ColumnsDistinct generated) (linked : Linked D generated start)
    (names : start.names = unit)
    (h : (runPhases generated unit).Answers (D, start) u s') :
    Linked D generated s'.2 ∧ ∀ n ∈ unit, Related D s'.2 n := by
  obtain ⟨linked', represented, -⟩ := represented_runPhases (J := fun _ => True)
    (fun _ _ _ => trivial) (fun _ _ => trivial) distinct wf old linked trivial names h
  exact ⟨linked', fun n member => (represented n member).related⟩

end Generation

end ResourceTables
