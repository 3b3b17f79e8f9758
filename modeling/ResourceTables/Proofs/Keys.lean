/-
# `ResourceTables.Proofs.Keys` — the keys that a pass makes for one resource

A key copies the primary key of its target and the target's full name, and nothing else of it.  So the
table that a pass leaves is the table before it with one key for each side in turn, drawn from any
account of the targets' tables that agrees with the drafts on names and primary keys.
-/
import ResourceTables.Proofs.Links

namespace ResourceTables

/-- What the keys of other tables copy of a table. -/
def Table.reference (t : Table) : String × List Column := (t.fullName, t.primaryKey)

/-- A relationship that has a key to make, with its builder. -/
structure KeySide where
  builder : RelationshipBuilder
  relationship : Relationship

namespace KeySide

/-- The key columns of a side, by an account of the targets' tables. -/
def columns (refs : String → Option Table) (s : KeySide) : List Column :=
  match refs s.relationship.target with
  | none => []
  | some target => target.primaryKey.map s.builder.keyColumn

/-- The foreign key of a side, by an account of the targets' tables. -/
def keys (refs : String → Option Table) (owner : Table) (s : KeySide) : List ForeignKey :=
  match refs s.relationship.target with
  | none => []
  | some target => [s.builder.foreignKey s.relationship owner target]

/-- The side has a target with a primary key. -/
def Keyed (refs : String → Option Table) (s : KeySide) : Prop :=
  ∃ target, refs s.relationship.target = some target ∧ target.primaryKey ≠ []

end KeySide

/-- The table with the keys of some sides, one after another. -/
def Table.withKeys (t : Table) (refs : String → Option Table) (sides : List KeySide) : Table :=
  { t with
    columns := t.columns ++ sides.flatMap (·.columns refs)
    constraints := t.constraints ++ sides.flatMap (·.keys refs t) }

/-! ## Tables with keys -/

section WithKeys

variable {refs refs' : String → Option Table} {t target target' owner : Table} {s : KeySide}
  {sides : List KeySide}

theorem Table.reference_eq_iff :
    target.reference = target'.reference ↔
      target.fullName = target'.fullName ∧ target.primaryKey = target'.primaryKey :=
  Prod.ext_iff

theorem RelationshipBuilder.keyedTable_congr (h : target.reference = target'.reference)
    (b : RelationshipBuilder) (r : Relationship) (owner : Table) :
    b.keyedTable r owner target = b.keyedTable r owner target' := by
  obtain ⟨name, key⟩ := Table.reference_eq_iff.1 h
  simp only [keyedTable, foreignKey, name, key]

theorem RelationshipBuilder.keyed_congr {owner' : Table} (own : owner.fullName = owner'.fullName)
    (h : target.reference = target'.reference) (b : RelationshipBuilder) :
    b.keyed owner target = b.keyed owner' target' := by
  obtain ⟨name, key⟩ := Table.reference_eq_iff.1 h
  have joins : b.keyJoin owner target = b.keyJoin owner' target' := by
    funext k
    simp only [keyJoin, own, name]
  simp only [keyed, key, joins]

@[simp] theorem Table.withKeys_nil : t.withKeys refs [] = t := by
  simp [Table.withKeys]

@[simp] theorem Table.name_withKeys : (t.withKeys refs sides).name = t.name := rfl

@[simp] theorem Table.fullName_withKeys : (t.withKeys refs sides).fullName = t.fullName := rfl

theorem Table.withKeys_append (before after : List KeySide) :
    (t.withKeys refs before).withKeys refs after = t.withKeys refs (before ++ after) := by
  have same : ∀ s : KeySide, s.keys refs (t.withKeys refs before) = s.keys refs t := fun _ => rfl
  simp only [Table.withKeys] at same ⊢
  simp only [same, List.flatMap_append, List.append_assoc]

/-- A side's key is the one that its builder makes. -/
theorem Table.withKeys_singleton (found : refs s.relationship.target = some target) :
    t.withKeys refs [s] = s.builder.keyedTable s.relationship t target := by
  simp [Table.withKeys, KeySide.columns, KeySide.keys, found, RelationshipBuilder.keyedTable]

/-- Accounts that agree on what keys copy draw the same tables. -/
theorem Table.withKeys_congr
    (agree : ∀ s ∈ sides, (refs s.relationship.target).map Table.reference
      = (refs' s.relationship.target).map Table.reference) :
    t.withKeys refs sides = t.withKeys refs' sides := by
  have each : ∀ s ∈ sides, s.columns refs = s.columns refs' ∧ s.keys refs t = s.keys refs' t := by
    intro s mem
    have same := agree s mem
    unfold KeySide.columns KeySide.keys
    cases first : refs s.relationship.target with
    | none =>
        rw [first, Option.map_none, eq_comm, Option.map_eq_none_iff] at same
        rw [same]
        exact ⟨rfl, rfl⟩
    | some target =>
        rw [first, Option.map_some, eq_comm, Option.map_eq_some_iff] at same
        obtain ⟨target', second, h⟩ := same
        obtain ⟨name, key⟩ := Table.reference_eq_iff.1 h
        rw [second]
        simp only [key, RelationshipBuilder.foreignKey, name, and_self]
  simp only [Table.withKeys]
  rw [List.flatMap_congr fun s mem => (each s mem).1, List.flatMap_congr fun s mem => (each s mem).2]

theorem KeySide.isPrimaryKey_of_mem_columns {column : Column} (mem : column ∈ s.columns refs) :
    column.isPrimaryKey = s.builder.forcesPrimaryKey := by
  unfold KeySide.columns at mem
  cases found : refs s.relationship.target with
  | none => simp [found] at mem
  | some target =>
      rw [found] at mem
      obtain ⟨k, _, rfl⟩ := List.mem_map.1 mem
      rfl

/-- Keys that do not join the primary key leave what others copy as it was. -/
theorem Table.reference_withKeys_plain (plain : ∀ s ∈ sides, s.builder.forcesPrimaryKey = false) :
    (t.withKeys refs sides).reference = t.reference := by
  have none : (sides.flatMap (·.columns refs)).filter (·.isPrimaryKey) = [] := by
    rw [List.filter_eq_nil_iff]
    intro column mem
    obtain ⟨s, inside, mem⟩ := List.mem_flatMap.1 mem
    rw [KeySide.isPrimaryKey_of_mem_columns mem, plain s inside]
    exact Bool.false_ne_true
  rw [Table.reference_eq_iff]
  refine ⟨rfl, ?_⟩
  simp only [Table.primaryKey, Table.withKeys, List.filter_append, none, List.append_nil]

theorem Table.columnNames_withKeys :
    (t.withKeys refs sides).columnNames
      = t.columnNames ++ (sides.flatMap (·.columns refs)).map (·.name) := by
  simp only [Table.columnNames, Table.withKeys, List.map_append]

end WithKeys

/-! ## Builders -/

namespace Builder

/-- The side whose key a builder has to make. -/
def keySide? (view : PropertyView) : Builder → Option KeySide
  | field _ => none
  | relationship b => (b.keyFor? view).map (⟨b, ·⟩)

/-- The builder once its key is made. -/
def keyed (refs : String → Option Table) (owner : Table) (view : PropertyView) (b : Builder) :
    Builder :=
  match b.keySide? view with
  | none => b
  | some s =>
    match refs s.relationship.target with
    | none => b
    | some target => relationship (s.builder.keyed owner target)

/-- The sides whose keys a pass makes with one builder: at most one. -/
def stepSides (view : PropertyView) (selected : Builder → Bool) (b : Builder) : List KeySide :=
  if selected b then (b.keySide? view).toList else []

/-- The sides whose keys some builders have to make. -/
def keySides (view : PropertyView) (selected : Builder → Bool) (builders : List Builder) :
    List KeySide :=
  (builders.filter selected).filterMap (·.keySide? view)

variable {site : BuildSite} {view : PropertyView} {b : Builder} {drafts : Roster Model}
  {refs : String → Option Table} {owner owner' : Table} {selected : Builder → Bool} {s : KeySide}
  {builders : List Builder}

theorem keyFor?_eq_some_iff {b : RelationshipBuilder} {r : Relationship} :
    b.keyFor? view = some r ↔
      b.columnsCreated = false ∧ view.relationship? b.name = some r ∧ r.hostsKey = true := by
  unfold RelationshipBuilder.keyFor?
  by_cases created : b.columnsCreated
  · simp [created]
  · simp [created, Option.filter_eq_some_iff]

theorem keySide?_eq_some_iff :
    b.keySide? view = some s ↔
      b = relationship s.builder ∧ s.builder.keyFor? view = some s.relationship := by
  obtain ⟨builder, r⟩ := s
  cases b with
  | field name => simp [keySide?]
  | relationship b =>
      simp only [keySide?, Option.map_eq_some_iff, KeySide.mk.injEq, relationship.injEq]
      constructor
      · rintro ⟨_, found, rfl, rfl⟩
        exact ⟨rfl, found⟩
      · rintro ⟨rfl, found⟩
        exact ⟨r, found, rfl, rfl⟩

theorem keyed_of_none (none : b.keySide? view = none) : b.keyed refs owner view = b := by
  simp only [keyed, none]

theorem keyed_of_some {target : Table} (side : b.keySide? view = some s)
    (found : refs s.relationship.target = some target) :
    b.keyed refs owner view = relationship (s.builder.keyed owner target) := by
  simp only [keyed, side, found]

theorem keyed_congr (same : owner.fullName = owner'.fullName) :
    b.keyed refs owner view = b.keyed refs owner' view := by
  unfold keyed
  cases b.keySide? view with
  | none => rfl
  | some s =>
      simp only
      cases refs s.relationship.target with
      | none => rfl
      | some target => simp only [RelationshipBuilder.keyed_congr same rfl]

theorem keyed_withKeys (sides : List KeySide) :
    b.keyed refs (owner.withKeys refs sides) view = b.keyed refs owner view :=
  keyed_congr rfl

theorem mem_keySides :
    s ∈ keySides view selected builders ↔
      relationship s.builder ∈ builders ∧ selected (relationship s.builder) = true
        ∧ s.builder.keyFor? view = some s.relationship := by
  simp only [keySides, List.mem_filterMap, List.mem_filter, keySide?_eq_some_iff]
  constructor
  · rintro ⟨b, ⟨mem, chosen⟩, rfl, wanted⟩
    exact ⟨mem, chosen, wanted⟩
  · rintro ⟨mem, chosen, wanted⟩
    exact ⟨_, ⟨mem, chosen⟩, rfl, wanted⟩

/-- A builder whose key is made has no key to make. -/
theorem keySide?_keyed (side : b.keySide? view = none ∨
      ∃ s, b.keySide? view = some s ∧ s.Keyed refs) :
    (b.keyed refs owner view).keySide? view = none := by
  rcases side with none | ⟨s, some, target, found, _⟩
  · rw [keyed_of_none none, none]
  · rw [keyed_of_some some found]
    simp [keySide?, RelationshipBuilder.keyFor?, RelationshipBuilder.keyed]

theorem keyed_keyed (side : b.keySide? view = none ∨ ∃ s, b.keySide? view = some s ∧ s.Keyed refs) :
    (b.keyed refs owner view).keyed refs owner' view = b.keyed refs owner view :=
  keyed_of_none (keySide?_keyed side)

theorem name_keyed : (b.keyed refs owner view).name = b.name := by
  cases side : b.keySide? view with
  | none => rw [keyed_of_none side]
  | some s =>
      obtain ⟨rfl, _⟩ := keySide?_eq_some_iff.1 side
      unfold keyed
      rw [side]
      cases found : refs s.relationship.target with
      | none => simp only [found]
      | some target => simp only [found]; rfl

theorem keySides_cons :
    keySides view selected (b :: builders)
      = stepSides view selected b ++ keySides view selected builders := by
  unfold keySides stepSides
  by_cases h : selected b
  · cases side : b.keySide? view <;> simp [h, side]
  · simp [h]

/-- The first phase of one builder, by the side that it has. -/
theorem answers_step_keyColumns (distinct : drafts.names.Nodup)
    (here : site.ownerTable drafts = .ok owner) (names : owner.columnNames.Nodup) {u : Unit}
    {s' : Builder × Roster Model} :
    (step .keyColumns site view).Answers (b, drafts) u s' ↔
      (b.keySide? view = none ∧ (b, drafts) = s') ∨
      ∃ s target, b.keySide? view = some s
        ∧ knownTable site.generated drafts s.relationship.target = some target
        ∧ target.primaryKey ≠ [] ∧ s.builder.KeyNamesFree owner target.primaryKey
        ∧ (relationship (s.builder.keyed owner target), site.putOwnerTable drafts
            (s.builder.keyedTable s.relationship owner target)) = s' := by
  cases b with
  | field name => simp [answers_step_keyColumns_field, keySide?]
  | relationship b =>
      rw [answers_step_keyColumns_relationship]
      simp only [RelationshipBuilder.answers_createKeyColumns distinct here names,
        targetTable_eq_ok_iff_known]
      constructor
      · rintro ⟨b', drafts', ⟨none, same⟩ | ⟨r, target, wanted, known, nonempty, free, same⟩, rfl⟩
        · cases same
          exact .inl ⟨by simp [keySide?, none], rfl⟩
        · cases same
          exact .inr ⟨⟨b, r⟩, target, by simp [keySide?, wanted], known, nonempty, free, rfl⟩
      · rintro (⟨none, rfl⟩ | ⟨s, target, side, known, nonempty, free, rfl⟩)
        · simp only [keySide?, Option.map_eq_none_iff] at none
          exact ⟨b, drafts, .inl ⟨none, rfl⟩, rfl⟩
        · obtain ⟨same, wanted⟩ := keySide?_eq_some_iff.1 side
          cases same
          exact ⟨_, _, .inr ⟨s.relationship, target, wanted, known, nonempty, free, rfl⟩, rfl⟩

/-- After a pass the keys of the builders that were not selected are left to make. -/
theorem keySides_keyed (made : ∀ s ∈ keySides view selected builders, s.Keyed refs) :
    keySides view (fun _ => true)
        (builders.map fun b => if selected b then b.keyed refs owner view else b)
      = keySides view (!selected ·) builders := by
  induction builders with
  | nil => rfl
  | cons b rest ih =>
      rw [keySides_cons] at made
      obtain ⟨first, others⟩ := List.forall_mem_append.1 made
      rw [List.map_cons, keySides_cons, keySides_cons, ih others]
      by_cases chosen : selected b
      · have none : (b.keyed refs owner view).keySide? view = none := by
          refine keySide?_keyed ?_
          cases side : b.keySide? view with
          | none => exact .inl rfl
          | some s => exact .inr ⟨s, rfl, first s (by simp [stepSides, chosen, side])⟩
        simp [stepSides, chosen, none]
      · simp [stepSides, chosen]

/-! ## All builders of a resource -/

/-- A step that makes the keys of the selected builders and passes over the others. -/
def Selects (site : BuildSite) (view : PropertyView) (selected : Builder → Bool)
    (x : Action (Builder × Roster Model) Unit) : Prop :=
  ∀ b drafts s', x.Answers (b, drafts) () s' ↔
    (selected b = true ∧ (step .keyColumns site view).Answers (b, drafts) () s') ∨
    (selected b = false ∧ (b, drafts) = s')

theorem selects_primaryKeyStep :
    Selects site view (·.forcesPrimaryKey) (primaryKeyStep site view) :=
  fun _ _ _ => answers_primaryKeyStep

theorem selects_step : Selects site view (fun _ => true) (step .keyColumns site view) := by
  intro b drafts s'
  simp

theorem knownTable_putOwnerTable (here : site.ownerTable drafts = .ok owner) (t : Table)
    (n : String) :
    knownTable site.generated (site.putOwnerTable drafts t) n
      = if n = site.owner then some t else knownTable site.generated drafts n := by
  obtain ⟨m, found, _⟩ := BuildSite.ownerTable_eq_ok.1 here
  rw [knownTable, knownTable, BuildSite.get?_putOwnerTable found]
  by_cases same : n = site.owner
  · rw [if_pos same, if_pos same]
    rfl
  · rw [if_neg same, if_neg same]

/-- One builder in a pass, by an account of the targets' tables that agrees with the drafts. -/
theorem answers_selected {x : Action (Builder × Roster Model) Unit}
    (selects : Selects site view selected x) (distinct : drafts.names.Nodup)
    (here : site.ownerTable drafts = .ok owner) (names : owner.columnNames.Nodup)
    (agree : ∀ s ∈ stepSides view selected b,
      (knownTable site.generated drafts s.relationship.target).map Table.reference
        = (refs s.relationship.target).map Table.reference)
    {s' : Builder × Roster Model} :
    x.Answers (b, drafts) () s' ↔
      (∀ s ∈ stepSides view selected b, s.Keyed refs)
        ∧ (owner.withKeys refs (stepSides view selected b)).columnNames.Nodup
        ∧ (if selected b then b.keyed refs owner view else b,
            site.putOwnerTable drafts (owner.withKeys refs (stepSides view selected b))) = s' := by
  rw [selects]
  by_cases chosen : selected b
  · rw [answers_step_keyColumns distinct here names]
    simp only [stepSides, chosen, if_true] at agree ⊢
    cases side : b.keySide? view with
    | none => simp [keyed_of_none side, names, BuildSite.putOwnerTable_self distinct here]
    | some s =>
        rw [side] at agree
        have first := agree s (by simp)
        simp only [reduceCtorEq, false_and, or_false, true_and, false_or, Option.some.injEq,
          Option.toList_some, List.mem_singleton, forall_eq]
        constructor
        · rintro ⟨_, target, rfl, known, nonempty, free, rfl⟩
          rw [known, Option.map_some, eq_comm, Option.map_eq_some_iff] at first
          obtain ⟨target', found, same⟩ := first
          have key := (Table.reference_eq_iff.1 same).2
          rw [Table.withKeys_singleton found, RelationshipBuilder.columnNames_keyedTable,
            keyed_of_some side found, RelationshipBuilder.keyed_congr rfl same, key,
            RelationshipBuilder.keyedTable_congr same]
          exact ⟨⟨target', found, key ▸ nonempty⟩, free, rfl⟩
        · rintro ⟨⟨target', found, nonempty⟩, free, rfl⟩
          rw [found, Option.map_some, Option.map_eq_some_iff] at first
          obtain ⟨target, known, same⟩ := first
          have key := (Table.reference_eq_iff.1 same).2
          rw [Table.withKeys_singleton found, RelationshipBuilder.columnNames_keyedTable] at free
          rw [Table.withKeys_singleton found, keyed_of_some side found,
            ← RelationshipBuilder.keyed_congr rfl same, ← RelationshipBuilder.keyedTable_congr same]
          exact ⟨s, target, rfl, known, key ▸ nonempty, by rw [key]; exact free, rfl⟩
  · simp [stepSides, chosen, names, BuildSite.putOwnerTable_self distinct here]

/-- Keys that are made do not change what later ones copy, if none that joins the primary key is made
while some key leads back to the owner. -/
theorem agree_after {before after : List KeySide} (here : site.ownerTable drafts = .ok owner)
    (agree : ∀ s ∈ after, (knownTable site.generated drafts s.relationship.target).map
      Table.reference = (refs s.relationship.target).map Table.reference)
    (steady : ∀ s ∈ before, s.builder.forcesPrimaryKey = true → ∀ s' ∈ after,
      s'.relationship.target ≠ site.owner) :
    ∀ s ∈ after, (knownTable site.generated (site.putOwnerTable drafts
        (owner.withKeys refs before)) s.relationship.target).map Table.reference
      = (refs s.relationship.target).map Table.reference := by
  intro s mem
  rw [← agree s mem, knownTable_putOwnerTable here]
  by_cases same : s.relationship.target = site.owner
  · have plain : ∀ s' ∈ before, s'.builder.forcesPrimaryKey = false := by
      intro s' mem'
      by_contra forces
      exact steady s' mem' (by simpa using forces) s mem same
    obtain ⟨m, there, table⟩ := BuildSite.ownerTable_eq_ok.1 here
    rw [if_pos same, same, knownTable_of_draft there, table, Option.map_some, Option.map_some,
      Table.reference_withKeys_plain plain]
  · rw [if_neg same]

/-- A pass over the builders of a resource succeeds just if every selected side has a target with a
primary key and no column gets the name of another; then it makes the keys in order. -/
theorem answers_eachKey {x : Action (Builder × Roster Model) Unit}
    (selects : Selects site view selected x) (distinct : drafts.names.Nodup)
    (here : site.ownerTable drafts = .ok owner) (names : owner.columnNames.Nodup)
    (agree : ∀ s ∈ keySides view selected builders,
      (knownTable site.generated drafts s.relationship.target).map Table.reference
        = (refs s.relationship.target).map Table.reference)
    (steady : ∀ s ∈ keySides view selected builders, s.builder.forcesPrimaryKey = true →
      ∀ s' ∈ keySides view selected builders, s'.relationship.target ≠ site.owner)
    (s' : List Builder × Roster Model) :
    (Action.onEach x).Answers (builders, drafts) () s' ↔
      (∀ s ∈ keySides view selected builders, s.Keyed refs)
        ∧ (owner.withKeys refs (keySides view selected builders)).columnNames.Nodup
        ∧ (builders.map fun b => if selected b then b.keyed refs owner view else b,
            site.putOwnerTable drafts (owner.withKeys refs (keySides view selected builders)))
          = s' := by
  induction builders generalizing drafts owner s' with
  | nil =>
      simp [keySides, BuildSite.putOwnerTable_self distinct here, names]
  | cons b rest ih =>
      rw [keySides_cons] at agree steady ⊢
      rw [Action.answers_onEach_cons]
      simp only [answers_selected selects distinct here names
        fun s mem => agree s (List.mem_append_left _ mem)]
      have later (free : (owner.withKeys refs (stepSides view selected b)).columnNames.Nodup) :=
        ih (by rw [BuildSite.names_putOwnerTable]; exact distinct)
          (BuildSite.ownerTable_putOwnerTable here _) free
          (agree_after here (fun s mem => agree s (List.mem_append_right _ mem))
            fun s mem forces s₁ mem' =>
              steady s (List.mem_append_left _ mem) forces s₁ (List.mem_append_right _ mem'))
          fun s mem forces s₁ mem' =>
            steady s (List.mem_append_right _ mem) forces s₁ (List.mem_append_right _ mem')
      simp only [Table.withKeys_append, BuildSite.putOwnerTable_putOwnerTable, keyed_withKeys]
        at later
      constructor
      · rintro ⟨one, others, ⟨keyed, free, rfl⟩, more, rfl⟩
        obtain ⟨keyed', free', rfl⟩ := (later free _).1 more
        exact ⟨List.forall_mem_append.2 ⟨keyed, keyed'⟩, free', rfl⟩
      · rintro ⟨keyed, free, rfl⟩
        obtain ⟨keyed, keyed'⟩ := List.forall_mem_append.1 keyed
        have before : (owner.withKeys refs (stepSides view selected b)).columnNames.Nodup := by
          rw [← Table.withKeys_append, Table.columnNames_withKeys] at free
          exact (List.nodup_append.1 free).1
        exact ⟨_, _, ⟨keyed, before, rfl⟩, (later before _).2 ⟨keyed', free, rfl⟩, rfl⟩

end Builder

end ResourceTables
