/-
# `ResourceTables.Proofs.Builders` — what each builder makes when it succeeds

In the first phase a builder either has nothing to do, or puts one column for each column of the
target's primary key on its table, and one foreign key over them.  In the second it puts one property
on its model, and the properties come in the order of the builders.
-/
import ResourceTables.Proofs.Building
import Mathlib.Data.List.ReduceOption

namespace ResourceTables

namespace BuildSite

variable {site : BuildSite} {drafts : Roster Model} {t t' : Table}

theorem names_putOwnerTable (site : BuildSite) (drafts : Roster Model) (t : Table) :
    (site.putOwnerTable drafts t).names = drafts.names :=
  Roster.names_modify _ _ _

theorem ownerTable_putOwnerTable (here : site.ownerTable drafts = .ok t) (t' : Table) :
    site.ownerTable (site.putOwnerTable drafts t') = .ok t' := by
  obtain ⟨m, found, _⟩ := ownerTable_eq_ok.1 here
  refine ownerTable_eq_ok.2 ⟨{ m with table := some t' }, ?_, rfl⟩
  rw [putOwnerTable, Roster.get?_modify_self, found]
  rfl

theorem putOwnerTable_putOwnerTable (site : BuildSite) (drafts : Roster Model) (t t' : Table) :
    site.putOwnerTable (site.putOwnerTable drafts t) t' = site.putOwnerTable drafts t' := by
  rw [putOwnerTable, putOwnerTable, Roster.modify_modify]
  rfl

theorem putOwnerTable_self (distinct : drafts.names.Nodup) (here : site.ownerTable drafts = .ok t) :
    site.putOwnerTable drafts t = drafts := by
  obtain ⟨m, found, table⟩ := ownerTable_eq_ok.1 here
  refine Roster.modify_of_get? distinct found ?_
  rw [← table]

end BuildSite

/-! ## Columns of a table by name -/

namespace Table

/-- The names of the columns, in order. -/
def columnNames (t : Table) : List String := t.columns.map (·.name)

theorem column?_eq_none_iff {t : Table} {name : String} :
    t.column? name = none ↔ name ∉ t.columnNames := by
  simp [column?, columnNames, List.find?_eq_none]

theorem columnNames_addColumn (t : Table) (column : Column) :
    (t.addColumn column).columnNames = t.columnNames ++ [column.name] := by
  simp [columnNames, addColumn]

end Table

/-! ## Key columns -/

namespace RelationshipBuilder

variable {site : BuildSite} {view : PropertyView} {b b' : RelationshipBuilder}
  {drafts drafts' : Roster Model} {r : Relationship} {owner target : Table} {u : Unit}
  {s' : RelationshipBuilder × Roster Model}

/-- The builder once it has made its key columns. -/
def keyed (b : RelationshipBuilder) (owner target : Table) : RelationshipBuilder :=
  { b with
    joinClauses := b.joinClauses ++ target.primaryKey.map (b.keyJoin owner target)
    columnsCreated := true }

/-- A builder that has made a key joins along that key. -/
theorem joins_keyed (clauses : b.joinClauses = [])
    (key : target.primaryKey ≠ []) (r : Relationship) :
    (b.keyed owner target).joins site r drafts = .ok (target.primaryKey.map (b.keyJoin owner target)) := by
  have made : (b.keyed owner target).joinClauses = target.primaryKey.map (b.keyJoin owner target) := by
    rw [keyed, clauses, List.nil_append]
  unfold joins
  rw [made]
  cases all : target.primaryKey.map (b.keyJoin owner target) with
  | nil => exact absurd (List.map_eq_nil_iff.1 all) key
  | cons join rest => rfl

/-- The owner's table once the key columns and their foreign key are made. -/
def keyedTable (b : RelationshipBuilder) (r : Relationship) (owner target : Table) : Table :=
  { owner with
    columns := owner.columns ++ target.primaryKey.map b.keyColumn
    constraints := owner.constraints ++ [b.foreignKey r owner target] }

/-- The names of the key columns are new to the owner's table and distinct. -/
def KeyNamesFree (b : RelationshipBuilder) (owner : Table) (key : List Column) : Prop :=
  (owner.columnNames ++ key.map (keyColumnName b.name)).Nodup

theorem answers_addKeyColumns (distinct : drafts.names.Nodup)
    (here : site.ownerTable drafts = .ok owner) (names : owner.columnNames.Nodup)
    (key : List Column) :
    (forM key (addKeyColumn site view target)).Answers (b, drafts) u s' ↔
      b.KeyNamesFree owner key ∧
        ({ b with joinClauses := b.joinClauses ++ key.map (b.keyJoin owner target) },
          site.putOwnerTable drafts { owner with columns := owner.columns ++ key.map b.keyColumn })
          = s' := by
  induction key generalizing b drafts owner with
  | nil =>
      simp [KeyNamesFree, names, BuildSite.putOwnerTable_self distinct here]
  | cons column rest ih =>
      rw [Action.answers_forM_cons]
      simp only [answers_addKeyColumn, here, Except.ok.injEq, exists_eq_left',
        Table.column?_eq_none_iff]
      have shift : owner.columnNames ++ (column :: rest).map (keyColumnName b.name) =
          (owner.addColumn (b.keyColumn column)).columnNames ++ rest.map (keyColumnName b.name) := by
        rw [Table.columnNames_addColumn, List.map_cons, List.append_cons]
        rfl
      have names' (new : keyColumnName b.name column ∉ owner.columnNames) :
          (owner.addColumn (b.keyColumn column)).columnNames.Nodup := by
        rw [Table.columnNames_addColumn, ← List.concat_eq_append]
        exact List.Nodup.concat new names
      constructor
      · rintro ⟨t, ⟨new, rfl⟩, others⟩
        obtain ⟨free, same⟩ := (ih (by rw [BuildSite.names_putOwnerTable]; exact distinct)
          (BuildSite.ownerTable_putOwnerTable here _) (names' new)).1 others
        refine ⟨?_, ?_⟩
        · rw [KeyNamesFree, shift]
          exact free
        · rw [← same, BuildSite.putOwnerTable_putOwnerTable, List.map_cons, List.map_cons,
            List.append_cons b.joinClauses, List.append_cons owner.columns]
          rfl
      · rintro ⟨free, rfl⟩
        rw [KeyNamesFree, shift] at free
        have new : keyColumnName b.name column ∉ owner.columnNames := by
          have first := (List.nodup_append.1 free).1
          rw [Table.columnNames_addColumn] at first
          exact fun mem => (List.nodup_append.1 first).2.2 _ mem _ (by simp [keyColumn]) rfl
        refine ⟨_, ⟨new, rfl⟩, ?_⟩
        refine (ih (by rw [BuildSite.names_putOwnerTable]; exact distinct)
          (BuildSite.ownerTable_putOwnerTable here _) (names' new)).2 ⟨free, Eq.symm ?_⟩
        rw [BuildSite.putOwnerTable_putOwnerTable, List.map_cons, List.map_cons,
          List.append_cons b.joinClauses, List.append_cons owner.columns]
        rfl

theorem answers_look {σ : Type} {s s' : σ} {found : Option Relationship} :
    (b.look view).Answers s found s' ↔ view.relationship? b.name = found ∧ s = s' := by
  unfold look
  cases view.relationship? b.name with
  | none => simp
  | some r => simp

theorem keyedTarget_eq_ok :
    b.keyedTarget site view r drafts = .ok target ↔
      site.targetTable drafts r.target = .ok target ∧ target.primaryKey ≠ [] := by
  unfold keyedTarget
  cases here : site.targetTable drafts r.target with
  | error e => simp [bind, Except.bind]
  | ok t =>
      by_cases empty : t.primaryKey = []
      · simp only [bind, Except.bind, empty, List.isEmpty_nil, if_true, Except.ok.injEq]
        constructor
        · intro h
          cases h
        · rintro ⟨rfl, some⟩
          exact absurd empty some
      · simp only [bind, Except.bind, List.isEmpty_iff, empty, if_false, pure, Except.pure,
          Except.ok.injEq]
        constructor
        · rintro rfl
          exact ⟨rfl, empty⟩
        · exact And.left

/-- Whether a builder has a key to make, and for which relationship. -/
def keyFor? (b : RelationshipBuilder) (view : PropertyView) : Option Relationship :=
  if b.columnsCreated then none else (view.relationship? b.name).filter (·.hostsKey)

/-- The first phase of one builder: nothing, or its whole key. -/
theorem answers_createKeyColumns (distinct : drafts.names.Nodup)
    (here : site.ownerTable drafts = .ok owner) (names : owner.columnNames.Nodup) :
    (createKeyColumns site view).Answers (b, drafts) u s' ↔
      (b.keyFor? view = none ∧ (b, drafts) = s') ∨
      ∃ r target, b.keyFor? view = some r ∧ site.targetTable drafts r.target = .ok target
        ∧ target.primaryKey ≠ [] ∧ b.KeyNamesFree owner target.primaryKey
        ∧ (b.keyed owner target, site.putOwnerTable drafts (b.keyedTable r owner target)) = s' := by
  unfold createKeyColumns keyFor?
  rw [Action.answers_read_bind]
  by_cases created : b.columnsCreated
  · simp [created]
  · simp only [created, Bool.false_eq_true, if_false, Action.answers_bind (x := b.look view),
      answers_look]
    cases found : view.relationship? b.name with
    | none => simp
    | some r =>
        by_cases hosts : r.hostsKey
        · simp only [Option.filter_some, hosts, if_true, Option.some.injEq, reduceCtorEq,
            false_and, false_or]
          constructor
          · rintro ⟨_, _, ⟨rfl, rfl⟩, h⟩
            simp only [hosts, if_true] at h
            obtain ⟨target, _, targeted, h⟩ := Action.answers_bind.1 h
            obtain ⟨ok, rfl⟩ := Action.answers_ofExcept.1 targeted
            obtain ⟨table, some⟩ := keyedTarget_eq_ok.1 ok
            obtain ⟨⟨⟩, _, columns, h⟩ := Action.answers_bind.1 h
            rw [List.forM_eq_forM] at columns
            obtain ⟨free, rfl⟩ := (answers_addKeyColumns distinct here names _).1 columns
            obtain ⟨owner', here', rfl⟩ := answers_addForeignKey.1 h
            rw [BuildSite.ownerTable_putOwnerTable here, Except.ok.injEq] at here'
            subst here'
            refine ⟨r, target, rfl, table, some, free, ?_⟩
            rw [BuildSite.putOwnerTable_putOwnerTable]
            rfl
          · rintro ⟨_, target, rfl, table, some, free, rfl⟩
            refine ⟨_, _, ⟨rfl, rfl⟩, ?_⟩
            simp only [hosts, if_true]
            refine Action.answers_bind.2 ⟨target, _,
              Action.answers_ofExcept.2 ⟨keyedTarget_eq_ok.2 ⟨table, some⟩, rfl⟩, ?_⟩
            rw [List.forM_eq_forM]
            refine Action.answers_bind.2 ⟨⟨⟩, _,
              (answers_addKeyColumns distinct here names _).2 ⟨free, rfl⟩, ?_⟩
            refine answers_addForeignKey.2
              ⟨_, BuildSite.ownerTable_putOwnerTable here _, ?_⟩
            rw [BuildSite.putOwnerTable_putOwnerTable]
            rfl
        · simp [hosts]

/-! ## Relations -/

/-- The relation that a builder puts on its model. -/
def relationOf (b : RelationshipBuilder) (r : Relationship) (joinClauses : List JoinClause) :
    Relation :=
  { name := b.name, target := r.target, loading := if b.useList then .dynamic else .select,
    useList := b.useList, backPopulates := r.inverse, joinClauses }

theorem answers_createRelation :
    (createRelation site view).Answers (b, drafts) u s' ↔
      (view.relationship? b.name = none ∧ (b, drafts) = s') ∨
      ∃ r joins drafts', view.relationship? b.name = some r ∧ b.joins site r drafts = .ok joins
        ∧ (site.addProperty (.relation (b.relationOf r joins))).Answers drafts u drafts'
        ∧ (b, drafts') = s' := by
  unfold createRelation
  rw [Action.answers_read_bind]
  simp only [Action.answers_bind (x := b.look view), answers_look]
  cases found : view.relationship? b.name with
  | none => simp
  | some r =>
      simp only [reduceCtorEq, false_and, false_or, Option.some.injEq]
      constructor
      · rintro ⟨_, _, ⟨rfl, rfl⟩, h⟩
        obtain ⟨joins, _, joined, h⟩ := Action.answers_bind.1 h
        obtain ⟨ok, rfl⟩ := Action.answers_ofExcept.1 joined
        obtain ⟨drafts', added, rfl⟩ := Action.answers_zoom.1 h
        exact ⟨r, joins, drafts', rfl, ok, added, rfl⟩
      · rintro ⟨_, joins, drafts', rfl, ok, added, rfl⟩
        refine ⟨_, _, ⟨rfl, rfl⟩, ?_⟩
        refine Action.answers_bind.2 ⟨joins, _, Action.answers_ofExcept.2 ⟨ok, rfl⟩, ?_⟩
        exact Action.answers_zoom.2 ⟨drafts', added, rfl⟩

end RelationshipBuilder

/-! ## Properties -/

/-- The same tables under the same names. -/
def SameTables (drafts drafts' : Roster Model) : Prop :=
  ∀ x, (drafts'.get? x).map (·.table) = (drafts.get? x).map (·.table)

namespace BuildSite

variable {site : BuildSite} {drafts drafts' : Roster Model}

theorem tableOf_congr {x : String} {m m' : Option Model}
    (h : m'.map (·.table) = m.map (·.table)) : tableOf x m' = tableOf x m := by
  cases m with
  | none =>
      rw [Option.map_none, Option.map_eq_none_iff] at h
      rw [h]
  | some model =>
      obtain ⟨model', rfl, table⟩ := Option.map_eq_some_iff.1 h
      simp only [tableOf, table]

theorem ownerTable_congr (h : SameTables drafts drafts') :
    site.ownerTable drafts' = site.ownerTable drafts :=
  tableOf_congr (h site.owner)

theorem targetTable_congr (h : SameTables drafts drafts') (target : String) :
    site.targetTable drafts' target = site.targetTable drafts target := by
  refine tableOf_congr ?_
  have same := h target
  cases before : drafts.get? target with
  | none =>
      rw [before, Option.map_none, Option.map_eq_none_iff] at same
      rw [same]
  | some m =>
      rw [before] at same
      obtain ⟨m', after, table⟩ := Option.map_eq_some_iff.1 same
      simp [after, table]

theorem sameTables_addProperties (site : BuildSite) (drafts : Roster Model)
    (properties : List MappedProperty) :
    SameTables drafts (drafts.modify site.owner fun m =>
      { m with properties := m.properties ++ properties }) := by
  intro x
  rw [Roster.get?_modify]
  by_cases same : x = site.owner
  · rw [if_pos same, Option.map_map]
    rfl
  · rw [if_neg same]

end BuildSite

namespace Builder

variable {site : BuildSite} {view : PropertyView} {b : Builder} {drafts drafts' : Roster Model}
  {m : Model} {u : Unit}

/-- The property that a builder puts on its model, if it has one to put. -/
def mapped (site : BuildSite) (view : PropertyView) (drafts : Roster Model) :
    Builder → Except Error (Option MappedProperty)
  | field name => .ok (some (.column name name))
  | relationship b =>
    match view.relationship? b.name with
    | none => .ok none
    | some r => (b.joins site r drafts).map fun joins => some (.relation (b.relationOf r joins))

theorem mapped_eq_relation_iff {relation : Relation} :
    b.mapped site view drafts = .ok (some (.relation relation)) ↔
      ∃ b' r joins, b = .relationship b' ∧ view.relationship? b'.name = some r
        ∧ b'.joins site r drafts = .ok joins ∧ b'.relationOf r joins = relation := by
  cases b with
  | field name => simp [mapped]
  | relationship b =>
      simp only [mapped, relationship.injEq, exists_and_left, exists_eq_left']
      cases found : view.relationship? b.name with
      | none => simp
      | some r =>
          cases made : b.joins site r drafts with
          | error e => simp [Except.map, made]
          | ok joins => simp [Except.map, made]

/-- A builder with a relationship puts a relation on its model. -/
theorem mapped_relationship_eq_ok_iff {b : RelationshipBuilder} {r : Relationship}
    {p : Option MappedProperty} (found : view.relationship? b.name = some r) :
    (relationship b).mapped site view drafts = .ok p ↔
      ∃ joins, b.joins site r drafts = .ok joins
        ∧ some (.relation (b.relationOf r joins)) = p := by
  simp only [mapped, found]
  cases made : b.joins site r drafts with
  | error e => simp [Except.map]
  | ok joins => simp [Except.map]

theorem mapped_congr (h : SameTables drafts drafts') (b : Builder) :
    b.mapped site view drafts' = b.mapped site view drafts := by
  cases b with
  | field name => rfl
  | relationship b =>
      have joins : ∀ r, b.joins site r drafts' = b.joins site r drafts := by
        intro r
        simp only [RelationshipBuilder.joins, BuildSite.ownerTable_congr h,
          BuildSite.targetTable_congr h]
      simp only [mapped, joins]

/-- The drafts with more properties on the owner's model. -/
def withProperties (site : BuildSite) (drafts : Roster Model) (properties : List MappedProperty) :
    Roster Model :=
  drafts.modify site.owner fun m => { m with properties := m.properties ++ properties }

theorem answers_step_properties {s' : Builder × Roster Model}
    (here : drafts.get? site.owner = some m) :
    (step .properties site view).Answers (b, drafts) u s' ↔
      ∃ p, b.mapped site view drafts = .ok p ∧ (∀ q ∈ p, m.property? q.name = none)
        ∧ (p = none → (b, drafts) = s')
        ∧ ∀ q ∈ p, (b, withProperties site drafts [q]) = s' := by
  have adding : ∀ q drafts', (site.addProperty q).Answers drafts u drafts' ↔
      m.property? q.name = none ∧ withProperties site drafts [q] = drafts' := by
    intro q drafts'
    rw [BuildSite.answers_addProperty]
    simp only [here, Option.some.injEq, exists_eq_left']
    rfl
  obtain ⟨b', drafts'⟩ := s'
  cases b with
  | field name =>
      have same : (step .properties site view).Answers (field name, drafts) u (b', drafts') ↔
          (site.addProperty (.column name name)).Answers drafts u drafts' ∧ field name = b' := by
        simp only [Action.Answers, step, Prod.mk.injEq]
        tauto
      rw [same, adding]
      simp [mapped, and_assoc, and_comm]
  | relationship b =>
      have same : (step .properties site view).Answers (relationship b, drafts) u (b', drafts') ↔
          ∃ b₁, (RelationshipBuilder.createRelation site view).Answers (b, drafts) u (b₁, drafts')
            ∧ relationship b₁ = b' := by
        simp only [Action.Answers, step, Prod.mk.injEq]
        constructor
        · rintro ⟨ok, rfl, rfl⟩
          exact ⟨_, ⟨ok, rfl⟩, rfl⟩
        · rintro ⟨b₁, ⟨ok, state⟩, rfl⟩
          rw [state]
          exact ⟨ok, rfl, rfl⟩
      rw [same]
      simp only [RelationshipBuilder.answers_createRelation, mapped]
      cases found : view.relationship? b.name with
      | none => simp [and_comm]
      | some r =>
          cases joined : b.joins site r drafts with
          | error e => simp [Except.map, joined]
          | ok joins =>
              simp only [joined, Except.map, Option.some.injEq, reduceCtorEq, false_and, false_or,
                adding]
              constructor
              · rintro ⟨b₁, ⟨_, _, _, rfl, ok, ⟨free, rfl⟩, same⟩, rfl⟩
                rw [joined, Except.ok.injEq] at ok
                subst ok
                cases same
                exact ⟨_, rfl, by simpa using free, by simp, by simp⟩
              · rintro ⟨p, ok, free, _, same⟩
                cases ok
                have same := same _ rfl
                cases same
                exact ⟨b, ⟨r, joins, _, rfl, joined, ⟨free _ rfl, rfl⟩, rfl⟩, rfl⟩

theorem get?_withProperties (here : drafts.get? site.owner = some m)
    (properties : List MappedProperty) :
    (withProperties site drafts properties).get? site.owner
      = some { m with properties := m.properties ++ properties } := by
  rw [withProperties, Roster.get?_modify_self, here]
  rfl

theorem withProperties_append (site : BuildSite) (drafts : Roster Model)
    (before after : List MappedProperty) :
    withProperties site (withProperties site drafts before) after
      = withProperties site drafts (before ++ after) := by
  rw [withProperties, withProperties, Roster.modify_modify]
  simp only [withProperties, Function.comp_def, List.append_assoc]

theorem withProperties_nil (distinct : drafts.names.Nodup)
    (here : drafts.get? site.owner = some m) : withProperties site drafts [] = drafts :=
  Roster.modify_of_get? distinct here (by simp)

/-- Some properties can be put on a model one after another: none has the name of another. -/
def PropertiesFree (m : Model) (properties : List MappedProperty) : Prop :=
  (properties.map (·.name)).Nodup ∧ ∀ q ∈ properties, m.property? q.name = none

theorem propertiesFree_cons {q : MappedProperty} {rest : List MappedProperty} :
    PropertiesFree m (q :: rest) ↔ m.property? q.name = none ∧
      PropertiesFree { m with properties := m.properties ++ [q] } rest := by
  have other : ∀ p : MappedProperty,
      ModelShape.property? { m with properties := m.properties ++ [q] : Model }.toModelShape p.name
          = none ↔ m.property? p.name = none ∧ q.name ≠ p.name := by
    intro p
    simp only [ModelShape.property?, List.find?_append, Option.or_eq_none_iff, List.find?_cons,
      List.find?_nil]
    by_cases same : q.name = p.name
    · simp [same]
    · have other : (q.name == p.name) = false := by simpa using same
      simp [same, other]
  simp only [PropertiesFree, List.map_cons, List.nodup_cons, List.forall_mem_cons, other,
    List.mem_map, not_exists, not_and]
  constructor
  · rintro ⟨⟨new, distinct⟩, first, others⟩
    exact ⟨first, distinct, fun p mem => ⟨others p mem, fun same => new p mem same.symm⟩⟩
  · rintro ⟨first, distinct, others⟩
    exact ⟨⟨fun p mem same => (others p mem).2 same.symm, distinct⟩, first,
      fun p mem => (others p mem).1⟩

/-- The second phase of all builders of a model: their properties come in order. -/
theorem answers_eachProperty (distinct : drafts.names.Nodup)
    (here : drafts.get? site.owner = some m) {builders : List Builder}
    {s' : List Builder × Roster Model} :
    (Action.onEach (step .properties site view)).Answers (builders, drafts) u s' ↔
      ∃ ps : List (Option MappedProperty),
        List.Forall₂ (fun b p => b.mapped site view drafts = .ok p) builders ps
          ∧ PropertiesFree m (ps.reduceOption)
          ∧ (builders, withProperties site drafts (ps.reduceOption)) = s' := by
  induction builders generalizing drafts m s' with
  | nil => simp [PropertiesFree, withProperties_nil distinct here]
  | cons b rest ih =>
      rw [Action.answers_onEach_cons]
      simp only [answers_step_properties here, List.forall₂_cons_left_iff]
      constructor
      · rintro ⟨_, ⟨_, _⟩, ⟨p, made, free, skip, put⟩, others, rfl⟩
        cases p with
        | none =>
            rw [← skip rfl] at others ⊢
            obtain ⟨ps, all, free', same⟩ := (ih distinct here).1 others
            cases same
            exact ⟨none :: ps, ⟨none, ps, made, all, rfl⟩, by simpa using free', by simp⟩
        | some q =>
            rw [← put q rfl] at others ⊢
            have tables := BuildSite.sameTables_addProperties site drafts [q]
            obtain ⟨ps, all, free', same⟩ := (ih (m := { m with
              properties := m.properties ++ [q] }) (by
                rw [withProperties, Roster.names_modify]
                exact distinct) (get?_withProperties here [q])).1 others
            cases same
            refine ⟨some q :: ps, ⟨some q, ps, made, all.imp fun b p h => ?_, rfl⟩, ?_, ?_⟩
            · rw [← h]
              exact (mapped_congr tables b).symm
            · rw [List.reduceOption_cons_of_some, propertiesFree_cons]
              exact ⟨free q rfl, free'⟩
            · rw [withProperties_append, List.reduceOption_cons_of_some]
              rfl
      · rintro ⟨_, ⟨p, ps, made, all, rfl⟩, free, rfl⟩
        cases p with
        | none =>
            rw [List.reduceOption_cons_of_none] at free ⊢
            exact ⟨(b, drafts), _, ⟨none, made, by simp, by simp, by simp⟩,
              (ih distinct here).2 ⟨ps, all, free, rfl⟩, rfl⟩
        | some q =>
            rw [List.reduceOption_cons_of_some] at free ⊢
            obtain ⟨first, free'⟩ := propertiesFree_cons.1 free
            have tables := BuildSite.sameTables_addProperties site drafts [q]
            refine ⟨(b, withProperties site drafts [q]), _,
              ⟨some q, made, by simpa using first, by simp, by simp⟩,
              (ih (m := { m with properties := m.properties ++ [q] }) (by
                rw [withProperties, Roster.names_modify]
                exact distinct) (get?_withProperties here [q])).2
                ⟨ps, all.imp fun b p h => ?_, free', rfl⟩, ?_⟩
            · rw [← h]
              exact mapped_congr tables b
            · rw [withProperties_append]
              rfl

/-- The properties that some builders put on their model, by the tables of the drafts. -/
def mappedAll (site : BuildSite) (view : PropertyView) (drafts : Roster Model)
    (builders : List Builder) : List MappedProperty :=
  builders.filterMap fun b =>
    match b.mapped site view drafts with
    | .ok p => p
    | .error _ => none

theorem mappedAll_congr (h : SameTables drafts drafts') (builders : List Builder) :
    mappedAll site view drafts' builders = mappedAll site view drafts builders := by
  simp only [mappedAll, mapped_congr h]

/-- What a builder puts on its model has the name of the builder. -/
theorem name_of_mapped {p : MappedProperty} (h : b.mapped site view drafts = .ok (some p)) :
    p.name = b.name := by
  cases b with
  | field name =>
      cases h
      rfl
  | relationship b =>
      cases found : view.relationship? b.name with
      | none =>
          simp only [mapped, found, Except.ok.injEq, reduceCtorEq] at h
      | some r =>
          obtain ⟨joins, _, same⟩ := (mapped_relationship_eq_ok_iff found).1 h
          cases same
          rfl

theorem names_mappedAll (builders : List Builder) :
    ((mappedAll site view drafts builders).map (·.name)).Sublist (builders.map (·.name)) := by
  induction builders with
  | nil => exact .slnil
  | cons b rest ih =>
      unfold mappedAll at ih ⊢
      rw [List.filterMap_cons]
      cases made : b.mapped site view drafts with
      | error e => exact ih.cons _
      | ok p =>
          cases p with
          | none => exact ih.cons _
          | some q =>
              simp only [List.map_cons, name_of_mapped made]
              exact ih.cons_cons _

/-- The second phase of all builders of a model without properties succeeds just if each of them has
its joins; then it puts the properties on in order. -/
theorem answers_eachMapped (site : BuildSite) (view : PropertyView) (distinct : drafts.names.Nodup)
    (here : drafts.get? site.owner = some m) (bare : m.properties = []) {builders : List Builder}
    (names : (builders.map (·.name)).Nodup) (s' : List Builder × Roster Model) :
    (Action.onEach (step .properties site view)).Answers (builders, drafts) () s' ↔
      (∀ b ∈ builders, ∃ p, b.mapped site view drafts = .ok p) ∧
        (builders, withProperties site drafts (mappedAll site view drafts builders)) = s' := by
  rw [answers_eachProperty distinct here]
  have put : ∀ ps : List (Option MappedProperty),
      List.Forall₂ (fun b p => b.mapped site view drafts = .ok p) builders ps →
      ps.reduceOption = mappedAll site view drafts builders := by
    intro ps all
    induction all with
    | nil => rfl
    | @cons b p _ _ made _ ih =>
        have later := ih (List.nodup_cons.1 names).2
        unfold mappedAll at later ⊢
        cases p with
        | none => simp [made, later]
        | some q => simp [made, later]
  have free : PropertiesFree m (mappedAll site view drafts builders) := by
    refine ⟨(names_mappedAll builders).nodup names, fun q _ => ?_⟩
    simp [ModelShape.property?, bare]
  constructor
  · rintro ⟨ps, all, _, same⟩
    rw [put ps all] at same
    refine ⟨fun b mem => ?_, same⟩
    obtain ⟨p, _, made⟩ := exists_right_of_forall₂ all mem
    exact ⟨p, made⟩
  · rintro ⟨each, same⟩
    obtain ⟨ps, all⟩ := exists_forall₂ each
    rw [← put ps all] at free same
    exact ⟨ps, all, free, same⟩

/-! ## Single builders -/

theorem answers_step_keyColumns_field {name : String} {s' : Builder × Roster Model} :
    (step .keyColumns site view).Answers (field name, drafts) u s' ↔ (field name, drafts) = s' := by
  simp [Action.Answers, step]

theorem answers_step_keyColumns_relationship {b : RelationshipBuilder}
    {s' : Builder × Roster Model} :
    (step .keyColumns site view).Answers (relationship b, drafts) u s' ↔
      ∃ b' drafts', (RelationshipBuilder.createKeyColumns site view).Answers (b, drafts) u
          (b', drafts') ∧ (relationship b', drafts') = s' := by
  simp only [Action.Answers, step]
  constructor
  · rintro ⟨ok, rfl⟩
    exact ⟨_, _, ⟨ok, rfl⟩, rfl⟩
  · rintro ⟨b', drafts', ⟨ok, same⟩, rfl⟩
    rw [same]
    exact ⟨ok, rfl⟩

theorem answers_primaryKeyStep {s' : Builder × Roster Model} :
    (primaryKeyStep site view).Answers (b, drafts) u s' ↔
      (b.forcesPrimaryKey = true ∧ (step .keyColumns site view).Answers (b, drafts) u s') ∨
      (b.forcesPrimaryKey = false ∧ (b, drafts) = s') := by
  unfold primaryKeyStep
  rw [Action.answers_read_bind]
  by_cases forces : b.forcesPrimaryKey
  · simp [forces]
  · simp [forces]

end Builder

/-! ## Descriptors and units -/

namespace Descriptor

variable {site : BuildSite} {d : Descriptor} {drafts : Roster Model} {u : Unit}
  {s' : Descriptor × Roster Model}

/-- The descriptor with other builders. -/
def withBuilders (d : Descriptor) (builders : List Builder) : Descriptor :=
  { d with plan := { d.plan with builders } }

theorem answers_onBuilders {step : Action (Builder × Roster Model) Unit} {plan : BuildPlan}
    {s' : BuildPlan × Roster Model} :
    (BuildPlan.onBuilders step).Answers (plan, drafts) u s' ↔
      ∃ builders drafts', (Action.onEach step).Answers (plan.builders, drafts) u (builders, drafts')
        ∧ ({ plan with builders }, drafts') = s' := by
  simp only [Action.Answers, BuildPlan.onBuilders, Action.onEach]
  constructor
  · rintro ⟨ok, rfl⟩
    exact ⟨_, _, ⟨ok, rfl⟩, rfl⟩
  · rintro ⟨builders, drafts', ⟨ok, same⟩, rfl⟩
    rw [same]
    exact ⟨ok, rfl⟩

theorem answers_build {phase : Phase} :
    (build phase site).Answers (d, drafts) u s' ↔
      ∃ builders drafts', (Action.onEach (Builder.step phase site d.view)).Answers
          (d.plan.builders, drafts) u (builders, drafts')
        ∧ (d.withBuilders builders, drafts') = s' := by
  unfold build BuildPlan.run
  rw [Action.answers_read_bind, Action.answers_zoom]
  simp only [Action.answers_read_bind, Action.answers_note_bind, answers_onBuilders]
  constructor
  · rintro ⟨_, ⟨builders, drafts', each, rfl⟩, rfl⟩
    exact ⟨builders, drafts', each, rfl⟩
  · rintro ⟨builders, drafts', each, rfl⟩
    exact ⟨_, ⟨builders, drafts', each, rfl⟩, rfl⟩

theorem answers_buildPrimaryKey :
    (buildPrimaryKey site).Answers (d, drafts) u s' ↔
      ∃ builders drafts', (Action.onEach (Builder.primaryKeyStep site d.view)).Answers
          (d.plan.builders, drafts) u (builders, drafts')
        ∧ (d.withBuilders builders, drafts') = s' := by
  unfold buildPrimaryKey BuildPlan.runPrimaryKey
  rw [Action.answers_read_bind, Action.answers_zoom]
  simp only [answers_onBuilders]
  constructor
  · rintro ⟨_, ⟨builders, drafts', each, rfl⟩, rfl⟩
    exact ⟨builders, drafts', each, rfl⟩
  · rintro ⟨builders, drafts', each, rfl⟩
    exact ⟨_, ⟨builders, drafts', each, rfl⟩, rfl⟩

end Descriptor

namespace Generation

variable {generated : Roster Model} {unit : List String} {D D' : Roster Descriptor}
  {drafts : Roster Model} {u : Unit} {s' : Roster Descriptor × Roster Model}

/-- One pass over the members of a unit. -/
def pass (generated : Roster Model) (x : BuildSite → Action (Descriptor × Roster Model) Unit)
    (names : List String) : Action (Roster Descriptor × Roster Model) Unit :=
  forM names fun name => onMember name (x { owner := name, generated })

/-- A unit is built in three passes: what extends primary keys, the other keys, the properties. -/
theorem answers_runPhases :
    (runPhases generated unit).Answers (D, drafts) u s' ↔
      ∃ s₁ s₂, (pass generated Descriptor.buildPrimaryKey (primaryKeyOrder D unit)).Answers
          (D, drafts) () s₁
        ∧ (pass generated (Descriptor.build .keyColumns) unit).Answers s₁ () s₂
        ∧ (pass generated (Descriptor.build .properties) unit).Answers s₂ () s' := by
  unfold runPhases pass
  rw [Action.answers_read_bind]
  simp only [List.forM_eq_forM, Phase.all, Action.answers_bind (x := forM _ _),
    Action.answers_forM_cons, Action.answers_forM_nil]
  constructor
  · rintro ⟨_, s₁, first, s₂, keys, s₃, properties, rfl⟩
    exact ⟨s₁, s₂, first, keys, properties⟩
  · rintro ⟨s₁, s₂, first, keys, properties⟩
    exact ⟨_, s₁, first, s₂, keys, s', properties, rfl⟩

/-- What holds of the members done so far and the drafts, from one member to the next, holds of the
whole pass in the end.  Each member is built with its descriptor as it was, up to records. -/
theorem pass_induction {I : List String → Roster Model → Prop}
    {x : BuildSite → Action (Descriptor × Roster Model) Unit} {names : List String}
    (distinct : D.names.Nodup)
    (h : (pass generated x names).Answers (D', drafts) u s')
    (worked : Roster.Evolves (fun _ => Worked) D D') (start : I [] drafts)
    (next : ∀ done n rest d d' d'' drafts drafts', names = done ++ n :: rest →
      D.get? n = some d → Worked d d' → I done drafts →
      (x { owner := n, generated }).Answers (d', drafts) () (d'', drafts') →
      Worked d' d'' ∧ I (done ++ [n]) drafts') :
    Roster.Evolves (fun _ => Worked) D s'.1 ∧ I names s'.2 := by
  refine h.forM_induction
    (I := fun done s => Roster.Evolves (fun _ => Worked) D s.1 ∧ I done s.2) ⟨worked, start⟩ ?_
  rintro done n rest ⟨D₁, drafts₁⟩ t' split ⟨worked₁, keep⟩ one
  obtain ⟨d', d'', drafts₂, found', built, rfl⟩ := answers_onMember.1 one
  obtain ⟨d, found, before⟩ := worked₁.get?_backward found'
  obtain ⟨after, keep'⟩ := next done n rest d d' d'' drafts₁ drafts₂ split found before keep built
  refine ⟨Roster.Evolves.trans (S := fun _ => Worked) (fun _ _ _ _ => Worked.trans) worked₁ ?_, keep'⟩
  refine Roster.evolves_modify (R := fun _ => Worked) (fun _ _ _ => rfl) fun a mem => ?_
  have names : D₁.names.Nodup := by rw [worked₁.names_eq]; exact distinct
  have here : D₁.get? n = some a := Roster.get?_of_mem_entries names mem
  rw [found', Option.some.injEq] at here
  exact here ▸ after

/-- What the steps of its builders keep of the drafts, a pass over the members keeps. -/
theorem drafts_pass {J : Roster Model → Prop} {C : String → Prop}
    {x : BuildSite → Action (Descriptor × Roster Model) Unit} {names : List String}
    (step : BuildSite → PropertyView → Action (Builder × Roster Model) Unit)
    (builds : ∀ site d drafts s', (x site).Answers (d, drafts) () s' →
      ∃ builders drafts', (Action.onEach (step site d.view)).Answers (d.plan.builders, drafts) ()
        (builders, drafts') ∧ (d.withBuilders builders, drafts') = s')
    (works : ∀ site (s : Descriptor × Roster Model), s.2.names.Nodup →
      Worked s.1 (x site s).state.1 ∧ DraftsGrow s.2 (x site s).state.2)
    (keeps : ∀ site view b drafts, site.generated = generated → C b.name → J drafts →
      J (step site view (b, drafts)).state.2)
    (distinct : D.names.Nodup)
    (built : ∀ n ∈ names, ∀ d, D.get? n = some d → ∀ y ∈ d.plan.names, C y)
    (h : (pass generated x names).Answers (D', drafts) u s')
    (worked : Roster.Evolves (fun _ => Worked) D D') (names_distinct : drafts.names.Nodup)
    (holds : J drafts) :
    Roster.Evolves (fun _ => Worked) D s'.1 ∧ s'.2.names.Nodup ∧ J s'.2 := by
  refine pass_induction (I := fun _ drafts => drafts.names.Nodup ∧ J drafts) distinct h worked
    ⟨names_distinct, holds⟩ ?_
  rintro done n rest d d' d'' drafts₁ drafts₂ rfl found before ⟨names₁, holds₁⟩ one
  obtain ⟨after, grown⟩ := works { owner := n, generated } (d', drafts₁) names₁
  rw [one.2] at after grown
  obtain ⟨builders, _, each, ends⟩ := builds _ _ _ _ one
  cases ends
  refine ⟨after, (Roster.Evolves.names_eq grown).symm ▸ names₁, ?_⟩
  refine each.onEach_induction (I := fun _ drafts => J drafts) holds₁ ?_
  rintro _ b _ t b' t' split holds₂ did
  have named : b.name ∈ d.plan.names := by
    rw [← before.plan_names_eq]
    exact List.mem_map_of_mem (split ▸ List.mem_append_right _ List.mem_cons_self)
  have kept := keeps { owner := n, generated } d'.view b t rfl
    (built n (by simp) d found _ named) holds₂
  rw [did.2] at kept
  exact kept

/-- What the steps of its builders keep of the drafts, building a unit keeps. -/
theorem drafts_runPhases {J : Roster Model → Prop} {C : String → Prop} {start : Roster Model}
    (keeps : ∀ phase site view b drafts, site.generated = generated → C b.name → J drafts →
      J (Builder.step phase site view (b, drafts)).state.2)
    (distinct : D.names.Nodup)
    (built : ∀ n ∈ unit, ∀ d, D.get? n = some d → ∀ y ∈ d.plan.names, C y)
    (h : (runPhases generated unit).Answers (D, start) u s') (start_distinct : start.names.Nodup)
    (holds : J start) : J s'.2 := by
  obtain ⟨s₁, s₂, first, keys, properties⟩ := answers_runPhases.1 h
  have keepsFirst : ∀ site view b drafts, site.generated = generated → C b.name → J drafts →
      J (Builder.primaryKeyStep site view (b, drafts)).state.2 := by
    intro site view b drafts here named holds
    unfold Builder.primaryKeyStep
    rw [Action.read_bind]
    by_cases forces : b.forcesPrimaryKey
    · simp only [forces, if_true]
      exact keeps .keyColumns site view b drafts here named holds
    · simp only [forces, if_false, Bool.false_eq_true]
      exact holds
  obtain ⟨worked₁, names₁, holds₁⟩ := drafts_pass Builder.primaryKeyStep
    (fun _ _ _ _ => Descriptor.answers_buildPrimaryKey.1)
    (fun site s names => Descriptor.worked_buildPrimaryKey site names) keepsFirst distinct
    (fun n mem => built n (mem_primaryKeyOrder.1 mem).1) first (.refl (fun _ => Worked.refl) D)
    start_distinct holds
  obtain ⟨worked₂, names₂, holds₂⟩ := drafts_pass (Builder.step .keyColumns)
    (fun _ _ _ _ => Descriptor.answers_build.1)
    (fun site s names => Descriptor.worked_build site .keyColumns names) (keeps .keyColumns) distinct
    built keys worked₁ names₁ holds₁
  exact (drafts_pass (Builder.step .properties) (fun _ _ _ _ => Descriptor.answers_build.1)
    (fun site s names => Descriptor.worked_build site .properties names) (keeps .properties) distinct
    built properties worked₂ names₂ holds₂).2.2

end Generation

end ResourceTables
