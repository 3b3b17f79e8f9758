/-
# `ResourceTables.Proofs.Coverage` — nothing of a generated model is missing, and nothing is there twice

The columns of a table come from the fields of its resource, from the pass that extends primary keys
and from the pass that makes all other keys; its properties come later and in another order, that of the
builders.  Whatever the mix: the table has the columns of the fields and then, key by key, those of its
foreign keys, and the model has one property for each builder.  The names of columns are checked when a
key is made, so a column of a field belongs to no key, and every other one to a single key.
-/
import ResourceTables.Proofs.KeyNames
import ResourceTables.Proofs.Origins

namespace ResourceTables

/-! ## Lists -/

section Lists

variable {α β : Type}

/-- Where every element goes with something, the list goes with what there is. -/
theorem forall₂_reduceOption {R : α → Option β → Prop} {xs : List α} {ys : List (Option β)}
    (some_ : ∀ x ∈ xs, ¬ R x none) (h : List.Forall₂ R xs ys) :
    List.Forall₂ (fun x y => R x (some y)) xs ys.reduceOption := by
  induction h with
  | nil => exact .nil
  | @cons x y xs ys one _ ih =>
      have rest := ih fun x mem => some_ x (.tail _ mem)
      cases y with
      | none => exact absurd one (some_ x List.mem_cons_self)
      | some y =>
          rw [List.reduceOption_cons_of_some]
          exact .cons one rest

/-- An element of lists without repetitions is in one of them. -/
theorem exists_filter_mem_eq_singleton [DecidableEq β] {f : α → List β} {xs : List α} {y : β}
    (distinct : (xs.flatMap f).Nodup) (mem : y ∈ xs.flatMap f) :
    ∃ x, xs.filter (y ∈ f ·) = [x] := by
  obtain ⟨x, inside, here⟩ := List.mem_flatMap.1 mem
  obtain ⟨before, after, rfl⟩ := List.append_of_mem inside
  obtain ⟨_, later, earlier⟩ := List.pairwise_append.1 (List.nodup_flatMap.1 distinct).2
  have none_before : before.filter (y ∈ f ·) = [] := by
    refine List.filter_eq_nil_iff.2 fun z mem there => ?_
    exact earlier z mem x List.mem_cons_self (of_decide_eq_true there) here
  have none_after : after.filter (y ∈ f ·) = [] := by
    refine List.filter_eq_nil_iff.2 fun z mem there => ?_
    exact (List.pairwise_cons.1 later).1 z mem here (of_decide_eq_true there)
  refine ⟨x, ?_⟩
  rw [List.filter_append, none_before, List.nil_append, List.filter_cons_of_pos (by simpa using here),
    none_after]

end Lists

/-! ## Complete models -/

/-- The foreign keys that a column belongs to. -/
def Table.keysWith (t : Table) (c : String) : List ForeignKey :=
  t.constraints.filter (c ∈ ·.columns)

/-- What a builder leaves on a model: a field the column of its name, which the table has as the field
describes it, and a relationship a relation of its name, with its target, its inverse and the list mode
of the builder. -/
inductive Builder.Leaves (d : Descriptor) (t : Table) : Builder → MappedProperty → Prop
  | column {x : String} {f : Field} (declared : d.field? x = some f)
      (column : t.column? x = some { name := x, type := f.storage, options := f.options }) :
      Leaves d t (.field x) (.column x x)
  | relation {b : RelationshipBuilder} {r : Relationship} {relation : Relation}
      (declared : d.relationship? b.name = some r) (name : relation.name = b.name)
      (target : relation.target = r.target) (inverse : relation.backPopulates = r.inverse)
      (list : relation.useList = b.useList) : Leaves d t (.relationship b) (.relation relation)

/-- A model whose table has the columns of the fields and then those of the foreign keys, and whose
properties are those of the builders, one by one; a column is mapped and belongs to no key, or it is not
mapped and belongs to one. -/
structure Complete (d : Descriptor) (m : Model) (t : Table) : Prop where
  columns_distinct : t.columnNames.Nodup
  properties_distinct : (m.properties.map (·.name)).Nodup
  leaves : List.Forall₂ (Builder.Leaves d t) d.plan.builders m.properties
  columnNames_eq : t.columnNames = d.fieldNames ++ t.constraints.flatMap (·.columns)
  mapped_or_keyed : ∀ c ∈ t.columnNames,
    ((∃ x, .column x c ∈ m.properties) ∧ t.keysWith c = []) ∨
    ((∀ x, .column x c ∉ m.properties) ∧ ∃ key, t.keysWith c = [key])

namespace Builder

variable {d d' : Descriptor} {t : Table} {b : Builder} {p : MappedProperty}

theorem Leaves.name_eq (h : b.Leaves d t p) : p.name = b.name := by
  cases h with
  | column => rfl
  | relation _ name => exact name

theorem Leaves.congr (fields : d'.fields = d.fields)
    (relationships : ∀ x, d'.relationship? x = d.relationship? x) (h : b.Leaves d t p) :
    b.Leaves d' t p := by
  cases h with
  | @column x _ declared column =>
      refine .column ?_ column
      rw [Descriptor.field?, Descriptor.fieldNamed?, fields]
      exact declared
  | relation declared name target inverse list =>
      exact .relation ((relationships _).trans declared) name target inverse list

/-- What a builder maps to by the tables of a unit, it leaves on a model whose table begins with the
columns of the fields. -/
theorem leaves_of_mapped {site : BuildSite} {drafts : Roster Model} (wf : d.WellFormed)
    (distinct : t.columnNames.Nodup) (begins : Generation.fieldColumns d <+: t.columns)
    (built : b ∈ d.plan.builders) (mapped : b.mapped site d.view drafts = .ok (some p)) :
    b.Leaves d t p := by
  cases b with
  | field x =>
      cases mapped
      obtain ⟨e, entered, rfl⟩ := List.mem_map.1 ((wf.field_built x).1 built)
      have named : d.fieldNamed? e.name = some e := find?_key_of_mem wf.fields_distinct entered
      refine .column (f := e.field) ?_ ?_
      · rw [Descriptor.field?, named, Option.map_some]
      · exact Table.column?_of_mem distinct (begins.subset (List.mem_map.2 ⟨e, entered, rfl⟩))
  | relationship b =>
      obtain ⟨r, declared⟩ := wf.served built
      obtain ⟨joins, _, same⟩ := (mapped_relationship_eq_ok_iff declared).1 mapped
      cases same
      rw [Descriptor.view_relationship?] at declared
      exact .relation declared rfl rfl rfl rfl

end Builder

namespace Complete

variable {d d' : Descriptor} {m : Model} {t : Table}

/-- What the builders leave, and where the columns come from, is all there is to show. -/
theorem of_leaves (wf : d.WellFormed) (distinct : t.columnNames.Nodup)
    (columns : t.columnNames = d.fieldNames ++ t.constraints.flatMap (·.columns))
    (leaves : List.Forall₂ (Builder.Leaves d t) d.plan.builders m.properties) : Complete d m t where
  columns_distinct := distinct
  properties_distinct := by
    rw [map_eq_map_of_forall₂ leaves fun _ _ => Builder.Leaves.name_eq]
    exact wf.plan_distinct
  leaves := leaves
  columnNames_eq := columns
  mapped_or_keyed := by
    rw [columns] at distinct ⊢
    obtain ⟨_, keys_distinct, apart⟩ := List.nodup_append.1 distinct
    intro c mem
    rcases List.mem_append.1 mem with own | keyed
    · refine .inl ⟨?_, List.filter_eq_nil_iff.2 fun key inside here => ?_⟩
      · obtain ⟨p, left, one⟩ := exists_right_of_forall₂ leaves ((wf.field_built c).2 own)
        cases one
        exact ⟨c, left⟩
      · exact apart c own c (List.mem_flatMap.2 ⟨key, inside, of_decide_eq_true here⟩) rfl
    · refine .inr ⟨fun x left => ?_, exists_filter_mem_eq_singleton keys_distinct keyed⟩
      obtain ⟨b, built, one⟩ := exists_left_of_forall₂ leaves left
      cases one
      exact apart c ((wf.field_built c).1 built) c keyed rfl

theorem congr (h : Complete d m t) (fields : d'.fields = d.fields)
    (builders : d'.plan.builders = d.plan.builders)
    (relationships : ∀ x, d'.relationship? x = d.relationship? x) : Complete d' m t :=
  { h with
    leaves := by
      rw [builders]
      exact h.leaves.imp fun _ _ => Builder.Leaves.congr fields relationships
    columnNames_eq := by
      rw [Descriptor.fieldNames, fields]
      exact h.columnNames_eq }

/-- Where builders fit their relationships, relations have the list mode of theirs. -/
theorem useList_eq (h : Complete d m t) (wf : d.WellFormed) (faithful : d.Faithful)
    {relation : Relation} (mem : .relation relation ∈ m.properties) :
    ∃ r, d.relationship? relation.name = some r ∧ relation.useList = r.useList := by
  obtain ⟨b, built, one⟩ := exists_left_of_forall₂ h.leaves mem
  cases one with
  | @relation b r _ declared name _ _ list =>
      obtain ⟨e, entered, same, rfl⟩ := wf.relationship?_eq_some_iff.1 declared
      exact ⟨e.relationship, name ▸ declared, list.trans (faithful b e built entered same).1⟩

end Complete

/-! ## The pass that makes properties -/

namespace Generation

variable {ctx : GenerationContext} {D : Roster Descriptor} {generated drafts : Roster Model}
  {unit : List String} {u : Unit} {s' : Roster Descriptor × Roster Model}

/-- In the middle of the pass: members that are done have one property for each builder, as `drafts`
tell it, and the others have none. -/
def MappedUpTo (D : Roster Descriptor) (generated drafts : Roster Model) (done : List String)
    (drafts' : Roster Model) : Prop :=
  ∀ n d m, D.get? n = some d → drafts'.get? n = some m →
    if n ∈ done then List.Forall₂ (fun b p => b.mapped { owner := n, generated } d.view drafts
        = .ok (some p)) d.plan.builders m.properties
    else m.properties = []

theorem mapped_ne_none {site : BuildSite} {d : Descriptor} (wf : d.WellFormed) {b : Builder}
    (built : b ∈ d.plan.builders) : b.mapped site d.view drafts ≠ .ok none := by
  cases b with
  | field x => exact nofun
  | relationship b =>
      obtain ⟨r, declared⟩ := wf.served built
      intro none
      obtain ⟨_, _, impossible⟩ := (Builder.mapped_relationship_eq_ok_iff declared).1 none
      cases impossible

/-- A member whose turn comes gets one property for each of its builders. -/
theorem MappedUpTo.next {drafts₁ : Roster Model} {done : List String} {n : String} {d : Descriptor}
    {m : Model} {ps : List (Option MappedProperty)} (h : MappedUpTo D generated drafts done drafts₁)
    (tables : SameTables drafts drafts₁) (new : n ∉ done) (wf : d.WellFormed)
    (found : D.get? n = some d) (here : drafts₁.get? n = some m)
    (made : List.Forall₂ (fun b p => b.mapped { owner := n, generated } d.view drafts₁ = .ok p)
      d.plan.builders ps) : MappedUpTo D generated drafts (done ++ [n])
        (Builder.withProperties { owner := n, generated } drafts₁ ps.reduceOption) := by
  have first : m.properties = [] := by
    have before := h n d m found here
    rw [if_neg new] at before
    exact before
  intro k d' m' described there
  rw [Builder.withProperties, Roster.get?_modify] at there
  by_cases this : k = n
  · subst this
    rw [if_pos rfl, here, Option.map_some, Option.some.injEq] at there
    rw [found, Option.some.injEq] at described
    subst described there
    rw [if_pos (by simp), first, List.nil_append]
    refine (forall₂_reduceOption (fun b mem => mapped_ne_none wf mem) made).imp fun b p one => ?_
    rw [← one, Builder.mapped_congr tables]
  · rw [if_neg this] at there
    simpa [this] using h k d' m' described there

/-- The pass gives each member one property for each of its builders, and leaves the descriptors. -/
theorem mapped_propertyPass (distinct : D.names.Nodup) (drafts_distinct : drafts.names.Nodup)
    (unit_distinct : unit.Nodup) (members : ∀ n ∈ unit, n ∈ drafts.names)
    (wf : ∀ n d, D.get? n = some d → d.WellFormed)
    (bare : ∀ n m, drafts.get? n = some m → m.properties = [])
    (h : (pass generated (Descriptor.build .properties) unit).Answers (D, drafts) u s') :
    s'.1 = D ∧ MappedUpTo D generated drafts unit s'.2 := by
  have ends := h.forM_induction (I := fun done s => s.1 = D ∧ s.2.names = drafts.names
    ∧ SameTables drafts s.2 ∧ MappedUpTo D generated drafts done s.2) ?_ ?_
  · exact ⟨ends.1, ends.2.2.2⟩
  · exact ⟨rfl, rfl, fun _ => rfl, fun n d m _ found => bare n m found⟩
  · rintro done n rest ⟨D₁, drafts₁⟩ s' split ⟨rfl, names, tables, mapped⟩ one
    obtain ⟨d, _, _, found, built, rfl⟩ := answers_onMember.1 one
    obtain ⟨builders, drafts₂, each, ends⟩ := Descriptor.answers_build.1 built
    cases ends
    have new : n ∉ done := by
      rw [split, List.nodup_append] at unit_distinct
      exact fun old => unit_distinct.2.2 n old n List.mem_cons_self rfl
    obtain ⟨m, here⟩ := Roster.exists_get?_of_mem (names ▸ members n (by simp [split]))
    have own : drafts₁.get? ({ owner := n, generated } : BuildSite).owner = some m := here
    obtain ⟨ps, made, _, same⟩ :=
      (Builder.answers_eachProperty (names ▸ drafts_distinct) own).1 each
    cases same
    have unchanged : D₁.modify n (fun _ => d.withBuilders d.plan.builders) = D₁ :=
      Roster.modify_of_get? distinct found rfl
    refine ⟨unchanged, (Roster.names_modify _ _ _).trans names,
      fun x => (BuildSite.sameTables_addProperties { owner := n, generated } drafts₁ _ x).trans
        (tables x), mapped.next tables new (wf n d found) found here made⟩

end Generation

/-! ## Units -/

namespace BuiltUnit

open Generation

variable {ctx : GenerationContext} {w w' : Workspace} {unit : List String} {n : String}
  {D' D₁ : Roster Descriptor} {start finished : Roster Model} {d d₁ : Descriptor} {m : Model} {t : Table}

/-- The builders of a member have mapped their properties. -/
theorem mapped (built : BuiltUnit ctx w w' unit D' start finished D₁)
    (sound : Sound ctx.resources { w with descriptors := D' }) (found : D₁.get? n = some d₁)
    (member : n ∈ unit) (made : finished.get? n = some m) :
    ∃ drafts, List.Forall₂ (fun b p => b.mapped { owner := n, generated := w.models } d₁.view drafts
      = .ok (some p)) d₁.plan.builders m.properties := by
  have names := names_drafts built.compiled.drafted
  obtain ⟨D₂, drafts, prepared, properties⟩ := exists_prepared sound.descriptors_distinct names
    built.distinct (built.fresh sound) built.compiled.built
  have members : drafts.names = unit := prepared.names_eq.trans names
  have wf : ∀ k d, D₂.get? k = some d → d.WellFormed := by
    intro k d there
    obtain ⟨d₀, before, worked⟩ := prepared.worked.get?_backward there
    exact worked.wellFormed (sound.allWellFormed k d₀ before)
  obtain ⟨same, mapped⟩ := mapped_propertyPass
    (prepared.worked.names_eq ▸ sound.descriptors_distinct) (members ▸ built.distinct) built.distinct
    (fun k inside => members ▸ inside) wf (fun k m => prepared.bare fun k m =>
      properties_drafts built.compiled.drafted built.distinct) properties
  obtain rfl : D₁ = D₂ := same
  have one := mapped n d₁ m found made
  rw [if_pos member] at one
  exact ⟨drafts, one⟩

/-- The model of a member is complete. -/
theorem complete (built : BuiltUnit ctx w w' unit D' start finished D₁)
    (sound : Sound ctx.resources { w with descriptors := D' }) (old : ColumnsDistinct w.models)
    (member : n ∈ unit) (found : D'.get? n = some d) (found₁ : D₁.get? n = some d₁)
    (worked : Worked d d₁) (made : finished.get? n = some m) (table : m.table = some t) :
    Complete d₁ m t := by
  obtain ⟨named, _⟩ := built.keysNamed sound old
  have distinct := named.distinct n m t made table
  obtain ⟨d', found', columns⟩ := named.columns n m t made table
  obtain rfl : d = d' := Option.some.inj (found.symm.trans found')
  obtain ⟨d', found', _, tables⟩ := built.exists_startTable made table
  obtain rfl : d = d' := Option.some.inj (found.symm.trans found')
  have wf := worked.wellFormed (sound.allWellFormed n d found)
  have begins : fieldColumns d <+: t.columns := tables.columns
  rw [fieldColumns, ← worked.fields_eq] at begins
  rw [Descriptor.fieldNames, ← worked.fields_eq] at columns
  obtain ⟨drafts, mapped⟩ := built.mapped sound found₁ member made
  refine .of_leaves wf distinct columns ?_
  refine (List.forall₂_and_left _ _ |>.2 ⟨fun b mem => mem, mapped⟩).imp ?_
  rintro b p ⟨inside, one⟩
  exact Builder.leaves_of_mapped wf distinct begins inside one

end BuiltUnit

/-! ## Histories -/

namespace Generation

variable {ctx : GenerationContext}

theorem original_complete : Original ctx KeysHosted
    fun _ _ d m => ∀ t, m.table = some t → Complete d m t where
  lasts := by
    intro _ _ _ d d' m _ frozen holds t table
    refine (holds t table).congr ?_ ?_ frozen.relationship?_eq
    · rw [frozen.rest_eq]
    · rw [frozen.rest_eq]
  compiled := fun sound built hosted member found found₁ worked made t table =>
    (built.complete sound hosted.distinct member found found₁ worked made table).congr rfl rfl
      fun _ => rfl
  stored := by
    intro w name r d _ t table
    cases table

end Generation

namespace Compiler

open Generation

/-- Whenever a request makes a model with a table, the model is complete: the columns of the table have
different names, so have the properties, and there is one property for each builder of the descriptor, in
order; a property of a field names the column that has the field's storage type and options, a relation
has the target, the inverse and the list mode of the builder of the relationship of its name; and every
column is mapped or belongs to exactly one foreign key.  As long as nothing has changed a relationship
behind its builder, the list mode is that of the relationship. -/
theorem models_complete (settings : Settings) (before : List Request) (request : Request) (n : String)
    (m : Model) (new_ : ((new settings).run before).model? n = none)
    (cached : (((new settings).run before).after request).model? n = some m)
    (concrete : m.isAbstract = false) :
    ∃ d t, (((new settings).run before).after request).descriptor? n = some d ∧ m.table = some t
      ∧ Complete d m t
      ∧ ((∀ past ∈ before ++ [request], past.Fits) →
          ∀ relation, .relation relation ∈ m.properties →
            ∃ r, d.relationship? relation.name = some r ∧ relation.useList = r.useList) := by
  have coherent := coherent_run settings before
  have coherent' := coherent_after coherent request
  obtain ⟨d, found, _, complete⟩ := newHave_after coherent request (fun _ _ => original_complete)
    (fun _ _ => kept_keysHosted) (fun _ _ _ _ _ _ => keysHosted_stored)
    (keysHosted_run settings before) n m new_ cached
  have named := coherent'.sound.models_named n m cached
  obtain ⟨t, table⟩ : ∃ t, m.table = some t := by
    rw [← Option.ne_none_iff_exists']
    intro none
    rw [named.isAbstract_iff.2 none] at concrete
    cases concrete
  have whole := complete t table
  refine ⟨d, t, found, table, whole, fun fits relation mem => ?_⟩
  have fitting := fitting_run settings fits
  rw [run_append] at fitting
  exact whole.useList_eq (coherent'.sound.allWellFormed n d found) (fitting n d found) mem

/-- Notes on texts: what names the origin of a text is the text itself for a note. -/
def notes : List Request :=
  [.declare { name := "Text"
              properties := [⟨"origin", 1, .field { storage := .integer }⟩,
                ⟨"code", 2, .field { storage := .integer }⟩] },
    .declare { name := "Note"
               parent := some "Text"
               properties := [⟨"origin", 3, .relationship (.new .manyToOne "Text")⟩] }]

/-- The relation that takes the place of an inherited field keeps its place among the properties, and
its column comes last. -/
theorem models_complete_notes : ∃ d m t,
    (((new {}).run notes).after (.generate "Note")).descriptor? "Note" = some d
      ∧ (((new {}).run notes).after (.generate "Note")).model? "Note" = some m
      ∧ m.table = some t ∧ Complete d m t
      ∧ t.columnNames = ["id", "code", "origin_id"]
      ∧ m.properties.map (·.name) = ["id", "origin", "code"]
      ∧ ∀ relation, .relation relation ∈ m.properties →
        ∃ r, d.relationship? relation.name = some r ∧ relation.useList = r.useList := by
  have made : ((((new {}).run notes).after (.generate "Note")).model? "Note").bind (fun m =>
      m.table.map fun t => (m.isAbstract, t.columnNames, m.properties.map (·.name)))
        = some (false, ["id", "code", "origin_id"], ["id", "origin", "code"]) := by cbv
  obtain ⟨m, cached, here⟩ := Option.bind_eq_some_iff.1 made
  obtain ⟨t, table, told⟩ := Option.map_eq_some_iff.1 here
  rw [Prod.mk.injEq, Prod.mk.injEq] at told
  obtain ⟨concrete, columns, properties⟩ := told
  have new_ : ((new {}).run notes).model? "Note" = none := by cbv
  obtain ⟨d, t', found, table', complete, lists⟩ :=
    models_complete {} notes (.generate "Note") "Note" m new_ cached concrete
  obtain rfl : t = t' := Option.some.inj (table.symm.trans table')
  refine ⟨d, m, t, found, cached, table, complete, columns, properties, lists ?_⟩
  simp [notes, Request.Fits]

end Compiler

end ResourceTables
