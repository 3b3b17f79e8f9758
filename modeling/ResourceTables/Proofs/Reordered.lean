/-
# `ResourceTables.Proofs.Reordered` — what the order of requests decides

Two workspaces that are derived from the same declarations have the same models, up to the order of what
completions make; and what is generated in the one can be generated in the other.  So whether requests
are granted does not depend on their order, and the models depend on it in the order of completions only.
-/
import Mathlib
import ResourceTables.Proofs.Derived

namespace ResourceTables

open Binding Generation

variable {ctx : GenerationContext} {D D' : Roster Descriptor} {w w' : Workspace} {n : String}
  {m m' : Model} {r : Resource} {d d' d₁ d₂ : Descriptor} {t t' : Table} {unit : List String}

/-! ## Models of one declaration -/

theorem Model.withSides_nil (m : Model) (tables : String → Option Table) : m.withSides tables [] = m := by
  unfold withSides
  cases table : m.table with
  | none => rfl
  | some own =>
      obtain ⟨shape, methods⟩ := m
      simp [← table]

/-- Each completion shows as a property of a late name: a model without such properties is like itself
only. -/
theorem Model.alike_iff_of_none {late : String → Prop} (none : ∀ p ∈ m.properties, ¬ late p.name) :
    m.Alike late m' ↔ m' = m := by
  constructor
  · rintro ⟨base, tables, sides, sides', rfl, rfl, perm, completes, _⟩
    cases table : base.table with
    | none => simp only [withSides, table]
    | some own =>
        have idle : sides = [] := by
          refine List.eq_nil_iff_forall_not_mem.2 fun s mem => ?_
          refine none (s.property tables own) ?_ (completes s mem).named
          simp only [withSides, table]
          exact List.mem_append_right _ (List.mem_map_of_mem mem)
        rw [idle] at perm ⊢
        rw [perm.nil_eq]
  · rintro rfl
    have same := (withSides_nil m' fun _ => .none).symm
    exact ⟨m', _, [], [], same, same, .refl _, by simp, none⟩

namespace Binding.Final

theorem startTable_eq (h : Final D n d d') (ctx : GenerationContext) :
    startTable ctx d' n = startTable ctx d n := by
  obtain ⟨_, grown⟩ := h.grown
  simp only [startTable, fieldColumns, grown.options_eq, grown.fields_eq]

theorem startModel_eq (h : Final D n d d') (ctx : GenerationContext) (r : Resource) :
    startModel ctx r d' n = startModel ctx r d n := by
  obtain ⟨_, grown⟩ := h.grown
  rw [startModel, h.startTable_eq, grown.methods_eq, startModel]

/-- Keys that join the primary key are those that the declaration says. -/
theorem copiesKey (h : Final D n d d') (found : D.get? n = some d) {s : KeySide}
    (mem : s ∈ d'.identifyingSides) : CopiesKey D n s.relationship.target := by
  obtain ⟨_, grown⟩ := h.grown
  have host : s.host ∈ d'.identifyingHosts := by
    rw [← Descriptor.hosts_identifying h.wellFormed h.fresh h.keysFit]
    exact List.mem_map_of_mem mem
  exact ⟨d, found, grown.mem_identifyingTargets.1 (mem_identifyingTargets_of_host h.wellFormed host)⟩

end Binding.Final

namespace Derived

section Compared

variable (derived : Derived ctx D w) (other : Derived ctx D w') (decided : Decided ctx D)

include derived in
/-- A table of a workspace is drawn. -/
theorem exists_drawn (known : tablesOf w.models n = some t) :
    ∃ m r d d', w.models.get? n = some m ∧ Made ctx D w n m r d d'
      ∧ t = d'.drawnTable (tablesOf w.models) (startTable ctx d' n) := by
  obtain ⟨m, cached, concrete⟩ := derived.orderly.hasTable_iff.1 ⟨t, known⟩
  obtain ⟨r, d, d', made⟩ := derived.made n m cached concrete
  refine ⟨m, r, d, d', cached, made, ?_⟩
  rw [tablesOf, cached, Option.bind_some, made.drawn.model_eq] at known
  exact (Option.some.inj known).symm

include derived in
theorem registered_of_hasTable (known : w.HasTable n) :
    ∃ r, ctx.resources.get? n = some r ∧ r.isAbstract = false := by
  obtain ⟨m, cached, concrete⟩ := derived.orderly.hasTable_iff.1 known
  obtain ⟨r, hr⟩ := Roster.exists_get?_of_mem
    (derived.orderly.sound.models_registered n (Roster.mem_names_of_get? cached))
  exact ⟨r, hr, (derived.orderly.isAbstract_eq n m r cached hr).symm.trans concrete⟩

include derived other decided in
/-- On what keys copy the tables of two workspaces agree: by induction along the keys that primary keys
copy. -/
theorem reference_eq (known : tablesOf w.models n = some t) (known' : tablesOf w'.models n = some t') :
    t'.reference = t.reference := by
  have inside : ∀ {k t}, tablesOf w.models k = some t → k ∈ D.names := by
    intro k t known
    obtain ⟨_, _, _, _, _, made, _⟩ := derived.exists_drawn known
    exact Roster.mem_names_of_get? made.declared
  suffices ∀ (k : { k // k ∈ D.names }) t t', tablesOf w.models k.1 = some t →
      tablesOf w'.models k.1 = some t' → t'.reference = t.reference from
    this ⟨n, inside known⟩ t t' known known'
  intro k
  induction k using (wellFounded_of_acyclic decided.acyclic D.names).induction with
  | _ k ih =>
      intro t t' known known'
      obtain ⟨_, _, d, d₁, _, made, rfl⟩ := derived.exists_drawn known
      obtain ⟨_, _, d₀, d₂, _, made', rfl⟩ := other.exists_drawn known'
      obtain rfl := Option.some.inj (made.declared.symm.trans made'.declared)
      have akin := made.final.akin (decided.wellFormed _ _ made.declared) made'.final
      rw [Descriptor.reference_drawnTable, Descriptor.reference_drawnTable, akin.identifyingSides_eq,
        made.final.startTable_eq, made'.final.startTable_eq]
      refine congrArg Table.reference (Table.withKeys_congr fun s mem => ?_)
      have named := Descriptor.relationship?_of_mem_sides (List.mem_append_left d₁.plainSides mem)
      obtain ⟨o, there⟩ := made.drawn.leads _ _ named
      obtain ⟨o', there'⟩ :=
        made'.drawn.leads _ _ ((akin.relationship?_eq s.builder.name).trans named)
      rw [there, there', Option.map_some, Option.map_some,
        ih ⟨_, inside there⟩ (.single (made.final.copiesKey made.declared mem)) o o' there there']

include derived other decided in
theorem references_eq (known : w.HasTable n) (known' : w'.HasTable n) :
    (tablesOf w.models n).map Table.reference = (tablesOf w'.models n).map Table.reference := by
  obtain ⟨t, there⟩ := known
  obtain ⟨t', there'⟩ := known'
  rw [there, there', Option.map_some, Option.map_some,
    derived.reference_eq other decided there there']

include derived other decided in
/-- The tables of two workspaces are alike. -/
theorem tables_alike (found : D.get? n = some d) (known : tablesOf w.models n = some t)
    (known' : tablesOf w'.models n = some t') :
    t.Alike (fun x => d.hasProperty x = false) t' := by
  obtain ⟨_, _, d₀, d₁, _, made, rfl⟩ := derived.exists_drawn known
  obtain ⟨_, _, _, d₂, _, made', rfl⟩ := other.exists_drawn known'
  obtain rfl := Option.some.inj (found.symm.trans made.declared)
  obtain rfl := Option.some.inj (found.symm.trans made'.declared)
  have akin := made.final.akin (decided.wellFormed n d found) made'.final
  rw [made.final.startTable_eq, made'.final.startTable_eq]
  refine akin.drawnTable fun x r named => ?_
  exact derived.references_eq other decided
    (made.drawn.leads x r ((akin.relationship?_eq x).symm.trans named)) (made'.drawn.leads x r named)

include derived other decided in
/-- The models that two workspaces have of a resource are alike: what comes late are completions. -/
theorem models_alike (found : D.get? n = some d) (cached : w.models.get? n = some m)
    (cached' : w'.models.get? n = some m') : m.Alike (fun x => d.hasProperty x = false) m' := by
  obtain ⟨r, hr⟩ := Roster.exists_get?_of_mem
    (derived.orderly.sound.models_registered n (Roster.mem_names_of_get? cached))
  have same : m'.isAbstract = m.isAbstract :=
    (other.orderly.isAbstract_eq n m' r cached' hr).trans
      (derived.orderly.isAbstract_eq n m r cached hr).symm
  cases abs : m.isAbstract with
  | true =>
      obtain ⟨r₁, d₁, hr₁, found₁, rfl⟩ := derived.abstracts n m cached abs
      obtain ⟨r₂, d₂, hr₂, found₂, rfl⟩ := other.abstracts n m' cached' (same.trans abs)
      obtain rfl := Option.some.inj (hr₁.symm.trans hr₂)
      obtain rfl := Option.some.inj (found.symm.trans found₁)
      obtain rfl := Option.some.inj (found.symm.trans found₂)
      refine (Model.alike_iff_of_none fun p mem undeclared => ?_).2 rfl
      obtain ⟨e, field, rfl⟩ := List.mem_map.1 mem
      have named : e.name ∈ d.fieldNames := List.mem_map_of_mem field
      exact (Descriptor.hasProperty_eq_false_iff.1 undeclared).1 named
  | false =>
      obtain ⟨r₁, d₀, d₁, made⟩ := derived.made n m cached abs
      obtain ⟨r₂, _, d₂, made'⟩ := other.made n m' cached' (same.trans abs)
      obtain rfl := Option.some.inj (made.registered.symm.trans made'.registered)
      obtain rfl := Option.some.inj (found.symm.trans made.declared)
      obtain rfl := Option.some.inj (found.symm.trans made'.declared)
      have akin := made.final.akin (decided.wellFormed n d found) made'.final
      have leads : ∀ x r, d₁.relationship? x = some r → ∃ o o',
          tablesOf w.models r.target = some o ∧ tablesOf w'.models r.target = some o' := by
        intro x r named
        obtain ⟨o, there⟩ := made.drawn.leads x r named
        obtain ⟨o', there'⟩ := made'.drawn.leads x r ((akin.relationship?_eq x).trans named)
        exact ⟨o, o', there, there'⟩
      rw [made.drawn.model_eq, made'.drawn.model_eq, made.final.startModel_eq,
        made'.final.startModel_eq, made.final.startTable_eq, made'.final.startTable_eq]
      refine akin.drawnModel _ (fun x r named => ?_) fun x r named => ?_
      · obtain ⟨o, o', there, there'⟩ := leads x r ((akin.relationship?_eq x).symm.trans named)
        exact derived.references_eq other decided ⟨o, there⟩ ⟨o', there'⟩
      · obtain ⟨o, o', there, there'⟩ := leads x r named
        obtain ⟨_, _, e, _, _, far, _⟩ := derived.exists_drawn there
        exact ⟨o, o', _, there, there', derived.tables_alike other decided far.declared there there'⟩

end Compared

/-! ## Requests that are granted again -/

section Again

variable (derived : Derived ctx D w) (other : Derived ctx D w') (decided : Decided ctx D)

include derived other decided in
/-- A pending unit is generated where its root is: what a resource leads to is generated with it, and so
is what has sides into it. -/
theorem hasTable_of_inUnit (root : isPending w.descriptors w.models n = true) {k : String}
    (inside : InUnit w.descriptors w.models n k) (known : w'.HasTable n) : w'.HasTable k := by
  induction inside with
  | refl => exact known
  | @tail k l path step ih =>
      obtain ⟨waits, way⟩ := step
      rcases way with target | ⟨d, found, lists⟩
      · obtain ⟨d, found, e, mem, rfl⟩ := mem_targetsOf.1 target
        have pending : isPending w.descriptors w.models k = true := InUnit.pending path root
        have uncached := (derived.declared_of_pending pending).1
        exact other.hasTable_target decided ih ((derived.waiting k uncached).symm.trans found) mem
      · obtain ⟨uncached, d₀, declared, concrete, there⟩ := derived.declared_of_pending waits
        obtain rfl := Option.some.inj (found.symm.trans there)
        obtain ⟨e, mem, many, into⟩ := listsInto_iff.1 lists
        obtain ⟨side, is, rfl, target⟩ := exists_isSide declared concrete mem many
        refine other.owners side is ?_
        rw [target, into]
        exact ih

/-- The tables that the members of a unit have in one workspace, and all others in another. -/
def tablesAcross (unit : List String) (w w' : Workspace) (n : String) : Option Table :=
  if n ∈ unit then tablesOf w'.models n else tablesOf w.models n

variable (gathered : Gathered ctx.resources w.models D w.descriptors unit D')
  (known : ∀ k ∈ unit, w'.HasTable k)

include other known in
theorem uncontested_of_hasTable (member : n ∈ unit) : Uncontested D n := by
  obtain ⟨t, there⟩ := known n member
  obtain ⟨_, _, _, _, _, made, _⟩ := other.exists_drawn there
  exact made.uncontested

include derived other decided gathered known

/-- A member is bound as it was in the other workspace, up to the order of completions. -/
theorem exists_akin (member : n ∈ unit) :
    ∃ m r d d₁ d₂, D'.get? n = some d₁ ∧ Final D n d d₁ ∧ w'.models.get? n = some m
      ∧ Made ctx D w' n m r d d₂ ∧ tablesOf w'.models n
        = some (d₂.drawnTable (tablesOf w'.models) (startTable ctx d₂ n)) := by
  obtain ⟨d, d₁, declared, found, final⟩ := Whole.final derived decided gathered
    (fun _ => other.uncontested_of_hasTable known) member
  obtain ⟨t, there⟩ := known n member
  obtain ⟨m, r, d₀, d₂, cached, made, rfl⟩ := other.exists_drawn there
  obtain rfl := Option.some.inj (declared.symm.trans made.declared)
  exact ⟨m, r, d, d₁, d₂, found, final, cached, made, there⟩

variable (whole : Whole D w unit)

include whole

/-- A bound unit passes the checks that it has passed in the other workspace. -/
theorem checks_again (member : n ∈ unit) : checkResource D' n = .ok () := by
  obtain ⟨m, r, d, d₁, d₂, found, final, _, made, _⟩ :=
    derived.exists_akin other decided gathered known member
  refine checkResource_eq_ok.2 fun d₁' found' e mem => ?_
  obtain rfl := Option.some.inj (found.symm.trans found')
  obtain ⟨e₂, mem₂, name, origin, same⟩ :=
    made.final.exists_entry final (decided.wellFormed n d made.declared) mem
  have there : w'.HasTable e.relationship.target := by
    have leads := made.drawn.leads _ _
      (made.final.wellFormed.relationship?_eq_some_iff.2 ⟨e₂, mem₂, rfl, rfl⟩)
    rw [same]
    exact leads
  have shown := whole.shown derived decided gathered (fun _ => other.uncontested_of_hasTable known)
    (whole.target_bound gathered member found mem)
  have again : counterpart? D' e.relationship = counterpart? w'.descriptors e.relationship :=
    (other.shown there).counterpart?_eq shown
  rw [checkEntry_congr name origin same (same ▸ again)]
  exact made.checked e₂ mem₂

/-- A relationship of a bound member leads to the same as in the other workspace. -/
theorem references_again (member : n ∈ unit) (found : D'.get? n = some d₁) :
    d₁.SameReferences (tablesOf w'.models) (tablesAcross unit w w') := by
  obtain ⟨m, r, d, d₁', d₂, found', final, _, made, _⟩ :=
    derived.exists_akin other decided gathered known member
  obtain rfl := Option.some.inj (found.symm.trans found')
  intro x r named
  obtain ⟨e, mem, _, rfl⟩ := final.wellFormed.relationship?_eq_some_iff.1 named
  have there : w'.HasTable e.relationship.target :=
    made.drawn.leads x _ (((final.shows made.final).relationship?_eq x).trans named)
  unfold tablesAcross
  by_cases inside : e.relationship.target ∈ unit
  · rw [if_pos inside]
  · rw [if_neg inside]
    exact other.references_eq derived decided there
      ((whole.target_bound gathered member found mem).resolve_left inside)

/-- The table of a bound member can be drawn again. -/
theorem canDraw_again (member : n ∈ unit) (found : D'.get? n = some d₁) :
    d₁.CanDraw (tablesAcross unit w w') (startTable ctx d₁ n) := by
  obtain ⟨m, r, d, d₁', d₂, found', final, _, made, _⟩ :=
    derived.exists_akin other decided gathered known member
  obtain rfl := Option.some.inj (found.symm.trans found')
  have akin := made.final.akin (decided.wellFormed n d made.declared) final
  have can := akin.canDraw made.drawn.canDraw
  rw [made.final.startTable_eq, ← final.startTable_eq] at can
  exact can.congr (derived.references_again other decided gathered known whole member found)

section Built

variable {ordered : List String} {start : Roster Model}
  (inUnit : ∀ k, k ∈ ordered ↔ k ∈ unit)

include inUnit in
omit whole in
/-- The members of a bound unit have drafts again. -/
theorem drafts_again : ∃ start, drafts ctx D' ordered = .ok start := by
  have each : ∀ k ∈ ordered, ∃ entry : String × Model, entry.1 = k
      ∧ draft ctx D' false k = .ok entry.2 := by
    intro k member
    obtain ⟨m, r, d, d₁, d₂, found, final, _, made, _⟩ :=
      derived.exists_akin other decided gathered known ((inUnit k).1 member)
    refine ⟨(k, startModel ctx r d₁ k), rfl, draft_eq_ok.2 ⟨r, d₁, made.registered, found, ?_, rfl⟩⟩
    rw [final.startTable_eq, ← made.final.startTable_eq]
    exact made.drawn.identifier
  obtain ⟨entries, all⟩ := exists_forall₂ each
  exact ⟨⟨entries⟩, drafts_eq_ok.2 all⟩

variable (drafted : drafts ctx D' ordered = .ok start) (ready : Ready D' ordered start)

omit gathered known whole derived other decided in
include drafted ready in
theorem drafted_eq_startTable (member : n ∈ ordered) (found : D'.get? n = some d) :
    Generation.drafted start n = startTable ctx d n := by
  obtain ⟨m, made, there⟩ := get?_drafts drafted ready.distinct member
  obtain ⟨r, d', _, found', _, rfl⟩ := draft_eq_ok.1 made
  obtain rfl := Option.some.inj (found.symm.trans found')
  exact drafted_eq there rfl

include inUnit drafted ready

/-- The tables of the other workspace account for the unit. -/
theorem account_again : Account D' ordered start w.models (tablesAcross unit w w') where
  inside := by
    intro k member
    have inside := (inUnit k).1 member
    obtain ⟨m, r, d, d₁, d₂, found, final, _, made, table⟩ :=
      derived.exists_akin other decided gathered known inside
    have akin := made.final.akin (decided.wellFormed k d made.declared) final
    have here : (identified D' start (tablesAcross unit w w') k).table
        = (startTable ctx d₁ k).withKeys (tablesAcross unit w w') d₁.identifyingSides := by
      rw [← drafted_eq_startTable drafted ready member found, ← described_eq found]
      rfl
    have same := derived.references_again other decided gathered known whole inside found
    rw [tablesAcross, if_pos inside, table, Option.map_some, here, Descriptor.reference_drawnTable,
      made.final.startTable_eq, final.startTable_eq, ← akin.identifyingSides_eq]
    refine congrArg (some ·.reference) (Table.withKeys_congr fun s mem => ?_)
    exact same _ _ (Descriptor.relationship?_of_mem_sides (List.mem_append_left d₁.plainSides mem))
  outside := by
    intro k absent
    rw [tablesAcross, if_neg fun inside => absent ((inUnit k).2 inside), tablesOf]

/-- The members of a bound unit can be drawn again. -/
theorem drawable_again (member : n ∈ ordered) :
    Drawable D' start w.models (tablesAcross unit w w') n := by
  have account := derived.account_again other decided gathered known whole inUnit drafted ready
  have keyable : ∀ k ∈ ordered,
      (begun D' start k).Keyable (tablesAcross unit w w') (described D' k).view (·.forcesPrimaryKey)
        ∧ (identified D' start (tablesAcross unit w w') k).Keyable (tablesAcross unit w w')
          (described D' k).view fun _ => true := by
    intro k member
    have found := ready.found member
    rw [keyable_iff_canDraw, drafted_eq_startTable drafted ready member found]
    exact derived.canDraw_again other decided gathered known whole ((inUnit k).1 member) found
  have first := fun k member => (keyable k member).1
  have second := fun k member => (keyable k member).2
  have wf := (derived.orderly.bound gathered.steps).sound.allWellFormed n _ (ready.found member)
  have tells : Tells D' start w.models (tablesAcross unit w w')
      (knownTable w.models (linkedDrafts D' start (tablesAcross unit w w'))) n := by
    intro x r named
    obtain ⟨e, mem, _, rfl⟩ := wf.relationship?_eq_some_iff.1 named
    rw [linkedDrafts, knownTable_stateOf, ready.names_eq]
    by_cases inside : e.relationship.target ∈ ordered
    · refine ⟨_, if_pos inside, ?_, if_pos inside⟩
      rw [account.inside _ inside, reference_linked first inside]
    · obtain ⟨t, there⟩ := (whole.target_bound gathered ((inUnit n).1 member) (ready.found member)
        mem).resolve_left fun there => inside ((inUnit _).2 there)
      rw [if_neg inside]
      refine ⟨t, there, ?_, there⟩
      rw [tablesAcross, if_neg fun member => inside ((inUnit _).2 member), there, Option.map_some]
  exact ⟨first n member, second n member, mappable_of_tells ready first second member tells⟩

/-- A unit that is bound and drafted again is compiled. -/
theorem compiled_again :
    ∃ w₁, (compile ctx ordered).Answers { w with descriptors := D' } () w₁ := by
  have acyclic : ∀ n, ¬ Relation.TransGen (Identifies D' ordered) n n :=
    Whole.acyclic derived decided gathered (fun _ => other.uncontested_of_hasTable known)
      fun k => (inUnit k).1
  have account := derived.account_again other decided gathered known whole inUnit drafted ready
  have built := (answers_runPhases_iff ready account acyclic).2 ⟨fun k =>
    derived.drawable_again other decided gathered known whole inUnit drafted ready, rfl⟩
  -- What is built is stored without fail.
  rcases Action.answers_or_fails (forM ordered (storeMember (stateOf D' start
      (finished D' start w.models (tablesAcross unit w w'))).2))
      { w with descriptors := (stateOf D' start
        (finished D' start w.models (tablesAcross unit w w'))).1 } with ⟨_, w₁, stored⟩ | ⟨_, _, failed⟩
  · exact ⟨w₁, answers_compile.2 ⟨start, _, _, drafted, built, stored⟩⟩
  · exact absurd failed not_fails_storeAll

end Built

end Again

section Again

variable (derived : Derived ctx D w) (other : Derived ctx D w') (decided : Decided ctx D)

include derived other decided

/-- A unit that is generated in another workspace can be bound. -/
theorem exists_bound (root : isPending w.descriptors w.models n = true) (known : w'.HasTable n) :
    ∃ D', Whole D w (members ctx.resources w.descriptors w.models n)
      ∧ Gathered ctx.resources w.models D w.descriptors
          (members ctx.resources w.descriptors w.models n) D'
      ∧ (∀ k ∈ members ctx.resources w.descriptors w.models n, w'.HasTable k)
      ∧ (bind ctx.resources w.models n).Answers w.descriptors
          (inDeclarationOrder ctx.resources (members ctx.resources w.descriptors w.models n)) D' := by
  have sound := derived.orderly.sound
  have distinct := sound.descriptors_distinct
  have isMember : ∀ {k}, k ∈ members ctx.resources w.descriptors w.models n ↔
      InUnit w.descriptors w.models n k := mem_members distinct sound.descriptors_names
  have generated : ∀ k ∈ members ctx.resources w.descriptors w.models n, w'.HasTable k :=
    fun k member => derived.hasTable_of_inUnit other decided root (isMember.1 member) known
  have leads : ∀ k ∈ members ctx.resources w.descriptors w.models n, ∃ d,
      w.descriptors.get? k = some d ∧ ∀ e ∈ d.relationships, ∃ r,
        ctx.resources.get? e.relationship.target = some r ∧ r.isAbstract = false := by
    intro k member
    obtain ⟨_, d, declared, _, there⟩ :=
      derived.declared_of_pending ((isMember.1 member).pending root)
    exact ⟨d, there, fun e mem => other.registered_of_hasTable
      (other.hasTable_target decided (generated k member) declared mem)⟩
  have whole := derived.whole decided root leads
  obtain ⟨D₁, looked⟩ := exists_lookUps distinct leads
  have stays : Stays w.descriptors D₁ := (keeps_stays distinct _).of_answers looked (.refl _)
  obtain ⟨D', completed⟩ := whole.gathers.exists_completed decided.wellFormed stays
    (fun k member => Roster.contains_eq_false_iff.2
      (derived.declared_of_pending (whole.pending k member)).1)
    (fun k _ d found => decided.unbuilt found)
    (fun k member => (other.registered_of_hasTable (generated k member)).imp fun _ => And.left)
  have gathered : Gathered ctx.resources w.models D w.descriptors
      (members ctx.resources w.descriptors w.models n) D' :=
    ⟨whole.gathers, distinct, sound.allWellFormed, D₁, looked, completed⟩
  refine ⟨D', whole, gathered, generated, answers_bindUnit.2 ⟨D₁, looked, completed, ?_, rfl⟩⟩
  exact forM_eq_ok.2 fun k => derived.checks_again other decided gathered generated whole

/-- What is generated in one workspace, a request in the other is granted for. -/
theorem granted_again (there : w'.models.get? n = some m) :
    ∃ m w₁, (generate ctx n).Answers w m w₁ := by
  have sound := derived.orderly.sound
  cases cached : w.models.get? n with
  | some m => exact ⟨m, w, answers_generate.2 (.inl ⟨cached, rfl⟩)⟩
  | none =>
      obtain ⟨r, hr⟩ := Roster.exists_get?_of_mem
        (other.orderly.sound.models_registered n (Roster.mem_names_of_get? there))
      cases abs : r.isAbstract with
      | true =>
          obtain ⟨d, found, _⟩ := sound.exists_descriptor hr
          refine ⟨abstractModel ctx r d n, Generation.stored w n (abstractModel ctx r d n),
            answers_generate.2 (.inr ⟨cached, r, hr, .inl ⟨abs, ?_⟩⟩)⟩
          exact answers_generateAbstract.2 (.inr ⟨cached, r, d, hr, found, rfl, rfl⟩)
      | false =>
          obtain ⟨D', whole, gathered, known, bound⟩ := derived.exists_bound other decided
            (sound.pending_of_uncached hr abs cached) (other.orderly.hasTable_of_cached hr abs there)
          have inUnit : ∀ k, k ∈ inDeclarationOrder ctx.resources
                (members ctx.resources w.descriptors w.models n) ↔
              k ∈ members ctx.resources w.descriptors w.models n :=
            fun k => (inDeclarationOrder_perm _ _).mem_iff
          obtain ⟨sound', distinct, _, pending⟩ := sound.bound_unit hr abs cached bound
          obtain ⟨start, drafted⟩ := derived.drafts_again other decided gathered known inUnit
          have fits : ∀ k ∈ inDeclarationOrder ctx.resources
              (members ctx.resources w.descriptors w.models n), ∀ d, D'.get? k = some d → d.KeysFit := by
            intro k member d found
            obtain ⟨_, d', _, found', final⟩ := Whole.final derived decided gathered
              (fun _ => other.uncontested_of_hasTable known) ((inUnit k).1 member)
            obtain rfl := Option.some.inj (found.symm.trans found')
            exact final.keysFit
          obtain ⟨w₁, compiled⟩ := derived.compiled_again other decided gathered known whole inUnit
            drafted (sound'.ready distinct pending drafted fits)
          obtain ⟨_, m, made⟩ := addsUnit_of_compiled sound hr abs cached bound compiled
          exact ⟨m, w₁, answers_generate.2
            (.inr ⟨cached, r, hr, .inr ⟨abs, _, D', bound, compiled, made⟩⟩)⟩

/-- A request for what is generated in another workspace generates nothing that is not. -/
theorem within_again {w₁ : Workspace}
    (within : ∀ k, w.models.get? k ≠ none → w'.models.get? k ≠ none)
    (granted : (generate ctx n).Answers w m w₁) (there : w'.models.get? n ≠ none) :
    ∀ k, w₁.models.get? k ≠ none → w'.models.get? k ≠ none := by
  obtain ⟨m', cached'⟩ := Option.ne_none_iff_exists'.1 there
  rcases generate_grows derived.orderly.sound granted with ⟨_, rfl⟩ | ⟨r, hr, uncached, ⟨_, one⟩ |
    ⟨concrete, added⟩⟩
  · exact within
  · obtain ⟨m₁, entries, _⟩ := one.models
    intro k new
    by_cases same : k = n
    · exact same ▸ there
    · refine within k fun old => new ?_
      rw [show w₁.models = ⟨w.models.entries ++ [(n, m₁)]⟩ from congrArg Roster.mk entries,
        Roster.get?_append, old, Option.none_or, Roster.get?_eq_none_iff]
      simpa [Roster.names] using same
  · obtain ⟨more, entries, _, _, members, _⟩ := added.models
    intro k new
    by_cases inside : InUnit w.descriptors w.models n k
    · obtain ⟨t, known⟩ := derived.hasTable_of_inUnit other decided
        (derived.orderly.sound.pending_of_uncached hr concrete uncached) inside
        (other.orderly.hasTable_of_cached hr concrete cached')
      intro none
      exact not_hasTable none ⟨t, known⟩
    · refine within k fun old => new ?_
      rw [show w₁.models = ⟨w.models.entries ++ more⟩ from congrArg Roster.mk entries,
        Roster.get?_append, old, Option.none_or, Roster.get?_eq_none_iff]
      exact fun mem => inside ((members k).1 mem)

end Again

end Derived

/-! ## Runs of requests -/

namespace Compiler

/-- Requests for models, one after another, all of them granted. -/
def GrantsAll (c : Compiler) : List String → Prop
  | [] => True
  | n :: rest => (generate n c).result.isOk = true ∧ (c.after (.generate n)).GrantsAll rest

/-- The compiler after requests for models, one after another. -/
def generated (c : Compiler) (names : List String) : Compiler := c.run (names.map .generate)

/-- Both computed in one go: whether all of the requests are granted, and what they leave. -/
def generatedIf (c : Compiler) : List String → Bool × Compiler
  | [] => (true, c)
  | n :: rest =>
    let made := generate n c
    let later := made.state.generatedIf rest
    (made.result.isOk && later.1, later.2)

/-- A resource is declared with a property of some name, be it its own or inherited. -/
def Declares (c : Compiler) (n x : String) : Prop :=
  ∃ d, c.descriptor? n = some d ∧ d.hasProperty x = true

variable {c : Compiler} {names : List String}

theorem generatedIf_eq (c : Compiler) (names : List String) :
    ((c.generatedIf names).1 = true ↔ c.GrantsAll names)
      ∧ (c.generatedIf names).2 = c.generated names := by
  induction names generalizing c with
  | nil => exact ⟨iff_of_true rfl trivial, rfl⟩
  | cons n rest ih =>
      obtain ⟨granted, left⟩ := ih (generate n c).state
      refine ⟨?_, left⟩
      rw [generatedIf, Bool.and_eq_true, granted]
      rfl

theorem answers_of_isOk (known : c.generationContext = .ok ctx)
    (ok : (generate n c).result.isOk = true) :
    ∃ m w, (Generation.generate ctx n).Answers c.workspace m w
      ∧ c.after (.generate n) = c.withWorkspace w := by
  obtain ⟨m, c', answers⟩ := Action.exists_answers_of_isOk ok
  obtain ⟨ctx', w, known', ends, rfl⟩ := answers_generating.1 answers
  obtain rfl := Except.ok.inj (known.symm.trans known')
  exact ⟨m, w, ends, answers.2⟩

/-- Granted requests leave a derived workspace, with a model for each of them. -/
theorem derived_generated (known : c.generationContext = .ok ctx) (decided : Decided ctx D)
    (derived : Derived ctx D c.workspace) (granted : c.GrantsAll names) :
    Derived ctx D (c.generated names).workspace ∧ Retains c.workspace (c.generated names).workspace
      ∧ ∀ n ∈ names, (c.generated names).model? n ≠ none := by
  induction names generalizing c with
  | nil => exact ⟨derived, .refl _, fun _ mem => by cases mem⟩
  | cons n rest ih =>
      obtain ⟨ok, later⟩ := granted
      obtain ⟨m, w, answers, after⟩ := answers_of_isOk known ok
      obtain ⟨derived', retains, cached⟩ := derived.generated decided answers
      have split : c.generated (n :: rest) = (c.withWorkspace w).generated rest := by
        rw [generated, List.map_cons, run_cons, after, generated]
      rw [after] at later
      obtain ⟨derived'', retains', each⟩ := ih (c := c.withWorkspace w) known derived' later
      rw [split]
      refine ⟨derived'', retains.trans retains', fun k mem => ?_⟩
      rcases List.mem_cons.1 mem with rfl | mem
      · rw [show ((c.withWorkspace w).generated rest).model? k = some m from
          retains'.models k m cached]
        exact Option.some_ne_none m
      · exact each k mem

/-- Requests for what is generated in another workspace are granted, and generate nothing else. -/
theorem grantsAll_again (known : c.generationContext = .ok ctx) (decided : Decided ctx D)
    (derived : Derived ctx D c.workspace) (other : Derived ctx D w')
    (there : ∀ n ∈ names, w'.models.get? n ≠ none)
    (within : ∀ n, c.model? n ≠ none → w'.models.get? n ≠ none) :
    c.GrantsAll names ∧ ∀ n, (c.generated names).model? n ≠ none → w'.models.get? n ≠ none := by
  induction names generalizing c with
  | nil => exact ⟨trivial, within⟩
  | cons n rest ih =>
      obtain ⟨m', cached'⟩ := Option.ne_none_iff_exists'.1 (there n List.mem_cons_self)
      obtain ⟨m, w, answers⟩ := derived.granted_again other decided cached'
      have lifted : (generate n).Answers c m (c.withWorkspace w) :=
        answers_generating.2 ⟨ctx, w, known, answers, rfl⟩
      have after : c.after (.generate n) = c.withWorkspace w := lifted.2
      obtain ⟨rest_granted, more⟩ := ih (c := c.withWorkspace w) known
        (derived.generated decided answers).1 (fun k mem => there k (List.mem_cons_of_mem _ mem))
        (derived.within_again other decided within answers (there n List.mem_cons_self))
      refine ⟨⟨by rw [lifted.1]; rfl, after ▸ rest_granted⟩, ?_⟩
      rw [generated, List.map_cons, run_cons, after]
      exact more

/-! ### Declarations alone -/

/-- Declarations generate nothing. -/
theorem models_declared (settings : Settings) (resources : List Resource) :
    ((new settings).run (resources.map .declare)).workspace.models = .empty := by
  have keeps : ∀ (c : Compiler) (request : Request), (∃ resource, request = .declare resource) →
      c.workspace.models = .empty → (c.after request).workspace.models = .empty := by
    rintro c _ ⟨resource, rfl⟩ empty
    change (declare resource c).state.workspace.models = _
    rcases declare_state c resource with same | ⟨d, _, changed⟩
    · rw [same, empty]
    · rw [changed]
      exact empty
  refine run_keeps (I := fun c => c.workspace.models = .empty) keeps rfl ?_
  intro request mem
  obtain ⟨resource, _, rfl⟩ := List.mem_map.1 mem
  exact ⟨resource, rfl⟩

theorem orderly_declared (settings : Settings) (resources : List Resource) :
    Orderly ((new settings).run (resources.map .declare)).resources
      ((new settings).run (resources.map .declare)).workspace where
  sound := (coherent_run settings _).sound
  fitting := by
    refine fitting_run settings fun request mem => ?_
    obtain ⟨resource, _, rfl⟩ := List.mem_map.1 mem
    trivial
  generated := by
    intro n m d cached
    rw [models_declared] at cached
    cases cached
  isAbstract_eq := by
    intro n m r cached
    rw [models_declared] at cached
    cases cached

/-- Granted requests start from settings with a known generator. -/
theorem exists_generationContext (granted : c.GrantsAll names) (mem : n ∈ names) :
    ∃ ctx, c.generationContext = .ok ctx := by
  cases names with
  | nil => cases mem
  | cons k rest =>
      obtain ⟨m, c', answers⟩ := Action.exists_answers_of_isOk granted.1
      obtain ⟨ctx, _, known, _⟩ := answers_generating.1 answers
      exact ⟨ctx, known⟩

section Declared

variable {settings : Settings} {resources : List Resource} {names' : List String}
  (reached : (new settings).run (resources.map .declare) = c)
  (acyclic : KeysAcyclic c.workspace.descriptors)
  (declared : ∀ n s s' x, Contest c.workspace.descriptors n s s' x → s.inherited = false)

include reached in
/-- After declarations no model is cached. -/
theorem workspace_declared : c.workspace = { descriptors := c.workspace.descriptors } := by
  have empty : c.workspace.models = .empty := reached ▸ models_declared settings resources
  cases same : c.workspace with
  | mk descriptors models =>
      rw [same] at empty
      exact congrArg (Workspace.mk descriptors) empty

include reached acyclic declared

theorem decided_declared (known : c.generationContext = .ok ctx) :
    Decided ctx c.workspace.descriptors := by
  have orderly : Orderly c.resources c.workspace := reached ▸ orderly_declared settings resources
  rw [workspace_declared reached, ← (generationContext_eq_ok known).2.1] at orderly
  exact ⟨orderly, acyclic, declared⟩

/-- What granted requests leave is derived from the declarations. -/
theorem derived_requested (known : c.generationContext = .ok ctx) (granted : c.GrantsAll names) :
    Derived ctx c.workspace.descriptors c.workspace
      ∧ Derived ctx c.workspace.descriptors (c.generated names).workspace
      ∧ ∀ n ∈ names, (c.generated names).model? n ≠ none := by
  have decided := decided_declared reached acyclic declared known
  have start : Derived ctx c.workspace.descriptors c.workspace :=
    workspace_declared reached ▸ Derived.start decided
  obtain ⟨derived, _, each⟩ := derived_generated known decided start granted
  exact ⟨start, derived, each⟩

/-- Where all of some requests are granted, all of others are that request the same models, and they
generate nothing else. -/
theorem grantsAll_reordered (same : ∀ n, n ∈ names ↔ n ∈ names') (granted : c.GrantsAll names) :
    c.GrantsAll names' ∧ ∀ n, (c.generated names').model? n ≠ none →
      (c.generated names).model? n ≠ none := by
  cases first : names with
  | nil =>
      obtain rfl : names' = [] := List.eq_nil_iff_forall_not_mem.2 fun n mem => by
        simpa [first] using (same n).2 mem
      exact ⟨trivial, fun _ => id⟩
  | cons k rest =>
      rw [← first]
      obtain ⟨ctx, known⟩ := exists_generationContext granted (first ▸ List.mem_cons_self)
      obtain ⟨start, derived, each⟩ := derived_requested reached acyclic declared known granted
      refine grantsAll_again known (decided_declared reached acyclic declared known) start derived
        (fun n mem => each n ((same n).2 mem)) ?_
      intro n cached
      rw [model?, workspace_declared reached] at cached
      exact absurd rfl cached

/-- What two runs of granted requests have generated is alike. -/
theorem models_reordered (granted : c.GrantsAll names) (granted' : c.GrantsAll names')
    (cached : (c.generated names).model? n = some m)
    (cached' : (c.generated names').model? n = some m') :
    m.Alike (fun x => ¬ c.Declares n x) m' := by
  cases first : names with
  | nil =>
      rw [first] at cached
      change c.workspace.models.get? n = _ at cached
      rw [workspace_declared reached] at cached
      cases cached
  | cons k rest =>
      obtain ⟨ctx, known⟩ := exists_generationContext granted (first ▸ List.mem_cons_self)
      obtain ⟨_, derived, _⟩ := derived_requested reached acyclic declared known granted
      obtain ⟨_, derived', _⟩ := derived_requested reached acyclic declared known granted'
      have decided := decided_declared reached acyclic declared known
      obtain ⟨r, hr⟩ := Roster.exists_get?_of_mem
        (derived.orderly.sound.models_registered n (Roster.mem_names_of_get? cached))
      obtain ⟨d, found, _⟩ := decided.orderly.sound.exists_descriptor hr
      have late : (fun x => ¬ c.Declares n x) = fun x => d.hasProperty x = false := by
        funext x
        simp [Declares, descriptor?, found]
      rw [late]
      exact derived.models_alike derived' decided found cached cached'

end Declared

/-- Whether requests are granted after declarations does not depend on their order, nor on how often a
model is requested, and neither does what is generated: the models of two orders are alike, up to the
order of what completes relationships that other resources declare.  It takes that no primary key depends
on itself, and that no name of a resource for which an inherited side asks is asked for by another owner. -/
theorem requests_reordered (settings : Settings) (resources : List Resource) (c : Compiler)
    (reached : (new settings).run (resources.map .declare) = c)
    (acyclic : KeysAcyclic c.workspace.descriptors)
    (declared : ∀ n s s' x, Contest c.workspace.descriptors n s s' x → s.inherited = false)
    (names names' : List String) (same : ∀ n, n ∈ names ↔ n ∈ names') :
    (c.GrantsAll names ↔ c.GrantsAll names') ∧
      (c.GrantsAll names → (∀ n ∈ names, (c.generated names).model? n ≠ none) ∧
        ∀ n, Option.Rel (Model.Alike fun x => ¬ c.Declares n x)
          ((c.generated names).model? n) ((c.generated names').model? n)) := by
  have back : ∀ n, n ∈ names' ↔ n ∈ names := fun n => (same n).symm
  refine ⟨⟨fun granted => (grantsAll_reordered reached acyclic declared same granted).1,
    fun granted => (grantsAll_reordered reached acyclic declared back granted).1⟩, fun granted => ?_⟩
  obtain ⟨granted', within'⟩ := grantsAll_reordered reached acyclic declared same granted
  obtain ⟨_, within⟩ := grantsAll_reordered reached acyclic declared back granted'
  constructor
  · intro n mem
    obtain ⟨ctx, known⟩ := exists_generationContext granted mem
    exact (derived_requested reached acyclic declared known granted).2.2 n mem
  · intro n
    cases cached : (c.generated names).model? n with
    | none =>
        cases cached' : (c.generated names').model? n with
        | none => exact .none
        | some m' => exact absurd cached (within' n (by simp [cached']))
    | some m =>
        cases cached' : (c.generated names').model? n with
        | none => exact absurd cached' (within n (by simp [cached]))
        | some m' =>
            exact .some (models_reordered reached acyclic declared granted granted' cached cached')

/-- Two resources with a one-to-many to a third. -/
def sides : List Resource :=
  [{ name := "T" },
    { name := "A", properties := [⟨"ts", 1, .relationship (.new .oneToMany "T")⟩] },
    { name := "B", properties := [⟨"us", 2, .relationship (.new .oneToMany "T")⟩] }]

theorem requests_reordered_sides : ∃ c m m',
    (new {}).run (sides.map .declare) = c ∧ KeysAcyclic c.workspace.descriptors
      ∧ (∀ n s s' x, Contest c.workspace.descriptors n s s' x → s.inherited = false)
      ∧ (∀ n, n ∈ ["A", "B", "T"] ↔ n ∈ ["B", "A", "T"])
      ∧ c.GrantsAll ["A", "B", "T"] ∧ c.GrantsAll ["B", "A", "T"]
      ∧ (c.generated ["A", "B", "T"]).model? "T" = some m
      ∧ (c.generated ["B", "A", "T"]).model? "T" = some m'
      ∧ m.Alike (fun x => ¬ c.Declares "T" x) m' := by
  obtain ⟨c, reached⟩ : ∃ c, (new {}).run (sides.map .declare) = c := ⟨_, rfl⟩
  have plain : c.workspace.descriptors.entries.all (fun p => p.2.identifyingTargets.isEmpty
      && p.2.relationships.all (·.declaredBy == p.1)) = true := by
    rw [← reached]
    cbv
  have each : ∀ n d, c.workspace.descriptors.get? n = some d →
      d.identifyingTargets = [] ∧ ∀ e ∈ d.relationships, e.declaredBy = n := by
    intro n d found
    simpa using List.all_eq_true.1 plain _ (Roster.mem_entries_of_get? found)
  have acyclic : KeysAcyclic c.workspace.descriptors :=
    keysAcyclic_of_none fun n d found => (each n d found).1
  have declared : ∀ n s s' x, Contest c.workspace.descriptors n s s' x → s.inherited = false :=
    fun _ _ _ _ contest => contest.side.not_inherited fun n d found => (each n d found).2
  have same : ∀ n, n ∈ ["A", "B", "T"] ↔ n ∈ ["B", "A", "T"] :=
    fun n => (List.Perm.swap "B" "A" ["T"]).mem_iff
  have granted : c.GrantsAll ["A", "B", "T"] := by
    rw [← (generatedIf_eq c _).1, ← reached]
    cbv
  obtain ⟨both, alike⟩ := requests_reordered {} sides c reached acyclic declared _ _ same
  obtain ⟨cached, related⟩ := alike granted
  obtain ⟨m, found⟩ := Option.ne_none_iff_exists'.1 (cached "T" (by simp))
  have related := related "T"
  rw [found] at related
  cases found' : (c.generated ["B", "A", "T"]).model? "T" with
  | none =>
      rw [found'] at related
      cases related
  | some m' =>
      rw [found'] at related
      cases related with
      | some alike =>
          exact ⟨c, m, m', reached, acyclic, declared, same, granted, both.1 granted, found, found',
            alike⟩

/-! ### What the order decides -/

/-- The columns of a generated table. -/
def columnNames? (c : Compiler) (n : String) : Option (List String) :=
  (c.model? n).bind fun m => m.table.map fun t => t.columns.map (·.name)

/-- The check that requests are granted and leave a table with some columns. -/
theorem columns_of_generatedIf {n : String} {columns : List String}
    (h : (let made := c.generatedIf names
      made.1 && made.2.columnNames? n == some columns) = true) :
    c.GrantsAll names ∧ (c.generated names).columnNames? n = some columns := by
  obtain ⟨granted, left⟩ := generatedIf_eq c names
  rw [Bool.and_eq_true, granted, left, beq_iff_eq] at h
  exact h

/-- Completions come in the order of requests. -/
theorem columns_sides (reached : (new {}).run (sides.map .declare) = c) :
    c.GrantsAll ["A", "B", "T"] ∧ c.GrantsAll ["B", "A", "T"]
      ∧ (c.generated ["A", "B", "T"]).columnNames? "T" = some ["id", "a_id", "b_id"]
      ∧ (c.generated ["B", "A", "T"]).columnNames? "T" = some ["id", "b_id", "a_id"] := by
  have first : c.GrantsAll ["A", "B", "T"]
      ∧ (c.generated ["A", "B", "T"]).columnNames? "T" = some ["id", "a_id", "b_id"] :=
    columns_of_generatedIf (by rw [← reached]; cbv)
  have second : c.GrantsAll ["B", "A", "T"]
      ∧ (c.generated ["B", "A", "T"]).columnNames? "T" = some ["id", "b_id", "a_id"] :=
    columns_of_generatedIf (by rw [← reached]; cbv)
  exact ⟨first.1, second.1, first.2, second.2⟩

/-- An heir of a one-to-many, and a resource that asks for the name of the heir. -/
def rivals : List Resource :=
  [{ name := "T" },
    { name := "Base", options := { isAbstract := true }
      properties := [⟨"ts", 1, .relationship (.new .oneToMany "T")⟩] },
    { name := "Ab", parent := some "Base" },
    { name := "O", properties := [⟨"us", 2, .relationship
        { Relationship.new .oneToMany "T" with inverse := some "ab" }⟩] }]

/-- The heir is refused what the other resource asks for, unless that has it already. -/
theorem granted_rivals (reached : (new {}).run (rivals.map .declare) = c) :
    c.GrantsAll ["O", "Ab", "T", "Base"] ∧ ¬ c.GrantsAll ["Ab", "O", "T", "Base"] := by
  constructor
  · rw [← (generatedIf_eq c _).1, ← reached]
    cbv
  · intro granted
    have refused : (generate "Ab" c).result.isOk = false := by
      rw [← reached]
      cbv
    exact Bool.false_ne_true (refused.symm.trans granted.1)

/-- A primary key that copies one of two that copy each other. -/
def keyLoop : List Resource :=
  let key : DeclaredProperty :=
    ⟨"id", 0, .field { storage := .integer, options := { primaryKey := true } }⟩
  let copied (name target : String) : DeclaredProperty :=
    ⟨name, 1, .relationship { Relationship.new .manyToOne target with identifying := true }⟩
  [{ name := "N", properties := [key, copied "a" "A"] },
    { name := "A", properties := [key, copied "b" "B"] },
    { name := "B", properties := [key, copied "a" "A"] }]

/-- In a loop of keys a table copies as much as there is when its turn comes. -/
theorem columns_keyLoop (reached : (new {}).run (keyLoop.map .declare) = c) :
    c.GrantsAll ["N", "A", "B"] ∧ c.GrantsAll ["A", "B", "N"]
      ∧ (c.generated ["N", "A", "B"]).columnNames? "N" = some ["id", "a_id"]
      ∧ (c.generated ["A", "B", "N"]).columnNames? "N" = some ["id", "a_id", "a_b_id"] := by
  have first : c.GrantsAll ["N", "A", "B"]
      ∧ (c.generated ["N", "A", "B"]).columnNames? "N" = some ["id", "a_id"] :=
    columns_of_generatedIf (by rw [← reached]; cbv)
  have second : c.GrantsAll ["A", "B", "N"]
      ∧ (c.generated ["A", "B", "N"]).columnNames? "N" = some ["id", "a_id", "a_b_id"] :=
    columns_of_generatedIf (by rw [← reached]; cbv)
  exact ⟨first.1, second.1, first.2, second.2⟩

/-- The order of requests decides the order of completions; and, where names are contested by an heir or
primary keys run in a loop, what is granted and which columns there are. -/
theorem order_of_requests_matters :
    (∃ c, (new {}).run (sides.map .declare) = c
      ∧ c.GrantsAll ["A", "B", "T"] ∧ c.GrantsAll ["B", "A", "T"]
      ∧ (c.generated ["A", "B", "T"]).columnNames? "T" = some ["id", "a_id", "b_id"]
      ∧ (c.generated ["B", "A", "T"]).columnNames? "T" = some ["id", "b_id", "a_id"])
    ∧ (∃ c, (new {}).run (rivals.map .declare) = c
      ∧ c.GrantsAll ["O", "Ab", "T", "Base"] ∧ ¬ c.GrantsAll ["Ab", "O", "T", "Base"])
    ∧ ∃ c, (new {}).run (keyLoop.map .declare) = c
      ∧ c.GrantsAll ["N", "A", "B"] ∧ c.GrantsAll ["A", "B", "N"]
      ∧ (c.generated ["N", "A", "B"]).columnNames? "N" = some ["id", "a_id"]
      ∧ (c.generated ["A", "B", "N"]).columnNames? "N" = some ["id", "a_id", "a_b_id"] :=
  ⟨⟨_, rfl, columns_sides rfl⟩, ⟨_, rfl, granted_rivals rfl⟩, ⟨_, rfl, columns_keyLoop rfl⟩⟩

end Compiler

end ResourceTables
