/-
# `ResourceTables.Proofs.Derived` — models that the declarations determine

As long as every request is granted, a workspace is derived from the declarations: what waits is as it
was declared, and what is generated is drawn from what its sides have made of the declaration, beside the
finished tables that it leads to.  `Derived` says so, and every granted request keeps it.
-/
import Mathlib
import ResourceTables.Proofs.Determined
import ResourceTables.Proofs.Specified

namespace ResourceTables

/-! ## Models that are drawn -/

/-- A model as a descriptor draws it, beside the tables that the relationships lead to. -/
structure Drawn (ctx : GenerationContext) (tables : String → Option Table) (n : String)
    (r : Resource) (d : Descriptor) (m : Model) : Prop where
  identifier : Naming.isIdentifier (Generation.startTable ctx d n).name = true
  canDraw : d.CanDraw tables (Generation.startTable ctx d n)
  leads : d.Leads tables
  model_eq : m = { Generation.startModel ctx r d n with
    table := some (d.drawnTable tables (Generation.startTable ctx d n))
    properties := d.drawnProperties tables
      (d.drawnTable tables (Generation.startTable ctx d n)) }

theorem Descriptor.drawnProperties_congr {d : Descriptor} {tables tables' : String → Option Table}
    (same : ∀ x r, d.relationship? x = some r → tables r.target = tables' r.target) (own : Table) :
    d.drawnProperties tables own = d.drawnProperties tables' own := by
  refine List.filterMap_congr fun b _ => ?_
  cases b with
  | field name => rfl
  | relationship b =>
      simp only [Builder.drawn, view_relationship?]
      cases found : d.relationship? b.name with
      | none => rfl
      | some r => simp only [Option.map_some, RelationshipBuilder.drawnJoins, same b.name r found]

/-- Only the tables that the relationships lead to count. -/
theorem Drawn.congr {ctx : GenerationContext} {tables tables' : String → Option Table} {n : String}
    {r : Resource} {d : Descriptor} {m : Model} (h : Drawn ctx tables n r d m)
    (same : ∀ x r, d.relationship? x = some r → tables r.target = tables' r.target) :
    Drawn ctx tables' n r d m := by
  have references : d.SameReferences tables tables' := fun x r found => by rw [same x r found]
  refine ⟨h.identifier, h.canDraw.congr references, fun x r found => ?_, ?_⟩
  · rw [← same x r found]
    exact h.leads x r found
  · rw [h.model_eq, Descriptor.drawnTable_congr references, Descriptor.drawnProperties_congr same]

theorem Named.exists_table {n : String} {m : Model} (named : Named n m)
    (concrete : m.isAbstract = false) : ∃ t, m.table = some t := by
  refine Option.ne_none_iff_exists'.1 fun none => ?_
  rw [named.isAbstract_iff.2 none] at concrete
  cases concrete

namespace BuiltUnit

open Generation

variable {ctx : GenerationContext} {w w' : Workspace} {unit : List String} {n : String}
  {D' D₁ : Roster Descriptor} {start finished : Roster Model} {refs : String → Option Table}

/-- The account that a unit is drawn from tells of the tables that a member leads to in the end. -/
theorem tells (built : BuiltUnit ctx w w' unit D' start finished D₁)
    (orderly : Orderly ctx.resources w) (orderly' : Orderly ctx.resources { w with descriptors := D' })
    (account : Account D' unit start w.models refs)
    (drawable : ∀ n ∈ unit, Drawable D' start w.models refs n)
    (drawn : finished = (stateOf D' start (Generation.finished D' start w.models refs)).2)
    (member : n ∈ unit) : Tells D' start w.models refs (tablesOf w'.models) n := by
  intro x r named
  obtain ⟨d, found, _⟩ := Binding.isPending_iff.1 (built.pending n member)
  rw [described_eq found] at named
  obtain ⟨e, mem, _, rfl⟩ :=
    (orderly'.sound.allWellFormed n d found).relationship?_eq_some_iff.1 named
  have references := built.references_eq account drawable drawn e.relationship.target
  have start_names : start.names = unit := names_drafts built.compiled.drafted
  by_cases inside : e.relationship.target ∈ unit
  · obtain ⟨m, there, table, _⟩ := built.exists_model inside drawn
    have here : tablesOf w'.models e.relationship.target
        = some (linked D' start refs e.relationship.target).table := by
      rw [tablesOf, there, Option.bind_some, table]
      rfl
    refine ⟨_, here, by rw [references, here, Option.map_some], ?_⟩
    rw [linkedDrafts, knownTable_stateOf, if_pos (start_names ▸ inside)]
  · obtain ⟨root, bound⟩ := built.bound
    obtain ⟨r, m, hr, concrete, cached⟩ :=
      (orderly.sound.bound_targets bound member found mem).resolve_left inside
    obtain ⟨t, table⟩ := (orderly.sound.models_named _ m cached).exists_table
      ((orderly.isAbstract_eq _ m r cached hr).trans concrete)
    have here : tablesOf w'.models e.relationship.target = some t := by
      rw [tablesOf, built.compiled.get?_models]
      change ((w.models.get? _).or _).bind _ = _
      rw [cached, Option.some_or, Option.bind_some, table]
    refine ⟨t, here, by rw [references, here, Option.map_some], ?_⟩
    rw [linkedDrafts, knownTable_stateOf, if_neg (start_names ▸ inside), cached, Option.bind_some,
      table]

/-- A member of a unit that is built without cycles of keys is drawn from the finished tables. -/
theorem member_drawn (built : BuiltUnit ctx w w' unit D' start finished D₁)
    (orderly : Orderly ctx.resources w) (orderly' : Orderly ctx.resources { w with descriptors := D' })
    (acyclic : ∀ n, ¬ Relation.TransGen (Identifies D' unit) n n) (member : n ∈ unit) :
    ∃ r d m, ctx.resources.get? n = some r ∧ D'.get? n = some d ∧ w'.models.get? n = some m
      ∧ Drawn ctx (tablesOf w'.models) n r d m := by
  have ready := built.ready orderly'.sound fun _ _ _ found => orderly'.fitting.keysFit found
  obtain ⟨refs, account, drawable, drawn⟩ := built.drawn ready acyclic
  have first := fun n member => (drawable n member).identifying
  have second := fun n member => (drawable n member).plain
  have tells := built.tells orderly orderly' account drawable drawn member
  obtain ⟨r, d, hr, found, there⟩ := built.exists_built member drawn
  have described : described D' n = d := described_eq found
  have own : (linked D' start refs n).table = d.drawnTable (tablesOf w'.models) (startTable ctx d n) := by
    rw [table_drawn first member tells, built.drafted_eq member, described]
  refine ⟨r, d, _, hr, found, there, ?_, ?_, ?_, ?_⟩
  · obtain ⟨_, made, _⟩ := get?_drafts built.compiled.drafted built.distinct member
    obtain ⟨_, d', _, found', identifier, _⟩ := draft_eq_ok.1 made
    obtain rfl := Option.some.inj (found.symm.trans found')
    exact identifier
  · have can := (keyable_iff_canDraw.1 ⟨first n member, second n member⟩).congr tells.sameReferences
    rw [built.drafted_eq member, described] at can
    exact can
  · intro x r named
    obtain ⟨t, known, _⟩ := tells x r (described ▸ named)
    exact ⟨t, known⟩
  · have table : (Generation.finished D' start w.models refs n).table
        = d.drawnTable (tablesOf w'.models) (startTable ctx d n) := own
    rw [table, properties_drawn ready first second member tells, own, described]

/-- Compiling shows on no descriptor. -/
theorem shows (built : BuiltUnit ctx w w' unit D' start finished D₁) {d : Descriptor}
    (found : D'.get? n = some d) : ∃ t, w'.descriptors.get? n = some t ∧ d.Shows t := by
  obtain ⟨t, there, fields, same⟩ := built.compiled.declares.get?_forward found
  refine ⟨t, there, fields, fun x => ?_⟩
  rw [Descriptor.relationship?, Descriptor.relationshipNamed?, same]
  rfl

/-- Compiling leaves the descriptors of all but the members alone. -/
theorem get?_outside (built : BuiltUnit ctx w w' unit D' start finished D₁) (other : n ∉ unit) :
    w'.descriptors.get? n = D'.get? n := by
  cases found : D'.get? n with
  | none =>
      rw [Roster.get?_eq_none_iff, built.compiled.declares.names_eq, ← Roster.get?_eq_none_iff]
      exact found
  | some d =>
      obtain ⟨d', found', marked⟩ := built.compiled.descriptor found
      rw [if_neg other] at marked
      rw [found', marked]

theorem cached_before (built : BuiltUnit ctx w w' unit D' start finished D₁) {m : Model}
    (cached : w'.models.get? n = some m) : w.models.get? n = some m ∨ n ∈ unit := by
  rw [built.compiled.get?_models] at cached
  rcases Option.or_eq_some_iff.1 cached with old | ⟨_, new⟩
  · exact .inl old
  · exact .inr (built.compiled.names_eq ▸ Roster.mem_names_of_get? new)

end BuiltUnit

/-! ## Workspaces that are derived from declarations -/

/-- Declarations that leave nothing but the order of completions to the requests: nothing is generated, no
primary key depends on itself, and a name of a resource that two owners ask for is asked for by sides
that they have declared themselves. -/
structure Decided (ctx : GenerationContext) (D : Roster Descriptor) : Prop where
  orderly : Orderly ctx.resources { descriptors := D }
  acyclic : KeysAcyclic D
  declared : ∀ n s s' x, Binding.Contest D n s s' x → s.inherited = false

/-- The resource is generated, with a table. -/
def Workspace.HasTable (w : Workspace) (n : String) : Prop :=
  ∃ t, Generation.tablesOf w.models n = some t

/-- Among some descriptors there is one that shows what binding makes of a declared one. -/
def Shown (D E : Roster Descriptor) (n : String) : Prop :=
  ∃ d d' t, D.get? n = some d ∧ Binding.Final D n d d' ∧ E.get? n = some t ∧ d'.Shows t

/-- A generated model with a table, made of the declaration `d` that binding has turned into `d'`. -/
structure Made (ctx : GenerationContext) (D : Roster Descriptor) (w : Workspace) (n : String)
    (m : Model) (r : Resource) (d d' : Descriptor) : Prop where
  registered : ctx.resources.get? n = some r
  declared : D.get? n = some d
  final : Binding.Final D n d d'
  described : ∃ t, w.descriptors.get? n = some t ∧ d'.Shows t
  checked : ∀ e ∈ d'.relationships, Binding.checkEntry w.descriptors n e = .ok ()
  drawn : Drawn ctx (Generation.tablesOf w.models) n r d' m
  uncontested : Binding.Uncontested D n

/-- A workspace as granted requests derive it from the declared descriptors `D`.  What has sides into a
generated resource is generated too. -/
structure Derived (ctx : GenerationContext) (D : Roster Descriptor) (w : Workspace) : Prop where
  orderly : Orderly ctx.resources w
  waiting : ∀ n, w.models.get? n = none → w.descriptors.get? n = D.get? n
  abstracts : ∀ n m, w.models.get? n = some m → m.isAbstract = true →
    ∃ r d, ctx.resources.get? n = some r ∧ D.get? n = some d
      ∧ m = Generation.abstractModel ctx r d n
  made : ∀ n m, w.models.get? n = some m → m.isAbstract = false →
    ∃ r d d', Made ctx D w n m r d d'
  owners : ∀ side, Binding.IsSide D side → w.HasTable side.target → w.HasTable side.owner

/-- What is generated in one workspace is the same in another. -/
structure Retains (w w' : Workspace) : Prop where
  models : ∀ n m, w.models.get? n = some m → w'.models.get? n = some m
  descriptors : ∀ n m, w.models.get? n = some m → w'.descriptors.get? n = w.descriptors.get? n

/-- A unit of pending resources with all that they have to do with, but for resources that are generated
already. -/
structure Whole (D : Roster Descriptor) (w : Workspace) (unit : List String) : Prop where
  pending : ∀ n ∈ unit, Binding.isPending w.descriptors w.models n = true
  gathers : Binding.Gathers D w.descriptors unit
  targets : ∀ n ∈ unit, ∀ d, D.get? n = some d → ∀ e ∈ d.relationships,
    e.relationship.target ∈ unit ∨ w.HasTable e.relationship.target

section

open Binding Generation

variable {ctx : GenerationContext} {D E E' D' : Roster Descriptor} {w w' : Workspace} {n k x : String}
  {m : Model} {r : Resource} {d d' t : Descriptor} {unit : List String}

theorem Decided.wellFormed (decided : Decided ctx D) : AllWellFormed D :=
  decided.orderly.sound.allWellFormed

theorem Decided.unbuilt (decided : Decided ctx D) (found : D.get? n = some d) :
    d.isGenerated = false := by
  obtain ⟨r, _, standing⟩ := decided.orderly.sound.exists_resource found
  by_contra generated
  have cached := standing.cached (Bool.eq_true_of_not_eq_false generated)
  cases cached

theorem Decided.resource (decided : Decided ctx D) (found : D.get? n = some d) :
    ∃ r, ctx.resources.get? n = some r ∧ r.isAbstract = d.isAbstract := by
  obtain ⟨r, hr, standing⟩ := decided.orderly.sound.exists_resource found
  refine ⟨r, hr, ?_⟩
  rw [Resource.isAbstract, Descriptor.isAbstract, standing.options_eq]

/-! ### Generated resources -/

theorem Orderly.hasTable_iff (orderly : Orderly ctx.resources w) :
    w.HasTable n ↔ ∃ m, w.models.get? n = some m ∧ m.isAbstract = false := by
  constructor
  · rintro ⟨t, known⟩
    obtain ⟨m, cached, table⟩ := Option.bind_eq_some_iff.1 known
    refine ⟨m, cached, Bool.eq_false_iff.2 fun abs => ?_⟩
    rw [(orderly.sound.models_named n m cached).isAbstract_iff.1 abs] at table
    cases table
  · rintro ⟨m, cached, concrete⟩
    obtain ⟨t, table⟩ := (orderly.sound.models_named n m cached).exists_table concrete
    exact ⟨t, by rw [tablesOf, cached, Option.bind_some, table]⟩

theorem Orderly.hasTable_of_cached (orderly : Orderly ctx.resources w)
    (registered : ctx.resources.get? n = some r) (concrete : r.isAbstract = false)
    (cached : w.models.get? n = some m) : w.HasTable n :=
  orderly.hasTable_iff.2 ⟨m, cached, (orderly.isAbstract_eq n m r cached registered).trans concrete⟩

theorem not_hasTable (uncached : w.models.get? n = none) : ¬ w.HasTable n := by
  rintro ⟨t, known⟩
  rw [tablesOf, uncached] at known
  cases known

theorem Retains.refl (w : Workspace) : Retains w w := ⟨fun _ _ => id, fun _ _ _ => rfl⟩

theorem Retains.trans {w'' : Workspace} (h : Retains w w') (h' : Retains w' w'') : Retains w w'' where
  models := fun k m cached => h'.models k m (h.models k m cached)
  descriptors := fun k m cached =>
    (h'.descriptors k m (h.models k m cached)).trans (h.descriptors k m cached)

theorem Retains.tables (h : Retains w w') (known : w.HasTable n) :
    tablesOf w.models n = tablesOf w'.models n := by
  obtain ⟨t, known⟩ := known
  obtain ⟨m, cached, _⟩ := Option.bind_eq_some_iff.1 known
  rw [tablesOf, cached, tablesOf, h.models n m cached]

theorem Retains.hasTable (h : Retains w w') (known : w.HasTable n) : w'.HasTable n := by
  obtain ⟨t, there⟩ := known
  exact ⟨t, (h.tables ⟨t, there⟩).symm.trans there⟩

theorem Retains.described (h : Retains w w') (known : w.HasTable n) :
    w'.descriptors.get? n = w.descriptors.get? n := by
  obtain ⟨t, known⟩ := known
  obtain ⟨m, cached, _⟩ := Option.bind_eq_some_iff.1 known
  exact h.descriptors n m cached

/-- Checks see the same of a resource wherever it is shown. -/
theorem Shown.counterpart?_eq {r : Relationship} (h : Shown D E r.target) (h' : Shown D E' r.target) :
    counterpart? E' r = counterpart? E r := by
  obtain ⟨d, d₁, t, found, final, there, shows⟩ := h
  obtain ⟨d₀, d₂, t', found', final', there', shows'⟩ := h'
  obtain rfl := Option.some.inj (found.symm.trans found')
  exact counterpart?_congr there there' (shows.symm.trans ((final.shows final').trans shows'))

namespace Made

theorem shown (made : Made ctx D w n m r d d') : Shown D w.descriptors n := by
  obtain ⟨t, there, shows⟩ := made.described
  exact ⟨d, d', t, made.declared, made.final, there, shows⟩

/-- A relationship that is declared leads to a table. -/
theorem hasTable (decided : Decided ctx D) (made : Made ctx D w n m r d d') {e : RelationshipEntry}
    (mem : e ∈ d.relationships) : w.HasTable e.relationship.target := by
  obtain ⟨_, grown⟩ := made.final.grown
  have named : d.relationship? e.name = some e.relationship :=
    (decided.wellFormed n d made.declared).relationship?_eq_some_iff.2 ⟨e, mem, rfl, rfl⟩
  obtain ⟨_, named'⟩ := grown.relationship? made.final.wellFormed named
  have known := made.drawn.leads _ _ named'
  exact known

/-- A generated model stays what it is made of. -/
theorem retained (made : Made ctx D w n m r d d') (retains : Retains w w')
    (cached : w.models.get? n = some m) : Made ctx D w' n m r d d' where
  registered := made.registered
  declared := made.declared
  final := made.final
  described := by
    rw [retains.descriptors n m cached]
    exact made.described
  checked := by
    intro e mem
    have known := made.drawn.leads _ _
      (made.final.wellFormed.relationship?_eq_some_iff.2 ⟨e, mem, rfl, rfl⟩)
    have same : counterpart? w'.descriptors e.relationship = counterpart? w.descriptors e.relationship := by
      rw [counterpart?, retains.described known, counterpart?]
    rw [checkEntry_congr rfl rfl rfl same]
    exact made.checked e mem
  drawn := made.drawn.congr fun x r found => retains.tables (made.drawn.leads x r found)
  uncontested := made.uncontested

end Made

namespace Derived

variable (derived : Derived ctx D w) (decided : Decided ctx D)

/-- Before the first request everything is as it is declared. -/
theorem start (decided : Decided ctx D) : Derived ctx D { descriptors := D } where
  orderly := decided.orderly
  waiting := fun _ _ => rfl
  abstracts := by
    intro n m cached
    cases cached
  made := by
    intro n m cached
    cases cached
  owners := by
    rintro side _ ⟨t, known⟩
    cases known

include derived in
theorem shown (known : w.HasTable n) : Shown D w.descriptors n := by
  obtain ⟨m, cached, concrete⟩ := derived.orderly.hasTable_iff.1 known
  obtain ⟨r, d, d', made⟩ := derived.made n m cached concrete
  exact made.shown

include derived decided in
/-- What a generated resource leads to is generated. -/
theorem hasTable_target (known : w.HasTable n) (found : D.get? n = some d) {e : RelationshipEntry}
    (mem : e ∈ d.relationships) : w.HasTable e.relationship.target := by
  obtain ⟨m, cached, concrete⟩ := derived.orderly.hasTable_iff.1 known
  obtain ⟨r, d₀, d', made⟩ := derived.made n m cached concrete
  obtain rfl := Option.some.inj (found.symm.trans made.declared)
  exact made.hasTable decided mem

include derived decided in
/-- A declared resource that is not generated is as it is declared, and waits. -/
theorem pending (found : D.get? n = some d) (concrete : d.isAbstract = false)
    (unknown : ¬ w.HasTable n) :
    w.models.get? n = none ∧ w.descriptors.get? n = some d
      ∧ isPending w.descriptors w.models n = true := by
  obtain ⟨r, hr, same⟩ := decided.resource found
  cases cached : w.models.get? n with
  | some m => exact absurd (derived.orderly.hasTable_of_cached hr (same.trans concrete) cached) unknown
  | none =>
      have there := (derived.waiting n cached).trans found
      exact ⟨rfl, there, isPending_iff.2 ⟨d, there, concrete, decided.unbuilt found,
        Roster.contains_eq_false_iff.2 cached⟩⟩

include derived in
theorem declared_of_pending (pending : isPending w.descriptors w.models n = true) :
    w.models.get? n = none ∧ ∃ d, D.get? n = some d ∧ d.isAbstract = false
      ∧ w.descriptors.get? n = some d := by
  obtain ⟨d, there, concrete, _, none⟩ := isPending_iff.1 pending
  have uncached := Roster.contains_eq_false_iff.1 none
  exact ⟨uncached, d, (derived.waiting n uncached).symm.trans there, concrete, there⟩

include derived in
/-- With a member comes what it leads to, unless that is generated. -/
theorem inUnit_target (member : InUnit w.descriptors w.models n k)
    (there : w.descriptors.get? k = some d) {e : RelationshipEntry} (mem : e ∈ d.relationships)
    (hr : ctx.resources.get? e.relationship.target = some r) (concrete : r.isAbstract = false) :
    InUnit w.descriptors w.models n e.relationship.target ∨ w.HasTable e.relationship.target := by
  cases cached : w.models.get? e.relationship.target with
  | some m => exact .inr (derived.orderly.hasTable_of_cached hr concrete cached)
  | none =>
      refine .inl (member.pulls ⟨?_, .inl (mem_targetsOf.2 ⟨d, there, e, mem, rfl⟩)⟩)
      exact derived.orderly.sound.pending_of_uncached hr concrete cached

include derived decided in
/-- With a member that is not generated comes the owner of each side that leads to it. -/
theorem inUnit_owner (member : InUnit w.descriptors w.models n k)
    (uncached : w.models.get? k = none) {side : ManySide} (is : IsSide D side)
    (target : side.target = k) : InUnit w.descriptors w.models n side.owner := by
  obtain ⟨d, found, concrete, mem⟩ := is
  obtain ⟨e, entry, kind, shape⟩ := mem_manySidesOf.1 mem
  have into : e.relationship.target = k := by rw [← target, shape]
  have unknown : ¬ w.HasTable side.owner := by
    intro owner
    have here := derived.hasTable_target decided owner found entry
    rw [into] at here
    exact not_hasTable uncached here
  obtain ⟨_, there, waits⟩ := derived.pending decided found concrete unknown
  exact member.pulls ⟨waits, .inr ⟨d, there, listsInto_iff.2 ⟨e, entry, kind, into⟩⟩⟩

include derived decided in
/-- The unit of a pending resource is whole, if all that its members lead to is registered and has
tables. -/
theorem whole (root : isPending w.descriptors w.models n = true)
    (known : ∀ k ∈ members ctx.resources w.descriptors w.models n, ∃ d,
      w.descriptors.get? k = some d ∧ ∀ e ∈ d.relationships, ∃ r,
        ctx.resources.get? e.relationship.target = some r ∧ r.isAbstract = false) :
    Whole D w (members ctx.resources w.descriptors w.models n) := by
  have sound := derived.orderly.sound
  have isMember : ∀ {k}, k ∈ members ctx.resources w.descriptors w.models n ↔
      InUnit w.descriptors w.models n k :=
    mem_members sound.descriptors_distinct sound.descriptors_names
  have pending : ∀ k ∈ members ctx.resources w.descriptors w.models n,
      isPending w.descriptors w.models k = true :=
    fun k member => (isMember.1 member).pending root
  have targets : ∀ k ∈ members ctx.resources w.descriptors w.models n, ∀ d, D.get? k = some d →
      ∀ e ∈ d.relationships, e.relationship.target ∈ members ctx.resources w.descriptors w.models n
        ∨ w.HasTable e.relationship.target := by
    intro k member d found e mem
    obtain ⟨uncached, _, _, _, there⟩ := derived.declared_of_pending (pending k member)
    obtain ⟨d', there', leads⟩ := known k member
    obtain rfl : d = d' :=
      Option.some.inj (((derived.waiting k uncached).trans found).symm.trans there')
    obtain ⟨r, hr, concrete⟩ := leads e mem
    exact (derived.inUnit_target (isMember.1 member) there' mem hr concrete).imp_left isMember.2
  have tabled : Tabled D (members ctx.resources w.descriptors w.models n) := by
    intro k member
    obtain ⟨_, d, found, concrete, _⟩ := derived.declared_of_pending (pending k member)
    exact ⟨d, found, concrete⟩
  refine ⟨pending, ⟨nodup_members n, ?_, ?_, ?_⟩, targets⟩
  · intro k member
    exact derived.waiting k (derived.declared_of_pending (pending k member)).1
  · intro k member
    refine ⟨tabled, member, fun side is target => isMember.2 ?_⟩
    have uncached := (derived.declared_of_pending (pending k member)).1
    exact derived.inUnit_owner decided (isMember.1 member) uncached is target
  · intro side mem
    obtain ⟨k, member, d, found, inside⟩ := mem_manySides.1 mem
    have is : IsSide D side := tabled.isSide member (mem_sidesOf.2 ⟨d, found, inside⟩)
    obtain ⟨e, entry, _, rfl⟩ := mem_manySidesOf.1 inside
    refine (targets k member d found e entry).resolve_right fun there => ?_
    exact not_hasTable (derived.declared_of_pending (pending k member)).1 (derived.owners _ is there)

end Derived

/-! ### Binding a whole unit -/

namespace Whole

variable (whole : Whole D w unit) (derived : Derived ctx D w) (decided : Decided ctx D)
  (gathered : Gathered ctx.resources w.models D w.descriptors unit D')

include whole gathered in
/-- The relationships of a bound member lead to members and to what is generated. -/
theorem target_bound (member : n ∈ unit) (found : D'.get? n = some d') {e : RelationshipEntry}
    (mem : e ∈ d'.relationships) :
    e.relationship.target ∈ unit ∨ w.HasTable e.relationship.target := by
  obtain ⟨d, before, bound⟩ := gathered.steps.get?_backward found
  rcases (bound.grown (gathered.wellFormed n d before)).origin mem with
    ⟨e₀, mem₀, _, _, _, same⟩ | ⟨⟨side, _, owner, same⟩, _⟩
  · rw [same]
    exact whole.targets n member d ((whole.gathers.declared n member).symm.trans before) e₀ mem₀
  · rw [same]
    exact .inl owner

include derived decided gathered in
/-- What is not in the unit stays as it was. -/
theorem outside (other : n ∉ unit) : D'.get? n = w.descriptors.get? n := by
  obtain ⟨D₁, looked, completed⟩ := gathered.completed
  have stays : Stays w.descriptors D₁ :=
    (keeps_stays derived.orderly.sound.descriptors_distinct unit).of_answers looked (.refl _)
  exact gathered.gathers.outside decided.wellFormed stays looked completed other

variable (uncontested : ∀ n ∈ unit, Uncontested D n)

include derived decided gathered uncontested

/-- Binding makes of a member what the declarations determine. -/
theorem final (member : n ∈ unit) :
    ∃ d d', D.get? n = some d ∧ D'.get? n = some d' ∧ Final D n d d' := by
  obtain ⟨D₁, looked, completed⟩ := gathered.completed
  have stays : Stays w.descriptors D₁ :=
    (keeps_stays derived.orderly.sound.descriptors_distinct unit).of_answers looked (.refl _)
  obtain ⟨d, d', found, found', _, look⟩ := gathered.gathers.settles
    decided.orderly.sound.descriptors_distinct decided.wellFormed uncontested stays completed member
  have there := (gathered.gathers.declared n member).trans found
  obtain ⟨d'', found'', bound⟩ := gathered.steps.get?_forward there
  obtain rfl := Option.some.inj (found'.symm.trans found'')
  have grown := bound.grown (decided.wellFormed n d found)
  have orderly' := derived.orderly.bound gathered.steps
  obtain ⟨_, _, standing⟩ := orderly'.sound.exists_resource found'
  have unbuilt : d'.isGenerated = false := by
    rw [Descriptor.isGenerated, grown.finished_eq]
    exact decided.unbuilt found
  exact ⟨d, d', found, found', ⟨unit, grown⟩, standing.wellFormed, standing.fresh unbuilt,
    orderly'.fitting.keysFit found', look⟩

include whole in
/-- After binding, members and generated resources are shown. -/
theorem shown (known : n ∈ unit ∨ w.HasTable n) : Shown D D' n := by
  rcases known with member | known
  · obtain ⟨d, d', found, found', final⟩ := final derived decided gathered uncontested member
    exact ⟨d, d', d', found, final, found', (Frozen.refl d').shows⟩
  · obtain ⟨d, d', t, found, final, there, shows⟩ := derived.shown known
    refine ⟨d, d', t, found, final, ?_, shows⟩
    rw [outside derived decided gathered fun member =>
      not_hasTable (derived.declared_of_pending (whole.pending n member)).1 known]
    exact there

/-- In a bound unit no primary key depends on itself either. -/
theorem acyclic {names : List String} (inside : ∀ k ∈ names, k ∈ unit) :
    ∀ n, ¬ Relation.TransGen (Identifies D' names) n n := by
  intro n cycle
  refine decided.acyclic n (cycle.lift id ?_)
  rintro a t ⟨member, _, d', found', mem⟩
  obtain ⟨d, d'', found, found'', final⟩ :=
    final derived decided gathered uncontested (inside a member)
  obtain rfl := Option.some.inj (found'.symm.trans found'')
  obtain ⟨_, grown⟩ := final.grown
  exact ⟨d, found, grown.mem_identifyingTargets.1 mem⟩

end Whole

/-! ### Granted requests -/

namespace Derived

variable (derived : Derived ctx D w) (decided : Decided ctx D)

include derived in
/-- A workspace that retains what is generated stays derived if the new models are: those of abstract
resources, and those that are made of declarations whose owners have tables. -/
theorem extended (retains : Retains w w') (orderly' : Orderly ctx.resources w')
    (waiting : ∀ k, w'.models.get? k = none → w'.descriptors.get? k = w.descriptors.get? k)
    (new : ∀ k m, w'.models.get? k = some m → w.models.get? k = some m
      ∨ (m.isAbstract = true ∧ ∃ r d, ctx.resources.get? k = some r ∧ D.get? k = some d
          ∧ m = abstractModel ctx r d k)
      ∨ (m.isAbstract = false ∧ (∃ r d d', Made ctx D w' k m r d d')
          ∧ ∀ side, IsSide D side → side.target = k → w'.HasTable side.owner)) :
    Derived ctx D w' := by
  refine ⟨orderly', ?_, ?_, ?_, ?_⟩
  · intro k uncached
    have before : w.models.get? k = none := by
      cases old : w.models.get? k with
      | none => rfl
      | some m =>
          rw [retains.models k m old] at uncached
          cases uncached
    exact (waiting k uncached).trans (derived.waiting k before)
  · intro k m cached abs
    rcases new k m cached with old | ⟨_, made⟩ | ⟨concrete, _⟩
    · exact derived.abstracts k m old abs
    · exact made
    · rw [concrete] at abs
      cases abs
  · intro k m cached concrete
    rcases new k m cached with old | ⟨abs, _⟩ | ⟨_, made, _⟩
    · obtain ⟨r, d, d', made⟩ := derived.made k m old concrete
      exact ⟨r, d, d', made.retained retains old⟩
    · rw [concrete] at abs
      cases abs
    · exact made
  · intro side is known
    obtain ⟨m, cached, concrete⟩ := orderly'.hasTable_iff.1 known
    rcases new _ m cached with old | ⟨abs, _⟩ | ⟨_, _, owners⟩
    · refine retains.hasTable (derived.owners side is ?_)
      exact derived.orderly.hasTable_iff.2 ⟨m, old, concrete⟩
    · rw [concrete] at abs
      cases abs
    · exact owners side is rfl

section Built

variable {ordered : List String} {start finished : Roster Model} {D₂ : Roster Descriptor}
  (built : BuiltUnit ctx w w' ordered D' start finished D₂) (whole : Whole D w unit)
  (gathered : Gathered ctx.resources w.models D w.descriptors unit D')
  (inUnit : ∀ k, k ∈ ordered ↔ k ∈ unit)

include derived decided built gathered inUnit in
theorem retains_built : Retains w w' where
  models := by
    intro k m cached
    rw [built.compiled.get?_models]
    change (w.models.get? k).or _ = _
    rw [cached, Option.some_or]
  descriptors := by
    intro k m cached
    have other : k ∉ ordered := by
      intro member
      rw [built.uncached member] at cached
      cases cached
    rw [built.get?_outside other,
      Whole.outside derived decided gathered fun member => other ((inUnit k).2 member)]

include derived decided built whole gathered inUnit in
/-- The model of a member is made of its declaration. -/
theorem made_built (checked : ∀ k ∈ unit, checkResource D' k = .ok ()) (member : n ∈ ordered) :
    ∃ m r d d', w'.models.get? n = some m ∧ m.isAbstract = false ∧ Made ctx D w' n m r d d' := by
  have inside := (inUnit n).1 member
  have uncontested : ∀ k ∈ unit, Uncontested D k :=
    fun k member => gathered.uncontested decided.wellFormed checked (decided.declared k) member
  obtain ⟨r, d', m, registered, found', there, drawn⟩ :=
    built.member_drawn derived.orderly (derived.orderly.bound gathered.steps)
      (Whole.acyclic derived decided gathered uncontested fun k => (inUnit k).1) member
  obtain ⟨d, d'', found, found'', final⟩ :=
    Whole.final derived decided gathered uncontested inside
  obtain rfl := Option.some.inj (found'.symm.trans found'')
  refine ⟨m, r, d, d', there, by rw [drawn.model_eq]; rfl, registered, found, final,
    built.shows found', fun e mem => ?_, drawn, uncontested n inside⟩
  -- The checks were made before compiling, which shows on no target.
  have one := checkResource_eq_ok.1 (checked n inside) d' found' e mem
  obtain ⟨_, _, o, _, _, far, _⟩ := whole.shown derived decided gathered uncontested
    (whole.target_bound gathered inside found' mem)
  obtain ⟨o', far', shows⟩ := built.shows far
  rw [checkEntry_congr rfl rfl rfl (counterpart?_congr far far' shows)]
  exact one

include derived decided built whole gathered inUnit in
theorem derived_built (checked : ∀ k ∈ unit, checkResource D' k = .ok ()) : Derived ctx D w' := by
  have made := fun k => derived.made_built decided built whole gathered inUnit checked (n := k)
  have orderly' : Orderly ctx.resources w' :=
    (derived.orderly.bound gathered.steps).compiled built.compiled built.distinct built.pending
  refine derived.extended (derived.retains_built decided built gathered inUnit) orderly' ?_ ?_
  · intro k uncached
    have other : k ∉ ordered := by
      intro member
      obtain ⟨m, _, _, _, there, _⟩ := made k member
      rw [uncached] at there
      cases there
    rw [built.get?_outside other, Whole.outside derived decided gathered fun member =>
      other ((inUnit k).2 member)]
  · intro k m cached
    rcases built.cached_before cached with old | member
    · exact .inl old
    · obtain ⟨m', r, d, d', there, concrete, one⟩ := made k member
      obtain rfl := Option.some.inj (cached.symm.trans there)
      refine .inr (.inr ⟨concrete, ⟨r, d, d', one⟩, fun side is target => ?_⟩)
      have owner := (whole.gathers.surrounds k ((inUnit k).1 member)).owners side is target
      obtain ⟨m', _, _, _, there', concrete', _⟩ := made _ ((inUnit _).2 owner)
      exact orderly'.hasTable_iff.2 ⟨m', there', concrete'⟩

end Built

include derived decided in
/-- A unit that is bound and compiled is derived. -/
theorem compiled {ordered : List String} (registered : ctx.resources.get? n = some r)
    (concrete : r.isAbstract = false) (uncached : w.models.get? n = none)
    (bound : (bind ctx.resources w.models n).Answers w.descriptors ordered D')
    (done : (compile ctx ordered).Answers { w with descriptors := D' } () w') :
    Derived ctx D w' ∧ Retains w w' := by
  have sound := derived.orderly.sound
  obtain ⟨_, distinct, members, pending⟩ := sound.bound_unit registered concrete uncached bound
  obtain ⟨_, start, finished, D₂, spec⟩ :=
    (compile_ends sound registered concrete uncached bound).1 done
  have built : BuiltUnit ctx w w' ordered D' start finished D₂ :=
    ⟨distinct, pending, ⟨n, bound⟩, spec⟩
  obtain ⟨D₁, looked, completed, checks, order⟩ := answers_bindUnit.1 bound
  have whole := derived.whole decided (sound.pending_of_uncached registered concrete uncached)
    (targets_of_lookUps sound.descriptors_distinct sound.allWellFormed looked).2
  have gathered : Gathered ctx.resources w.models D w.descriptors
      (Binding.members ctx.resources w.descriptors w.models n) D' :=
    ⟨whole.gathers, sound.descriptors_distinct, sound.allWellFormed, D₁, looked, completed⟩
  have inUnit : ∀ k, k ∈ ordered ↔ k ∈ Binding.members ctx.resources w.descriptors w.models n := by
    intro k
    rw [← order]
    exact (inDeclarationOrder_perm _ _).mem_iff
  exact ⟨derived.derived_built decided built whole gathered inUnit (forM_eq_ok.1 checks),
    derived.retains_built decided built gathered inUnit⟩

include derived in
/-- The model of an abstract resource is derived. -/
theorem stored (registered : ctx.resources.get? n = some r) (abs : r.isAbstract = true)
    (uncached : w.models.get? n = none) (found : w.descriptors.get? n = some d) :
    Derived ctx D (Generation.stored w n (abstractModel ctx r d n))
      ∧ Retains w (Generation.stored w n (abstractModel ctx r d n)) := by
  have orderly' := derived.orderly.stored uncached registered abs found
  have cache : ∀ k, (Generation.stored w n (abstractModel ctx r d n)).models.get? k
      = (w.models.get? k).or (if k = n then some (abstractModel ctx r d n) else none) :=
    fun k => Roster.get?_insertNew w.models n k _
  have others : ∀ k, k ≠ n →
      (Generation.stored w n (abstractModel ctx r d n)).descriptors.get? k = w.descriptors.get? k :=
    fun k other => Roster.get?_modify_other other _
  have retains : Retains w (Generation.stored w n (abstractModel ctx r d n)) := by
    refine ⟨fun k m cached => by rw [cache, cached, Option.some_or], fun k m cached => ?_⟩
    refine others k ?_
    rintro rfl
    rw [uncached] at cached
    cases cached
  refine ⟨derived.extended retains orderly' ?_ ?_, retains⟩
  · intro k none
    rw [cache, Option.or_eq_none_iff] at none
    refine others k ?_
    rintro rfl
    simp at none
  · intro k m cached
    rw [cache] at cached
    rcases Option.or_eq_some_iff.1 cached with old | ⟨_, new⟩
    · exact .inl old
    · obtain ⟨rfl, rfl⟩ : k = n ∧ abstractModel ctx r d n = m := by simpa using new
      exact .inr (.inl ⟨rfl, r, d, registered, (derived.waiting k uncached).symm.trans found, rfl⟩)

include derived decided in
/-- A granted request leaves a derived workspace. -/
theorem generated (granted : (generate ctx n).Answers w m w') :
    Derived ctx D w' ∧ Retains w w' ∧ w'.models.get? n = some m := by
  rcases answers_generate.1 granted with ⟨cached, rfl⟩ | ⟨uncached, r, registered, ⟨abs, made⟩ |
    ⟨concrete, ordered, D', bound, done, there⟩⟩
  · exact ⟨derived, .refl w, cached⟩
  · rcases answers_generateAbstract.1 made with ⟨cached, _⟩ | ⟨_, r', d, registered', found, rfl, rfl⟩
    · rw [uncached] at cached
      cases cached
    · obtain rfl := Option.some.inj (registered.symm.trans registered')
      obtain ⟨derived', retains⟩ := derived.stored registered abs uncached found
      refine ⟨derived', retains, (Roster.get?_insertNew _ _ _ _).trans ?_⟩
      rw [uncached, Option.none_or]
      exact if_pos rfl
  · obtain ⟨derived', retains⟩ := derived.compiled decided registered concrete uncached bound done
    exact ⟨derived', retains, there⟩

end Derived

end

end ResourceTables
