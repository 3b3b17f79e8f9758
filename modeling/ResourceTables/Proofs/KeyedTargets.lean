/-
# `ResourceTables.Proofs.KeyedTargets` — a key is found missing just where there is none

A target has a primary key to copy if one of its fields is part of one, or if it copies a key itself and
makes that part of its own.  Keys of the second kind come into being while a unit is built: where they do
not wait for each other in a circle, each is there before it is needed, in whatever order the resources
are declared.
-/
import ResourceTables.Proofs.Faults
import ResourceTables.Proofs.Specified
import ResourceTables.Proofs.Turns

namespace ResourceTables

/-! ## Identifying relationships and their builders -/

namespace Descriptor

variable {d : Descriptor} {t : String}

theorem mem_identifyingTargets :
    t ∈ d.identifyingTargets ↔ ∃ e ∈ d.relationships, e.relationship.hostsKey = true
      ∧ e.relationship.identifying = true ∧ e.relationship.target = t := by
  simp only [identifyingTargets, List.mem_map, List.mem_filter, Bool.and_eq_true]
  constructor
  · rintro ⟨e, ⟨mem, identifying, hosts⟩, rfl⟩
    exact ⟨e, mem, hosts, identifying, rfl⟩
  · rintro ⟨e, mem, hosts, identifying, rfl⟩
    exact ⟨e, ⟨mem, identifying, hosts⟩, rfl⟩

theorem identifyingTargets_ne_nil :
    d.identifyingTargets ≠ [] ↔ ∃ e ∈ d.relationships, e.relationship.hostsKey = true
      ∧ e.relationship.identifying = true := by
  constructor
  · intro some
    obtain ⟨_, mem⟩ := List.exists_mem_of_ne_nil _ some
    obtain ⟨e, inside, hosts, identifying, _⟩ := mem_identifyingTargets.1 mem
    exact ⟨e, inside, hosts, identifying⟩
  · rintro ⟨e, inside, hosts, identifying⟩
    have mem := mem_identifyingTargets.2 ⟨e, inside, hosts, identifying, rfl⟩
    exact List.ne_nil_of_mem mem

/-- A target that a resource identifies itself by has a builder that makes its copy. -/
theorem exists_identifyingSide (wf : d.WellFormed) (fresh : d.Fresh) (fits : d.KeysFit)
    (mem : t ∈ d.identifyingTargets) :
    ∃ side : KeySide, side.relationship.target = t ∧ .relationship side.builder ∈ d.plan.builders
      ∧ side.builder.forcesPrimaryKey = true
      ∧ side.builder.keyFor? d.view = some side.relationship := by
  obtain ⟨e, inside, hosts, identifying, rfl⟩ := mem_identifyingTargets.1 mem
  obtain ⟨side, same, name, built, wanted⟩ := exists_side wf fresh inside hosts
  refine ⟨side, by rw [same], built, ?_, wanted⟩
  rw [fits side.builder e built inside name.symm hosts, identifying]

theorem mem_identifyingTargets_of_side (wf : d.WellFormed) (fits : d.KeysFit) {side : KeySide}
    (built : .relationship side.builder ∈ d.plan.builders)
    (forces : side.builder.forcesPrimaryKey = true)
    (wanted : side.builder.keyFor? d.view = some side.relationship) :
    side.relationship.target ∈ d.identifyingTargets := by
  obtain ⟨_, declared, hosts⟩ := Builder.keyFor?_eq_some_iff.1 wanted
  rw [view_relationship?] at declared
  obtain ⟨e, inside, name, same⟩ := wf.relationship?_eq_some_iff.1 declared
  rw [← same] at hosts ⊢
  refine mem_identifyingTargets.2 ⟨e, inside, hosts, ?_, rfl⟩
  rw [← fits side.builder e built inside name hosts, forces]

end Descriptor

namespace Generation

variable {ctx : GenerationContext} {w w' : Workspace} {unit done : List String} {n t : String}
  {start drafts' : Roster Model} {d : Descriptor} {e : Error} {s s' : Roster Descriptor × Roster Model}

/-! ## Keyed targets -/

/-- A target with a primary key: a member that has one by a field, or by a relationship that hosts a key
and is identifying, or a cached model whose table has one. -/
def KeyedTarget (D : Roster Descriptor) (unit : List String) (models : Roster Model) (t : String) :
    Prop :=
  (t ∈ unit ∧ ∃ d, D.get? t = some d ∧ (d.hasPrimaryKey = true ∨ ∃ e ∈ d.relationships,
      e.relationship.hostsKey = true ∧ e.relationship.identifying = true)) ∨
    ∃ m table, models.get? t = some m ∧ m.table = some table ∧ table.primaryKey ≠ []

/-- Every relationship of a unit that hosts a key has a keyed target. -/
def TargetsKeyed (D : Roster Descriptor) (unit : List String) (models : Roster Model) : Prop :=
  ∀ n ∈ unit, ∀ d, D.get? n = some d → ∀ e ∈ d.relationships, e.relationship.hostsKey = true →
    KeyedTarget D unit models e.relationship.target

/-- The primary key of a table at the start is that of its fields. -/
theorem primaryKey_startTable_ne_nil :
    (startTable ctx d n).primaryKey ≠ [] ↔ d.hasPrimaryKey = true := by
  simp only [startTable, Table.primaryKey, fieldColumns, Descriptor.hasPrimaryKey, ne_eq,
    List.filter_eq_nil_iff, List.mem_map, forall_exists_index, and_imp, forall_apply_eq_imp_iff₂,
    List.any_eq_true]
  push Not
  rfl

/-- A target that declares no key and is not cached is not keyed. -/
theorem not_targetsKeyed {D : Roster Descriptor} {models : Roster Model} (member : n ∈ unit)
    (host : ((D.get? n).any fun d => d.relationships.any fun e =>
      e.relationship.hostsKey && e.relationship.target == t) = true)
    (lacks : ((D.get? t).any fun d => !d.hasPrimaryKey && d.identifyingTargets.isEmpty) = true)
    (uncached : (models.get? t).isNone = true) : ¬ TargetsKeyed D unit models := by
  intro keyed
  obtain ⟨d, found, one⟩ := (Option.any_eq_true _ _).1 host
  obtain ⟨e, mem, hosted⟩ := List.any_eq_true.1 one
  rw [Bool.and_eq_true, beq_iff_eq] at hosted
  rcases hosted.2 ▸ keyed n member d found e mem hosted.1 with
    ⟨_, d', found', some⟩ | ⟨m, _, cached, _⟩
  · obtain ⟨d'', found'', none⟩ := (Option.any_eq_true _ _).1 lacks
    obtain rfl : d' = d'' := Option.some.inj (found'.symm.trans found'')
    rw [Bool.and_eq_true, List.isEmpty_iff] at none
    rcases some with field | identifying
    · simp [field] at none
    · exact Descriptor.identifyingTargets_ne_nil.2 identifying none.2
  · rw [Option.isNone_iff_eq_none.1 uncached] at cached
    cases cached

/-- Targets that declare a key are keyed. -/
theorem targetsKeyed_of_all {D : Roster Descriptor} {models : Roster Model}
    (keyed : D.entries.all (fun p => p.2.relationships.all fun e => !e.relationship.hostsKey ||
      (unit.contains e.relationship.target && (D.get? e.relationship.target).any fun d =>
        d.hasPrimaryKey || !d.identifyingTargets.isEmpty)) = true) : TargetsKeyed D unit models := by
  intro n _ d found e mem hosts
  have one := List.all_eq_true.1
    (List.all_eq_true.1 keyed _ (Roster.mem_entries_of_get? found)) e mem
  rw [hosts, Bool.not_true, Bool.false_or, Bool.and_eq_true, Option.any_eq_true] at one
  obtain ⟨member, d', found', key⟩ := one
  refine .inl ⟨List.contains_iff_mem.1 member, d', found', ?_⟩
  rw [Bool.or_eq_true] at key
  exact key.imp_right fun some => Descriptor.identifyingTargets_ne_nil.1 (by simpa using some)

namespace BoundUnit

variable (h : BoundUnit ctx w unit)

include h

theorem not_mem_before {before after : List String}
    (split : primaryKeyOrder w.descriptors unit = before ++ n :: after) : n ∉ before := by
  have order := nodup_primaryKeyOrder (D := w.descriptors) h.once
  rw [split] at order
  exact fun early => (List.nodup_append.1 order).2.2 n early n List.mem_cons_self rfl

theorem keyedTarget_of_wanted (keyed : TargetsKeyed w.descriptors unit w.models) {d₀ : Descriptor}
    {side : KeySide} (member : n ∈ unit) (found : w.descriptors.get? n = some d₀)
    (worked : Worked d₀ d) (wanted : side.builder.keyFor? d.view = some side.relationship) :
    KeyedTarget w.descriptors unit w.models side.relationship.target := by
  obtain ⟨_, declared, hosts⟩ := Builder.keyFor?_eq_some_iff.1 wanted
  rw [worked.view_eq, Descriptor.view_relationship?] at declared
  obtain ⟨entry, mem, _, same⟩ :=
    (h.sound.allWellFormed n d₀ found).relationship?_eq_some_iff.1 declared
  exact same ▸ keyed n member d₀ found entry mem (same ▸ hosts)

variable (drafted : drafts ctx w.descriptors unit = .ok start)

include drafted

theorem get?_start (member : n ∈ unit) :
    ∃ r d, ctx.resources.get? n = some r ∧ w.descriptors.get? n = some d
      ∧ start.get? n = some (startModel ctx r d n) := by
  obtain ⟨m, made, there⟩ := get?_drafts drafted h.once member
  obtain ⟨r, d, hr, found, _, rfl⟩ := draft_eq_ok.1 made
  exact ⟨r, d, hr, found, there⟩

/-- A keyed target has its key from the start, or once it has copied one. -/
theorem hasKey_of_keyed (keyed : KeyedTarget w.descriptors unit w.models t)
    (grown : DraftsGrow start drafts')
    (copied : Dependent w.descriptors unit t → HasKey w.models drafts' t) :
    HasKey w.models drafts' t := by
  rcases keyed with ⟨member, d, found, field | identifying⟩ | ⟨m, table, cached, has, some⟩
  · obtain ⟨r, d', _, found', there⟩ := h.get?_start drafted member
    obtain rfl : d = d' := Option.some.inj (found.symm.trans found')
    exact .grow ⟨startTable ctx d t, knownTable_of_draft there, primaryKey_startTable_ne_nil.2 field⟩
      grown
  · exact copied ⟨member, d, found, Descriptor.identifyingTargets_ne_nil.2 identifying⟩
  · have absent : start.get? t = none := by
      rw [Roster.get?_eq_none_iff, names_drafts drafted]
      intro member
      rw [h.uncached member] at cached
      cases cached
    refine .grow ⟨table, knownTable_eq_some_iff.2 ⟨m, ?_, has⟩, some⟩ grown
    rw [absent, Option.none_or, cached]

variable (fits : ∀ n ∈ unit, ∀ d, w.descriptors.get? n = some d → d.KeysFit)

include fits

/-- In its turn in the first pass a member copies the key of everything that it identifies itself by. -/
theorem copied_of_turn (midway : Midway w.descriptors w.models (w.descriptors, start) done s)
    (member : n ∈ unit) (fresh : n ∉ done) (found : w.descriptors.get? n = some d)
    (one : (onMember n (Descriptor.buildPrimaryKey { owner := n, generated := w.models })).Answers
      s () s') (mem : t ∈ d.identifyingTargets) :
    ∃ side before after owner target, side.relationship.target = t
      ∧ side.builder.forcesPrimaryKey = true
      ∧ Copied w.descriptors w.models n s.2 side s'.2 before after owner target := by
  obtain ⟨_, d', _, found', _, wf, untouched⟩ := h.standing member
  obtain rfl : d = d' := Option.some.inj (found.symm.trans found')
  obtain ⟨side, same, built, forces, wanted⟩ :=
    Descriptor.exists_identifyingSide wf untouched (fits n member d found) mem
  obtain ⟨before, after, owner, target, copied⟩ := keyPass_buildPrimaryKey.copies h.columns midway
    (h.known member) (mem_drafts drafted member) ((midway.descriptors n fresh).trans found) one built
    forces wanted
  exact ⟨side, before, after, owner, target, same, forces, copied⟩

/-- A member that copies keys has one when its turn ends. -/
theorem hasKey_of_turn (midway : Midway w.descriptors w.models (w.descriptors, start) done s)
    (fresh : n ∉ done) (dependent : Dependent w.descriptors unit n)
    (one : (onMember n (Descriptor.buildPrimaryKey { owner := n, generated := w.models })).Answers
      s () s') : HasKey w.models s'.2 n := by
  obtain ⟨member, d, found, some⟩ := dependent
  obtain ⟨t, mem⟩ := List.exists_mem_of_ne_nil _ some
  obtain ⟨side, _, _, _, _, _, forces, copied⟩ :=
    h.copied_of_turn drafted fits midway member fresh found one mem
  exact copied.hasKey_owner forces

/-- Members that copy keys have one once they have had their turns. -/
theorem hasKeys_next {rest : List String}
    (split : primaryKeyOrder w.descriptors unit = done ++ n :: rest)
    (midway : Midway w.descriptors w.models (w.descriptors, start) done s)
    (holds : ∀ k ∈ done, HasKey w.models s.2 k)
    (one : (onMember n (Descriptor.buildPrimaryKey { owner := n, generated := w.models })).Answers
      s () s') : ∀ k ∈ done ++ [n], HasKey w.models s'.2 k := by
  have dependent : Dependent w.descriptors unit n :=
    mem_primaryKeyOrder.1 (split ▸ List.mem_append_right _ List.mem_cons_self)
  intro k mem
  rcases List.mem_append.1 mem with early | now
  · exact (holds k early).grow (keyPass_buildPrimaryKey.inside_turn h.columns midway
      (h.known dependent.1) (mem_drafts drafted dependent.1) one).grown
  · rw [List.mem_singleton.1 now]
    exact h.hasKey_of_turn drafted fits midway (h.not_mem_before split) dependent one

/-- Where every target is keyed and no key waits for itself, no key is found missing. -/
theorem ne_missing_of_stops
    (acyclic : ∀ n, ¬ Relation.TransGen (Identifies w.descriptors unit) n n)
    (keyed : TargetsKeyed w.descriptors unit w.models)
    (stops : StopsInKeys w.models unit (w.descriptors, start) e s') (table context : String) :
    e ≠ .missingPrimaryKey table context := by
  let Keys : List String → Roster Descriptor × Roster Model → Prop :=
    fun done s => ∀ k ∈ done, HasKey w.models s.2 k
  rcases stops with first | ⟨s₁, first, second⟩
  · obtain ⟨done, n, rest, s, d, side, drafts', split, member, midway, holds, found, stopped⟩ :=
      h.first_fails drafted (I := Keys) nofun
        (fun _ _ _ _ _ => h.hasKeys_next drafted fits) first
    refine stopped.ne_missing ?_ table context
    obtain ⟨d₀, found₀, worked⟩ := midway.worked.get?_backward found
    refine h.hasKey_of_keyed drafted (h.keyedTarget_of_wanted keyed member found₀ worked stopped.wanted)
      (midway.grown.trans stopped.inside.grown) fun dependent => ?_
    -- The order puts the target before the member, so it has had its turn.
    have identifies : side.relationship.target ∈ d₀.identifyingTargets := by
      rw [midway.descriptors n (h.not_mem_before split), found₀, Option.some.injEq] at found
      subst found
      exact Descriptor.mem_identifyingTargets_of_side (h.sound.allWellFormed n _ found₀)
        (fits n member _ found₀) stopped.built stopped.chosen stopped.wanted
    exact (holds _ (primaryKeyOrder_after acyclic split found₀ identifies dependent)).grow
      stopped.inside.grown
  · obtain ⟨midway₁, holds₁⟩ := h.first_answers drafted (I := Keys) nofun
      (fun _ _ _ _ _ => h.hasKeys_next drafted fits) first
    obtain ⟨done, n, rest, s, d, side, drafts', _, member, midway, _, found, stopped⟩ :=
      h.second_fails drafted midway₁ (I := fun _ _ => True) trivial
        (fun _ _ _ _ _ _ _ _ _ => trivial) second
    refine stopped.ne_missing ?_ table context
    obtain ⟨d₀, found₀, worked⟩ := midway.worked.get?_backward found
    have grown := midway.grown.trans stopped.inside.grown
    refine h.hasKey_of_keyed drafted (h.keyedTarget_of_wanted keyed member found₀ worked stopped.wanted)
      (midway₁.grown.trans grown) fun dependent => ?_
    exact (holds₁ _ (mem_primaryKeyOrder.2 dependent)).grow grown

end BoundUnit

end Generation

/-! ## Units that compile -/

namespace BuiltUnit

open Generation

variable {ctx : GenerationContext} {w w' : Workspace} {unit : List String}
  {D' D₁ : Roster Descriptor} {start finished : Roster Model}

/-- Without cycles of keys the targets of a compiled unit are keyed. -/
theorem targetsKeyed (built : BuiltUnit ctx w w' unit D' start finished D₁)
    (ready : Ready D' unit start) (acyclic : ∀ n, ¬ Relation.TransGen (Identifies D' unit) n n) :
    TargetsKeyed D' unit w.models := by
  obtain ⟨refs, account, drawable, _⟩ := built.drawn ready acyclic
  intro n member d found e mem hosts
  obtain ⟨d', found', wf, fresh, _⟩ := ready.described n member
  obtain rfl : d = d' := Option.some.inj (found.symm.trans found')
  obtain ⟨side, same, _, planned, wanted⟩ := Descriptor.exists_side wf fresh mem hosts
  have can :=
    (keyable_iff_canDraw.1 ⟨(drawable n member).identifying, (drawable n member).plain⟩).keyed
  rw [described_eq found] at can
  obtain ⟨target, known, some⟩ := can side <| by
    rw [List.mem_append, Descriptor.identifyingSides, Descriptor.plainSides, Builder.mem_keySides,
      Builder.mem_keySides]
    cases forces : side.builder.forcesPrimaryKey with
    | true => exact .inl ⟨planned, forces, wanted⟩
    | false => exact .inr ⟨planned, by simp [Builder.forcesPrimaryKey, forces], wanted⟩
  rw [same] at known
  generalize e.relationship.target = t at known ⊢
  by_cases inside : t ∈ unit
  · obtain ⟨d₁, found₁, _⟩ := ready.described t inside
    refine .inl ⟨inside, d₁, found₁, ?_⟩
    by_contra neither
    obtain ⟨fieldless, unhosted⟩ := not_or.1 neither
    have independent : ¬ Dependent D' unit t := by
      rintro ⟨_, d₂, found₂, some⟩
      obtain rfl : d₁ = d₂ := Option.some.inj (found₁.symm.trans found₂)
      exact unhosted (Descriptor.identifyingTargets_ne_nil.1 some)
    have drawn := account.inside t inside
    rw [known, Option.map_some, Option.some.injEq, identified_of_independent ready inside independent,
      Table.reference_eq_iff] at drawn
    have start_eq : (begun D' start t).table = startTable ctx d₁ t := by
      rw [begun, built.drafted_eq inside, described_eq found₁]
    rw [drawn.2, start_eq, primaryKey_startTable_ne_nil] at some
    exact fieldless some
  · have drawn := account.outside t inside
    rw [known, Option.map_some, eq_comm, Option.map_eq_some_iff] at drawn
    obtain ⟨table, cached, same⟩ := drawn
    obtain ⟨m, found, has⟩ := Option.bind_eq_some_iff.1 cached
    refine .inr ⟨m, table, found, has, ?_⟩
    rw [(Table.reference_eq_iff.1 same).2]
    exact some

end BuiltUnit

namespace Compiler

open Generation

/-- A unit that is bound and cannot be built cannot be generated. -/
theorem exists_fails_of_unbuilt {c : Compiler} {name : String} {resource : Resource} {e : Error}
    (declared : c.resources.get? name = some resource) (concrete : resource.isAbstract = false)
    (uncached : c.model? name = none) {unit : List String} {D' : Roster Descriptor}
    (bound : (Binding.bind c.resources c.workspace.models name).Answers c.workspace.descriptors unit D')
    {ctx : GenerationContext} (known : c.generationContext = .ok ctx) {start : Roster Model}
    (drafted : drafts ctx D' unit = .ok start) {s : Roster Descriptor × Roster Model}
    (unbuilt : (runPhases c.workspace.models unit).Fails (D', start) e s) :
    ∃ c', (generate name).Fails c e c' := by
  obtain ⟨w', failed⟩ :=
    exists_fails_compile (w := { c.workspace with descriptors := D' }) drafted unbuilt
  rw [← (generationContext_eq_ok known).2.1] at declared bound
  exact ⟨c.withWorkspace w', fails_generating.2 (.inr ⟨ctx, w', known,
    fails_generate_of_unit declared concrete uncached (.inr ⟨unit, D', bound, failed⟩), rfl⟩)⟩

/-- Wherever a history leads: where the builders of a bound unit fit and none of its primary keys depends
on itself, a generation never finds a key missing if every target of a relationship that hosts a key is
keyed, and fails if one of them is not. -/
theorem missing_key_exact (settings : Settings) (requests : List Request) (c : Compiler)
    (reached : (new settings).run requests = c) (name : String) (resource : Resource)
    (declared : c.resources.get? name = some resource) (concrete : resource.isAbstract = false)
    (uncached : c.model? name = none) (unit : List String) (D' : Roster Descriptor)
    (bound : (Binding.bind c.resources c.workspace.models name).Answers c.workspace.descriptors unit D')
    (acyclic : ∀ n, ¬ Relation.TransGen (Identifies D' unit) n n)
    (fits : ∀ n ∈ unit, ∀ d, D'.get? n = some d → d.KeysFit) :
    (TargetsKeyed D' unit c.workspace.models → ∀ e c', (generate name).Fails c e c' →
      ∀ table context, e ≠ .missingPrimaryKey table context) ∧
    (¬ TargetsKeyed D' unit c.workspace.models → ∃ e c', (generate name).Fails c e c') := by
  constructor
  · rintro keyed _ c' failed table context rfl
    rcases fails_compile_of_fails reached declared concrete uncached bound failed with
      ⟨unknown, _⟩ | ⟨ctx, w', known, uncompiled, _⟩
    · cases generationContext_eq_error unknown
    have ready := boundUnit_of_bind reached declared concrete uncached bound known
    cases ready.fault_of_uncompiled uncompiled with
    | keyless n d x r start target s member found related hosts drafted stops known none =>
        exact ready.ne_missing_of_stops drafted fits acyclic keyed stops _ _ rfl
  · intro unkeyed
    rcases Action.answers_or_fails (generate name) c with ⟨model, c', compiled⟩ | failed
    · obtain ⟨ctx, start, finished, D₁, known, built⟩ :=
        exists_builtUnit reached declared concrete uncached bound compiled
      have ready := boundUnit_of_bind reached declared concrete uncached bound known
      exact absurd (built.targetsKeyed (built.ready ready.sound fits) acyclic) unkeyed
    · exact failed

/-- Profiles of users without a primary key. -/
def unkeyedUsers : List Request :=
  [.declare { name := "User", properties := [⟨"name", 1, .field { storage := .text }⟩] },
    .declare { name := "Profile"
               properties := [⟨"user", 2, .relationship (.new .manyToOne "User")⟩] }]

theorem missing_key_exact_unkeyed :
    ∃ c unit D' e c', (new { autoPrimaryKey := false }).run unkeyedUsers = c
      ∧ (Binding.bind c.resources c.workspace.models "Profile").Answers c.workspace.descriptors unit D'
      ∧ (∀ n, ¬ Relation.TransGen (Identifies D' unit) n n)
      ∧ (∀ n ∈ unit, ∀ d, D'.get? n = some d → d.KeysFit)
      ∧ ¬ TargetsKeyed D' unit c.workspace.models
      ∧ (generate "Profile").Fails c e c' := by
  obtain ⟨c, reached⟩ : ∃ c, (new { autoPrimaryKey := false }).run unkeyedUsers = c := ⟨_, rfl⟩
  obtain ⟨r, declared, concrete, uncached⟩ : ∃ r, c.resources.get? "Profile" = some r
      ∧ r.isAbstract = false ∧ c.model? "Profile" = none :=
    exists_requestable (by rw [← reached]; cbv)
  obtain ⟨unit, D', bound, order⟩ := Action.exists_answers_of_any (p := (· == ["User", "Profile"]))
    (show (Binding.bind c.resources c.workspace.models "Profile"
      c.workspace.descriptors).result.toOption.any _ = true by rw [← reached]; cbv)
  obtain rfl := beq_iff_eq.1 order
  have facts : (let D := (Binding.bind c.resources c.workspace.models "Profile"
        c.workspace.descriptors).state
      D.entries.all (fun p => p.2.identifyingTargets.all fun t =>
          ["User", "Profile"].idxOf t < ["User", "Profile"].idxOf p.1)
        && ((D.get? "Profile").any fun d => d.relationships.any fun e =>
          e.relationship.hostsKey && e.relationship.target == "User")
        && ((D.get? "User").any fun d => !d.hasPrimaryKey && d.identifyingTargets.isEmpty)
        && (c.workspace.models.get? "User").isNone) = true := by
    rw [← reached]
    cbv
  simp only [bound.2, Bool.and_eq_true] at facts
  obtain ⟨⟨⟨falls, host⟩, lacks⟩, empty⟩ := facts
  have acyclic : ∀ n, ¬ Relation.TransGen (Identifies D' ["User", "Profile"]) n n :=
    (keysAcyclic_of_order _ falls).unit _
  have fits := keysFit_of_bind { autoPrimaryKey := false } (by simp [unkeyedUsers, Request.Fits])
    reached bound
  have unkeyed : ¬ TargetsKeyed D' ["User", "Profile"] c.workspace.models :=
    not_targetsKeyed (by decide) host lacks empty
  obtain ⟨e, c', failed⟩ := (missing_key_exact _ unkeyedUsers c reached "Profile" r declared concrete
    uncached _ D' bound acyclic fits).2 unkeyed
  exact ⟨c, _, D', e, c', reached, bound, acyclic, fits, unkeyed, failed⟩

/-- A caller marks a relationship as identifying, without making its builder again. -/
def markIdentifying (name : String) : DescriptorChange where
  change d := d.modifyRelationship name fun r => { r with identifying := true }
  edits d := .single (.modifyRelationship d _ _)

/-- Logs of profiles whose user became identifying when its builder was there already. -/
def profilesMarkedLate : List Request :=
  [.declare { name := "User"
              properties := [⟨"id", 1, .field { storage := .integer
                                                options := { primaryKey := true } }⟩] },
    .declare { name := "Profile"
               properties := [⟨"user", 2, .relationship (.new .manyToOne "User")⟩] },
    .edit "Profile" (markIdentifying "user"),
    .declare { name := "Log"
               properties := [⟨"profile", 3, .relationship (.new .manyToOne "Profile")⟩] }]

/-- The builder does not copy into the primary key although the relationship says so by now, and so a
target that has a key by what is declared is found without one. -/
theorem keyed_target_missing :
    ∃ c unit D' c', (new { autoPrimaryKey := false }).run profilesMarkedLate = c
      ∧ (Binding.bind c.resources c.workspace.models "Log").Answers c.workspace.descriptors unit D'
      ∧ (∀ n, ¬ Relation.TransGen (Identifies D' unit) n n)
      ∧ TargetsKeyed D' unit c.workspace.models
      ∧ (generate "Log").Fails c (.missingPrimaryKey "profile"
        "relationship 'profile' on resource 'Log' needs a key to reference") c' := by
  obtain ⟨c, reached⟩ : ∃ c, (new { autoPrimaryKey := false }).run profilesMarkedLate = c := ⟨_, rfl⟩
  obtain ⟨r, declared, concrete, uncached⟩ : ∃ r, c.resources.get? "Log" = some r
      ∧ r.isAbstract = false ∧ c.model? "Log" = none :=
    exists_requestable (by rw [← reached]; cbv)
  obtain ⟨unit, D', bound, order⟩ := Action.exists_answers_of_any
    (p := (· == ["User", "Profile", "Log"]))
    (show (Binding.bind c.resources c.workspace.models "Log"
      c.workspace.descriptors).result.toOption.any _ = true by rw [← reached]; cbv)
  obtain rfl := beq_iff_eq.1 order
  have facts : (let D := (Binding.bind c.resources c.workspace.models "Log"
        c.workspace.descriptors).state
      D.entries.all (fun p => p.2.identifyingTargets.all fun t =>
          ["User", "Profile"].idxOf t < ["User", "Profile"].idxOf p.1)
        && D.entries.all fun p => p.2.relationships.all fun e => !e.relationship.hostsKey ||
          (["User", "Profile", "Log"].contains e.relationship.target
            && (D.get? e.relationship.target).any fun d =>
              d.hasPrimaryKey || !d.identifyingTargets.isEmpty)) = true := by
    rw [← reached]
    cbv
  simp only [bound.2, Bool.and_eq_true] at facts
  have missing : c.generationContext.toOption.any (fun ctx =>
      (drafts ctx (Binding.bind c.resources c.workspace.models "Log" c.workspace.descriptors).state
        ["User", "Profile", "Log"]).toOption.any fun start =>
      (runPhases c.workspace.models ["User", "Profile", "Log"]).stopsWith
        ((Binding.bind c.resources c.workspace.models "Log" c.workspace.descriptors).state, start)
        (.missingPrimaryKey "profile"
          "relationship 'profile' on resource 'Log' needs a key to reference")) = true := by
    rw [← reached]
    cbv
  rw [bound.2] at missing
  obtain ⟨ctx, known, missing⟩ := (Option.any_eq_true _ _).1 missing
  obtain ⟨start, drafted, missing⟩ := (Option.any_eq_true _ _).1 missing
  rw [Action.toOption_eq_some_iff] at known drafted
  obtain ⟨_, unbuilt⟩ := Action.exists_fails_of_stopsWith missing
  obtain ⟨c', failed⟩ := exists_fails_of_unbuilt declared concrete uncached bound known drafted unbuilt
  exact ⟨c, _, D', c', reached, bound, (keysAcyclic_of_order _ facts.1).unit _,
    targetsKeyed_of_all facts.2, failed⟩

end Compiler

end ResourceTables
