/-
# `ResourceTables.Proofs.Cycles` — primary keys that wait for each other in a circle

Members that identify themselves by each other cannot be put into an order in which every primary key is
complete before it is copied.  The first of them that has its turn finds the key of the next one either
missing or unfinished.  A missing key stops the building; an unfinished one is copied as it is, and grows
when its own member has its turn, so that the copy refers to a part of it.
-/
import ResourceTables.Proofs.KeyedTargets

namespace ResourceTables

/-! ## Parts of primary keys -/

/-- A key of the table refers to the first columns of a primary key, and not to all of them. -/
def Table.RefersToPart (t target : Table) : Prop :=
  ∃ key ∈ t.constraints, key.referredTable = target.fullName ∧ key.referredColumns ≠ [] ∧
    ∃ rest ≠ [], target.primaryKey.map (·.name) = key.referredColumns ++ rest

/-- The table of a name has a primary key of more than so many columns. -/
def LongKey (generated drafts : Roster Model) (n : String) (size : Nat) : Prop :=
  ∃ t, knownTable generated drafts n = some t ∧ size < t.primaryKey.length

/-- The table of one name refers to the first so many columns of the primary key of another. -/
def Refers (generated drafts : Roster Model) (n k : String) (size : Nat) : Prop :=
  ∃ t target, knownTable generated drafts n = some t ∧ knownTable generated drafts k = some target ∧
    ∃ key ∈ t.constraints, key.referredTable = target.fullName ∧ key.referredColumns ≠ []
      ∧ key.referredColumns.length = size
      ∧ key.referredColumns <+: target.primaryKey.map (·.name)

section Growing

variable {generated drafts drafts' : Roster Model} {n k : String} {size : Nat}

theorem LongKey.grow (h : LongKey generated drafts n size) (grown : DraftsGrow drafts drafts') :
    LongKey generated drafts' n size := by
  obtain ⟨t, known, long⟩ := h
  obtain ⟨t', known', grows⟩ := grown.knownTable known
  exact ⟨t', known', long.trans_le grows.primaryKey.length_le⟩

theorem Refers.grow (h : Refers generated drafts n k size) (grown : DraftsGrow drafts drafts') :
    Refers generated drafts' n k size := by
  obtain ⟨t, target, here, there, key, mem, refers, nonempty, length, part⟩ := h
  obtain ⟨t', here', grows⟩ := grown.knownTable here
  obtain ⟨target', there', grows'⟩ := grown.knownTable there
  exact ⟨t', target', here', there', key, grows.constraints.subset mem,
    refers.trans grows'.fullName_eq.symm, nonempty, length, part.trans (grows'.primaryKey.map _)⟩

/-- A primary key that is longer than what a table refers to is referred to in part. -/
theorem Refers.refersToPart (h : Refers generated drafts n k size)
    (long : LongKey generated drafts k size) :
    ∃ t target, knownTable generated drafts n = some t ∧ knownTable generated drafts k = some target
      ∧ t.RefersToPart target := by
  obtain ⟨t, target, here, there, key, mem, refers, nonempty, length, rest, split⟩ := h
  obtain ⟨target', there', long⟩ := long
  obtain rfl : target = target' := Option.some.inj (there.symm.trans there')
  refine ⟨t, target, here, there, key, mem, refers, nonempty, rest, ?_, split.symm⟩
  rintro rfl
  rw [List.append_nil] at split
  rw [← length, split, List.length_map] at long
  exact lt_irrefl _ long

end Growing

namespace Copied

variable {D : Roster Descriptor} {generated first last before after : Roster Model} {n : String}
  {side : KeySide} {owner target : Table}

theorem refers (h : Copied D generated n first side last before after owner target) :
    Refers generated last n side.relationship.target target.primaryKey.length := by
  obtain ⟨t, here, grows⟩ := h.grown.knownTable h.made
  obtain ⟨target', there, grows'⟩ := (h.step.trans h.grown).knownTable h.there
  refine ⟨t, target', here, there, side.builder.foreignKey side.relationship owner target,
    grows.constraints.subset (List.mem_append_right _ List.mem_cons_self), grows'.fullName_eq.symm,
    ?_, ?_, grows'.primaryKey.map _⟩
  · simpa [RelationshipBuilder.foreignKey] using h.keyed
  · simp [RelationshipBuilder.foreignKey]

/-- A copy that joins the primary key makes it longer. -/
theorem longKey (h : Copied D generated n first side last before after owner target)
    (forces : side.builder.forcesPrimaryKey = true) :
    LongKey generated last n owner.primaryKey.length := by
  obtain ⟨t, here, grows⟩ := h.grown.knownTable h.made
  refine ⟨t, here, lt_of_lt_of_le ?_ grows.primaryKey.length_le⟩
  have some : 0 < target.primaryKey.length := List.length_pos_iff.2 h.keyed
  rw [RelationshipBuilder.primaryKey_keyedTable forces, List.length_append, List.length_map]
  omega

/-- What referred to the primary key when the turn of its member began refers to a part of it once the
member has copied one. -/
theorem longKey_of_refers (h : Copied D generated n first side last before after owner target)
    (forces : side.builder.forcesPrimaryKey = true) {k : String} {size : Nat}
    (refers : Refers generated first k n size) : LongKey generated last n size := by
  obtain ⟨_, t, _, there, key, _, _, _, length, part⟩ := refers
  obtain ⟨owner', here, grows⟩ := h.inside.grown.knownTable there
  obtain rfl : owner = owner' := Option.some.inj (h.here.symm.trans here)
  obtain ⟨last', known, long⟩ := h.longKey forces
  have short := part.length_le
  rw [length, List.length_map] at short
  exact ⟨last', known, (short.trans grows.primaryKey.length_le).trans_lt long⟩

end Copied

/-! ## Cycles -/

namespace Generation

theorem identifies_of_any {D : Roster Descriptor} {unit : List String} {n t : String}
    (member : n ∈ unit) (member' : t ∈ unit)
    (mem : ((D.get? n).any (·.identifyingTargets.contains t)) = true) : Identifies D unit n t := by
  obtain ⟨d, found, mem⟩ := (Option.any_eq_true _ _).1 mem
  exact ⟨member, member', d, found, List.contains_iff_mem.1 mem⟩

/-- Two members identify themselves by each other, directly or through others. -/
def Entangled (D : Roster Descriptor) (unit : List String) (n k : String) : Prop :=
  Relation.TransGen (Identifies D unit) n k ∧ Relation.TransGen (Identifies D unit) k n

namespace Entangled

variable {D : Roster Descriptor} {unit : List String} {root n k : String}

theorem of_path (h : Entangled D unit root n) (away : Relation.TransGen (Identifies D unit) n k)
    (back : Relation.ReflTransGen (Identifies D unit) k n) : Entangled D unit root k :=
  ⟨h.1.trans away, .trans_right back h.2⟩

/-- A member of a cycle identifies itself by one of its members. -/
theorem exists_identifies (h : Entangled D unit root n) :
    ∃ t, Identifies D unit n t ∧ Entangled D unit root t := by
  obtain ⟨t, edge, back⟩ := Relation.TransGen.head'_iff.1 h.2
  exact ⟨t, edge, h.of_path (.single edge) (back.trans h.1.to_reflTransGen)⟩

theorem dependent (h : Entangled D unit root n) : Dependent D unit n := by
  obtain ⟨t, ⟨member, _, d, found, mem⟩, _⟩ := h.exists_identifies
  exact ⟨member, d, found, List.ne_nil_of_mem mem⟩

/-- A member of a cycle that leads through another one identifies itself by another one. -/
theorem exists_identifies_other (h : Entangled D unit root n) (h' : Entangled D unit root k)
    (other : k ≠ n) : ∃ t, Identifies D unit n t ∧ t ≠ n ∧ Entangled D unit root t := by
  have leaves : ∃ t, Identifies D unit n t ∧ t ≠ n
      ∧ Relation.ReflTransGen (Identifies D unit) t k := by
    have path := h.2.trans h'.1
    clear h h'
    induction path using Relation.TransGen.head_induction_on with
    | single edge => exact ⟨k, edge, other, .refl⟩
    | @head n t edge rest ih =>
        by_cases stays : t = n
        · exact stays ▸ ih (stays ▸ other)
        · exact ⟨t, edge, stays, rest.to_reflTransGen⟩
  obtain ⟨t, edge, apart, rest⟩ := leaves
  exact ⟨t, edge, apart, h.of_path (.single edge) (rest.trans (h'.2.trans h.1).to_reflTransGen)⟩

end Entangled

namespace BoundUnit

variable {ctx : GenerationContext} {w : Workspace} {unit done rest : List String} {root n : String}
  {start : Roster Model} {s s' : Roster Descriptor × Roster Model} (h : BoundUnit ctx w unit)
  (drafted : drafts ctx w.descriptors unit = .ok start)
  (fits : ∀ n ∈ unit, ∀ d, w.descriptors.get? n = some d → d.KeysFit)

/-! ### Units that are built -/

/-- The keys around a cycle in the middle of the first pass: no member has had its turn, or one of them
refers to another whose primary key is longer, at least when that one has had its turn. -/
def KeysRefer (w : Workspace) (unit : List String) (root : String) (done : List String)
    (drafts : Roster Model) : Prop :=
  (∀ n ∈ done, ¬ Entangled w.descriptors unit root n) ∨
  ∃ n k size, Entangled w.descriptors unit root n ∧ Entangled w.descriptors unit root k
    ∧ Refers w.models drafts n k size ∧ (k ∈ done → LongKey w.models drafts k size)

include h drafted fits

/-- In its turn a member has copied the key of what it identifies itself by. -/
theorem copied_of_identifies (split : primaryKeyOrder w.descriptors unit = done ++ n :: rest)
    (midway : Midway w.descriptors w.models (w.descriptors, start) done s)
    (one : (onMember n (Descriptor.buildPrimaryKey { owner := n, generated := w.models })).Answers
      s () s') {t : String} (edge : Identifies w.descriptors unit n t) :
    ∃ side before after owner target, side.relationship.target = t
      ∧ side.builder.forcesPrimaryKey = true
      ∧ Copied w.descriptors w.models n s.2 side s'.2 before after owner target := by
  obtain ⟨member, _, d, found, mem⟩ := edge
  exact h.copied_of_turn drafted fits midway member (h.not_mem_before split) found one mem

theorem keysRefer_next (split : primaryKeyOrder w.descriptors unit = done ++ n :: rest)
    (midway : Midway w.descriptors w.models (w.descriptors, start) done s)
    (holds : KeysRefer w unit root done s.2)
    (one : (onMember n (Descriptor.buildPrimaryKey { owner := n, generated := w.models })).Answers
      s () s') : KeysRefer w unit root (done ++ [n]) s'.2 := by
  have dependent : Dependent w.descriptors unit n :=
    mem_primaryKeyOrder.1 (split ▸ List.mem_append_right _ List.mem_cons_self)
  have grown : DraftsGrow s.2 s'.2 := (keyPass_buildPrimaryKey.inside_turn h.columns midway
    (h.known dependent.1) (mem_drafts drafted dependent.1) one).grown
  rcases holds with none | ⟨m, k, size, around, around', refers, long⟩
  · by_cases entangled : Entangled w.descriptors unit root n
    · obtain ⟨t, edge, around⟩ := entangled.exists_identifies
      obtain ⟨side, before, after, owner, target, rfl, forces, copied⟩ :=
        h.copied_of_identifies drafted fits split midway one edge
      refine .inr ⟨n, _, _, entangled, around, copied.refers, fun early => ?_⟩
      rcases List.mem_append.1 early with early | now
      · exact absurd around (none _ early)
      · -- The member has copied its own primary key, as it was before.
        have itself := List.mem_singleton.1 now
        have same : owner = target := by
          have there := copied.there
          rw [itself] at there
          exact Option.some.inj (copied.here.symm.trans there)
        rw [itself, ← same]
        exact copied.longKey forces
    · refine .inl fun k mem => ?_
      rcases List.mem_append.1 mem with early | now
      · exact none k early
      · exact List.mem_singleton.1 now ▸ entangled
  · refine .inr ⟨m, k, size, around, around', refers.grow grown, fun mem => ?_⟩
    rcases List.mem_append.1 mem with early | now
    · exact (long early).grow grown
    · obtain rfl := List.mem_singleton.1 now
      obtain ⟨t, edge, _⟩ := around'.exists_identifies
      obtain ⟨side, _, _, _, _, _, forces, copied⟩ :=
        h.copied_of_identifies drafted fits split midway one edge
      exact copied.longKey_of_refers forces refers

/-- In a unit that is built, a cycle has a member whose key refers to a part of a primary key. -/
theorem refersToPart_of_built (cycle : Relation.TransGen (Identifies w.descriptors unit) root root)
    (built : (runPhases w.models unit).Answers (w.descriptors, start) () s') :
    ∃ n k t target, Entangled w.descriptors unit root n ∧ Entangled w.descriptors unit root k
      ∧ knownTable w.models s'.2 n = some t ∧ knownTable w.models s'.2 k = some target
      ∧ t.RefersToPart target := by
  obtain ⟨s₁, s₂, first, second, third⟩ := answers_runPhases.1 built
  obtain ⟨midway₁, holds⟩ := h.first_answers drafted
    (I := fun done s => KeysRefer w unit root done s.2) (.inl nofun)
    (fun _ _ _ _ _ => h.keysRefer_next drafted fits) first
  obtain ⟨midway₂, _⟩ := h.second_answers drafted midway₁ (I := fun _ _ => True) trivial
    (fun _ _ _ _ _ _ _ _ _ => trivial) second
  have names : s₂.1.names.Nodup := by
    rw [midway₂.worked.names_eq]
    exact h.sound.descriptors_distinct
  have last : UnitWorked unit s₂ s' :=
    (Action.keeps_forM fun n mem => keeps_onMember names midway₂.linked.distinct mem
      fun s distinct => Descriptor.worked_build _ .properties distinct).of_answers third (.refl s₂)
  have grown : DraftsGrow s₁.2 s'.2 := midway₂.grown.trans last.2
  rcases holds with none | ⟨n, k, size, around, around', refers, long⟩
  · have itself : Entangled w.descriptors unit root root := ⟨cycle, cycle⟩
    exact absurd itself (none root (mem_primaryKeyOrder.2 itself.dependent))
  · obtain ⟨t, target, here, there, part⟩ := (refers.grow grown).refersToPart
      ((long (mem_primaryKeyOrder.2 around'.dependent)).grow grown)
    exact ⟨n, k, t, target, around, around', here, there, part⟩

/-! ### Units that are not built -/

omit fits in
/-- A member that has not had its turn has a primary key only by its fields. -/
theorem hasPrimaryKey_of_hasKey {d : Descriptor} (found : w.descriptors.get? n = some d)
    (member : n ∈ unit) (fresh : n ∉ done)
    (midway : Midway w.descriptors w.models (w.descriptors, start) done s)
    (key : HasKey w.models s.2 n) : d.hasPrimaryKey = true := by
  obtain ⟨t, known, some⟩ := key
  obtain ⟨_, d', _, found', there⟩ := h.get?_start drafted member
  obtain rfl : d = d' := Option.some.inj (found.symm.trans found')
  rw [knownTable_of_draft ((midway.drafts n fresh).trans there)] at known
  obtain rfl := Option.some.inj known
  exact primaryKey_startTable_ne_nil.1 some

/-- Where a cycle that leads through another member has no key of its own, the first of its members that
has its turn does not end it. -/
theorem not_entangled_of_other (fieldless : ∀ k, Entangled w.descriptors unit root k →
      ∀ d, w.descriptors.get? k = some d → d.hasPrimaryKey = false) {k : String}
    (around : Entangled w.descriptors unit root k) (other : k ≠ root)
    (split : primaryKeyOrder w.descriptors unit = done ++ n :: rest)
    (midway : Midway w.descriptors w.models (w.descriptors, start) done s)
    (none : ∀ k ∈ done, ¬ Entangled w.descriptors unit root k)
    (one : (onMember n (Descriptor.buildPrimaryKey { owner := n, generated := w.models })).Answers
      s () s') : ¬ Entangled w.descriptors unit root n := by
  intro entangled
  obtain ⟨t, edge, apart, around⟩ : ∃ t, Identifies w.descriptors unit n t ∧ t ≠ n
      ∧ Entangled w.descriptors unit root t := by
    by_cases same : k = n
    · have itself : Entangled w.descriptors unit root root :=
        ⟨around.1.trans around.2, around.1.trans around.2⟩
      exact entangled.exists_identifies_other itself (same ▸ other.symm)
    · exact entangled.exists_identifies_other around same
  obtain ⟨side, before, after, owner, target, rfl, _, copied⟩ :=
    h.copied_of_identifies drafted fits split midway one edge
  obtain ⟨_, d, found, _⟩ := around.dependent
  have field := h.hasPrimaryKey_of_hasKey drafted found edge.2.1 (fun early => none _ early around)
    midway (copied.hasKey_before apart)
  rw [fieldless _ around d found] at field
  cases field

/-- A member without a key of its own that identifies itself by nothing but itself does not end its
turn. -/
theorem not_answers_of_itself {d : Descriptor} (found : w.descriptors.get? n = some d)
    (fieldless : d.hasPrimaryKey = false) (itself : ∀ t ∈ d.identifyingTargets, t = n)
    (split : primaryKeyOrder w.descriptors unit = done ++ n :: rest)
    (midway : Midway w.descriptors w.models (w.descriptors, start) done s) :
    ¬ (onMember n (Descriptor.buildPrimaryKey { owner := n, generated := w.models })).Answers
      s () s' := by
  intro one
  obtain ⟨member, d', found', some⟩ : Dependent w.descriptors unit n :=
    mem_primaryKeyOrder.1 (split ▸ List.mem_append_right _ List.mem_cons_self)
  obtain rfl : d = d' := Option.some.inj (found.symm.trans found')
  obtain ⟨_, d', _, found', _, wf, untouched⟩ := h.standing member
  obtain rfl : d = d' := Option.some.inj (found.symm.trans found')
  have fresh := h.not_mem_before split
  have bare : ¬ HasKey w.models s.2 n := by
    intro key
    have field := h.hasPrimaryKey_of_hasKey drafted found member fresh midway key
    rw [fieldless] at field
    cases field
  obtain ⟨t, mem⟩ := List.exists_mem_of_ne_nil _ some
  obtain ⟨side, _, built, forces, wanted⟩ :=
    Descriptor.exists_identifyingSide wf untouched (fits n member d found) mem
  -- Without a key to copy no builder makes one, and so there is none.
  refine (keyPass_buildPrimaryKey.turn_induction h.columns midway (h.known member)
    (mem_drafts drafted member) ((midway.descriptors n fresh).trans found) one
    (I := fun past drafts => ¬ HasKey w.models drafts n ∧
      ∀ side : KeySide, .relationship side.builder ∈ past → side.builder.forcesPrimaryKey = true →
        side.builder.keyFor? d.view ≠ Option.some side.relationship)
    ⟨bare, fun _ mem => absurd mem List.not_mem_nil⟩ ?_ ?_).2.2 side built forces wanted
  · rintro past b drafts idle ⟨keyless, before⟩
    refine ⟨keyless, fun side mem forces wanted => ?_⟩
    rcases List.mem_append.1 mem with early | now
    · exact before side early forces wanted
    · obtain rfl := List.mem_singleton.1 now
      cases (Builder.keySide?_eq_some_iff.2 ⟨rfl, wanted⟩).symm.trans (idle forces)
  · rintro past side later drafts drafts' owner target planned forces wanted copied ⟨keyless, _⟩
    have built : .relationship side.builder ∈ d.plan.builders :=
      planned ▸ List.mem_append_right _ List.mem_cons_self
    have same := itself _ (Descriptor.mem_identifyingTargets_of_side wf (fits n member d found) built
      forces wanted)
    exact absurd ⟨target, same ▸ copied.there, copied.keyed⟩ keyless

/-- A cycle without keys of its own stops the building, if it leads through another member or through
one that identifies itself by nothing else. -/
theorem not_built_of_cycle (cycle : Relation.TransGen (Identifies w.descriptors unit) root root)
    (fieldless : ∀ k, Entangled w.descriptors unit root k →
      ∀ d, w.descriptors.get? k = some d → d.hasPrimaryKey = false)
    (closed : (∃ k, Entangled w.descriptors unit root k ∧ k ≠ root) ∨
      ∀ d, w.descriptors.get? root = some d → ∀ t ∈ d.identifyingTargets, t = root) :
    ¬ (runPhases w.models unit).Answers (w.descriptors, start) () s' := by
  intro built
  obtain ⟨s₁, _, first, _⟩ := answers_runPhases.1 built
  have itself : Entangled w.descriptors unit root root := ⟨cycle, cycle⟩
  refine (h.first_answers drafted
    (I := fun done _ => ∀ k ∈ done, ¬ Entangled w.descriptors unit root k) nofun ?_ first).2 root
    (mem_primaryKeyOrder.2 itself.dependent) itself
  intro done n rest s s' split midway none one k mem
  rcases List.mem_append.1 mem with early | now
  · exact none k early
  obtain rfl := List.mem_singleton.1 now
  by_cases other : ∃ k, Entangled w.descriptors unit root k ∧ k ≠ root
  · obtain ⟨k, around, apart⟩ := other
    exact h.not_entangled_of_other drafted fits fieldless around apart split midway none one
  · intro around
    obtain rfl : k = root := by
      by_contra apart
      exact other ⟨k, around, apart⟩
    obtain ⟨_, d, found, _⟩ := around.dependent
    exact h.not_answers_of_itself drafted fits found (fieldless k around d found)
      (closed.resolve_left other d found) split midway one

end BoundUnit

end Generation

/-! ## Requests for units with cycles -/

namespace BuiltUnit

open Generation

variable {ctx : GenerationContext} {w w' : Workspace} {unit : List String} {n : String}
  {D' D₁ : Roster Descriptor} {start finished : Roster Model}

/-- The table of a member in the new cache is the one that was built. -/
theorem tablesOf_eq_known (built : BuiltUnit ctx w w' unit D' start finished D₁) (member : n ∈ unit) :
    tablesOf w'.models n = knownTable w.models finished n := by
  have cached : w'.models.get? n = (w.models.get? n).or (finished.get? n) :=
    built.compiled.get?_models n
  rw [tablesOf, knownTable, cached, built.uncached member, Option.none_or, Option.or_none]

end BuiltUnit

namespace Compiler

open Generation

/-- Wherever a history leads: a bound unit with a primary key that depends on itself is compiled only to
tables of which one, around the cycle, refers to a part of a primary key.  If it is refused, nothing is
cached and there is a fault; and it is refused if no member of the cycle has a key of its own, unless a
single one identifies itself by itself and by others. -/
theorem cyclic_keys_refer_to_part (settings : Settings) (requests : List Request) (c : Compiler)
    (reached : (new settings).run requests = c) (name : String) (resource : Resource)
    (declared : c.resources.get? name = some resource) (concrete : resource.isAbstract = false)
    (uncached : c.model? name = none) (unit : List String) (D' : Roster Descriptor)
    (bound : (Binding.bind c.resources c.workspace.models name).Answers c.workspace.descriptors unit D')
    (fits : ∀ n ∈ unit, ∀ d, D'.get? n = some d → d.KeysFit) (root : String)
    (cycle : Relation.TransGen (Identifies D' unit) root root) :
    (∀ model c', (generate name).Answers c model c' → ∃ n k t target,
      Entangled D' unit root n ∧ Entangled D' unit root k
        ∧ tablesOf c'.workspace.models n = some t ∧ tablesOf c'.workspace.models k = some target
        ∧ t.RefersToPart target) ∧
    (∀ e c', (generate name).Fails c e c' → c'.workspace.models = c.workspace.models ∧
      (.unknownGenerator c.settings.generatorName = e ∨ ∃ ctx, c.generationContext = .ok ctx
        ∧ Fault ctx { c.workspace with descriptors := D' } unit e)) ∧
    ((∀ k, Entangled D' unit root k → ∀ d, D'.get? k = some d → d.hasPrimaryKey = false) →
      ((∃ k, Entangled D' unit root k ∧ k ≠ root) ∨
        ∀ d, D'.get? root = some d → ∀ t ∈ d.identifyingTargets, t = root) →
      ∃ e c', (generate name).Fails c e c') := by
  refine ⟨fun model c' compiled => ?_, fun e c' failed => ?_, fun fieldless closed => ?_⟩
  · obtain ⟨ctx, start, finished, D₁, known, built⟩ :=
      exists_builtUnit reached declared concrete uncached bound compiled
    have ready := boundUnit_of_bind reached declared concrete uncached bound known
    obtain ⟨n, k, t, target, around, around', here, there, part⟩ :=
      ready.refersToPart_of_built built.compiled.drafted fits cycle built.compiled.built
    refine ⟨n, k, t, target, around, around', ?_, ?_, part⟩
    · exact (built.tablesOf_eq_known around.dependent.1).trans here
    · exact (built.tablesOf_eq_known around'.dependent.1).trans there
  · constructor
    · rcases fails_generating.1 failed with ⟨_, rfl⟩ | ⟨ctx, w', known, ends, rfl⟩
      · rfl
      · exact (generate_refused (sound_of_run reached known) ends).models_eq
    · refine (fails_compile_of_fails reached declared concrete uncached bound failed).imp
        (generationContext_eq_error ·.1) ?_
      rintro ⟨ctx, _, known, uncompiled, _⟩
      have ready := boundUnit_of_bind reached declared concrete uncached bound known
      exact ⟨ctx, known, ready.fault_of_uncompiled uncompiled⟩
  · rcases Action.answers_or_fails (generate name) c with ⟨model, c', compiled⟩ | failed
    · obtain ⟨ctx, start, finished, D₁, known, built⟩ :=
        exists_builtUnit reached declared concrete uncached bound compiled
      have ready := boundUnit_of_bind reached declared concrete uncached bound known
      exact absurd built.compiled.built
        (ready.not_built_of_cycle built.compiled.drafted fits cycle fieldless closed)
    · exact failed

/-- Seats numbered within their rooms, and rooms by the seat at their door. -/
def roomsAndSeats : List Request :=
  [.declare { name := "Room"
              properties := [⟨"door", 1, .relationship
                { Relationship.new .manyToOne "Seat" with identifying := true }⟩] },
    .declare { name := "Seat"
               properties := [⟨"room", 2, .relationship
                { Relationship.new .manyToOne "Room" with identifying := true }⟩] }]

/-- Rooms and seats cannot be compiled, since each waits for the key of the other. -/
theorem cyclic_keys_refer_to_part_rooms :
    ∃ c unit D' e c', (new {}).run roomsAndSeats = c
      ∧ (Binding.bind c.resources c.workspace.models "Room").Answers c.workspace.descriptors unit D'
      ∧ (∀ n ∈ unit, ∀ d, D'.get? n = some d → d.KeysFit)
      ∧ Relation.TransGen (Identifies D' unit) "Room" "Room"
      ∧ (generate "Room").Fails c e c' ∧ c'.workspace.models = c.workspace.models := by
  obtain ⟨c, reached⟩ : ∃ c, (new {}).run roomsAndSeats = c := ⟨_, rfl⟩
  obtain ⟨r, declared, concrete, uncached⟩ : ∃ r, c.resources.get? "Room" = some r
      ∧ r.isAbstract = false ∧ c.model? "Room" = none :=
    exists_requestable (by rw [← reached]; cbv)
  obtain ⟨unit, D', bound, order⟩ := Action.exists_answers_of_any (p := (· == ["Room", "Seat"]))
    (show (Binding.bind c.resources c.workspace.models "Room"
      c.workspace.descriptors).result.toOption.any _ = true by rw [← reached]; cbv)
  obtain rfl := beq_iff_eq.1 order
  have facts : (let D := (Binding.bind c.resources c.workspace.models "Room"
        c.workspace.descriptors).state
      D.entries.all (fun p => !p.2.hasPrimaryKey)
        && (D.get? "Room").any (·.identifyingTargets.contains "Seat")
        && (D.get? "Seat").any (·.identifyingTargets.contains "Room")) = true := by
    rw [← reached]
    cbv
  simp only [bound.2, Bool.and_eq_true] at facts
  obtain ⟨⟨fieldless, door⟩, room⟩ := facts
  have away : Identifies D' ["Room", "Seat"] "Room" "Seat" :=
    identifies_of_any (by decide) (by decide) door
  have back : Identifies D' ["Room", "Seat"] "Seat" "Room" :=
    identifies_of_any (by decide) (by decide) room
  have cycle : Relation.TransGen (Identifies D' ["Room", "Seat"]) "Room" "Room" :=
    .tail (.single away) back
  have fits := keysFit_of_bind {} (by simp [roomsAndSeats, Request.Fits]) reached bound
  obtain ⟨_, refused, unbuilt⟩ := cyclic_keys_refer_to_part {} roomsAndSeats c reached "Room" r declared
    concrete uncached _ D' bound fits "Room" cycle
  obtain ⟨e, c', failed⟩ := unbuilt
    (fun k _ d found => by simpa using List.all_eq_true.1 fieldless _ (Roster.mem_entries_of_get? found))
    (.inl ⟨"Seat", ⟨.single away, .single back⟩, by decide⟩)
  exact ⟨c, _, D', e, c', reached, bound, fits, cycle, failed, (refused e c' failed).1⟩

/-- Nodes with a number of their own that are identified by their parent besides. -/
def treeNodes : List Request :=
  [.declare { name := "Node"
              properties := [⟨"id", 1, .field { storage := .integer
                                                options := { primaryKey := true } }⟩,
                ⟨"parent", 2, .relationship
                  { Relationship.new .manyToOne "Node" with identifying := true }⟩] }]

/-- The key of a node copies the number of its parent before it becomes part of the primary key itself,
so that the table of nodes refers to a part of its own primary key. -/
theorem tree_nodes_refer_to_part :
    ∃ c unit D' model c' t, (new {}).run treeNodes = c
      ∧ (Binding.bind c.resources c.workspace.models "Node").Answers c.workspace.descriptors unit D'
      ∧ Relation.TransGen (Identifies D' unit) "Node" "Node"
      ∧ (generate "Node").Answers c model c'
      ∧ tablesOf c'.workspace.models "Node" = some t ∧ t.RefersToPart t := by
  obtain ⟨c, reached⟩ : ∃ c, (new {}).run treeNodes = c := ⟨_, rfl⟩
  obtain ⟨model, c', compiled⟩ := Action.exists_answers_of_isOk
    (show (generate "Node" c).result.isOk = true by rw [← reached]; cbv)
  obtain ⟨unit, D', bound, order⟩ := Action.exists_answers_of_any (p := (· == ["Node"]))
    (show (Binding.bind c.resources c.workspace.models "Node"
      c.workspace.descriptors).result.toOption.any _ = true by rw [← reached]; cbv)
  obtain rfl := beq_iff_eq.1 order
  have edge : ((Binding.bind c.resources c.workspace.models "Node"
      c.workspace.descriptors).state.get? "Node").any (·.identifyingTargets.contains "Node") = true := by
    rw [← reached]
    cbv
  rw [bound.2] at edge
  have table : (tablesOf (generate "Node" c).state.workspace.models "Node").any (fun t =>
      t.primaryKey.map (·.name) == ["id"] ++ ["parent_id"] && t.constraints.any fun key =>
        key.referredTable == t.fullName && key.referredColumns == ["id"]) = true := by
    rw [← reached]
    cbv
  rw [compiled.2] at table
  obtain ⟨t, cached, shape⟩ := (Option.any_eq_true _ _).1 table
  simp only [Bool.and_eq_true, beq_iff_eq, List.any_eq_true] at shape
  obtain ⟨keys, key, mem, refers, columns⟩ := shape
  refine ⟨c, _, D', model, c', t, reached, bound, ?_, compiled, cached, key, mem, refers, ?_,
    ["parent_id"], by simp, ?_⟩
  · exact .single (identifies_of_any (by decide) (by decide) edge)
  · simp [columns]
  · rw [keys, columns]

end Compiler

end ResourceTables
