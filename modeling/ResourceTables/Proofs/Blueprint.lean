/-
# `ResourceTables.Proofs.Blueprint` — what a unit becomes, whatever order its members are built in

The table of a member is drawn from its fields and the finished primary keys of its targets: first the
keys that join its own primary key, then the others, each in the order of the builders.  Where no
primary key depends on itself there is one account of all keys that agrees with itself; building
succeeds just if every member can be drawn by it, and ends in what is drawn.
-/
import ResourceTables.Proofs.Keys
import ResourceTables.Proofs.Ordering
import Mathlib.Logic.Function.Basic

namespace ResourceTables

/-! ## The state of building as a function of names -/

/-- How far a member is built: its builders, its table and its properties. -/
structure Progress where
  builders : List Builder
  table : Table
  properties : List MappedProperty

namespace Progress

variable (p : Progress) (refs : String → Option Table) (view : PropertyView)
  (selected : Builder → Bool)

/-- The sides whose keys a pass over the builders makes. -/
def sides : List KeySide := Builder.keySides view selected p.builders

/-- The member once a pass has made the keys of the selected builders. -/
def keyed : Progress :=
  { p with
    builders := p.builders.map fun b => if selected b then b.keyed refs p.table view else b
    table := p.table.withKeys refs (p.sides view selected) }

/-- A pass can make the keys: every target has a primary key, and all columns get names of their
own. -/
def Keyable : Prop :=
  (∀ s ∈ p.sides view selected, s.Keyed refs) ∧ (p.keyed refs view selected).table.columnNames.Nodup

/-- The member once a pass has made the properties, by the tables of the drafts. -/
def mapped (p : Progress) (site : BuildSite) (view : PropertyView) (drafts : Roster Model) :
    Progress :=
  { p with properties := Builder.mappedAll site view drafts p.builders }

end Progress

namespace Generation

variable {D : Roster Descriptor} {start generated : Roster Model} {unit : List String}
  {σ : String → Progress} {n : String} {d : Descriptor} {m : Model} {p : Progress}

/-- The descriptors and drafts of a unit whose members have got so far. -/
def stateOf (D : Roster Descriptor) (start : Roster Model) (σ : String → Progress) :
    Roster Descriptor × Roster Model :=
  (D.mapValues fun n d => if n ∈ start.names then d.withBuilders (σ n).builders else d,
    start.mapValues fun n m =>
      { m with table := some (σ n).table, properties := (σ n).properties })

theorem get?_descriptors_stateOf (found : D.get? n = some d) (member : n ∈ start.names) :
    (stateOf D start σ).1.get? n = some (d.withBuilders (σ n).builders) := by
  rw [stateOf, Roster.get?_mapValues, found, Option.map_some, if_pos member]

theorem get?_drafts_stateOf (found : start.get? n = some m) :
    (stateOf D start σ).2.get? n
      = some { m with table := some (σ n).table, properties := (σ n).properties } := by
  rw [stateOf, Roster.get?_mapValues, found, Option.map_some]

theorem names_drafts_stateOf : (stateOf D start σ).2.names = start.names :=
  Roster.names_mapValues _ _

/-- The table of a name in the middle of building. -/
theorem knownTable_stateOf (x : String) :
    knownTable generated (stateOf D start σ).2 x
      = if x ∈ start.names then some (σ x).table else (generated.get? x).bind (·.table) := by
  by_cases member : x ∈ start.names
  · obtain ⟨m, found⟩ := Roster.exists_get?_of_mem member
    rw [if_pos member, knownTable_of_draft (get?_drafts_stateOf found)]
  · have absent : (stateOf D start σ).2.get? x = none := by
      rw [Roster.get?_eq_none_iff, names_drafts_stateOf]
      exact member
    rw [if_neg member, knownTable, absent, Option.none_or]

theorem ownerTable_stateOf {site : BuildSite} (member : site.owner ∈ start.names) :
    site.ownerTable (stateOf D start σ).2 = .ok (σ site.owner).table := by
  obtain ⟨m, found⟩ := Roster.exists_get?_of_mem member
  exact BuildSite.ownerTable_eq_ok.2 ⟨_, get?_drafts_stateOf found, rfl⟩

variable (σ) in
/-- Building one member moves its descriptor on. -/
theorem modify_descriptors_stateOf (distinct : D.names.Nodup) (found : D.get? n = some d)
    (member : n ∈ start.names) (p : Progress) :
    ((stateOf D start σ).1.modify n fun _ => d.withBuilders p.builders)
      = (stateOf D start (Function.update σ n p)).1 := by
  simp only [stateOf, Roster.modify_mapValues]
  refine Roster.mapValues_congr (fun k d' there => ?_) distinct
  by_cases same : k = n
  · subst same
    rw [found, Option.some.injEq] at there
    subst there
    simp [member]
  · simp [same]

/-- Building one member moves its draft on. -/
theorem modify_drafts_stateOf {f : Model → Model} (p : Progress)
    (moves : ∀ m : Model, f { m with table := some (σ n).table, properties := (σ n).properties }
      = { m with table := some p.table, properties := p.properties }) :
    (stateOf D start σ).2.modify n f = (stateOf D start (Function.update σ n p)).2 := by
  simp only [stateOf, Roster.modify_mapValues]
  congr 1
  funext k m
  by_cases same : k = n
  · subst same
    simp [moves]
  · simp [same]

/-- The descriptor under a name; what it is under a name without one does not matter. -/
def described (D : Roster Descriptor) (n : String) : Descriptor :=
  (D.get? n).getD { resource := n, options := {} }

/-- The table of the draft under a name; what it is under a name without one does not matter. -/
def drafted (start : Roster Model) (n : String) : Table :=
  ((start.get? n).bind (·.table)).getD { name := n, schema := none, columns := [], constraints := [] }

theorem described_eq (found : D.get? n = some d) : described D n = d := by
  rw [described, found, Option.getD_some]

theorem drafted_eq {t : Table} (found : start.get? n = some m) (table : m.table = some t) :
    drafted start n = t := by
  rw [drafted, found, Option.bind_some, table, Option.getD_some]

/-! ## Passes -/

/-- A step that makes the keys of the selected builders of a descriptor. -/
def MakesKeys (selected : Builder → Bool)
    (x : BuildSite → Action (Descriptor × Roster Model) Unit) : Prop :=
  ∃ step : BuildSite → PropertyView → Action (Builder × Roster Model) Unit,
    (∀ site view, Builder.Selects site view selected (step site view)) ∧
    ∀ site d drafts s', (x site).Answers (d, drafts) () s' ↔
      ∃ builders drafts', (Action.onEach (step site d.view)).Answers (d.plan.builders, drafts) ()
        (builders, drafts') ∧ (d.withBuilders builders, drafts') = s'

theorem makesKeys_buildPrimaryKey :
    MakesKeys (·.forcesPrimaryKey) Descriptor.buildPrimaryKey :=
  ⟨Builder.primaryKeyStep, fun _ _ => Builder.selects_primaryKeyStep,
    fun _ _ _ _ => Descriptor.answers_buildPrimaryKey⟩

theorem makesKeys_build : MakesKeys (fun _ => true) (Descriptor.build .keyColumns) :=
  ⟨Builder.step .keyColumns, fun _ _ => Builder.selects_step, fun _ _ _ _ => Descriptor.answers_build⟩

/-- A pass in which every member gets from one state to the next if its condition holds. -/
theorem answers_pass {x : BuildSite → Action (Descriptor × Roster Model) Unit}
    {names : List String} (after : String → Progress) (can : String → Prop)
    {s' : Roster Descriptor × Roster Model}
    (one : ∀ done n rest s', names = done ++ n :: rest →
      ((onMember n (x { owner := n, generated })).Answers
          (stateOf D start fun k => if k ∈ done then after k else σ k) () s' ↔
        can n ∧ stateOf D start (fun k => if k ∈ done ++ [n] then after k else σ k) = s')) :
    (pass generated x names).Answers (stateOf D start σ) () s' ↔
      (∀ n ∈ names, can n) ∧
        stateOf D start (fun k => if k ∈ names then after k else σ k) = s' := by
  suffices ∀ rest done, names = done ++ rest →
      ((pass generated x rest).Answers
          (stateOf D start fun k => if k ∈ done then after k else σ k) () s' ↔
        (∀ n ∈ rest, can n) ∧
          stateOf D start (fun k => if k ∈ names then after k else σ k) = s') by
    simpa using this names [] rfl
  intro rest
  induction rest with
  | nil =>
      intro done split
      rw [List.append_nil] at split
      simp [pass, split]
  | cons n rest ih =>
      intro done split
      unfold pass at ih ⊢
      rw [Action.answers_forM_cons]
      simp only [one done n rest _ split]
      have later := ih (done ++ [n]) (by simp [split])
      constructor
      · rintro ⟨_, ⟨first, rfl⟩, others⟩
        obtain ⟨cans, same⟩ := later.1 others
        exact ⟨List.forall_mem_cons.2 ⟨first, cans⟩, same⟩
      · rintro ⟨cans, same⟩
        obtain ⟨first, cans⟩ := List.forall_mem_cons.1 cans
        exact ⟨_, ⟨first, rfl⟩, later.2 ⟨cans, same⟩⟩

/-- One member in a pass that makes keys. -/
theorem answers_keyMember {selected : Builder → Bool}
    {x : BuildSite → Action (Descriptor × Roster Model) Unit} (makes : MakesKeys selected x)
    (D_distinct : D.names.Nodup) (start_distinct : start.names.Nodup)
    (found : D.get? n = some (described D n)) (member : n ∈ start.names) {p : Progress}
    (now : σ n = p) (names : p.table.columnNames.Nodup) {refs : String → Option Table}
    (agree : ∀ s ∈ p.sides (described D n).view selected,
      (knownTable generated (stateOf D start σ).2 s.relationship.target).map Table.reference
        = (refs s.relationship.target).map Table.reference)
    (steady : ∀ s ∈ p.sides (described D n).view selected, s.builder.forcesPrimaryKey = true →
      ∀ s' ∈ p.sides (described D n).view selected, s'.relationship.target ≠ n)
    (s' : Roster Descriptor × Roster Model) :
    (onMember n (x { owner := n, generated })).Answers (stateOf D start σ) () s' ↔
      p.Keyable refs (described D n).view selected ∧ stateOf D start
        (Function.update σ n (p.keyed refs (described D n).view selected)) = s' := by
  subst now
  obtain ⟨step, selects, builds⟩ := makes
  have here : BuildSite.ownerTable { owner := n, generated } (stateOf D start σ).2
      = .ok (σ n).table := ownerTable_stateOf member
  have each := Builder.answers_eachKey
    (selects { owner := n, generated } (described D n).view)
    (by rw [names_drafts_stateOf]; exact start_distinct) here names agree steady
  have descriptors := modify_descriptors_stateOf σ D_distinct found member
    ((σ n).keyed refs (described D n).view selected)
  have drafts : (stateOf D start σ).2.modify n (fun m =>
      { m with table := some ((σ n).keyed refs (described D n).view selected).table })
        = (stateOf D start
            (Function.update σ n ((σ n).keyed refs (described D n).view selected))).2 :=
    modify_drafts_stateOf _ fun _ => rfl
  rw [← Prod.mk.eta (p := stateOf D start σ), answers_onMember]
  simp only [get?_descriptors_stateOf found member, Option.some.injEq, exists_and_left,
    exists_eq_left', builds]
  constructor
  · rintro ⟨_, _, ⟨builders, drafts', made, same⟩, rfl⟩
    cases same
    obtain ⟨keyed, free, same⟩ := (each _).1 made
    cases same
    exact ⟨⟨keyed, free⟩, Prod.ext descriptors.symm drafts.symm⟩
  · rintro ⟨⟨keyed, free⟩, rfl⟩
    exact ⟨_, _, ⟨_, _, (each _).2 ⟨keyed, free, rfl⟩, rfl⟩, Prod.ext descriptors drafts⟩

/-- One member in the pass that makes properties. -/
theorem answers_propertyMember (D_distinct : D.names.Nodup) (start_distinct : start.names.Nodup)
    (found : D.get? n = some (described D n)) (member : n ∈ start.names) (now : σ n = p)
    (bare : p.properties = []) (names : (p.builders.map (·.name)).Nodup)
    (s' : Roster Descriptor × Roster Model) :
    (onMember n (Descriptor.build .properties { owner := n, generated })).Answers
        (stateOf D start σ) () s' ↔
      (∀ b ∈ p.builders, ∃ q, b.mapped { owner := n, generated } (described D n).view
          (stateOf D start σ).2 = .ok q) ∧
        stateOf D start (Function.update σ n (p.mapped { owner := n, generated } (described D n).view
          (stateOf D start σ).2)) = s' := by
  subst now
  obtain ⟨m, there⟩ := Roster.exists_get?_of_mem member
  have here : (stateOf D start σ).2.get? n = _ := get?_drafts_stateOf there
  have each := Builder.answers_eachMapped { owner := n, generated } (described D n).view
    (by rw [names_drafts_stateOf]; exact start_distinct) here bare names
  generalize ends : (σ n).mapped { owner := n, generated } (described D n).view
    (stateOf D start σ).2 = p'
  have descriptors := modify_descriptors_stateOf σ D_distinct found member p'
  have drafts : Builder.withProperties { owner := n, generated } (stateOf D start σ).2
      p'.properties = (stateOf D start (Function.update σ n p')).2 := by
    refine modify_drafts_stateOf p' fun m => ?_
    rw [← ends, bare, List.nil_append]
    rfl
  rw [← ends] at descriptors drafts ⊢
  rw [← Prod.mk.eta (p := stateOf D start σ), answers_onMember]
  simp only [get?_descriptors_stateOf found member, Option.some.injEq, exists_and_left,
    exists_eq_left', Descriptor.answers_build]
  constructor
  · rintro ⟨_, _, ⟨builders, drafts', made, same⟩, rfl⟩
    cases same
    obtain ⟨all, same⟩ := (each _).1 made
    cases same
    exact ⟨all, Prod.ext descriptors.symm drafts.symm⟩
  · rintro ⟨all, rfl⟩
    exact ⟨_, _, ⟨_, _, (each _).2 ⟨all, rfl⟩, rfl⟩, Prod.ext descriptors drafts⟩

theorem update_ite {done : List String} {after : String → Progress} :
    Function.update (fun k => if k ∈ done then after k else σ k) n (after n)
      = fun k => if k ∈ done ++ [n] then after k else σ k := by
  funext k
  by_cases same : k = n
  · subst same
    simp
  · simp [same]

/-! ## Stages -/

/-- A member before the first pass. -/
def begun (D : Roster Descriptor) (start : Roster Model) (n : String) : Progress :=
  { builders := (described D n).plan.builders, table := drafted start n, properties := [] }

/-- A member with the keys that join its own primary key. -/
def identified (D : Roster Descriptor) (start : Roster Model) (refs : String → Option Table)
    (n : String) : Progress :=
  (begun D start n).keyed refs (described D n).view (·.forcesPrimaryKey)

/-- A member with all its keys. -/
def linked (D : Roster Descriptor) (start : Roster Model) (refs : String → Option Table)
    (n : String) : Progress :=
  (identified D start refs n).keyed refs (described D n).view fun _ => true

/-- The sides of a member whose keys join its own primary key, in the order of the builders. -/
def identifyingSides (D : Roster Descriptor) (n : String) : List KeySide :=
  Builder.keySides (described D n).view (·.forcesPrimaryKey) (described D n).plan.builders

/-- The other sides of a member that have a key to make, in the order of the builders. -/
def plainSides (D : Roster Descriptor) (n : String) : List KeySide :=
  Builder.keySides (described D n).view (!·.forcesPrimaryKey) (described D n).plan.builders

/-- A unit whose members are ready to be built. -/
structure Ready (D : Roster Descriptor) (unit : List String) (start : Roster Model) : Prop where
  descriptors_distinct : D.names.Nodup
  distinct : unit.Nodup
  names_eq : start.names = unit
  described : ∀ n ∈ unit, ∃ d, D.get? n = some d ∧ d.WellFormed ∧ d.Fresh ∧ d.KeysFit
  drafted : ∀ n ∈ unit, ∃ m t, start.get? n = some m ∧ m.table = some t ∧ m.properties = []
    ∧ t.columnNames.Nodup

/-- An account of tables that agrees with itself: on what keys copy, each member's table is the one
that the account draws, and the table of any other name is the one generated before. -/
structure Account (D : Roster Descriptor) (unit : List String) (start generated : Roster Model)
    (refs : String → Option Table) : Prop where
  inside : ∀ n ∈ unit, (refs n).map Table.reference
    = some (identified D start refs n).table.reference
  outside : ∀ n, n ∉ unit → (refs n).map Table.reference
    = ((generated.get? n).bind (·.table)).map Table.reference

theorem Ready.found (ready : Ready D unit start) (member : n ∈ unit) :
    D.get? n = some (Generation.described D n) := by
  obtain ⟨d, found, _⟩ := ready.described n member
  rw [described_eq found, found]

section Stages

variable {refs : String → Option Table} (ready : Ready D unit start)

theorem stateOf_congr {σ' : String → Progress} (distinct : D.names.Nodup)
    (same : ∀ n ∈ start.names, σ n = σ' n) : stateOf D start σ = stateOf D start σ' := by
  simp only [stateOf, Prod.mk.injEq]
  constructor
  · refine Roster.mapValues_congr (fun n d _ => ?_) distinct
    by_cases member : n ∈ start.names
    · rw [if_pos member, if_pos member, same n member]
    · rw [if_neg member, if_neg member]
  · simp only [Roster.mapValues, Roster.mk.injEq]
    refine List.map_congr_left fun e mem => ?_
    rw [same e.1 (List.mem_map_of_mem mem)]

include ready in
/-- Before the first pass the state is what it is. -/
theorem stateOf_begun : stateOf D start (begun D start) = (D, start) := by
  have start_distinct : start.names.Nodup := ready.names_eq ▸ ready.distinct
  simp only [stateOf, Prod.mk.injEq]
  constructor
  · refine Roster.mapValues_eq_self (fun n d found => ?_) ready.descriptors_distinct
    by_cases member : n ∈ start.names
    · rw [if_pos member, begun, described_eq found]
      rfl
    · rw [if_neg member]
  · refine Roster.mapValues_eq_self (fun n m found => ?_) start_distinct
    obtain ⟨m', t, found', table, properties, _⟩ :=
      ready.drafted n (ready.names_eq ▸ Roster.mem_names_of_get? found)
    rw [found, Option.some.injEq] at found'
    subst found'
    rw [begun, drafted_eq found table, ← table, ← properties]

/-! ### Sides -/

theorem sides_begun (n : String) :
    (begun D start n).sides (described D n).view (·.forcesPrimaryKey) = identifyingSides D n := rfl

include ready in
/-- A target whose key joins the primary key is one that the resource identifies itself by. -/
theorem target_of_identifyingSides (member : n ∈ unit) {s : KeySide}
    (mem : s ∈ identifyingSides D n) :
    ∃ d, D.get? n = some d ∧ s.relationship.target ∈ d.identifyingTargets := by
  obtain ⟨d, found, wf, _, fits⟩ := ready.described n member
  rw [identifyingSides, described_eq found] at mem
  obtain ⟨built, forces, wanted⟩ := Builder.mem_keySides.1 mem
  obtain ⟨_, named, hosts⟩ := Builder.keyFor?_eq_some_iff.1 wanted
  rw [Descriptor.view_relationship?, wf.relationship?_eq_some_iff] at named
  obtain ⟨e, inside, name, same⟩ := named
  have identifying := fits s.builder e built inside name (same ▸ hosts)
  refine ⟨d, found, List.mem_map.2 ⟨e, List.mem_filter.2 ⟨inside, ?_⟩, by rw [same]⟩⟩
  change s.builder.forcesPrimaryKey = true at forces
  rw [← identifying, forces, same, hosts]
  rfl

include ready in
theorem dependent_of_identifyingSides (member : n ∈ unit) {s : KeySide}
    (mem : s ∈ identifyingSides D n) : Dependent D unit n := by
  obtain ⟨d, found, target⟩ := target_of_identifyingSides ready member mem
  exact ⟨member, d, found, List.ne_nil_of_mem target⟩

include ready in
/-- A member that copies no key is as it was. -/
theorem identified_of_independent (member : n ∈ unit) (independent : ¬ Dependent D unit n) :
    identified D start refs n = begun D start n := by
  have none : identifyingSides D n = [] :=
    List.eq_nil_iff_forall_not_mem.2 fun s mem =>
      independent (dependent_of_identifyingSides ready member mem)
  have builders : (begun D start n).builders.map (fun b => if b.forcesPrimaryKey then
      b.keyed refs (begun D start n).table (described D n).view else b)
      = (begun D start n).builders := by
    conv => rhs; rw [← List.map_id (begun D start n).builders]
    refine List.map_congr_left fun b mem => ?_
    by_cases forces : b.forcesPrimaryKey
    · rw [if_pos forces, id]
      refine Builder.keyed_of_none ?_
      cases side : b.keySide? (described D n).view with
      | none => rfl
      | some s =>
          obtain ⟨rfl, wanted⟩ := Builder.keySide?_eq_some_iff.1 side
          have : s ∈ identifyingSides D n := Builder.mem_keySides.2 ⟨mem, forces, wanted⟩
          rw [none] at this
          cases this
    · rw [if_neg forces, id]
  rw [identified, Progress.keyed, builders, sides_begun, none, Table.withKeys_nil]

include ready in
theorem columnNames_begun (member : n ∈ unit) : (begun D start n).table.columnNames.Nodup := by
  obtain ⟨m, t, found, table, _, names⟩ := ready.drafted n member
  rw [begun, drafted_eq found table]
  exact names

include ready in
/-- Nothing stands in the way of a member that copies no key. -/
theorem keyable_of_independent (member : n ∈ unit) (independent : ¬ Dependent D unit n) :
    (begun D start n).Keyable refs (described D n).view (·.forcesPrimaryKey) := by
  refine ⟨fun s mem => ?_, ?_⟩
  · exact absurd (dependent_of_identifyingSides ready member mem) independent
  · change (identified D start refs n).table.columnNames.Nodup
    rw [identified_of_independent ready member independent]
    exact columnNames_begun ready member

/-! ### The first pass -/

section Acyclic

variable (account : Account D unit start generated refs)
  (acyclic : ∀ n, ¬ Relation.TransGen (Identifies D unit) n n)

include ready account acyclic in
/-- Without cycles the first pass gives every member the keys that join its own, all of them copied
from finished keys. -/
theorem answers_firstPass {s' : Roster Descriptor × Roster Model} :
    (pass generated Descriptor.buildPrimaryKey (primaryKeyOrder D unit)).Answers (D, start) () s' ↔
      (∀ n ∈ unit, (begun D start n).Keyable refs (described D n).view (·.forcesPrimaryKey)) ∧
        stateOf D start (identified D start refs) = s' := by
  have start_distinct : start.names.Nodup := ready.names_eq ▸ ready.distinct
  have order := nodup_primaryKeyOrder (D := D) ready.distinct
  rw [← stateOf_begun ready, answers_pass (identified D start refs)
    fun n => (begun D start n).Keyable refs (described D n).view (·.forcesPrimaryKey)]
  · have ends : stateOf D start (fun k => if k ∈ primaryKeyOrder D unit then
        identified D start refs k else begun D start k) = stateOf D start (identified D start refs) := by
      refine stateOf_congr ready.descriptors_distinct fun n member => ?_
      by_cases mem : n ∈ primaryKeyOrder D unit
      · rw [if_pos mem]
      · rw [if_neg mem, identified_of_independent ready (ready.names_eq ▸ member)]
        exact fun dependent => mem (mem_primaryKeyOrder.2 dependent)
    rw [ends]
    refine and_congr_left fun _ => ⟨fun each n member => ?_, fun each n mem => ?_⟩
    · by_cases dependent : Dependent D unit n
      · exact each n (mem_primaryKeyOrder.2 dependent)
      · exact keyable_of_independent ready member dependent
    · exact each n (mem_primaryKeyOrder.1 mem).1
  · intro done n rest s' split
    have dependent : Dependent D unit n := mem_primaryKeyOrder.1 (by rw [split]; simp)
    have later : n ∉ done := by
      rw [split] at order
      intro early
      exact (List.nodup_append.1 order).2.2 n early n (by simp) rfl
    rw [← update_ite]
    refine answers_keyMember makesKeys_buildPrimaryKey ready.descriptors_distinct start_distinct
      (ready.found dependent.1) (ready.names_eq ▸ dependent.1) (if_neg later)
      (columnNames_begun ready dependent.1) ?_ ?_ s'
    · intro s mem
      obtain ⟨d, found, target⟩ := target_of_identifyingSides ready dependent.1 mem
      rw [knownTable_stateOf, ready.names_eq]
      by_cases inside : s.relationship.target ∈ unit
      · rw [if_pos inside, account.inside _ inside, Option.map_some]
        by_cases early : s.relationship.target ∈ done
        · rw [if_pos early]
        · rw [if_neg early, identified_of_independent ready inside]
          intro waits
          exact early (primaryKeyOrder_after acyclic split found target waits)
      · rw [if_neg inside, account.outside _ inside]
    · intro s _ _ s' mem' same
      obtain ⟨d, found, target⟩ := target_of_identifyingSides ready dependent.1 mem'
      rw [same] at target
      exact acyclic n (.single ⟨dependent.1, dependent.1, d, found, target⟩)

end Acyclic

/-! ### The second pass -/

section Keyable

variable (first : ∀ n ∈ unit,
  (begun D start n).Keyable refs (described D n).view (·.forcesPrimaryKey))

include first in
theorem sides_identified (member : n ∈ unit) :
    (identified D start refs n).sides (described D n).view (fun _ => true) = plainSides D n :=
  Builder.keySides_keyed (first n member).1

theorem not_forcesPrimaryKey_of_plainSides {s : KeySide} (mem : s ∈ plainSides D n) :
    s.builder.forcesPrimaryKey = false := by
  have plain := (Builder.mem_keySides.1 mem).2.1
  simpa [Builder.forcesPrimaryKey] using plain

include first in
/-- The table of a member with all its keys. -/
theorem table_linked (member : n ∈ unit) :
    (linked D start refs n).table
      = (drafted start n).withKeys refs (identifyingSides D n ++ plainSides D n) := by
  rw [linked, Progress.keyed, sides_identified first member]
  exact Table.withKeys_append _ _

include first in
/-- Every builder of a member has made its key, if it has one to make. -/
theorem builders_linked (member : n ∈ unit) :
    (linked D start refs n).builders = (described D n).plan.builders.map
      (·.keyed refs (drafted start n) (described D n).view) := by
  simp only [linked, identified, Progress.keyed, begun, List.map_map, if_true]
  refine List.map_congr_left fun b mem => ?_
  by_cases forces : b.forcesPrimaryKey
  · simp only [Function.comp_apply, forces, if_true]
    refine Builder.keyed_keyed ?_
    cases side : b.keySide? (described D n).view with
    | none => exact .inl rfl
    | some s =>
        obtain ⟨rfl, wanted⟩ := Builder.keySide?_eq_some_iff.1 side
        exact .inr ⟨s, rfl, (first n member).1 s (Builder.mem_keySides.2 ⟨mem, forces, wanted⟩)⟩
  · simp only [Function.comp_apply, forces, Bool.false_eq_true, if_false]
    exact Builder.keyed_withKeys _

include first in
/-- The keys of the second pass change nothing that other keys copy. -/
theorem reference_linked (member : n ∈ unit) :
    (linked D start refs n).table.reference = (identified D start refs n).table.reference := by
  rw [linked, Progress.keyed, sides_identified first member]
  exact Table.reference_withKeys_plain fun s mem => not_forcesPrimaryKey_of_plainSides mem

include ready first in
/-- The second pass gives every member its other keys. -/
theorem answers_secondPass (account : Account D unit start generated refs)
    {s' : Roster Descriptor × Roster Model} :
    (pass generated (Descriptor.build .keyColumns) unit).Answers
        (stateOf D start (identified D start refs)) () s' ↔
      (∀ n ∈ unit, (identified D start refs n).Keyable refs (described D n).view fun _ => true) ∧
        stateOf D start (linked D start refs) = s' := by
  have start_distinct : start.names.Nodup := ready.names_eq ▸ ready.distinct
  rw [answers_pass (linked D start refs)
    fun n => (identified D start refs n).Keyable refs (described D n).view fun _ => true]
  · have ends : stateOf D start (fun k => if k ∈ unit then linked D start refs k else
        identified D start refs k) = stateOf D start (linked D start refs) := by
      refine stateOf_congr ready.descriptors_distinct fun n member => ?_
      rw [if_pos (ready.names_eq ▸ member)]
    rw [ends]
  · intro done n rest s' split
    have member : n ∈ unit := by
      rw [split]
      simp
    have later : n ∉ done := by
      have distinct := ready.distinct
      rw [split] at distinct
      intro early
      exact (List.nodup_append.1 distinct).2.2 n early n (by simp) rfl
    rw [← update_ite]
    refine answers_keyMember makesKeys_build ready.descriptors_distinct start_distinct
      (ready.found member) (ready.names_eq ▸ member) (if_neg later) (first n member).2 ?_ ?_ s'
    · intro s mem
      rw [knownTable_stateOf, ready.names_eq]
      by_cases inside : s.relationship.target ∈ unit
      · rw [if_pos inside, account.inside _ inside, Option.map_some]
        by_cases early : s.relationship.target ∈ done
        · rw [if_pos early, reference_linked first inside]
        · rw [if_neg early]
      · rw [if_neg inside, account.outside _ inside]
    · intro s mem forces
      have plain : s ∈ plainSides D n := by
        rw [← sides_identified first member]
        exact mem
      rw [not_forcesPrimaryKey_of_plainSides plain] at forces
      cases forces

end Keyable

/-! ### The third pass -/

/-- The drafts once all keys are made. -/
def linkedDrafts (D : Roster Descriptor) (start : Roster Model) (refs : String → Option Table) :
    Roster Model :=
  (stateOf D start (linked D start refs)).2

/-- A member with its keys and its properties. -/
def finished (D : Roster Descriptor) (start generated : Roster Model)
    (refs : String → Option Table) (n : String) : Progress :=
  (linked D start refs n).mapped { owner := n, generated } (described D n).view
    (linkedDrafts D start refs)

/-- Every relationship of a member with its keys has its joins. -/
def Mappable (D : Roster Descriptor) (start generated : Roster Model)
    (refs : String → Option Table) (n : String) : Prop :=
  ∀ b ∈ (linked D start refs n).builders, ∃ p,
    b.mapped { owner := n, generated } (described D n).view (linkedDrafts D start refs) = .ok p

theorem names_keyed (p : Progress) (view : PropertyView) (selected : Builder → Bool) :
    (p.keyed refs view selected).builders.map (·.name) = p.builders.map (·.name) := by
  rw [Progress.keyed, List.map_map]
  refine List.map_congr_left fun b _ => ?_
  by_cases chosen : selected b
  · simp [chosen, Builder.name_keyed]
  · simp [chosen]

include ready in
theorem names_linked (member : n ∈ unit) :
    ((linked D start refs n).builders.map (·.name)).Nodup := by
  obtain ⟨d, found, wf, _⟩ := ready.described n member
  rw [linked, names_keyed, identified, names_keyed, begun, described_eq found]
  exact wf.plan_distinct

theorem sameTables_finished (D : Roster Descriptor) (start generated : Roster Model)
    (refs : String → Option Table) (done : List String) :
    SameTables (linkedDrafts D start refs) (stateOf D start fun k =>
      if k ∈ done then finished D start generated refs k else linked D start refs k).2 := by
  intro x
  simp only [linkedDrafts, stateOf, Roster.get?_mapValues, Option.map_map]
  congr 1
  funext m
  by_cases early : x ∈ done
  · simp [early, finished, Progress.mapped]
  · simp [early]

include ready in
/-- The third pass gives every member its properties. -/
theorem answers_thirdPass {s' : Roster Descriptor × Roster Model} :
    (pass generated (Descriptor.build .properties) unit).Answers
        (stateOf D start (linked D start refs)) () s' ↔
      (∀ n ∈ unit, Mappable D start generated refs n) ∧
        stateOf D start (finished D start generated refs) = s' := by
  have start_distinct : start.names.Nodup := ready.names_eq ▸ ready.distinct
  rw [answers_pass (finished D start generated refs) (Mappable D start generated refs)]
  · have ends : stateOf D start (fun k => if k ∈ unit then finished D start generated refs k else
        linked D start refs k) = stateOf D start (finished D start generated refs) := by
      refine stateOf_congr ready.descriptors_distinct fun n member => ?_
      rw [if_pos (ready.names_eq ▸ member)]
    rw [ends]
  · intro done n rest s' split
    have member : n ∈ unit := by
      rw [split]
      simp
    have later : n ∉ done := by
      have distinct := ready.distinct
      rw [split] at distinct
      intro early
      exact (List.nodup_append.1 distinct).2.2 n early n (by simp) rfl
    have inside : n ∈ start.names := ready.names_eq ▸ member
    have same := sameTables_finished D start generated refs done
    rw [← update_ite, answers_propertyMember ready.descriptors_distinct start_distinct
      (ready.found member) inside (p := linked D start refs n) (if_neg later) rfl
      (names_linked ready member)]
    simp only [Builder.mapped_congr same, Progress.mapped, Builder.mappedAll_congr same]
    rfl

/-! ### All passes -/

/-- A member can be drawn: both passes can make its keys, and its relationships have their joins. -/
structure Drawable (D : Roster Descriptor) (start generated : Roster Model)
    (refs : String → Option Table) (n : String) : Prop where
  identifying : (begun D start n).Keyable refs (described D n).view (·.forcesPrimaryKey)
  plain : (identified D start refs n).Keyable refs (described D n).view fun _ => true
  mappable : Mappable D start generated refs n

include ready in
/-- Building a unit succeeds just if every member can be drawn, and ends in what is drawn. -/
theorem answers_runPhases_iff (account : Account D unit start generated refs)
    (acyclic : ∀ n, ¬ Relation.TransGen (Identifies D unit) n n)
    {s' : Roster Descriptor × Roster Model} :
    (runPhases generated unit).Answers (D, start) () s' ↔
      (∀ n ∈ unit, Drawable D start generated refs n) ∧
        stateOf D start (finished D start generated refs) = s' := by
  rw [answers_runPhases]
  constructor
  · rintro ⟨s₁, s₂, first, second, third⟩
    obtain ⟨identifying, rfl⟩ := (answers_firstPass ready account acyclic).1 first
    obtain ⟨plain, rfl⟩ := (answers_secondPass ready identifying account).1 second
    obtain ⟨mappable, same⟩ := (answers_thirdPass ready).1 third
    exact ⟨fun n member => ⟨identifying n member, plain n member, mappable n member⟩, same⟩
  · rintro ⟨each, same⟩
    have identifying := fun n member => (each n member).identifying
    exact ⟨_, _, (answers_firstPass ready account acyclic).2 ⟨identifying, rfl⟩,
      (answers_secondPass ready identifying account).2 ⟨fun n member => (each n member).plain, rfl⟩,
      (answers_thirdPass ready).2 ⟨fun n member => (each n member).mappable, same⟩⟩

variable (start generated) in
include ready in
/-- Where no primary key depends on itself there is an account of all keys. -/
theorem exists_account (acyclic : ∀ n, ¬ Relation.TransGen (Identifies D unit) n n) :
    ∃ refs, Account D unit start generated refs := by
  classical
  let earlier (n : { n // n ∈ unit })
      (ih : ∀ t : { n // n ∈ unit }, Relation.TransGen (Identifies D unit) n.1 t.1 → Table)
      (x : String) : Option Table :=
    if inside : x ∈ unit then
      if h : Relation.TransGen (Identifies D unit) n.1 x then some (ih ⟨x, inside⟩ h) else none
    else (generated.get? x).bind (·.table)
  let wf := wellFounded_of_acyclic acyclic unit
  let table : { n // n ∈ unit } → Table :=
    wf.fix fun n ih => (identified D start (earlier n ih) n.1).table
  refine ⟨fun x => if inside : x ∈ unit then some (table ⟨x, inside⟩)
    else (generated.get? x).bind (·.table), fun n member => ?_, fun n outside => ?_⟩
  · have unfolded : table ⟨n, member⟩
        = (identified D start (earlier ⟨n, member⟩ fun t _ => table t) n).table := wf.fix_eq _ _
    simp only [dif_pos member, Option.map_some, Option.some.injEq]
    rw [unfolded]
    congr 1
    simp only [identified, Progress.keyed, sides_begun]
    refine Table.withKeys_congr fun s mem => ?_
    obtain ⟨d, found, target⟩ := target_of_identifyingSides ready member mem
    by_cases inside : s.relationship.target ∈ unit
    · have below : Relation.TransGen (Identifies D unit) n s.relationship.target :=
        .single ⟨member, inside, d, found, target⟩
      simp only [earlier, dif_pos inside, dif_pos below]
    · simp only [earlier, dif_neg inside]
  · simp only [dif_neg outside]

end Stages

end Generation

end ResourceTables
