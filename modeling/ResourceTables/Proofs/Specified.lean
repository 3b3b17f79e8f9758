/-
# `ResourceTables.Proofs.Specified` — the tables of a unit, specified without an order

A key copies the final primary key of its target.  Of a resource generated before that is the one in
the cache; of a member of the unit it is the key of its fields, with what its identifying relationships
copy in turn.  Without cycles these equations have one solution, and compiling a unit leaves the tables
that the solution specifies, whatever the order in which the passes make the keys.
-/
import Mathlib
import ResourceTables.Proofs.Drawings
import ResourceTables.Proofs.Orderly

namespace ResourceTables

/-! ## The specification -/

/-- A relationship that hosts a key, with its name. -/
structure KeyHost where
  name : String
  relationship : Relationship

namespace KeyHost

/-- The column that repeats a column of the target's primary key. -/
def copy (h : KeyHost) (k : Column) : Column :=
  { name := s!"{h.name}_{k.name}", type := k.type,
    options := { primaryKey := h.relationship.identifying } }

/-- The columns that the relationship brings, by an account of the final primary keys. -/
def copies (key : String → List Column) (h : KeyHost) : List Column :=
  (key h.relationship.target).map h.copy

/-- The foreign key over the copies. -/
def foreignKey (owner : String) (target : Table) (h : KeyHost) : ForeignKey :=
  let columns := target.primaryKey.map fun k => (h.copy k).name
  let joined := "_".intercalate columns
  { name := s!"{owner}_{joined}_fk"
    columns
    referredTable := target.fullName
    referredColumns := target.primaryKey.map (·.name)
    onUpdate := h.relationship.onUpdate
    onDelete := h.relationship.onDelete }

end KeyHost

namespace Descriptor

/-- The relationship of a name, if it hosts a key. -/
def keyHost? (d : Descriptor) (x : String) : Option KeyHost :=
  ((d.relationship? x).filter (·.hostsKey)).map fun r => ⟨x, r⟩

/-- The relationships that host keys, in the order of the builders. -/
def keyHosts (d : Descriptor) : List KeyHost := d.plan.names.filterMap d.keyHost?

/-- Those whose keys join the primary key. -/
def identifyingHosts (d : Descriptor) : List KeyHost :=
  d.keyHosts.filter (·.relationship.identifying)

/-- Those whose keys do not. -/
def plainHosts (d : Descriptor) : List KeyHost :=
  d.keyHosts.filter (!·.relationship.identifying)

/-- The primary key as far as the fields make it. -/
def fieldKey (d : Descriptor) : List Column :=
  (Generation.fieldColumns d).filter (·.isPrimaryKey)

/-- A table as specified by the final primary keys and the tables that the keys refer to. -/
structure Specifies (d : Descriptor) (key : String → List Column) (tables : String → Option Table)
    (t : Table) : Prop where
  columns : t.columns
    = Generation.fieldColumns d ++ (d.identifyingHosts ++ d.plainHosts).flatMap (·.copies key)
  constraints : t.constraints = (d.identifyingHosts ++ d.plainHosts).filterMap fun h =>
    (tables h.relationship.target).map (h.foreignKey t.name)
  targets : ∀ h ∈ d.identifyingHosts ++ d.plainHosts, ∃ target,
    tables h.relationship.target = some target ∧ target.primaryKey = key h.relationship.target

end Descriptor

namespace Generation

/-- The tables of generated models. -/
def tablesOf (models : Roster Model) (n : String) : Option Table := (models.get? n).bind (·.table)

/-- The primary keys of an account of tables. -/
def keysOf (tables : String → Option Table) (n : String) : List Column :=
  ((tables n).map (·.primaryKey)).getD []

/-- The final primary keys of a unit, by recursion along its identifying relationships. -/
structure FinalKeys (D : Roster Descriptor) (unit : List String) (generated : Roster Model)
    (key : String → List Column) : Prop where
  inside : ∀ n ∈ unit, ∀ d, D.get? n = some d →
    key n = d.fieldKey ++ d.identifyingHosts.flatMap (·.copies key)
  outside : ∀ n, n ∉ unit → key n = keysOf (tablesOf generated) n

end Generation

/-! ## The sides that builders see -/

/-- A side without its builder. -/
def KeySide.host (s : KeySide) : KeyHost := ⟨s.builder.name, s.relationship⟩

namespace Descriptor

variable {d : Descriptor} {selected : Builder → Bool} {wanted : KeyHost → Bool}

theorem keyHost?_eq_some_iff {x : String} {h : KeyHost} :
    d.keyHost? x = some h ↔
      h.name = x ∧ d.relationship? x = some h.relationship ∧ h.relationship.hostsKey = true := by
  obtain ⟨name, r⟩ := h
  simp only [keyHost?, Option.map_eq_some_iff, Option.filter_eq_some_iff, KeyHost.mk.injEq]
  constructor
  · rintro ⟨_, ⟨found, hosts⟩, rfl, rfl⟩
    exact ⟨rfl, found, hosts⟩
  · rintro ⟨rfl, found, hosts⟩
    exact ⟨r, ⟨found, hosts⟩, rfl, rfl⟩

/-- A fresh builder has the side of the relationship of its name. -/
theorem host_keySide? (wf : d.WellFormed) (fresh : d.Fresh) {b : Builder}
    (mem : b ∈ d.plan.builders) :
    (b.keySide? d.view).map KeySide.host = d.keyHost? b.name := by
  cases b with
  | field name =>
      have other : d.relationshipNamed? name = none :=
        relationshipNamed?_eq_none_iff.2 (wf.apart name ((wf.field_built name).1 mem))
      simp [Builder.keySide?, keyHost?, Builder.name, relationship?, other]
  | relationship b =>
      have uncreated : b.columnsCreated = false := by
        have same := fresh _ mem
        rw [Builder.reset, Builder.relationship.injEq] at same
        rw [← same]
        rfl
      simp only [Builder.keySide?, RelationshipBuilder.keyFor?, uncreated, Bool.false_eq_true,
        if_false, view_relationship?, Option.map_map]
      rfl

/-- The sides of the selected builders are the hosts that are wanted. -/
theorem hosts_keySides (wf : d.WellFormed) (fresh : d.Fresh)
    (same : ∀ b ∈ d.plan.builders, ∀ h, d.keyHost? b.name = some h → selected b = wanted h) :
    (Builder.keySides d.view selected d.plan.builders).map KeySide.host
      = d.keyHosts.filter wanted := by
  unfold Builder.keySides keyHosts BuildPlan.names
  rw [List.filterMap_filter, List.map_filterMap, List.filterMap_map, List.filter_filterMap]
  refine List.filterMap_congr fun b mem => ?_
  have side := host_keySide? wf fresh mem
  cases host : d.keyHost? b.name with
  | none =>
      rw [host, Option.map_eq_none_iff] at side
      simp [host, side]
  | some h =>
      rw [host] at side
      have chosen := same b mem h host
      cases verdict : wanted h with
      | true => simp [host, chosen, verdict, side, Option.filter_some]
      | false => simp [host, chosen, verdict, Option.filter_some]

section Fitting

variable (wf : d.WellFormed) (fresh : d.Fresh) (fits : d.KeysFit)

include wf fits in
theorem forcesPrimaryKey_eq {b : Builder} (mem : b ∈ d.plan.builders) {h : KeyHost}
    (host : d.keyHost? b.name = some h) : b.forcesPrimaryKey = h.relationship.identifying := by
  obtain ⟨name, found, hosts⟩ := keyHost?_eq_some_iff.1 host
  obtain ⟨e, inside, same, relationship⟩ := wf.relationship?_eq_some_iff.1 found
  rw [← relationship] at hosts ⊢
  cases b with
  | field x =>
      refine absurd ?_ (wf.apart x ((wf.field_built x).1 mem))
      exact List.mem_map.2 ⟨e, inside, same⟩
  | relationship b => exact fits b e mem inside same hosts

include wf fresh fits in
theorem hosts_identifying :
    d.identifyingSides.map KeySide.host = d.identifyingHosts :=
  hosts_keySides wf fresh fun _ mem _ host => forcesPrimaryKey_eq wf fits mem host

include wf fresh fits in
theorem hosts_plain :
    d.plainSides.map KeySide.host = d.plainHosts := by
  refine hosts_keySides wf fresh fun b mem h host => ?_
  rw [forcesPrimaryKey_eq wf fits mem host]

include wf fresh fits in
/-- The sides of the builders are those of the relationships, in the order of their keys. -/
theorem hosts_sides :
    (d.identifyingSides ++ d.plainSides).map KeySide.host = d.identifyingHosts ++ d.plainHosts := by
  rw [List.map_append, hosts_identifying wf fresh fits, hosts_plain wf fresh fits]

include wf fits in
/-- The key columns of a side are the copies that its relationship brings. -/
theorem columns_eq_copies {s : KeySide} (mem : s ∈ d.identifyingSides ++ d.plainSides)
    (refs : String → Option Table) : s.columns refs = s.host.copies (Generation.keysOf refs) := by
  have built : .relationship s.builder ∈ d.plan.builders ∧ s.relationship.hostsKey = true := by
    rcases List.mem_append.1 mem with mem | mem
    all_goals
      obtain ⟨built, _, wanted⟩ := Builder.mem_keySides.1 mem
      exact ⟨built, (Builder.keyFor?_eq_some_iff.1 wanted).2.2⟩
  have host : d.keyHost? s.builder.name = some s.host :=
    keyHost?_eq_some_iff.2 ⟨rfl, relationship?_of_mem_sides mem, built.2⟩
  have columns : s.builder.keyColumn = s.host.copy := by
    have forces : s.builder.forcesPrimaryKey = s.relationship.identifying :=
      forcesPrimaryKey_eq wf fits built.1 host
    funext k
    rw [RelationshipBuilder.keyColumn, forces]
    rfl
  unfold KeySide.columns KeyHost.copies Generation.keysOf
  rw [columns]
  change _ = (((refs s.relationship.target).map (·.primaryKey)).getD []).map s.host.copy
  cases refs s.relationship.target with
  | none => rfl
  | some target => rfl

end Fitting

end Descriptor

/-- A table as specified repeats the key of an identifying target after the columns of its fields. -/
theorem Descriptor.Specifies.mem_columns {d : Descriptor} {key : String → List Column}
    {tables : String → Option Table} {t : Table} (spec : d.Specifies key tables t) {h : KeyHost}
    (host : h ∈ d.identifyingHosts) {k : Column} (mem : k ∈ key h.relationship.target) :
    h.copy k ∈ t.columns.drop d.fields.length ∧ (h.copy k).isPrimaryKey = true := by
  refine ⟨?_, (List.mem_filter.1 host).2⟩
  rw [spec.columns, List.drop_left' (by simp [Generation.fieldColumns])]
  exact List.mem_flatMap.2 ⟨h, List.mem_append_left _ host, List.mem_map_of_mem mem⟩

/-- From tables with the same references a side makes the foreign key of its relationship. -/
theorem KeySide.keys_eq {s : KeySide} {refs tables : String → Option Table}
    (same : (refs s.relationship.target).map Table.reference
      = (tables s.relationship.target).map Table.reference) (owner : Table) :
    s.keys refs owner
      = ((tables s.relationship.target).map (s.host.foreignKey owner.name)).toList := by
  unfold KeySide.keys
  cases found : refs s.relationship.target with
  | none =>
      rw [found, Option.map_none, eq_comm, Option.map_eq_none_iff] at same
      rw [same]
      rfl
  | some target =>
      rw [found, Option.map_some, eq_comm, Option.map_eq_some_iff] at same
      obtain ⟨target', found', same⟩ := same
      obtain ⟨name, key⟩ := Table.reference_eq_iff.1 same
      rw [found', Option.map_some, Option.toList_some, KeyHost.foreignKey, name, key]
      rfl

/-! ## Solutions -/

namespace Generation

variable {D : Roster Descriptor} {unit : List String} {start generated : Roster Model}
  {refs : String → Option Table} {key key' : String → List Column} {n : String}

theorem mem_identifyingTargets_of_host {d : Descriptor} (wf : d.WellFormed) {h : KeyHost}
    (mem : h ∈ d.identifyingHosts) : h.relationship.target ∈ d.identifyingTargets := by
  obtain ⟨mem, identifying⟩ := List.mem_filter.1 mem
  obtain ⟨x, _, host⟩ := List.mem_filterMap.1 mem
  obtain ⟨_, found, hosts⟩ := Descriptor.keyHost?_eq_some_iff.1 host
  obtain ⟨e, inside, _, relationship⟩ := wf.relationship?_eq_some_iff.1 found
  refine List.mem_map.2 ⟨e, List.mem_filter.2 ⟨inside, ?_⟩, by rw [relationship]⟩
  rw [relationship, identifying, hosts]
  rfl

/-- Without cycles the final primary keys are determined. -/
theorem FinalKeys.unique (described : ∀ n ∈ unit, ∃ d, D.get? n = some d ∧ d.WellFormed)
    (acyclic : ∀ n, ¬ Relation.TransGen (Identifies D unit) n n)
    (first : FinalKeys D unit generated key) (second : FinalKeys D unit generated key') :
    key = key' := by
  have outside : ∀ n, n ∉ unit → key n = key' n := fun n other =>
    (first.outside n other).trans (second.outside n other).symm
  have inside : ∀ n : { n // n ∈ unit }, key n.1 = key' n.1 := by
    intro n
    induction n using (wellFounded_of_acyclic acyclic unit).induction with
    | _ n ih =>
        obtain ⟨d, found, wf⟩ := described n.1 n.2
        rw [first.inside n.1 n.2 d found, second.inside n.1 n.2 d found]
        refine congrArg (d.fieldKey ++ ·) (List.flatMap_congr fun h mem => ?_)
        have target := mem_identifyingTargets_of_host wf mem
        unfold KeyHost.copies
        by_cases member : h.relationship.target ∈ unit
        · rw [ih ⟨_, member⟩ (.single ⟨n.2, member, d, found, target⟩)]
        · rw [outside _ member]
  funext n
  by_cases member : n ∈ unit
  · exact inside ⟨n, member⟩
  · exact outside n member

theorem keysOf_of_some {t : Table} (found : refs n = some t) : keysOf refs n = t.primaryKey := by
  rw [keysOf, found, Option.map_some, Option.getD_some]

theorem keysOf_eq {t : Table} (same : (refs n).map Table.reference = some t.reference) :
    keysOf refs n = t.primaryKey := by
  obtain ⟨t', found, same⟩ := Option.map_eq_some_iff.1 same
  rw [keysOf_of_some found]
  exact (Table.reference_eq_iff.1 same).2

theorem keysOf_congr {tables : String → Option Table}
    (same : (refs n).map Table.reference = (tables n).map Table.reference) :
    keysOf refs n = keysOf tables n := by
  cases found : tables n with
  | none =>
      rw [found, Option.map_none, Option.map_eq_none_iff] at same
      rw [keysOf, same, keysOf, found]
  | some t =>
      rw [found, Option.map_some] at same
      rw [keysOf_eq same, keysOf_of_some found]

/-- An account of tables that agrees with itself solves the equations. -/
theorem finalKeys_keysOf (ready : Ready D unit start) (account : Account D unit start generated refs)
    (columns : ∀ n ∈ unit, (drafted start n).columns = fieldColumns (described D n)) :
    FinalKeys D unit generated (keysOf refs) where
  inside := by
    intro n member d found
    obtain ⟨d', found', wf, fresh, fits⟩ := ready.described n member
    rw [found, Option.some.injEq] at found'
    subst found'
    have copies : d.identifyingSides.flatMap (·.columns refs)
        = d.identifyingHosts.flatMap (·.copies (keysOf refs)) := by
      rw [← Descriptor.hosts_identifying wf fresh fits, List.flatMap_map]
      exact List.flatMap_congr fun s mem =>
        Descriptor.columns_eq_copies wf fits (List.mem_append_left _ mem) refs
    have all : (d.identifyingSides.flatMap (·.columns refs)).filter (·.isPrimaryKey)
        = d.identifyingSides.flatMap (·.columns refs) := by
      refine List.filter_eq_self.2 fun c mem => ?_
      obtain ⟨s, side, mem⟩ := List.mem_flatMap.1 mem
      rw [KeySide.isPrimaryKey_of_mem_columns mem]
      exact (Builder.mem_keySides.1 side).2.1
    have identified : keysOf refs n = ((drafted start n).columns
        ++ (described D n).identifyingSides.flatMap (·.columns refs)).filter (·.isPrimaryKey) :=
      keysOf_eq (account.inside n member)
    rw [identified, columns n member, described_eq found, List.filter_append, all, copies]
    rfl
  outside := fun n other => keysOf_congr (account.outside n other)

end Generation

/-! ## Compiled units -/

namespace BuiltUnit

open Generation

variable {ctx : GenerationContext} {w w' : Workspace} {unit : List String} {n : String}
  {D' D₁ : Roster Descriptor} {start finished : Roster Model} {refs : String → Option Table}

/-- A member starts with the columns of its fields. -/
theorem drafted_eq (built : BuiltUnit ctx w w' unit D' start finished D₁) (member : n ∈ unit) :
    drafted start n = startTable ctx (described D' n) n := by
  obtain ⟨r, d, _, _, found, there, _⟩ := built.compiled.member built.distinct member
  rw [Generation.drafted_eq there rfl, described_eq found]

/-- On what keys copy, the account that a unit is drawn from agrees with the tables in the end. -/
theorem references_eq (built : BuiltUnit ctx w w' unit D' start finished D₁)
    (account : Account D' unit start w.models refs)
    (drawable : ∀ n ∈ unit, Drawable D' start w.models refs n)
    (drawn : finished = (stateOf D' start (Generation.finished D' start w.models refs)).2)
    (x : String) :
    (refs x).map Table.reference = (tablesOf w'.models x).map Table.reference := by
  by_cases member : x ∈ unit
  · obtain ⟨m, found, table, _⟩ := built.exists_model member drawn
    rw [account.inside x member, tablesOf, found, Option.bind_some, table, Option.map_some]
    exact congrArg some (reference_linked (fun n member => (drawable n member).identifying) member).symm
  · have none : finished.get? x = none := by
      rw [Roster.get?_eq_none_iff, built.compiled.names_eq]
      exact member
    rw [account.outside x member, tablesOf, built.compiled.get?_models, none, Option.or_none]

/-- The tables of a unit in the end are those that the final primary keys specify. -/
theorem specified (built : BuiltUnit ctx w w' unit D' start finished D₁) (ready : Ready D' unit start)
    (acyclic : ∀ n, ¬ Relation.TransGen (Identifies D' unit) n n) :
    FinalKeys D' unit w.models (keysOf (tablesOf w'.models)) ∧
      ∀ n ∈ unit, ∃ d m t, D'.get? n = some d ∧ w'.models.get? n = some m ∧ m.table = some t
        ∧ d.Specifies (keysOf (tablesOf w'.models)) (tablesOf w'.models) t := by
  obtain ⟨refs, account, drawable, drawn⟩ := built.drawn ready acyclic
  have references := built.references_eq account drawable drawn
  have keys : keysOf refs = keysOf (tablesOf w'.models) := funext fun x => keysOf_congr (references x)
  have columns : ∀ n ∈ unit, (drafted start n).columns = fieldColumns (described D' n) :=
    fun n member => by rw [built.drafted_eq member]; rfl
  refine ⟨keys ▸ finalKeys_keysOf ready account columns, fun n member => ?_⟩
  obtain ⟨d, found, wf, fresh, fits⟩ := ready.described n member
  obtain ⟨m, there, table, _⟩ := built.exists_model member drawn
  have here : (linked D' start refs n).table = d.drawnTable refs (drafted start n) := by
    rw [table_linked (fun n member => (drawable n member).identifying) member,
      ← described_eq found]
    rfl
  have can := (keyable_iff_canDraw.1 ⟨(drawable n member).identifying, (drawable n member).plain⟩).keyed
  rw [described_eq found] at can
  refine ⟨d, m, _, found, there, table.trans (congrArg some here), ?_, ?_, ?_⟩
  · rw [← keys, ← Descriptor.hosts_sides wf fresh fits, List.flatMap_map]
    change (drafted start n).columns ++ _ = _
    rw [columns n member, described_eq found]
    exact congrArg (_ ++ ·) (List.flatMap_congr fun s mem =>
      Descriptor.columns_eq_copies wf fits mem refs)
  · rw [← Descriptor.hosts_sides wf fresh fits, List.filterMap_map,
      List.filterMap_eq_flatMap_toList]
    change (drafted start n).constraints ++ _ = _
    rw [built.drafted_eq member]
    exact List.flatMap_congr fun s _ => KeySide.keys_eq (references s.relationship.target) _
  · intro h mem
    rw [← Descriptor.hosts_sides wf fresh fits] at mem
    obtain ⟨s, side, rfl⟩ := List.mem_map.1 mem
    obtain ⟨target, known, _⟩ := can s side
    have same := references s.relationship.target
    rw [known, Option.map_some, eq_comm, Option.map_eq_some_iff] at same
    obtain ⟨target', known', _⟩ := same
    exact ⟨target', known', (keysOf_of_some known').symm⟩

end BuiltUnit

namespace Compiler

open Generation

/-- As long as nothing changes a relationship behind its builder, the builders of a bound unit fit. -/
theorem keysFit_of_bind (settings : Settings) {requests : List Request}
    (allowed : ∀ request ∈ requests, request.Fits) {c : Compiler}
    (reached : (new settings).run requests = c) {name : String} {unit : List String}
    {D' : Roster Descriptor}
    (bound : (Binding.bind c.resources c.workspace.models name).Answers c.workspace.descriptors unit D') :
    ∀ n ∈ unit, ∀ d, D'.get? n = some d → d.KeysFit := by
  have sound : Sound c.resources c.workspace := reached ▸ (coherent_run settings requests).sound
  have fitting : Fitting c.workspace := reached ▸ fitting_run settings allowed
  have steps := sound.bind_steps name
  rw [bound.2] at steps
  exact fun n _ d found => (fitting.bound sound steps).keysFit found

/-- A generation that answers has compiled the unit that it bound. -/
theorem exists_builtUnit {settings : Settings} {requests : List Request} {c c' : Compiler}
    (reached : (new settings).run requests = c) {name : String} {resource : Resource}
    (declared : c.resources.get? name = some resource) (concrete : resource.isAbstract = false)
    (uncached : c.model? name = none) {unit : List String} {D' : Roster Descriptor}
    (bound : (Binding.bind c.resources c.workspace.models name).Answers c.workspace.descriptors unit D')
    {model : Model} (compiled : (generate name).Answers c model c') :
    ∃ ctx start finished D₁, c.generationContext = .ok ctx
      ∧ BuiltUnit ctx c.workspace c'.workspace unit D' start finished D₁ := by
  obtain ⟨ctx, w', known, ends, rfl⟩ := answers_generating.1 compiled
  have sound : Sound ctx.resources c.workspace := sound_of_run reached known
  rw [← (generationContext_eq_ok known).2.1] at declared bound
  obtain ⟨_, distinct, _, pending⟩ := sound.bound_unit declared concrete uncached bound
  rcases answers_generate.1 ends with ⟨cached, _⟩ | ⟨_, r, found, ⟨abs, _⟩ |
    ⟨_, unit', D'', bound', done, _⟩⟩
  · exact absurd (uncached.symm.trans cached) nofun
  · rw [declared, Option.some.injEq] at found
    rw [← found, concrete] at abs
    cases abs
  · obtain ⟨rfl, rfl⟩ := bound'.unique bound
    obtain ⟨_, start, finished, D₁, spec⟩ :=
      (compile_ends sound declared concrete uncached bound).1 done
    exact ⟨ctx, start, finished, D₁, known, distinct, pending, ⟨name, bound⟩, spec⟩

/-- Wherever a history leads: where the builders of a unit fit and none of its primary keys depends on
itself, the equations of final primary keys have one solution, and after a generation that compiles the
unit its tables are those that the solution specifies. -/
theorem unit_specified (settings : Settings) (requests : List Request) (c c' : Compiler)
    (reached : (new settings).run requests = c) (name : String) (resource : Resource)
    (declared : c.resources.get? name = some resource) (concrete : resource.isAbstract = false)
    (uncached : c.model? name = none) (unit : List String) (D' : Roster Descriptor)
    (bound : (Binding.bind c.resources c.workspace.models name).Answers c.workspace.descriptors unit D')
    (acyclic : ∀ n, ¬ Relation.TransGen (Identifies D' unit) n n)
    (fits : ∀ n ∈ unit, ∀ d, D'.get? n = some d → d.KeysFit) (model : Model)
    (compiled : (generate name).Answers c model c') :
    (∃! key, FinalKeys D' unit c.workspace.models key) ∧
      ∀ key, FinalKeys D' unit c.workspace.models key →
        ∀ n ∈ unit, ∃ d m t, D'.get? n = some d ∧ c'.model? n = some m ∧ m.table = some t
          ∧ t.primaryKey = key n ∧ d.Specifies key (tablesOf c'.workspace.models) t := by
  obtain ⟨ctx, start, finished, D₁, known, built⟩ :=
    exists_builtUnit reached declared concrete uncached bound compiled
  have sound := sound_of_run reached known
  rw [← (generationContext_eq_ok known).2.1] at declared bound
  have ready := built.ready (sound.bound_unit declared concrete uncached bound).1 fits
  obtain ⟨final, specified⟩ := built.specified ready acyclic
  have unique : ∀ key, FinalKeys D' unit c.workspace.models key →
      key = keysOf (tablesOf c'.workspace.models) :=
    fun key solves => solves.unique
      (fun n member => (ready.described n member).imp fun d h => ⟨h.1, h.2.1⟩) acyclic final
  refine ⟨⟨_, final, unique⟩, fun key solves n member => ?_⟩
  obtain rfl := unique key solves
  obtain ⟨d, m, t, found, there, table, spec⟩ := specified n member
  refine ⟨d, m, t, found, there, table, Eq.symm ?_, spec⟩
  refine keysOf_of_some ?_
  rw [tablesOf, there, Option.bind_some, table]

/-- Users with profiles, and profiles with avatars: the keys of both start with that of the user, who
is generated before. -/
def avatars : List Request :=
  [.declare { name := "Avatar"
              properties := [⟨"profile", 1, .relationship
                { Relationship.new .oneToOne "Profile" with identifying := true }⟩] },
    .declare { name := "User" },
    .declare { name := "Profile"
               properties := [⟨"user", 2, .relationship
                { Relationship.new .oneToOne "User" with identifying := true }⟩] },
    .generate "User"]

theorem unit_specified_avatars :
    ∃ c unit D' model c', (new {}).run avatars = c
      ∧ (Binding.bind c.resources c.workspace.models "Avatar").Answers c.workspace.descriptors unit D'
      ∧ (∀ n, ¬ Relation.TransGen (Identifies D' unit) n n)
      ∧ (∀ n ∈ unit, ∀ d, D'.get? n = some d → d.KeysFit)
      ∧ (generate "Avatar").Answers c model c'
      ∧ ∃ key d m t, FinalKeys D' unit c.workspace.models key ∧ D'.get? "Avatar" = some d
        ∧ c'.model? "Avatar" = some m ∧ m.table = some t ∧ t.primaryKey = key "Avatar"
        ∧ d.Specifies key (tablesOf c'.workspace.models) t := by
  obtain ⟨c, reached⟩ : ∃ c, (new {}).run avatars = c := ⟨_, rfl⟩
  obtain ⟨r, declared, concrete, uncached⟩ : ∃ r, c.resources.get? "Avatar" = some r
      ∧ r.isAbstract = false ∧ c.model? "Avatar" = none :=
    exists_requestable (by rw [← reached]; cbv)
  obtain ⟨model, c', compiled⟩ := Action.exists_answers_of_isOk
    (show (generate "Avatar" c).result.isOk = true by rw [← reached]; cbv)
  have binds : (let bound := (Binding.bind c.resources c.workspace.models "Avatar"
        c.workspace.descriptors)
      bound.result.isOk && bound.state.entries.all fun p => p.2.identifyingTargets.all fun t =>
        ["User", "Profile", "Avatar"].idxOf t < ["User", "Profile", "Avatar"].idxOf p.1) = true := by
    rw [← reached]
    cbv
  obtain ⟨answers, falls⟩ := (Bool.and_eq_true _ _).mp binds
  obtain ⟨unit, D', bound⟩ := Action.exists_answers_of_isOk answers
  rw [bound.2] at falls
  have acyclic : ∀ n, ¬ Relation.TransGen (Identifies D' unit) n n :=
    (keysAcyclic_of_order _ falls).unit unit
  have fits : ∀ n ∈ unit, ∀ d, D'.get? n = some d → d.KeysFit :=
    keysFit_of_bind {} (by simp [avatars, Request.Fits]) reached bound
  obtain ⟨⟨key, final, _⟩, specified⟩ := unit_specified {} avatars c c' reached "Avatar" r
    declared concrete uncached unit D' bound acyclic fits model compiled
  have sound : Sound c.resources c.workspace := reached ▸ (coherent_run {} avatars).sound
  obtain ⟨_, _, members, _⟩ := sound.bound_unit declared concrete uncached bound
  obtain ⟨d, m, t, avatar⟩ := specified key final "Avatar" ((members "Avatar").2 .refl)
  exact ⟨c, unit, D', model, c', reached, bound, acyclic, fits, compiled, key, d, m, t, final, avatar⟩

/-- A profile with its user, made identifying after its builder was made. -/
def profileEdited : List Request :=
  [.declare { name := "User" },
    .declare { name := "Profile", properties := [⟨"user", 1, .relationship (.new .manyToOne "User")⟩] },
    .edit "Profile"
      { change := fun d => d.modifyRelationship "user" fun r => { r with identifying := true }
        edits := fun d => .single (.modifyRelationship d _ _) }]

/-- A relationship that is made identifying behind its builder does not get the columns specified. -/
theorem edited_relationship_unspecified :
    ∃ c unit D' model c', (new {}).run profileEdited = c
      ∧ (Binding.bind c.resources c.workspace.models "Profile").Answers c.workspace.descriptors unit D'
      ∧ (∀ n, ¬ Relation.TransGen (Identifies D' unit) n n)
      ∧ (generate "Profile").Answers c model c'
      ∧ ¬ ∃ key, FinalKeys D' unit c.workspace.models key
        ∧ ∀ n ∈ unit, ∃ d m t, D'.get? n = some d ∧ c'.model? n = some m ∧ m.table = some t
          ∧ d.Specifies key (tablesOf c'.workspace.models) t := by
  obtain ⟨c, reached⟩ : ∃ c, (new {}).run profileEdited = c := ⟨_, rfl⟩
  obtain ⟨unit, D', bound, order⟩ := Action.exists_answers_of_any (p := (· == ["User", "Profile"]))
    (show (Binding.bind c.resources c.workspace.models "Profile"
      c.workspace.descriptors).result.toOption.any _ = true by rw [← reached]; cbv)
  obtain rfl := beq_iff_eq.1 order
  have sides : (let D := (Binding.bind c.resources c.workspace.models "Profile"
        c.workspace.descriptors).state
      D.entries.all (fun p => p.2.identifyingTargets.all fun t =>
          ["User", "Profile"].idxOf t < ["User", "Profile"].idxOf p.1)
        && (D.get? "Profile").any fun d => d.fields.length == 1
          && d.identifyingHosts.any (·.relationship.target == "User")) = true := by
    rw [← reached]
    cbv
  simp only [bound.2, Bool.and_eq_true, Option.any_eq_true, beq_iff_eq, List.any_eq_true] at sides
  obtain ⟨falls, d, found, fields, h, host, user⟩ := sides
  -- What is generated has no key column beside that of the field, although a user has a key.
  have tables : (let made := generate "Profile" c
      made.result.isOk
        && (tablesOf made.state.workspace.models "User").any (!·.primaryKey.isEmpty)
        && (made.state.model? "Profile").any fun m => m.table.any fun t =>
          (t.columns.drop 1).all (!·.isPrimaryKey)) = true := by
    rw [← reached]
    cbv
  simp only [Bool.and_eq_true] at tables
  obtain ⟨⟨answers, keyed⟩, plain⟩ := tables
  obtain ⟨model, c', compiled⟩ := Action.exists_answers_of_isOk answers
  simp only [compiled.2, Option.any_eq_true] at keyed plain
  refine ⟨c, _, D', model, c', reached, bound, (keysAcyclic_of_order _ falls).unit _, compiled, ?_⟩
  rintro ⟨key, _, specified⟩
  obtain ⟨d', m, t, found', made, table, spec⟩ := specified "Profile" (by decide)
  obtain rfl : d = d' := Option.some.inj (found.symm.trans found')
  obtain ⟨m', made', t', table', plain⟩ := plain
  obtain rfl : m = m' := Option.some.inj (made.symm.trans made')
  obtain rfl : t = t' := Option.some.inj (table.symm.trans table')
  obtain ⟨target, known, same⟩ := spec.targets h (List.mem_append_left _ host)
  obtain ⟨target', known', some⟩ := keyed
  rw [user, known', Option.some.injEq] at known
  obtain ⟨k, first⟩ : ∃ k, k ∈ key h.relationship.target := by
    rw [← same, ← known]
    exact List.exists_mem_of_ne_nil _ (by simpa using some)
  obtain ⟨copied, primary⟩ := spec.mem_columns host first
  rw [fields] at copied
  have other := List.all_eq_true.1 plain _ copied
  rw [primary] at other
  cases other

end Compiler

end ResourceTables
