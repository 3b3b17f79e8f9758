/-
# `ResourceTables.Proofs.Inherited` — keys for the relationships that a resource inherits

A one-to-many that a resource inherits is a side of its own.  Unless its inverse leads back to the heir
already, it is settled under the name of the heir, where the target gets a many-to-one that is missing.
A side that is inherited joins along a key of its own just where the target leads back and hosts the
key: its table then has a foreign key to the table of the heir, and both relations join along it.

Inherited sides are not checked.  If the target has something else under the name of the heir, such as
a field, an inherited one-to-many is left without a key, where one that the heir declares itself would
be refused.  The inverse of a one-to-one stays that of the class that declares it, so that an heir that
it does not lead back to has no key either.
-/
import ResourceTables.Proofs.Completions
import ResourceTables.Proofs.Pairs
import ResourceTables.Proofs.Shared

namespace ResourceTables

/-- The relation of a relationship, with the relation `i` of its target as the other side, joins along a
foreign key that the other side has made towards the table of the owner. -/
def JoinsThrough (w : Workspace) (n : String) (m : Model) (e : RelationshipEntry) (i : String) : Prop :=
  ∃ m' own host key relation relation', w.models.get? e.relationship.target = some m'
    ∧ m.table = some own ∧ m'.table = some host
    ∧ m.relation? e.name = some relation ∧ relation.backPopulates = some i
    ∧ m'.relation? i = some relation' ∧ relation'.target = n
    ∧ ForeignKey.MadeBy key relation' host own
    ∧ relation.joinClauses ≠ [] ∧ relation.joinClauses = (key.joins host).map JoinClause.swap

/-- No other resource has a one-to-many into `t` with the inverse `i`. -/
def Undisputed (D : Roster Descriptor) (n t i : String) : Prop :=
  ∀ o d e, D.get? o = some d → e ∈ d.relationships → e.relationship.kind = .oneToMany →
    e.relationship.target = t → e.relationship.inverse = some i → o = n

variable {w : Workspace} {n i : String} {m : Model} {d t : Descriptor} {e : RelationshipEntry}
  {other : Relationship}

/-- Where the target leads back and hosts the key, both sides join along it. -/
theorem Agrees.joinsThrough (agrees : Agrees w n d) (acyclic : KeysAcyclic w.descriptors)
    (cached : w.models.get? n = some m) (mem : e ∈ d.relationships)
    (keyless : e.relationship.hostsKey = false)
    (hosted : Hosted w.descriptors n e.relationship i t other) : JoinsThrough w n m e i := by
  obtain ⟨m₀, m', relation, relation', pair⟩ := agrees.hosted acyclic e mem keyless i t other hosted
  obtain rfl : m = m₀ := Option.some.inj (cached.symm.trans pair.owner)
  obtain ⟨own, host, key, table, table', made⟩ := pair.keyed
  refine ⟨m', own, host, key, relation, relation', pair.target, table, table', pair.named,
    pair.backPopulates_eq, pair.named', pair.back', made, ?_, ?_⟩
  · rw [pair.swapped, ne_eq, List.map_eq_nil_iff]
    exact pair.joins
  · rw [pair.swapped, made.joins_eq]

/-- Under an undisputed name the many-to-one that completes a side leads back. -/
theorem Hosted.of_synthesized {inherited : Bool} (wf : Binding.AllWellFormed w.descriptors)
    (completing : Binding.Completing w.descriptors)
    (side : Binding.OtherSide w.descriptors n inherited e.relationship i t)
    (named : t.relationship? i = some other) (synthesized : other.synthesized = true)
    (undisputed : Undisputed w.descriptors n e.relationship.target i) :
    Hosted w.descriptors n e.relationship i t other := by
  obtain ⟨o, y, s, completes⟩ := completing _ t i other side.target named synthesized
  obtain ⟨e', mem, _, rfl⟩ := (wf _ o completes.owner).relationship?_eq_some_iff.1 completes.named
  exact ⟨side.inverse_eq, side.target, named,
    undisputed _ o e' completes.owner mem completes.many completes.target completes.inverse,
    completes.hosts⟩

/-! ## Relations beside the descriptors in the end -/

/-- The relations of a generated resource stand for the relationships that its descriptor has. -/
def AllStanding (w : Workspace) : Prop :=
  ∀ n m d, w.models.get? n = some m → m.isAbstract = false → w.descriptors.get? n = some d →
    Stands w n d m

namespace AllStanding

open Generation

variable {resources : Roster Resource} {ctx : GenerationContext} {w' : Workspace}
  {unit : List String} {D' D₁ : Roster Descriptor} {start finished : Roster Model} {d' : Descriptor}

theorem old (h : AllStanding w) (sound : Sound resources w) (ext : Extends w w')
    (cached : w.models.get? n = some m) (concrete : m.isAbstract = false)
    (found : w'.descriptors.get? n = some d') : Stands w' n d' m := by
  obtain ⟨d, before⟩ := sound.exists_descriptor_of_cached cached
  obtain ⟨d'', found'', frozen⟩ := ext.frozen n m d cached before
  obtain rfl := Option.some.inj (found.symm.trans found'')
  exact (h n m d cached concrete before).lasts ext.models frozen

theorem extends_ (h : AllStanding w) (orderly : Orderly resources w) (ext : Extends w w')
    (same : ∀ n m, w'.models.get? n = some m → m.isAbstract = false → w.models.get? n = some m) :
    AllStanding w' :=
  fun n m _ cached concrete found =>
    h.old orderly.sound ext (same n m cached concrete) concrete found

theorem builds (orderly' : Orderly ctx.resources { w with descriptors := D' })
    (built : BuiltUnit ctx w w' unit D' start finished D₁)
    (h : AllStanding { w with descriptors := D' }) : AllStanding w' := by
  intro n m d' cached concrete found'
  have ext := Orderly.extends_compiled built.compiled built.pending
  rw [built.compiled.get?_models] at cached
  rcases Option.or_eq_some_iff.1 cached with before | ⟨_, made⟩
  · exact h.old orderly'.sound ext before concrete found'
  · obtain ⟨member, _, d, _, found, _⟩ := built.compiled.exists_grown built.distinct made
    obtain ⟨d₁, found₁, worked, _⟩ := built.compiled.worked.get?_forward found
    obtain ⟨d'', found'', marked⟩ := built.compiled.descriptors.get?_forward found₁
    rw [if_pos member] at marked
    subst marked
    obtain rfl := Option.some.inj (found'.symm.trans found'')
    exact stands_compiled orderly'.sound built found worked made

end AllStanding

/-- A relation of a model is one of its properties, under its name. -/
theorem ModelShape.mem_of_relation? {m : ModelShape} {x : String} {relation : Relation}
    (found : m.relation? x = some relation) :
    .relation relation ∈ m.properties ∧ relation.name = x := by
  obtain ⟨p, mem, here⟩ := List.exists_of_findSome?_eq_some found
  cases p with
  | column name column => cases here
  | relation r =>
      obtain ⟨same, here⟩ := Option.ite_none_right_eq_some.1 here
      obtain rfl := Option.some.inj here
      exact ⟨mem, by simpa using same⟩

/-- A relation that joins along a key of its own table does not join along one of the other table: of two
columns each would have to repeat the name of the other. -/
theorem ForeignKey.MadeBy.joins_ne {key : ForeignKey} {relation : Relation} {host own : Table}
    (made : key.MadeBy relation host own) (joined : relation.joinClauses ≠ []) (i : String) :
    relation.joinClauses ≠ RelationshipBuilder.inverseJoins host own i := by
  intro same
  have along := RelationshipBuilder.inverseJoins_of_ne_nil (same ▸ joined)
  have joins : key.joins host = own.primaryKey.map fun k =>
      { own := host.fullName ++ "." ++ RelationshipBuilder.keyColumnName relation.name k
        remote := own.fullName ++ "." ++ k.name } := by
    rw [joins, made.columns_eq, made.referredColumns_eq, made.referredTable_eq, List.zip_map',
      List.map_map]
    rfl
  obtain ⟨k, mem⟩ := List.exists_mem_of_ne_nil own.primaryKey fun none => by
    rw [made.joins_eq, joins, none] at joined
    exact joined rfl
  have repeated := List.mem_map_of_mem (f := fun k : Column => JoinClause.mk
    (host.fullName ++ "." ++ RelationshipBuilder.keyColumnName relation.name k)
    (own.fullName ++ "." ++ k.name)) mem
  rw [← joins, ← made.joins_eq, same, along] at repeated
  obtain ⟨h, _, clause⟩ := List.mem_map.1 repeated
  obtain ⟨mine, other⟩ := JoinClause.mk.inj clause
  have longer : h.name = relation.name ++ "_" ++ k.name := String.append_right_inj _ |>.1 mine
  have shorter : i ++ "_" ++ h.name = k.name := String.append_right_inj _ |>.1 other
  have lengths := congrArg String.length shorter
  rw [longer] at lengths
  simp only [String.length_append] at lengths
  have one : "_".length = 1 := rfl
  omega

/-- A relation that joins along a key of its own table stands for a relationship that hosts it. -/
theorem Generation.StandsFor.hostsKey {tables : String → Option Table} {key : ForeignKey}
    {relation : Relation} {host own : Table} (stands : StandsFor tables n other relation)
    (made : key.MadeBy relation host own) (here : tables n = some host)
    (there : tables other.target = some own) (joined : relation.joinClauses ≠ []) :
    other.hostsKey = true := by
  by_contra keyless
  obtain ⟨i, host', own', _, here', there', joins⟩ := stands.joins (Bool.not_eq_true _ ▸ keyless) joined
  obtain rfl := Option.some.inj (here.symm.trans here')
  obtain rfl := Option.some.inj (there.symm.trans there')
  exact made.joins_ne joined i joins

/-- A relation of a generated resource stands for the relationship that its descriptor has under the
same name. -/
theorem AllStanding.exists_relationship {resources : Roster Resource} (standing : AllStanding w)
    (sound : Sound resources w) (cached : w.models.get? n = some m) {own : Table}
    (table : m.table = some own) {x : String} {relation : Relation}
    (named : m.relation? x = some relation) :
    ∃ d r, w.descriptors.get? n = some d ∧ d.relationship? x = some r
      ∧ Generation.StandsFor w.table? n r relation ∧ w.table? n = some own := by
  have concrete : m.isAbstract = false := by
    rw [← Bool.not_eq_true, (sound.models_named n m cached).isAbstract_iff, table]
    exact Option.some_ne_none own
  obtain ⟨d, found⟩ := sound.exists_descriptor_of_cached cached
  obtain ⟨inside, rfl⟩ := ModelShape.mem_of_relation? named
  obtain ⟨r, declared, stands⟩ := standing n m d cached concrete found relation inside
  refine ⟨d, r, found, declared, stands, ?_⟩
  rw [Workspace.table?, cached, Option.bind_some, table]

/-- Where both sides join along a key of the target, the target leads back and hosts the key. -/
theorem JoinsThrough.hosted {resources : Roster Resource} (h : JoinsThrough w n m e i)
    (sound : Sound resources w) (standing : AllStanding w) (cached : w.models.get? n = some m)
    (found : w.descriptors.get? n = some d) (mem : e ∈ d.relationships) :
    ∃ t other, Hosted w.descriptors n e.relationship i t other := by
  obtain ⟨m', own, host, key, relation, relation', cached', table, table', named, back, named', leads,
    made, joined, swapped⟩ := h
  obtain ⟨d', r, found', declared, stands, mine⟩ :=
    standing.exists_relationship sound cached table named
  obtain ⟨t, other, described, declared', stands', theirs⟩ :=
    standing.exists_relationship sound cached' table' named'
  obtain rfl := Option.some.inj (found.symm.trans found')
  have entry := (sound.allWellFormed n d found).relationship?_eq_some_iff.2 ⟨e, mem, rfl, rfl⟩
  obtain rfl : e.relationship = r := Option.some.inj (entry.symm.trans declared)
  have target : other.target = n := stands'.target_eq.symm.trans leads
  have joined' : relation'.joinClauses ≠ [] := by
    rw [made.joins_eq]
    rw [swapped, ne_eq, List.map_eq_nil_iff] at joined
    exact joined
  exact ⟨t, other, stands.backPopulates_eq ▸ back, described, declared', target,
    stands'.hostsKey made theirs (target ▸ mine) joined'⟩

namespace Compiler

/-- A model with a table that a generation answers with is in the cache. -/
theorem cached_of_generate {c c' : Compiler} (h : (generate n).Answers c m c')
    (concrete : m.isAbstract = false) : c'.model? n = some m := by
  obtain ⟨ctx, w', _, ends, rfl⟩ := answers_generating.1 h
  rcases Generation.answers_generate.1 ends with ⟨cached, rfl⟩ | ⟨uncached, r, _, ⟨_, made⟩ |
    ⟨_, _, _, _, _, cached⟩⟩
  · exact cached
  · rcases Generation.answers_generateAbstract.1 made with ⟨cached, rfl⟩ | ⟨_, _, _, _, _, rfl, _⟩
    · exact cached
    · cases concrete
  · exact cached

/-- In a history that declares no name again the relations of generated resources go on to stand for
the relationships of their descriptors. -/
theorem allStanding_run (settings : Settings) {requests : List Request}
    (once : (new settings).DeclaresOnce requests) :
    AllStanding ((new settings).run requests).workspace :=
  (inOrder_run (fun orderly ext same h => h.extends_ orderly ext same)
    (fun _ orderly' built h => h.builds orderly' built) once (inOrder_new settings)
    (fun _ _ _ cached => by cases cached)).2

/-- Whenever a generation succeeds for a resource with a table, in a history that declares no name twice
and nothing as synthesized, and as long as no primary key depends on itself: a relationship that it
inherits, and that hosts no key, joins along a key of its own just if it names a relationship of its
target that leads back to the heir and hosts the key.  An inherited one-to-many names a property of its
target, under the name of the heir unless that leads back, and if the property was synthesized under an
undisputed name, it leads back and hosts the key. -/
theorem inherited_sides_keyed (settings : Settings) (requests : List Request)
    (once : (new settings).DeclaresOnce requests) (plain : ∀ request ∈ requests, request.Plain)
    (c : Compiler) (reached : (new settings).run requests = c) (n : String) (m : Model) (c' : Compiler)
    (generated : (generate n).Answers c m c') (concrete : m.isAbstract = false)
    (acyclic : KeysAcyclic c'.workspace.descriptors) :
    ∀ d e, c'.descriptor? n = some d → e ∈ d.relationships → e.declaredBy ≠ n →
      e.relationship.hostsKey = false →
      (∀ i, JoinsThrough c'.workspace n m e i ↔
        ∃ t other, Hosted c'.workspace.descriptors n e.relationship i t other) ∧
      (e.relationship.kind = .oneToMany →
        ∃ i t, e.relationship.inverse = some i ∧ c'.descriptor? e.relationship.target = some t
          ∧ t.hasProperty i = true ∧ (i = Naming.snakeCase n ∨ Binding.LeadsTo t i n)
          ∧ ∀ other, t.relationship? i = some other → other.synthesized = true →
            Undisputed c'.workspace.descriptors n e.relationship.target i →
            Hosted c'.workspace.descriptors n e.relationship i t other) := by
  have history : (new settings).run (requests ++ [.generate n]) = c' := by
    rw [run_append, reached]
    exact generated.2
  have once' : (new settings).DeclaresOnce (requests ++ [.generate n]) :=
    declaresOnce_append.2 ⟨once, .generate n, trivial⟩
  have plain' : ∀ request ∈ requests ++ [.generate n], request.Plain := by
    intro request mem
    rcases List.mem_append.1 mem with old | new
    · exact plain request old
    · rw [List.mem_singleton.1 new]
      trivial
  have completing := completing_run settings once' plain'
  have agree := allAgree_run settings once'
  have standing := allStanding_run settings once'
  rw [history] at completing agree standing
  have sound := agree.1.orderly.sound
  have cached := cached_of_generate generated concrete
  intro d e found mem inherited keyless
  have agrees := agree.2 n m d cached concrete found
  refine ⟨fun i => ⟨fun joined => joined.hosted sound standing cached found mem,
    fun ⟨t, other, hosted⟩ => agrees.joinsThrough acyclic cached mem keyless hosted⟩, fun many => ?_⟩
  obtain ⟨i, t, side⟩ := agrees.many e mem many
  refine ⟨i, t, side.inverse_eq, side.target, side.property, side.named (by simpa using inherited), ?_⟩
  intro other named synthesized undisputed
  exact .of_synthesized sound.allWellFormed completing side named synthesized undisputed

/-- A base with posts, and an heir. -/
def heirs : List Request :=
  [.declare { name := "Base"
              properties := [⟨"posts", 1, .relationship (.new .oneToMany "Post")⟩] },
    .declare { name := "Post" },
    .declare { name := "Sub", parent := some "Base" }]

theorem inherited_sides_keyed_heirs :
    (new {}).DeclaresOnce heirs ∧ (∀ request ∈ heirs, request.Plain) ∧
    ∃ m c' d e i, (generate "Sub").Answers ((new {}).run heirs) m c' ∧ m.isAbstract = false
      ∧ KeysAcyclic c'.workspace.descriptors ∧ c'.descriptor? "Sub" = some d ∧ e ∈ d.relationships
      ∧ e.declaredBy ≠ "Sub" ∧ e.relationship.hostsKey = false ∧ e.relationship.kind = .oneToMany
      ∧ e.relationship.inverse = some i ∧ JoinsThrough c'.workspace "Sub" m e i := by
  obtain ⟨c, reached⟩ : ∃ c, (new {}).run heirs = c := ⟨_, rfl⟩
  have once : (new {}).DeclaresOnce heirs :=
    ⟨.declare _ rfl, .declare _ (by cbv), .declare _ (by cbv), trivial⟩
  have plain : ∀ request ∈ heirs, request.Plain := by
    simp [heirs, Request.Plain, Resource.Plain, Property.relationship?, Relationship.new]
  have facts : (let made := generate "Sub" c
      (made.result.toOption.any (!·.isAbstract)
        && made.state.workspace.descriptors.entries.all fun p =>
          p.2.identifyingTargets.isEmpty
            && p.2.relationships.all (fun e => p.1 == "Sub" || e.relationship.inverse != some "sub")
            && (p.1 != "Post" || (p.2.relationship? "sub").any (·.synthesized)))
        && (made.state.descriptor? "Sub").any fun d => d.relationships.any fun e =>
          e.declaredBy == "Base" && !e.relationship.hostsKey && e.relationship.kind == .oneToMany
            && e.relationship.target == "Post" && e.relationship.inverse == some "sub") = true := by
    rw [← reached]
    cbv
  obtain ⟨facts, inherits⟩ := (Bool.and_eq_true _ _).mp facts
  obtain ⟨made, descriptors⟩ := (Bool.and_eq_true _ _).mp facts
  obtain ⟨m, c', generated, concrete⟩ := Action.exists_answers_of_any made
  rw [generated.2] at descriptors inherits
  have concrete : m.isAbstract = false := by simpa using concrete
  have each : ∀ n d, c'.descriptor? n = some d → d.identifyingTargets = []
      ∧ (∀ e ∈ d.relationships, n = "Sub" ∨ e.relationship.inverse ≠ some "sub")
      ∧ (n = "Post" → (d.relationship? "sub").any (·.synthesized) = true) := by
    intro n d found
    have one := List.all_eq_true.1 descriptors _ (Roster.mem_entries_of_get? found)
    rw [Bool.and_eq_true, Bool.and_eq_true, List.all_eq_true] at one
    obtain ⟨⟨none, others⟩, post⟩ := one
    refine ⟨List.isEmpty_iff.1 none, fun e mem => by simpa using others e mem, ?_⟩
    rintro rfl
    simpa using post
  have acyclic : KeysAcyclic c'.workspace.descriptors :=
    keysAcyclic_of_none fun n d found => (each n d found).1
  have undisputed : Undisputed c'.workspace.descriptors "Sub" "Post" "sub" :=
    fun o d e found mem _ _ inverse => ((each o d found).2.1 e mem).resolve_right (· inverse)
  obtain ⟨d, found, inside⟩ := (Option.any_eq_true _ _).1 inherits
  obtain ⟨e, mem, side⟩ := List.any_eq_true.1 inside
  obtain ⟨⟨⟨⟨base, keyless⟩, many⟩, target⟩, inverse⟩ := by simpa using side
  have inherited : e.declaredBy ≠ "Sub" := by
    rw [base]
    decide
  obtain ⟨keyed, sides⟩ := inherited_sides_keyed {} heirs once plain c reached "Sub" m c' generated
    concrete acyclic d e found mem inherited keyless
  obtain ⟨i, t, settled, there, _, _, hosted⟩ := sides many
  obtain rfl : i = "sub" := Option.some.inj (settled.symm.trans inverse)
  obtain ⟨other, named, synthesized⟩ :=
    (Option.any_eq_true _ _).1 ((each _ t there).2.2 target)
  exact ⟨once, plain, m, c', d, e, "sub", reached ▸ generated, concrete, acyclic, found, mem, inherited,
    keyless, many, inverse,
    (keyed "sub").2 ⟨t, other, hosted other named synthesized (target ▸ undisputed)⟩⟩

/-! ### Heirs that are left without a key -/

/-- A generation succeeds for a resource that inherits a relationship of some kind under the name `x`:
it has the inverse `i` and joins nothing, and the target has no key to the resource. -/
def LeavesUnkeyed (c : Compiler) (n x : String) (kind : RelationshipKind) (i : String) : Prop :=
  ∃ m m' c' d e own host, (generate n).Answers c m c' ∧ m.isAbstract = false
    ∧ KeysAcyclic c'.workspace.descriptors ∧ c'.descriptor? n = some d ∧ e ∈ d.relationships
    ∧ e.name = x ∧ e.declaredBy ≠ n ∧ e.relationship.kind = kind ∧ e.relationship.hostsKey = false
    ∧ (m.relation? x).map (fun r => (r.backPopulates, r.joinClauses)) = some (some i, [])
    ∧ c'.model? e.relationship.target = some m' ∧ m.table = some own ∧ m'.table = some host
    ∧ ∀ key ∈ host.constraints, key.referredTable ≠ own.fullName

/-- The check of all that, for a history without identifying relationships. -/
def leavesUnkeyed (c : Compiler) (n x : String) (kind : RelationshipKind) (i : String) : Bool :=
  let made := generate n c
  let after := made.state
  made.result.toOption.any fun m => !m.isAbstract
    && (m.relation? x).map (fun r => (r.backPopulates, r.joinClauses)) == some (some i, [])
    && after.workspace.descriptors.entries.all (·.2.identifyingTargets.isEmpty)
    && (after.descriptor? n).any fun d => d.relationships.any fun e => e.name == x
      && e.declaredBy != n && e.relationship.kind == kind && !e.relationship.hostsKey
      && (after.model? e.relationship.target).any fun m' => m.table.any fun own =>
        m'.table.any fun host => host.constraints.all (·.referredTable != own.fullName)

theorem leavesUnkeyed_sound {c : Compiler} {n x i : String} {kind : RelationshipKind}
    (h : c.leavesUnkeyed n x kind i = true) : c.LeavesUnkeyed n x kind i := by
  obtain ⟨m, c', generated, h⟩ := Action.exists_answers_of_any h
  rw [generated.2] at h
  simp only [Bool.and_eq_true, Bool.not_eq_true', Option.any_eq_true, List.any_eq_true,
    beq_iff_eq, bne_iff_ne] at h
  obtain ⟨⟨⟨concrete, relation⟩, plain⟩, d, found, e, mem, ⟨⟨⟨name, inherited⟩, kind⟩, keyless⟩, m',
    target, own, table, host, table', keys⟩ := h
  refine ⟨m, m', c', d, e, own, host, generated, concrete, ?_, found, mem, name, inherited, kind,
    keyless, relation, target, table, table', fun key mem => ?_⟩
  · refine keysAcyclic_of_none fun n d found => ?_
    exact List.isEmpty_iff.1 (List.all_eq_true.1 plain _ (Roster.mem_entries_of_get? found))
  · simpa using List.all_eq_true.1 keys key mem

/-- A base with posts, and an heir; a post has a field under the name of the heir. -/
def namesakes : List Request :=
  [.declare { name := "Base"
              properties := [⟨"posts", 1, .relationship (.new .oneToMany "Post")⟩] },
    .declare { name := "Post", properties := [⟨"sub", 2, .field { storage := .integer }⟩] },
    .declare { name := "Sub", parent := some "Base" }]

/-- The same without the base: the heir has posts of its own. -/
def ownNamesakes : List Request :=
  [.declare { name := "Post", properties := [⟨"sub", 2, .field { storage := .integer }⟩] },
    .declare { name := "Sub"
               properties := [⟨"posts", 1, .relationship (.new .oneToMany "Post")⟩] }]

/-- The one-to-many that the heir inherits takes the field for its other side: there is no key for it,
and the generation succeeds.  Were it declared by the heir itself, the generation would fail. -/
theorem inherited_one_to_many_unkeyed :
    (new {}).DeclaresOnce namesakes
      ∧ ((new {}).run namesakes).LeavesUnkeyed "Sub" "posts" .oneToMany "sub"
      ∧ (new {}).DeclaresOnce ownNamesakes
      ∧ (generate "Sub" ((new {}).run ownNamesakes)).result
        = .error (.invalidInverse "Sub" "posts" "sub" "'Post.sub' is a field") :=
  ⟨⟨.declare _ rfl, .declare _ (by cbv), .declare _ (by cbv), trivial⟩,
    leavesUnkeyed_sound (by cbv), ⟨.declare _ rfl, .declare _ (by cbv), trivial⟩, by cbv⟩

/-- Authors with their best books, on both sides, and poets, who inherit one. -/
def poets : List Request :=
  [.declare { name := "Book"
              properties := [⟨"fan", 1, .relationship
                { Relationship.new .oneToOne "Author" with inverse := some "best" }⟩] },
    .declare { name := "Author"
               properties := [⟨"best", 2, .relationship
                 { Relationship.new .oneToOne "Book" with inverse := some "fan", primary := true }⟩] },
    .declare { name := "Poet", parent := some "Author" }]

/-- The one-to-one that poets inherit goes on to name the fan of a book, who is an author: there is no
key for it. -/
example : ((new {}).run poets).leavesUnkeyed "Poet" "best" .oneToOne "fan" = true := by cbv

end Compiler

end ResourceTables
