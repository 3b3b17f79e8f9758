/-
# `ResourceTables.Proofs.Shared` — which sides without a key share one

A side without a key is served by whatever stands on its target under the name of its inverse.  That
name is all that ties it to its key: two collections of one resource that lead to one target and are
left to the default inverse are both served by the one reference that completes the first of them.

What two sides must agree on to share a key is read off their joins.  A join writes the names of two
tables and of two columns into texts with dots between them; tables are named by identifiers, so the
texts fall apart in one way only.
-/
import ResourceTables.Proofs.Keyless
import ResourceTables.Proofs.Mirrors
import ResourceTables.Proofs.Origins
import ResourceTables.Proofs.Permanence
import ResourceTables.Proofs.Spelling

namespace ResourceTables

/-! ## Names with dots between them -/

namespace Table

variable {s : Option String} {t t' : Table}

/-- A table of a database schema, under an identifier. -/
structure NamedIn (s : Option String) (t : Table) : Prop where
  schema_eq : t.schema = s
  isIdentifier : Naming.isIdentifier t.name = true

theorem NamedIn.grows (h : t.NamedIn s) (grows : t.Grows t') : t'.NamedIn s :=
  ⟨grows.schema_eq.trans h.schema_eq, grows.name_eq ▸ h.isIdentifier⟩

/-- The text for a column of a table tells the table and the column. -/
theorem column_text_inj {u : Table} (h : t.NamedIn s) (h' : u.NamedIn s) {c k : String} :
    s!"{t.fullName}.{c}" = s!"{u.fullName}.{k}" ↔ t.fullName = u.fullName ∧ c = k := by
  have names : t.name ++ "." ++ c = u.name ++ "." ++ k ↔ t.name = u.name ∧ c = k := by
    rw [← String.toList_inj]
    simp only [String.toList_append, List.append_assoc]
    exact (append_cons_inj (Naming.no_dot_of_isIdentifier h.isIdentifier)
      (Naming.no_dot_of_isIdentifier h'.isIdentifier)).trans
        (and_congr String.toList_inj String.toList_inj)
  change t.fullName ++ "." ++ c = u.fullName ++ "." ++ k ↔ _
  unfold fullName
  rw [h.schema_eq, h'.schema_eq]
  cases s with
  | none => exact names
  | some q =>
      change q ++ "." ++ t.name ++ "." ++ c = q ++ "." ++ u.name ++ "." ++ k
        ↔ q ++ "." ++ t.name = q ++ "." ++ u.name ∧ c = k
      simp only [String.append_assoc, String.append_right_inj] at names ⊢
      exact names

end Table

/-! ## What joins tell -/

namespace RelationshipBuilder

variable {s : Option String} {own own' far far' : Table} {i i' : String}

/-- The join of a side without a key along a column of its own primary key. -/
def sideJoin (own far : Table) (i : String) (k : Column) : JoinClause :=
  { own := s!"{own.fullName}.{k.name}", remote := s!"{far.fullName}.{keyColumnName i k}" }

/-- A side that finds a key joins along all of its own primary key. -/
theorem inverseJoins_of_ne_nil (some : inverseJoins own far i ≠ []) :
    inverseJoins own far i = own.primaryKey.map (sideJoin own far i) := by
  have served : ∃ key ∈ far.constraints, servesInverse own i key = true := by
    by_contra none
    push Not at none
    refine some ?_
    unfold inverseJoins
    rw [List.find?_eq_none.2 none]
  let maker : RelationshipBuilder := { name := i, useList := false, forcesPrimaryKey := false }
  rw [inverseJoins_eq maker served, List.map_map]
  rfl

theorem sideJoin_inj (h : own.NamedIn s) (h' : own'.NamedIn s) (there : far.NamedIn s)
    (there' : far'.NamedIn s) {k k' : Column} :
    sideJoin own far i k = sideJoin own' far' i' k' ↔
      own.fullName = own'.fullName ∧ k.name = k'.name ∧ far.fullName = far'.fullName ∧ i = i' := by
  rw [sideJoin, sideJoin, JoinClause.mk.injEq, Table.column_text_inj h h',
    Table.column_text_inj there there', and_assoc]
  refine and_congr_right fun _ => and_congr_right fun same => and_congr_right fun _ => ?_
  change i ++ "_" ++ k.name = i' ++ "_" ++ k'.name ↔ _
  rw [same, String.append_left_inj, String.append_left_inj]

/-- Two sides that find keys have the same joins just if they agree on both tables, on the columns of
the own primary key and on the inverse. -/
theorem inverseJoins_inj (h : own.NamedIn s) (h' : own'.NamedIn s) (there : far.NamedIn s)
    (there' : far'.NamedIn s) (some : inverseJoins own far i ≠ [])
    (some' : inverseJoins own' far' i' ≠ []) :
    inverseJoins own far i = inverseJoins own' far' i' ↔
      own.fullName = own'.fullName
        ∧ own.primaryKey.map (·.name) = own'.primaryKey.map (·.name)
        ∧ far.fullName = far'.fullName ∧ i = i' := by
  have along := inverseJoins_of_ne_nil some
  have along' := inverseJoins_of_ne_nil some'
  rw [along] at some
  rw [along, along', ← List.forall₂_eq_eq_eq, List.forall₂_map_left_iff, List.forall₂_map_right_iff,
    ← List.forall₂_eq_eq_eq (α := String), List.forall₂_map_left_iff, List.forall₂_map_right_iff]
  simp only [sideJoin_inj h h' there there']
  constructor
  · intro each
    obtain ⟨k, mem⟩ := List.exists_mem_of_ne_nil own.primaryKey fun none => some (by rw [none]; rfl)
    obtain ⟨_, _, owns, _, fars, same⟩ := exists_right_of_forall₂ each mem
    exact ⟨owns, each.imp fun _ _ one => one.2.1, fars, same⟩
  · rintro ⟨owns, names, fars, rfl⟩
    exact names.imp fun _ _ same => ⟨owns, same, fars, rfl⟩

end RelationshipBuilder

/-! ## Cached tables and relations -/

/-- The table of a cached model. -/
def Workspace.table? (w : Workspace) (n : String) : Option Table :=
  (w.models.get? n).bind (·.table)

theorem Workspace.table?_mono {w w' : Workspace}
    (more : ∀ n m, w.models.get? n = some m → w'.models.get? n = some m) {n : String} {t : Table}
    (found : w.table? n = some t) : w'.table? n = some t := by
  obtain ⟨m, cached, table⟩ := Option.bind_eq_some_iff.1 found
  exact Option.bind_eq_some_iff.2 ⟨m, more n m cached, table⟩

/-- All cached tables are named in one database schema. -/
def TablesNamed (s : Option String) (w : Workspace) : Prop :=
  ∀ n t, w.table? n = some t → t.NamedIn s

/-- The relations of a model stand for relationships of the descriptor that it was built from. -/
def Stands (w : Workspace) (n : String) (d : Descriptor) (m : Model) : Prop :=
  ∀ relation, .relation relation ∈ m.properties →
    ∃ r, d.relationship? relation.name = some r ∧ Generation.StandsFor w.table? n r relation

/-- More models and a descriptor whose targets are looked up again change nothing about that. -/
theorem Stands.lasts {w w' : Workspace} {n : String} {d d' : Descriptor} {m : Model}
    (stands : Stands w n d m) (more : ∀ k m, w.models.get? k = some m → w'.models.get? k = some m)
    (frozen : Binding.Frozen d d') : Stands w' n d' m := by
  intro relation mem
  obtain ⟨r, named, stands⟩ := stands relation mem
  exact ⟨r, (frozen.relationship?_eq _).trans named,
    stands.mono fun x t => Workspace.table?_mono more⟩

namespace Generation

variable {ctx : GenerationContext} {w w' : Workspace} {unit : List String} {name n : String}
  {D' D₁ : Roster Descriptor} {start finished : Roster Model} {r : Resource} {d : Descriptor}

theorem tablesNamed_stored {s : Option String} (uncached : w.models.get? name = none)
    (named : TablesNamed s w) : TablesNamed s (stored w name (abstractModel ctx r d name)) := by
  intro n t found
  obtain ⟨m, cached, table⟩ := Option.bind_eq_some_iff.1 found
  rcases (get?_models_stored uncached).1 cached with old | ⟨_, rfl⟩
  · exact named n t (Option.bind_eq_some_iff.2 ⟨m, old, table⟩)
  · cases table

theorem kept_tablesNamed : Kept ctx (TablesNamed ctx.settings.schema) where
  bound := fun _ _ named => named
  compiled := by
    intro w w' unit D' start finished D₁ _ built named _ n t found
    obtain ⟨m, cached, table⟩ := Option.bind_eq_some_iff.1 found
    rw [built.compiled.get?_models] at cached
    rcases Option.or_eq_some_iff.1 cached with old | ⟨_, new⟩
    · exact named n t (Option.bind_eq_some_iff.2 ⟨m, old, table⟩)
    · obtain ⟨_, _, identifier, tables⟩ := built.exists_startTable new table
      exact Table.NamedIn.grows ⟨rfl, identifier⟩ tables
  stored := fun _ uncached _ _ _ named => tablesNamed_stored uncached named

/-- What is known while a unit is built is cached when it is compiled. -/
theorem table?_of_known (built : BuiltUnit ctx w w' unit D' start finished D₁) {x : String}
    {t : Table} (known : knownTable w.models finished x = some t) : w'.table? x = some t := by
  obtain ⟨m, here, table⟩ := knownTable_eq_some_iff.1 known
  refine Option.bind_eq_some_iff.2 ⟨m, ?_, table⟩
  rw [built.compiled.get?_models]
  rcases Option.or_eq_some_iff.1 here with drafted | ⟨_, cached⟩
  · have member : x ∈ unit := built.compiled.names_eq ▸ Roster.mem_names_of_get? drafted
    exact Option.or_eq_some_iff.2 (.inr ⟨built.uncached member, drafted⟩)
  · exact Option.or_eq_some_iff.2 (.inl cached)

/-- The relations of a compiled unit stand for the relationships of its members. -/
theorem stands_compiled (sound : Sound ctx.resources { w with descriptors := D' })
    (built : BuiltUnit ctx w w' unit D' start finished D₁) {d₁ : Descriptor} {m : Model}
    (found : D'.get? n = some d) (worked : Worked d d₁) (made : finished.get? n = some m) :
    Stands w' n d₁.markGenerated m := by
  have all : AllStand D' w.models finished := stand_runPhases sound.descriptors_distinct
    (names_drafts built.compiled.drafted) built.distinct (built.fresh sound)
    (fun k m => properties_drafts built.compiled.drafted built.distinct) built.compiled.built
  intro relation mem
  obtain ⟨d₂, r, found₂, named, stands⟩ := all n m made relation mem
  rw [found, Option.some.injEq] at found₂
  subst found₂
  refine ⟨r, ?_, stands.mono fun x t => table?_of_known built⟩
  change (d₁.relationshipNamed? _).map _ = _
  rw [Descriptor.relationshipNamed?, worked.relationships_eq]
  exact named

theorem original_stands : Original ctx (fun _ => True) Stands where
  lasts := fun more frozen stands => stands.lasts more frozen
  compiled := fun sound built _ _ found _ worked made => stands_compiled sound built found worked made
  stored := by
    intro w name r d _ relation mem
    obtain ⟨e, _, impossible⟩ := List.mem_map.1 mem
    cases impossible

end Generation

/-! ## Histories -/

namespace Compiler

open Generation

variable {settings : Settings} {requests : List Request} {n n' x : String} {r : Relationship}
  {relation relation' : Relation}

theorem tablesNamed_run (settings : Settings) (requests : List Request) :
    TablesNamed settings.schema ((new settings).run requests).workspace := by
  have ends : ((new settings).run requests).Coherent
      ∧ ((new settings).run requests).settings = settings
      ∧ TablesNamed settings.schema ((new settings).run requests).workspace := by
    refine run_keeps (I := fun c => c.Coherent ∧ c.settings = settings
      ∧ TablesNamed settings.schema c.workspace) ?_
      ⟨coherent_new settings, rfl, fun n t found => by cases found⟩
      fun request (_ : request ∈ requests) => trivial
    rintro c request - ⟨coherent, same, named⟩
    refine ⟨coherent_after coherent request, (settings_after c request).trans same, ?_⟩
    have schema : ∀ ctx, c.generationContext = .ok ctx → ctx.settings.schema = settings.schema :=
      fun ctx known => by rw [(generationContext_eq_ok known).1, same]
    refine workspace_after_of_kept coherent request (fun _ _ _ _ _ => id) ?_
      (fun ctx known => schema ctx known ▸ kept_tablesNamed)
      (fun _ _ _ _ _ _ _ uncached _ _ => tablesNamed_stored uncached) named
    rintro name edit rfl
    exact id
  exact ends.2.2

/-- The relationship that the model of a resource was built from: the model was made by one of the
requests, and this is what the descriptor had under the name then. -/
def BuiltFrom (settings : Settings) (requests : List Request) (n x : String) (r : Relationship) :
    Prop :=
  ∃ before request later d, requests = before ++ request :: later
    ∧ ((new settings).run before).model? n = none
    ∧ (((new settings).run before).after request).model? n ≠ none
    ∧ (((new settings).run before).after request).descriptor? n = some d
    ∧ d.relationship? x = some r

/-- A relation of a cached model that was built from a relationship without a key, and joins along
some key nevertheless.  Its model has a table, since abstract models have no relations. -/
structure KeylessSide (settings : Settings) (requests : List Request) (n : String)
    (relation : Relation) : Prop where
  cached : ∃ m, ((new settings).run requests).model? n = some m ∧ .relation relation ∈ m.properties
  keyless : ∃ r, BuiltFrom settings requests n relation.name r ∧ r.hostsKey = false
  joined : relation.joinClauses ≠ []

/-- A model stands for the relationships that its descriptor had when it was made, in all later
states. -/
theorem BuiltFrom.standsFor (built : BuiltFrom settings requests n relation.name r) {m : Model}
    (cached : ((new settings).run requests).model? n = some m)
    (mem : .relation relation ∈ m.properties) :
    StandsFor ((new settings).run requests).workspace.table? n r relation := by
  obtain ⟨before, request, later, d, rfl, new_, made, found, named⟩ := built
  have coherent := coherent_run settings before
  have stand := newHave_after coherent request (fun _ _ => original_stands)
    (fun _ _ => ⟨fun _ _ _ => trivial, fun _ _ _ _ => trivial, fun _ _ _ _ _ _ => trivial⟩)
    (fun _ _ _ _ _ _ _ _ => trivial) trivial
  have extended := extended_run (coherent_after coherent request) later
  rw [run_append, run_cons] at cached ⊢
  obtain ⟨m', first⟩ := Option.ne_none_iff_exists'.1 made
  have same : m' = m := Option.some.inj ((Roster.get?_of_prefix extended.cache first).symm.trans cached)
  subst same
  obtain ⟨d', found', _, stands⟩ := stand n m' new_ first
  obtain ⟨r', named', stands⟩ := stands relation mem
  have here : d' = d := Option.some.inj (found'.symm.trans found)
  subst here
  rw [named, Option.some.injEq] at named'
  subst named'
  refine stands.mono fun x t => Workspace.table?_mono fun k m there => ?_
  exact Roster.get?_of_prefix extended.cache there

/-- Sides without a key that join along one at all have the same joins just if they belong to tables
of one name with the same primary key, lead to tables of one name, and have the same inverse: such a
key is shared by everything that has these in common, and by nothing else. -/
theorem same_joins_iff (settings : Settings) (requests : List Request) (n n' : String)
    (relation relation' : Relation) (side : KeylessSide settings requests n relation)
    (side' : KeylessSide settings requests n' relation') :
    ∃ own own' far far' i i',
      ((new settings).run requests).workspace.table? n = some own
      ∧ ((new settings).run requests).workspace.table? n' = some own'
      ∧ ((new settings).run requests).workspace.table? relation.target = some far
      ∧ ((new settings).run requests).workspace.table? relation'.target = some far'
      ∧ relation.backPopulates = some i ∧ relation'.backPopulates = some i'
      ∧ (relation.joinClauses = relation'.joinClauses ↔ own.fullName = own'.fullName
          ∧ own.primaryKey.map (·.name) = own'.primaryKey.map (·.name)
          ∧ far.fullName = far'.fullName ∧ i = i') := by
  have named := tablesNamed_run settings requests
  have read : ∀ {n : String} {relation : Relation}, KeylessSide settings requests n relation →
      ∃ own far i, ((new settings).run requests).workspace.table? n = some own
        ∧ ((new settings).run requests).workspace.table? relation.target = some far
        ∧ relation.backPopulates = some i
        ∧ relation.joinClauses = RelationshipBuilder.inverseJoins own far i := by
    rintro n relation ⟨⟨m, cached, mem⟩, ⟨r, built, keyless⟩, joined⟩
    have stands := built.standsFor cached mem
    obtain ⟨i, own, far, inverse, here, there, joins⟩ := stands.joins keyless joined
    exact ⟨own, far, i, here, stands.target_eq ▸ there, stands.backPopulates_eq.trans inverse, joins⟩
  obtain ⟨own, far, i, here, there, back, joins⟩ := read side
  obtain ⟨own', far', i', here', there', back', joins'⟩ := read side'
  refine ⟨own, own', far, far', i, i', here, here', there, there', back, back', ?_⟩
  rw [joins, joins']
  exact RelationshipBuilder.inverseJoins_inj (named _ _ here) (named _ _ here') (named _ _ there)
    (named _ _ there') (joins ▸ side.joined) (joins' ▸ side'.joined)

/-- Books, and an author with two collections of them, both left to the default inverse. -/
def collections : List Request :=
  [.declare { name := "Book" },
    .declare { name := "Author"
               properties := [⟨"books", 1, .relationship (.new .oneToMany "Book")⟩,
                 ⟨"drafts", 2, .relationship (.new .oneToMany "Book")⟩] }]

/-- A collection of the author as it stands on the model. -/
def collection (name : String) : Relation :=
  { name, target := "Book", loading := .dynamic, useList := true, backPopulates := some "author"
    joinClauses := [{ own := "author.id", remote := "book.author_id" }] }

theorem collections_cached :
    (((new {}).run (collections ++ [.generate "Author"])).model? "Author").any (fun m =>
      m.properties.contains (.relation (collection "books"))
        && m.properties.contains (.relation (collection "drafts"))) = true := by
  cbv

theorem collections_keyless :
    ((((new {}).run collections).after (.generate "Author")).descriptor? "Author").any (fun d =>
      (d.relationship? "books").any (!·.hostsKey) && (d.relationship? "drafts").any (!·.hostsKey))
        = true := by
  cbv

theorem keylessSide_collection (name : String) (one : name = "books" ∨ name = "drafts") :
    KeylessSide {} (collections ++ [.generate "Author"]) "Author" (collection name) where
  cached := by
    obtain ⟨m, cached, both⟩ := (Option.any_eq_true _ _).1 collections_cached
    rw [Bool.and_eq_true, List.contains_iff_mem, List.contains_iff_mem] at both
    refine ⟨m, cached, ?_⟩
    rcases one with rfl | rfl
    · exact both.1
    · exact both.2
  keyless := by
    obtain ⟨d, found, both⟩ := (Option.any_eq_true _ _).1 collections_keyless
    rw [Bool.and_eq_true] at both
    obtain ⟨r, named, keyless⟩ : ∃ r, d.relationship? name = some r ∧ (!r.hostsKey) = true := by
      rcases one with rfl | rfl
      · exact (Option.any_eq_true _ _).1 both.1
      · exact (Option.any_eq_true _ _).1 both.2
    obtain ⟨m, cached, _⟩ := (Option.any_eq_true _ _).1 collections_cached
    rw [run_append] at cached
    have before : ((new {}).run collections).model? "Author" = none := by cbv
    exact ⟨r, ⟨collections, _, [], d, rfl, before, Option.ne_none_iff_exists'.2 ⟨m, cached⟩, found,
      named⟩, by simpa using keyless⟩
  joined := by simp [collection]

theorem same_joins_iff_collections :
    KeylessSide {} (collections ++ [.generate "Author"]) "Author" (collection "books") ∧
    KeylessSide {} (collections ++ [.generate "Author"]) "Author" (collection "drafts") ∧
    ∃ own far, ((new {}).run (collections ++ [.generate "Author"])).workspace.table? "Author" = some own
      ∧ ((new {}).run (collections ++ [.generate "Author"])).workspace.table? "Book" = some far
      ∧ ∃ i, (collection "books").backPopulates = some i
        ∧ (collection "drafts").backPopulates = some i := by
  have books := keylessSide_collection "books" (.inl rfl)
  have drafts := keylessSide_collection "drafts" (.inr rfl)
  obtain ⟨own, _, far, _, i, i', here, _, there, _, back, back', same⟩ :=
    same_joins_iff {} (collections ++ [.generate "Author"]) "Author" "Author" _ _ books drafts
  obtain ⟨_, _, _, inverse⟩ := same.1 rfl
  exact ⟨books, drafts, own, far, here, there, i, back, inverse ▸ back'⟩

/-- Two collections of one resource can share a key. -/
theorem collections_share_key :
    ¬ ∀ (requests : List Request) (n n' : String) (relation relation' : Relation),
      KeylessSide {} requests n relation → KeylessSide {} requests n' relation' →
      (n, relation.name) ≠ (n', relation'.name) →
      relation.joinClauses ≠ relation'.joinClauses := by
  intro distinct
  exact distinct _ _ _ _ _ (keylessSide_collection "books" (.inl rfl))
    (keylessSide_collection "drafts" (.inr rfl)) (by simp [collection]) rfl

end Compiler

end ResourceTables
