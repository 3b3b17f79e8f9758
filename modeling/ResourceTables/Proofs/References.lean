/-
# `ResourceTables.Proofs.References` — every foreign key in the cache leads to a cached table

Models come into the cache a unit at a time, and the relationships of a unit lead to its members and to
models that are there already.  A cached model never changes again, so what a unit's foreign keys
link to when it is stored they link to for good, in every state that any history leads to.
-/
import Mathlib
import ResourceTables.Proofs.Links
import ResourceTables.Proofs.Workspaces

namespace ResourceTables

/-- A cache in which relations lead to models and foreign keys to the tables of relations. -/
structure Referential (models : Roster Model) : Prop where
  columns : ColumnsDistinct models
  relations : ∀ n m, models.get? n = some m → ∀ relation, .relation relation ∈ m.properties →
    models.contains relation.target = true
  keys : ∀ n m t, models.get? n = some m → m.table = some t → ∀ key ∈ t.constraints,
    ∃ relation m' target, .relation relation ∈ m.properties
      ∧ models.get? relation.target = some m' ∧ m'.table = some target ∧ t.Links target key

theorem referential_empty : Referential .empty := by
  refine ⟨?_, ?_, ?_⟩
  · intro n m t found
    cases found
  · intro n m found
    cases found
  · intro n m t found
    cases found

namespace Referential

variable {models models' : Roster Model}

/-- A cache with more models, each of which refers to what is there, is referential. -/
theorem extend (h : Referential models)
    (kept : ∀ n m, models.get? n = some m → models'.get? n = some m)
    (added : ∀ n m, models.get? n = none → models'.get? n = some m →
      (∀ t, m.table = some t → t.columnNames.Nodup) ∧
      (∀ relation, .relation relation ∈ m.properties → models'.contains relation.target = true) ∧
      ∀ t, m.table = some t → ∀ key ∈ t.constraints, ∃ relation m' target,
        .relation relation ∈ m.properties ∧ models'.get? relation.target = some m'
          ∧ m'.table = some target ∧ t.Links target key) :
    Referential models' := by
  have origin : ∀ n m, models'.get? n = some m → models.get? n = some m ∨ models.get? n = none := by
    intro n m found
    cases before : models.get? n with
    | none => exact .inr rfl
    | some m₀ => exact .inl ((kept n m₀ before).symm.trans found)
  refine ⟨?_, ?_, ?_⟩
  · intro n m t found table
    rcases origin n m found with old | new
    · exact h.columns n m t old table
    · exact (added n m new found).1 t table
  · intro n m found relation mem
    rcases origin n m found with old | new
    · obtain ⟨m', there⟩ := Option.isSome_iff_exists.1
        ((Roster.contains_eq_isSome_get? _ _).symm.trans (h.relations n m old relation mem))
      rw [Roster.contains_eq_isSome_get?, kept _ m' there]
      rfl
    · exact (added n m new found).2.1 relation mem
  · intro n m t found table key mem
    rcases origin n m found with old | new
    · obtain ⟨relation, m', target, inside, there, table', links⟩ := h.keys n m t old table key mem
      exact ⟨relation, m', target, inside, kept _ m' there, table', links⟩
    · exact (added n m new found).2.2 t table key mem

end Referential

namespace Sound

open Generation

variable {ctx : GenerationContext} {w w' : Workspace} {unit : List String} {n : String}
  {start finished : Roster Model} {D₁ : Roster Descriptor}

/-- A compiled unit whose relationships lead to members and to cached models leaves the cache
referential. -/
theorem Compiled.referential (spec : Compiled ctx unit w w' start finished D₁)
    (sound : Sound ctx.resources w) (distinct : unit.Nodup)
    (pending : ∀ k ∈ unit, Binding.isPending w.descriptors w.models k = true)
    (known : ∀ k ∈ unit, ∀ d, w.descriptors.get? k = some d → ∀ e ∈ d.relationships,
      e.relationship.target ∈ unit ∨ w.models.contains e.relationship.target = true)
    (h : Referential w.models) : Referential w'.models := by
  have linked := linked_drafts distinct sound.allWellFormed spec.drafted w.models
  obtain ⟨linked', related⟩ := linked_runPhases sound.descriptors_distinct sound.allWellFormed
    h.columns linked (names_drafts spec.drafted) spec.built
  have leads : ∀ k d x r, w.descriptors.get? k = some d → d.relationship? x = some r → k ∈ unit →
      w'.models.contains r.target = true := by
    intro k d x r hd hr member
    obtain ⟨e, mem, _, rfl⟩ := (sound.allWellFormed k d hd).relationship?_eq_some_iff.1 hr
    exact (spec.contains_models _).2 (known k member d hd e mem).symm
  have uncached : ∀ k ∈ unit, w.models.get? k = none := by
    intro k member
    obtain ⟨_, _, _, _, none⟩ := Binding.isPending_iff.1 (pending k member)
    exact Roster.contains_eq_false_iff.1 none
  refine h.extend ?_ ?_
  · intro k m found
    rw [spec.get?_models, found, Option.some_or]
  · intro k m before found
    rw [spec.get?_models, before, Option.none_or] at found
    have member : k ∈ unit := spec.names_eq ▸ Roster.mem_names_of_get? found
    refine ⟨fun t table => linked'.columns k m t found table, ?_, ?_⟩
    · intro relation mem
      obtain ⟨d, x, r, hd, hr, target⟩ := linked'.relations k m found relation mem
      exact target ▸ leads k d x r hd hr member
    · intro t table key mem
      obtain ⟨d, x, r, target, hd, hr, there, links⟩ := linked'.keys k m t found table key mem
      obtain ⟨m₁, relation, found₁, inside, same⟩ := related k member d x r hd hr
      rw [found, Option.some.injEq] at found₁
      subst found₁
      obtain ⟨m', either, table'⟩ := knownTable_eq_some_iff.1 there
      refine ⟨relation, m', target, inside, ?_, table', links⟩
      rw [same, spec.get?_models]
      rcases Option.or_eq_some_iff.1 either with new | ⟨_, old⟩
      · have member' : r.target ∈ unit := spec.names_eq ▸ Roster.mem_names_of_get? new
        rw [uncached _ member', Option.none_or, new]
      · rw [old, Option.some_or]

end Sound

/-! ## Requests keep the cache referential -/

namespace Generation

variable {ctx : GenerationContext}

theorem referential_generateAbstract (ctx : GenerationContext) (name : String) :
    Action.Keeps (fun w => Sound ctx.resources w ∧ Referential w.models)
      (generateAbstract ctx name) := by
  refine Action.keeps_of_ends ?_ ?_
  · rintro w m w' ⟨sound, referential⟩ h
    refine ⟨(keeps_generateAbstract name).of_answers h sound, ?_⟩
    rcases answers_generateAbstract.1 h with ⟨_, rfl⟩ | ⟨uncached, r, d, hr, hd, rfl, rfl⟩
    · exact referential
    · have models : ∀ k, (stored w name (abstractModel ctx r d name)).models.get? k
          = (w.models.get? k).or (if k = name then some (abstractModel ctx r d name) else none) :=
        fun k => Roster.get?_insertNew _ _ _ _
      refine referential.extend ?_ ?_
      · intro k m found
        rw [models, found, Option.some_or]
      · intro k m before found
        rw [models, before, Option.none_or] at found
        by_cases same : k = name
        · rw [if_pos same, Option.some.injEq] at found
          subst found
          refine ⟨?_, ?_, ?_⟩
          · intro t table
            cases table
          · intro relation mem
            obtain ⟨e, _, impossible⟩ := List.mem_map.1 mem
            cases impossible
          · intro t table
            cases table
        · rw [if_neg same] at found
          cases found
  · rintro w e w' keep h
    exact fails_generateAbstract h ▸ keep

/-- A unit that is bound and compiled keeps the cache referential. -/
theorem referential_compile {w w' : Workspace} {name : String} {r : Resource}
    {ordered : List String} {D' : Roster Descriptor} (sound : Sound ctx.resources w)
    (referential : Referential w.models) (hr : ctx.resources.get? name = some r)
    (concrete : r.isAbstract = false) (uncached : w.models.get? name = none)
    (bound : (Binding.bind ctx.resources w.models name).Answers w.descriptors ordered D')
    (compiled : (compile ctx ordered).Answers { w with descriptors := D' } () w') :
    Referential w'.models := by
  obtain ⟨sound', distinct, _, pending⟩ := sound.bound_unit hr concrete uncached bound
  obtain ⟨_, start, finished, D₁, spec⟩ :=
    (compile_ends sound hr concrete uncached bound).1 compiled
  refine spec.referential sound' distinct pending ?_ referential
  intro k member d found e mem
  refine (sound.bound_targets bound member found mem).imp_right ?_
  rintro ⟨_, m, _, _, cached⟩
  rw [Roster.contains_eq_isSome_get?, cached]
  rfl

theorem referential_generate (ctx : GenerationContext) (name : String) :
    Action.Keeps (fun w => Sound ctx.resources w ∧ Referential w.models) (generate ctx name) := by
  refine Action.keeps_of_ends ?_ ?_
  · rintro w m w' ⟨sound, referential⟩ h
    refine ⟨(keeps_generate name).of_answers h sound, ?_⟩
    rcases answers_generate.1 h with ⟨_, rfl⟩ | ⟨uncached, r, hr, ⟨_, made⟩ |
      ⟨concrete, ordered, D', bound, compiled, _⟩⟩
    · exact referential
    · exact ((referential_generateAbstract ctx name).of_answers made ⟨sound, referential⟩).2
    · exact referential_compile sound referential hr concrete uncached bound compiled
  · rintro w e w' ⟨sound, referential⟩ h
    refine ⟨(keeps_generate name).of_fails h sound, ?_⟩
    obtain ⟨uncached, rfl | ⟨r, hr, concrete, ⟨D', _, rfl⟩ |
      ⟨ordered, D', bound, failed | ⟨compiled, _⟩⟩⟩⟩ := fails_generate h
    · exact referential
    · exact referential
    · rw [← (compile_ends sound hr concrete uncached bound).2 e failed]
      exact referential
    · exact referential_compile sound referential hr concrete uncached bound compiled

end Generation

namespace Compiler

/-- Wherever a history leads, every relation of a cached model names a cached model, and every
foreign key of a cached table belongs to a relation of its model: it refers to the table of that
relation's target, and each of its columns repeats a primary-key column of that table. -/
theorem references_resolve (settings : Settings) (requests : List Request) (c : Compiler)
    (reached : (new settings).run requests = c) :
    ∀ n m, c.model? n = some m →
      (∀ relation, .relation relation ∈ m.properties → (c.model? relation.target).isSome) ∧
      ∀ t, m.table = some t → ∀ key ∈ t.constraints,
        key.columns ≠ [] ∧ key.columns.length = key.referredColumns.length ∧
        ∃ relation m' target, .relation relation ∈ m.properties
          ∧ c.model? relation.target = some m' ∧ m'.table = some target
          ∧ key.referredTable = target.fullName
          ∧ ∀ i (h : i < key.columns.length) (h' : i < key.referredColumns.length),
              ∃ column referred, t.column? key.columns[i] = some column
                ∧ target.column? key.referredColumns[i] = some referred
                ∧ referred.isPrimaryKey = true ∧ column.type = referred.type := by
  have referential : Referential c.workspace.models := by
    rw [← reached]
    exact cache_run Generation.referential_generateAbstract Generation.referential_generate
      referential_empty settings requests
  intro n m found
  constructor
  · intro relation mem
    have cached := referential.relations n m found relation mem
    rw [Roster.contains_eq_isSome_get?] at cached
    exact cached
  · intro t table key mem
    obtain ⟨relation, m', target, inside, there, table', links⟩ :=
      referential.keys n m t found table key mem
    refine ⟨links.columns_ne_nil, links.repeats.length_eq, relation, m', target, inside, there,
      table', links.referredTable_eq, fun i h h' => ?_⟩
    exact links.repeats.get h h'

/-- Books of authors; the authors are declared again once the books are generated. -/
def library : List Request :=
  [.declare { name := "Author" },
    .declare { name := "Book"
               properties := [⟨"author", 1, .relationship (.new .manyToOne "Author")⟩] },
    .generate "Book",
    .declare { name := "Author", properties := [⟨"name", 2, .field { storage := .text }⟩] }]

theorem references_resolve_library :
    ∃ m t key, ((new {}).run library).model? "Book" = some m ∧ m.table = some t
      ∧ key ∈ t.constraints ∧ key.columns ≠ [] ∧ ∃ relation m' target,
        .relation relation ∈ m.properties
          ∧ ((new {}).run library).model? relation.target = some m' ∧ m'.table = some target
          ∧ key.referredTable = target.fullName := by
  have keys : (((new {}).run library).model? "Book").bind (fun m => m.table.map (·.constraints.length))
      = some 1 := by cbv
  obtain ⟨m, found, here⟩ := Option.bind_eq_some_iff.1 keys
  obtain ⟨t, table, one⟩ := Option.map_eq_some_iff.1 here
  obtain ⟨key, mem⟩ := List.exists_mem_of_length_pos (by omega : 0 < t.constraints.length)
  obtain ⟨_, resolve⟩ := references_resolve {} library _ rfl "Book" m found
  obtain ⟨columns, _, relation, m', target, inside, there, table', name, _⟩ :=
    resolve t table key mem
  exact ⟨m, t, key, found, table, mem, columns, relation, m', target, inside, there, table', name⟩

end Compiler

end ResourceTables
