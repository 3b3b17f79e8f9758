/-
# `ResourceTables.Proofs.Hosts` — a host gets the whole schema or nothing, and gets it once

The schema is put together one resource after another, while each request may compile and cache
several models or find its own in the cache.  What was cached for one resource is still cached at the
end, so the schema lists the model of every resource, and as foreign keys lead to cached models, they
lead to the schema's.

The host is touched last, after everything that can fail.  From then on its name for the schema is
taken, and whatever becomes of the compiler, it answers with the schema that it carries.
-/
import ResourceTables.Proofs.Identifiers
import ResourceTables.Proofs.Permanence
import ResourceTables.Proofs.References

namespace ResourceTables

/-! ## Hosts -/

namespace Application

variable {app : Application} {schema : Schema} {extension : Extension}

/-- The host with a schema. -/
def carrying (app : Application) (schema : Schema) : Application :=
  { app with extensions := app.extensions.insert schemaName (.schema schema) }

theorem schema_of_get? (found : app.extensions.get? schemaName = some (.schema schema)) :
    app.schema = .ok schema := by
  rw [Application.schema, Extensions.schema?, found]

theorem schema_of_other (found : app.extensions.get? schemaName = some extension)
    (other : ∀ schema, extension ≠ .schema schema) : app.schema = .error .notInitialized := by
  rw [Application.schema, Extensions.schema?, found]
  cases extension with
  | schema schema => exact absurd rfl (other schema)
  | _ => rfl

theorem get?_carrying (app : Application) (schema : Schema) :
    (app.carrying schema).extensions.get? schemaName = some (.schema schema) := by
  rw [carrying, Roster.get?_insert, if_pos rfl]

end Application

/-! ## One resource after another -/

namespace Generation

variable {ctx : GenerationContext} {w w' : Workspace} {n : String} {m : Model}

/-- The answer to a request is cached. -/
theorem cached_of_answers (granted : (generate ctx n).Answers w m w') :
    w'.models.get? n = some m := by
  have stored : (generateAbstract ctx n).Answers w m w' → w'.models.get? n = some m := by
    intro made
    rcases answers_generateAbstract.1 made with ⟨found, rfl⟩ | ⟨uncached, r, d, _, _, rfl, rfl⟩
    · exact found
    · exact (get?_models_stored uncached).2 (.inr ⟨rfl, rfl⟩)
  rcases answers_generate.1 granted with ⟨found, rfl⟩ | ⟨_, _, _, ⟨_, made⟩ | ⟨_, _, _, _, _, found⟩⟩
  · exact found
  · exact stored made
  · exact found

end Generation

namespace Compiler

open Application

variable {c c₁ c' : Compiler} {app : Application} {schema : Schema} {models : List Model}
  {names before after : List String} {n : String} {m : Model} {e : Error}
  {s : Compiler × Application}

/-- Resources of some names are generated one after another. -/
inductive Generates : Compiler → List String → List Model → Compiler → Prop
  | nil (c : Compiler) : Generates c [] [] c
  | cons {c c₁ c' : Compiler} {n : String} {m : Model} {rest : List String} {models : List Model} :
      (generate n).Answers c m c₁ → Generates c₁ rest models c' →
      Generates c (n :: rest) (m :: models) c'

theorem coherent_generated (coherent : c.Coherent) (granted : (generate n).Answers c m c') :
    c'.Coherent :=
  granted.2 ▸ coherent_after coherent (.generate n)

namespace Generates

theorem longer (generates : Generates c names models c') (coherent : c.Coherent) :
    c.workspace.models.entries <+: c'.workspace.models.entries := by
  induction generates with
  | nil => exact List.prefix_rfl
  | @cons c c₁ c' n m rest models granted _ ih =>
      have first := prefix_after coherent (.generate n)
      rw [Compiler.after, granted.2] at first
      exact first.trans (ih (coherent_generated coherent granted))

theorem exists_workspace (generates : Generates c names models c') :
    ∃ w, c.withWorkspace w = c' := by
  induction generates with
  | nil c => exact ⟨c.workspace, rfl⟩
  | cons granted _ ih =>
      obtain ⟨_, _, _, _, rfl⟩ := answers_generating.1 granted
      exact ih

/-- In the end all their models are cached. -/
theorem cached (generates : Generates c names models c') (coherent : c.Coherent) :
    List.Forall₂ (fun n m => c'.model? n = some m) names models := by
  induction generates with
  | nil => exact .nil
  | @cons c c₁ c' n m rest models granted others ih =>
      have coherent₁ := coherent_generated coherent granted
      obtain ⟨ctx, w, _, made, rfl⟩ := answers_generating.1 granted
      have here : (c.withWorkspace w).model? n = some m := Generation.cached_of_answers made
      exact .cons (Roster.get?_of_prefix (others.longer coherent₁) here) (ih coherent₁)

end Generates

theorem generates_nil : Generates c [] models c' ↔ [] = models ∧ c = c' := by
  constructor
  · rintro ⟨⟩
    exact ⟨rfl, rfl⟩
  · rintro ⟨rfl, rfl⟩
    exact .nil c

theorem generates_cons {rest : List String} :
    Generates c (n :: rest) models c' ↔ ∃ m others c₁, (generate n).Answers c m c₁
      ∧ Generates c₁ rest others c' ∧ m :: others = models := by
  constructor
  · rintro (_ | ⟨granted, later⟩)
    exact ⟨_, _, _, granted, later, rfl⟩
  · rintro ⟨m, others, c₁, granted, later, rfl⟩
    exact .cons granted later

section Generating

variable {ctx : GenerationContext} {w : Workspace}

/-- Under a known generator a request is one for the workspace. -/
theorem answers_generate_of_known (known : c.generationContext = .ok ctx) :
    (generate n).Answers c m c' ↔
      ∃ w, (Generation.generate ctx n).Answers c.workspace m w ∧ c.withWorkspace w = c' := by
  rw [generate, answers_generating, known]
  simp

theorem fails_generate_of_known (known : c.generationContext = .ok ctx) :
    (generate n).Fails c e c' ↔
      ∃ w, (Generation.generate ctx n).Fails c.workspace e w ∧ c.withWorkspace w = c' := by
  rw [generate, fails_generating, known]
  simp

theorem answers_generateEach (known : c.generationContext = .ok ctx) :
    (Generation.generateEach ctx names).Answers c.workspace models w ↔
      Generates c names models (c.withWorkspace w) := by
  induction names generalizing c models with
  | nil =>
      rw [generates_nil, Generation.generateEach, Action.answers_pure]
      refine and_congr_right fun _ => ⟨fun same => same ▸ rfl, fun same => ?_⟩
      exact congrArg Compiler.workspace same
  | cons n rest ih =>
      simp only [generates_cons, answers_generate_of_known known, Generation.generateEach,
        Action.answers_bind, Action.answers_pure]
      constructor
      · rintro ⟨m, w₁, one, others, _, more, rfl, rfl⟩
        exact ⟨m, others, _, ⟨w₁, one, rfl⟩, (ih (c := c.withWorkspace w₁) known).1 more, rfl⟩
      · rintro ⟨m, others, _, ⟨w₁, one, rfl⟩, more, rfl⟩
        exact ⟨m, w₁, one, others, w, (ih (c := c.withWorkspace w₁) known).2 more, rfl, rfl⟩

/-- A run over resources fails where one of them does. -/
theorem fails_generateEach (known : c.generationContext = .ok ctx) :
    (Generation.generateEach ctx names).Fails c.workspace e w ↔
      ∃ before n after models c₁, names = before ++ n :: after ∧ Generates c before models c₁
        ∧ (generate n).Fails c₁ e (c.withWorkspace w) := by
  induction names generalizing c with
  | nil => simp [Generation.generateEach]
  | cons n rest ih =>
      simp only [Generation.generateEach, Action.fails_bind, Action.fails_pure, and_false,
        exists_false, or_false]
      constructor
      · rintro (here | ⟨m, w₁, one, later⟩)
        · exact ⟨[], n, rest, [], c, rfl, .nil c, (fails_generate_of_known known).2 ⟨w, here, rfl⟩⟩
        · obtain ⟨before, k, after, models, c₁, rfl, granted, failed⟩ :=
            (ih (c := c.withWorkspace w₁) known).1 later
          refine ⟨n :: before, k, after, m :: models, c₁, rfl, .cons ?_ granted, failed⟩
          exact (answers_generate_of_known known).2 ⟨w₁, one, rfl⟩
      · rintro ⟨before, k, after, models, c₁, split, granted, failed⟩
        rcases List.cons_eq_append_iff.1 split with ⟨rfl, same⟩ | ⟨before', rfl, rfl⟩
        · obtain ⟨rfl, rfl⟩ := List.cons.inj same
          obtain ⟨_, rfl⟩ := generates_nil.1 granted
          obtain ⟨w', here, same⟩ := (fails_generate_of_known known).1 failed
          obtain rfl : w' = w := congrArg Compiler.workspace same
          exact .inl here
        · obtain ⟨m, others, _, one, later, rfl⟩ := generates_cons.1 granted
          obtain ⟨w₁, here, rfl⟩ := (answers_generate_of_known known).1 one
          refine .inr ⟨m, w₁, here, (ih (c := c.withWorkspace w₁) known).2 ?_⟩
          exact ⟨before', k, after, others, c₁, rfl, later, failed⟩

theorem generates_of_generateAll (all : generateAll.Answers c models c') :
    Generates c c.resources.names models c' ∧ c'.resources = c.resources := by
  obtain ⟨ctx, w, known, each, rfl⟩ := answers_generating.1 all
  have generates := (answers_generateEach known).1 each
  rw [(generationContext_eq_ok known).2.1] at generates
  exact ⟨generates, rfl⟩

/-- Generating everything fails if the settings name no generator, or where one resource fails. -/
theorem fails_generateAll :
    generateAll.Fails c e c' ↔ (c.generationContext = .error e ∧ c = c') ∨
      ∃ before n after models c₁, c.resources.names = before ++ n :: after
        ∧ Generates c before models c₁ ∧ (generate n).Fails c₁ e c' := by
  rw [generateAll, fails_generating]
  cases known : c.generationContext with
  | error e' =>
      simp only [Except.error.injEq, reduceCtorEq, false_and, exists_false, or_false]
      refine ⟨.inl, ?_⟩
      rintro (unknown | ⟨before, n, after, models, c₁, _, granted, failed⟩)
      · exact unknown
      · cases granted with
        | nil =>
            rw [generate, fails_generating, known] at failed
            simpa using failed
        | cons one _ =>
            rw [generate, answers_generating, known] at one
            simp at one
  | ok ctx =>
      have names : ctx.resources.names = c.resources.names := by
        rw [(generationContext_eq_ok known).2.1]
      simp only [reduceCtorEq, false_and, false_or, Except.ok.injEq, exists_and_left, exists_eq_left',
        Generation.generateAll, names]
      constructor
      · rintro ⟨w, each, rfl⟩
        obtain ⟨before, n, after, models, c₁, split, granted, failed⟩ := (fails_generateEach known).1 each
        exact ⟨before, n, after, split, models, c₁, granted, failed⟩
      · rintro ⟨before, n, after, split, models, c₁, granted, failed⟩
        obtain ⟨w₁, rfl⟩ := granted.exists_workspace
        obtain ⟨w, _, rfl⟩ := (fails_generate_of_known (c := c.withWorkspace w₁) known).1 failed
        exact ⟨w, (fails_generateEach known).2 ⟨before, n, after, models, _, split, granted, failed⟩, rfl⟩

end Generating

theorem answers_initApp (absent : app.extensions.contains schemaName = false) :
    initApp.Answers (c, app) schema s ↔
      ∃ c', generateAll.Answers c schema.models c' ∧ (c', app.carrying schema) = s := by
  rw [initApp, Action.answers_read_bind]
  simp only [compiledSchema, absent, Bool.false_eq_true, if_false, Action.answers_bind,
    Action.answers_zoom, Action.answers_change, Action.answers_note, Action.answers_pure]
  constructor
  · rintro ⟨_, _, ⟨c', ⟨models, _, all, rfl, rfl⟩, rfl⟩, _, _, rfl, _, _, rfl, rfl, rfl⟩
    exact ⟨_, all, rfl⟩
  · rintro ⟨c', all, rfl⟩
    exact ⟨schema, _, ⟨c', ⟨schema.models, c', all, rfl, rfl⟩, rfl⟩, ⟨⟩, _, rfl, ⟨⟩, _, rfl, rfl, rfl⟩

theorem fails_initApp (absent : app.extensions.contains schemaName = false) :
    initApp.Fails (c, app) e s ↔ ∃ c', generateAll.Fails c e c' ∧ (c', app) = s := by
  simp [initApp, compiledSchema, absent]

/-- A host that has something under the name of the schema is left as it is. -/
theorem initApp_present {extension : Extension}
    (found : app.extensions.get? schemaName = some extension) :
    (∀ schema, app.schema = .ok schema → initApp.Answers (c, app) schema (c, app)) ∧
      ∀ e, app.schema = .error e → initApp.Fails (c, app) e (c, app) := by
  have present : app.extensions.contains schemaName = true := by
    rw [Roster.contains_eq_isSome_get?, found]
    rfl
  constructor
  · intro schema carried
    rw [initApp, Action.answers_read_bind]
    simp [present, carried]
  · intro e missing
    rw [initApp, Action.fails_read_bind]
    simp [present, missing]

/-! ## Compilers and hosts over time -/

/-- What can be done with a compiler and a host. -/
inductive Move where
  | call (call : Call)
  | init

/-- Compiler and host after a move, whether it was granted or refused. -/
def afterMove (s : Compiler × Application) : Move → Compiler × Application
  | .call call => (s.1.afterCall call, s.2)
  | .init => (initApp s).state

/-- Compiler and host after moves. -/
def play (s : Compiler × Application) (moves : List Move) : Compiler × Application :=
  moves.foldl afterMove s

/-- A host with a schema keeps it, and answers with it. -/
theorem carried_play (carried : s.2.extensions.get? schemaName = some (.schema schema))
    (moves : List Move) :
    (play s moves).2 = s.2 ∧ initApp.Answers (play s moves) schema (play s moves) := by
  have again : ∀ s : Compiler × Application,
      s.2.extensions.get? schemaName = some (.schema schema) → initApp.Answers s schema s :=
    fun _ found => (initApp_present found).1 schema (schema_of_get? found)
  induction moves generalizing s with
  | nil => exact ⟨rfl, again s carried⟩
  | cons move later ih =>
      have same : (afterMove s move).2 = s.2 := by
        cases move with
        | call call => rfl
        | init => rw [afterMove, (again s carried).2]
      have next := ih (s := afterMove s move) (same ▸ carried)
      rw [same] at next
      exact next

/-! ## The schema -/

/-- If the models of all names in the cache are listed, each foreign key of a listed table refers to
another. -/
theorem referredTable_of_cached (referential : Referential c.workspace.models)
    (known : c.workspace.models.names ⊆ names)
    (cached : List.Forall₂ (fun n m => c.model? n = some m) names models) {t : Table}
    (listed : t ∈ Schema.tables ⟨models⟩) {key : ForeignKey} (mem : key ∈ t.constraints) :
    ∃ target ∈ Schema.tables ⟨models⟩, key.referredTable = target.fullName := by
  have same : names.map c.model? = models.map some := by
    rw [← List.forall₂_eq_eq_eq, List.forall₂_map_left_iff, List.forall₂_map_right_iff]
    exact cached
  obtain ⟨m, inside, table⟩ := List.mem_filterMap.1 listed
  obtain ⟨n, _, found⟩ := List.mem_map.1 (same ▸ List.mem_map_of_mem (f := some) inside)
  obtain ⟨relation, m', target, _, there, table', links⟩ :=
    referential.keys n m t found table key mem
  have name : relation.target ∈ names := known (Roster.mem_names_of_get? there)
  obtain ⟨m'', inside', found'⟩ := List.mem_map.1 (same ▸ List.mem_map_of_mem (f := c.model?) name)
  rw [show c.model? relation.target = some m' from there, Option.some.injEq] at found'
  subst found'
  exact ⟨target, List.mem_filterMap.2 ⟨m'', inside', table'⟩, links.referredTable_eq⟩

/-- Giving a host the schema is all or nothing.  If its name for the schema is free, then as soon as
one of the resources fails at its turn the host is left as it is, and so it is whenever giving it the
schema fails.  It succeeds if all of them can be generated.  Then the host carries the schema that is
answered, which lists the cached model of every registered resource in the order of their declaration,
and every foreign key in it refers to a table in it; and whatever is done with the compiler and the
host afterwards, the host stays as it is and answers with that schema.  If the name is taken, compiler
and host stay as they are, and the answer is what the host carries, which may not be a schema. -/
theorem initApp_all_or_nothing (settings : Settings) (requests : List Request) (c : Compiler)
    (reached : (new settings).run requests = c) (app : Application) :
    (app.extensions.contains schemaName = false →
      (∀ before n after models c₁ e c', c.resources.names = before ++ n :: after →
        Generates c before models c₁ → (generate n).Fails c₁ e c' →
          initApp.Fails (c, app) e (c', app)) ∧
      (∀ e s, initApp.Fails (c, app) e s → s.2 = app) ∧
      (∀ models c', generateAll.Answers c models c' →
        initApp.Answers (c, app) ⟨models⟩ (c', app.carrying ⟨models⟩)) ∧
      ∀ schema s, initApp.Answers (c, app) schema s →
        s.2 = app.carrying schema ∧ s.2.schema = .ok schema ∧ s.1.resources = c.resources ∧
        List.Forall₂ (fun n m => s.1.model? n = some m) c.resources.names schema.models ∧
        (∀ t ∈ schema.tables, ∀ key ∈ t.constraints,
          ∃ target ∈ schema.tables, key.referredTable = target.fullName) ∧
        ∀ moves, (play s moves).2 = s.2 ∧ initApp.Answers (play s moves) schema (play s moves)) ∧
    ∀ extension, app.extensions.get? schemaName = some extension →
      (∀ schema, extension = .schema schema → initApp.Answers (c, app) schema (c, app)) ∧
      ((∀ schema, extension ≠ .schema schema) → initApp.Fails (c, app) .notInitialized (c, app)) := by
  have coherent : c.Coherent := reached ▸ coherent_run settings requests
  constructor
  · intro absent
    refine ⟨?_, ?_, ?_, ?_⟩
    · intro before n after models c₁ e c' split granted failed
      exact (fails_initApp absent).2
        ⟨c', fails_generateAll.2 (.inr ⟨before, n, after, models, c₁, split, granted, failed⟩), rfl⟩
    · intro e s failed
      obtain ⟨c', _, rfl⟩ := (fails_initApp absent).1 failed
      rfl
    · intro models c' all
      exact (answers_initApp absent).2 ⟨c', all, rfl⟩
    · intro schema s answers
      obtain ⟨c', all, rfl⟩ := (answers_initApp absent).1 answers
      obtain ⟨generates, resources⟩ := generates_of_generateAll all
      have carried := get?_carrying app schema
      have cached := generates.cached coherent
      have referential : Referential c'.workspace.models := by
        have ends := cache_run Generation.referential_generateAbstract
          Generation.referential_generate referential_empty settings (requests ++ [.generateAll])
        rw [run_append, reached] at ends
        exact all.2 ▸ ends
      have coherent' : c'.Coherent := all.2 ▸ coherent_after coherent .generateAll
      have known : c'.workspace.models.names ⊆ c.resources.names :=
        fun n mem => resources ▸ coherent'.sound.models_registered n mem
      exact ⟨rfl, schema_of_get? carried, resources, cached,
        fun t listed key mem => referredTable_of_cached referential known cached listed mem,
        carried_play carried⟩
  · intro extension found
    refine ⟨fun schema same => ?_, fun other => ?_⟩
    · exact (initApp_present found).1 schema (schema_of_get? (same ▸ found))
    · exact (initApp_present found).2 _ (schema_of_other found other)

/-- A host without extensions. -/
def blankHost : Application := { name := "host" }

/-- A host that carries a number under the name of the schema. -/
def takenHost : Application :=
  { name := "host", extensions := ⟨[(schemaName, .number 3)]⟩ }

/-- Books are declared again and generated, and the host asks once more. -/
def libraryChanged : List Move :=
  [.call (.request (.declare { name := "Book" })), .call (.request .generateAll), .init]

theorem initApp_all_or_nothing_library :
    (∃ schema s, initApp.Answers ((new {}).run library, blankHost) schema s
      ∧ List.Forall₂ (fun n m => s.1.model? n = some m) ["Author", "Book"] schema.models
      ∧ (play s libraryChanged).2.schema = .ok schema
      ∧ initApp.Answers (play s libraryChanged) schema (play s libraryChanged)) ∧
    (∃ e c', initApp.Fails ((new {}).run league, blankHost) e (c', blankHost)) ∧
    initApp.Fails ((new {}).run league, takenHost) .notInitialized ((new {}).run league, takenHost) := by
  obtain ⟨books, _⟩ := initApp_all_or_nothing {} library _ rfl blankHost
  obtain ⟨bookings, _⟩ := initApp_all_or_nothing {} league _ rfl blankHost
  obtain ⟨_, _, _, whole⟩ := books (by decide)
  obtain ⟨stopped, _⟩ := bookings (by decide)
  obtain ⟨_, taken⟩ := initApp_all_or_nothing {} league _ rfl takenHost
  refine ⟨?_, ?_, (taken (.number 3) (by cbv)).2 fun schema => by simp⟩
  · obtain ⟨schema, s, answers⟩ := Action.exists_answers_of_isOk (x := initApp)
      (s := ((new {}).run library, blankHost)) (by cbv)
    obtain ⟨_, carried, _, cached, _, later⟩ := whole schema s answers
    obtain ⟨same, again⟩ := later libraryChanged
    have names : ((new {}).run library).resources.names = ["Author", "Book"] := by cbv
    exact ⟨schema, s, answers, names ▸ cached, same ▸ carried, again⟩
  · obtain ⟨e, c', failed⟩ := Action.exists_fails_of_isOk (x := generateAll)
      (s := (new {}).run league) (by cbv)
    rcases fails_generateAll.1 failed with ⟨unknown, _⟩ | ⟨before, n, after, models, c₁, split, rest⟩
    · obtain ⟨ctx, known⟩ := generationContext_of_known (c := (new {}).run league) (by cbv)
      rw [known] at unknown
      cases unknown
    · exact ⟨e, c', stopped before n after models c₁ e c' split rest.1 rest.2⟩

end Compiler

end ResourceTables
