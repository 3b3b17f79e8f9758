/-
# `ResourceTables.Proofs.Permanence` — a cached model is there for good

The cache only grows, and at its end: no request takes a model out, replaces one or moves one.  A
resource that is declared again gets a descriptor that does not count as generated, but units are made
of resources without a model, so the new descriptor pulls nothing back into compilation.  Once there is a
model, a request for it answers with it and touches nothing.
-/
import Mathlib
import ResourceTables.Proofs.Atomicity

namespace ResourceTables

namespace Roster

variable {α : Type} {r r' : Roster α} {name : String} {a : α}

/-- An entry stays in its place when others come after it. -/
theorem get?_of_prefix (longer : r.entries <+: r'.entries) (found : r.get? name = some a) :
    r'.get? name = some a := by
  obtain ⟨more, parts⟩ := longer
  have whole : r' = ⟨r.entries ++ more⟩ := by rw [parts]
  rw [whole, get?_append, found, Option.some_or]

theorem names_of_prefix (longer : r.entries <+: r'.entries) : r.names <+: r'.names :=
  longer.map _

end Roster

namespace Generation

variable {ctx : GenerationContext} {w w' : Workspace} {name : String} {m : Model} {e : Error}

/-- A granted request leaves the cache as it is or puts models at its end. -/
theorem prefix_of_generated (sound : Sound ctx.resources w)
    (granted : (generate ctx name).Answers w m w') : w.models.entries <+: w'.models.entries := by
  rcases generate_grows sound granted with ⟨_, rfl⟩ | ⟨_, _, _, ⟨_, one⟩ | ⟨_, unit⟩⟩
  · exact List.prefix_rfl
  · obtain ⟨m, entries, _⟩ := one.models
    exact ⟨_, entries.symm⟩
  · obtain ⟨added, entries, _⟩ := unit.models
    exact ⟨_, entries.symm⟩

/-- Whatever stands at the front of the cache stays there through a request for a model. -/
theorem keeps_front_generate (front : List (String × Model)) (name : String) :
    Action.Keeps (fun w => Sound ctx.resources w ∧ front <+: w.models.entries)
      (generate ctx name) := by
  refine Action.keeps_of_ends ?_ ?_
  · rintro w m w' ⟨sound, before⟩ granted
    exact ⟨(keeps_generate name).of_answers granted sound,
      before.trans (prefix_of_generated sound granted)⟩
  · rintro w e w' ⟨sound, before⟩ refused
    refine ⟨(keeps_generate name).of_fails refused sound, ?_⟩
    rw [(generate_refused sound refused).models_eq]
    exact before

/-- The same for an abstract model. -/
theorem keeps_front_generateAbstract (front : List (String × Model)) (name : String) :
    Action.Keeps (fun w => Sound ctx.resources w ∧ front <+: w.models.entries)
      (generateAbstract ctx name) := by
  refine Action.keeps_of_ends ?_ ?_
  · rintro w m w' ⟨sound, before⟩ granted
    refine ⟨(keeps_generateAbstract name).of_answers granted sound, ?_⟩
    rcases answers_generateAbstract.1 granted with ⟨_, rfl⟩ | ⟨uncached, _, d, _, hd, rfl, rfl⟩
    · exact before
    · obtain ⟨m, entries, _⟩ := (addsAbstract_of_stored uncached hd).models
      exact before.trans ⟨_, entries.symm⟩
  · rintro w e w' ⟨sound, before⟩ refused
    rw [← fails_generateAbstract refused]
    exact ⟨sound, before⟩

end Generation

namespace Compiler

variable {c : Compiler} {n : String} {m : Model}

/-- A request changes nothing in front of the end of the cache. -/
theorem prefix_after (coherent : c.Coherent) (request : Request) :
    c.workspace.models.entries <+: (c.after request).workspace.models.entries :=
  cache_after (P := fun models => c.workspace.models.entries <+: models.entries)
    (fun _ => Generation.keeps_front_generateAbstract _) (fun _ => Generation.keeps_front_generate _)
    coherent request List.prefix_rfl

theorem settings_after (c : Compiler) (request : Request) :
    (c.after request).settings = c.settings := by
  rcases after_cases c request with ⟨k, rfl⟩ | ⟨_, _, _, _, changed⟩ | ⟨_, changed⟩
  · rfl
  · rw [changed]
    rfl
  · rw [changed]
    rfl

/-- What later requests make of a compiler: its settings are the same, and its cache has grown at the
end. -/
structure Extended (c c' : Compiler) : Prop where
  settings_eq : c'.settings = c.settings
  cache : c.workspace.models.entries <+: c'.workspace.models.entries

theorem extended_run (coherent : c.Coherent) (later : List Request) : Extended c (c.run later) := by
  have ends : (c.run later).Coherent ∧ Extended c (c.run later) := by
    refine run_keeps (I := fun c' => c'.Coherent ∧ Extended c c') ?_
      ⟨coherent, rfl, List.prefix_rfl⟩ fun request (_ : request ∈ later) => trivial
    rintro c' request - ⟨coherent, same, longer⟩
    exact ⟨coherent_after coherent request, (settings_after c' request).trans same,
      longer.trans (prefix_after coherent request)⟩
  exact ends.2

/-- The generator that the settings name exists wherever it is a known one. -/
theorem generationContext_of_known (known : Naming.isKnownGenerator c.settings.generatorName = true) :
    ∃ ctx, c.generationContext = .ok ctx := by
  obtain ⟨generator, found⟩ := exists_generatorNamed known
  rw [generationContext, found]
  exact ⟨_, rfl⟩

/-- A request for a model that is there answers with it and changes nothing. -/
theorem answers_of_cached (known : Naming.isKnownGenerator c.settings.generatorName = true)
    (cached : c.model? n = some m) :
    (generate n).Answers c m c ∧ (generateAbstract n).Answers c m c := by
  obtain ⟨ctx, context⟩ := generationContext_of_known known
  constructor
  · exact answers_generating.2 ⟨ctx, _, context, Generation.answers_generate.2 (.inl ⟨cached, rfl⟩), rfl⟩
  · exact answers_generating.2
      ⟨ctx, _, context, Generation.answers_generateAbstract.2 (.inl ⟨cached, rfl⟩), rfl⟩

/-- Whatever is asked of a compiler afterwards, and whether it is granted or refused, the names in the
cache stay where they are and each keeps its model; and as long as the settings name a known
generator, a request for a model of the cache, abstract or not, answers with it and leaves everything
as it is. -/
theorem cached_models_permanent (settings : Settings) (requests later : List Request)
    (c c' : Compiler) (reached : (new settings).run requests = c) (continued : c.run later = c') :
    c.workspace.models.names <+: c'.workspace.models.names ∧
    ∀ n m, c.model? n = some m → c'.model? n = some m ∧
      (Naming.isKnownGenerator settings.generatorName = true →
        (generate n).Answers c' m c' ∧ (generateAbstract n).Answers c' m c') := by
  have coherent : c.Coherent := reached ▸ coherent_run settings requests
  have extended : Extended c c' := continued ▸ extended_run coherent later
  have start : Extended (new settings) c := reached ▸ extended_run (coherent_new settings) requests
  refine ⟨Roster.names_of_prefix extended.cache, fun n m cached => ?_⟩
  have still : c'.model? n = some m := Roster.get?_of_prefix extended.cache cached
  refine ⟨still, fun known => answers_of_cached ?_ still⟩
  rw [extended.settings_eq, start.settings_eq]
  exact known

/-- The league, with the models of teams and players. -/
def leagueOpened : List Request := league ++ [.generate "Team"]

/-- Teams are declared again, with other properties; bookings are asked for, and then everything. -/
def leagueChanged : List Request :=
  [.declare { team with properties := [⟨"rivals", 3, .relationship (.new .oneToMany "Team")⟩] },
    .generate "Booking", .generateAll, .initApp { name := "host" }, .generateAbstract "Team"]

theorem cached_models_permanent_league :
    (((new {}).run leagueOpened).run leagueChanged).workspace.isGenerated "Team" = false ∧
    ∃ m, ((new {}).run leagueOpened).model? "Team" = some m ∧
      (((new {}).run leagueOpened).run leagueChanged).model? "Team" = some m ∧
      (generate "Team").Answers (((new {}).run leagueOpened).run leagueChanged) m
        (((new {}).run leagueOpened).run leagueChanged) := by
  obtain ⟨m, cached⟩ := Option.isSome_iff_exists.1
    (show (((new {}).run leagueOpened).model? "Team").isSome = true by cbv)
  obtain ⟨_, each⟩ := cached_models_permanent {} leagueOpened leagueChanged _ _ rfl rfl
  obtain ⟨still, again⟩ := each "Team" m cached
  exact ⟨by cbv, m, cached, still, (again (by decide)).1⟩

end Compiler

end ResourceTables
