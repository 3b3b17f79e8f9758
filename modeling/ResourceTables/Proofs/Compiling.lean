/-
# `ResourceTables.Proofs.Compiling` — how a request for a model ends, read off its parts

A request answers from the cache, builds an abstract model, or binds a unit and compiles it.  Each
part has a law for its answer and one for its failure; nothing later opens these functions.

A compilation that fails takes back what building has recorded, so that fresh descriptors are just
as they were.
-/
import ResourceTables.Proofs.Bindings
import ResourceTables.Proofs.Building
import ResourceTables.Proofs.Units

namespace ResourceTables.Generation

variable {ctx : GenerationContext} {D D' : Roster Descriptor} {w w' : Workspace}
  {unit : List String} {n : String} {m : Model} {u : Unit} {e : Error}
  {start finished : Roster Model}

/-! ## Drafts -/

/-- The table that a resource starts with. -/
def startTable (ctx : GenerationContext) (d : Descriptor) (name : String) : Table :=
  { name := d.options.tableNameFor name ctx.generator, schema := ctx.settings.schema,
    columns := fieldColumns d, constraints := [] }

/-- The model that a resource with a table starts with. -/
def startModel (ctx : GenerationContext) (r : Resource) (d : Descriptor) (name : String) : Model :=
  { name, resource := name, doc := r.doc, bases := r.mixins ++ [ctx.settings.modelBase],
    isAbstract := false, table := some (startTable ctx d name), mixinColumns := [], properties := [],
    methods := sortMethods d.methods }

/-- The model of a resource without a table. -/
def abstractModel (ctx : GenerationContext) (r : Resource) (d : Descriptor) (name : String) :
    Model :=
  { name, resource := name, doc := r.doc, bases := r.mixins ++ [ctx.settings.modelBase],
    isAbstract := true, table := none, mixinColumns := fieldColumns d,
    properties := d.fields.map fun e => .column e.name e.name, methods := sortMethods d.methods }

theorem resolve_eq_ok {resources : Roster Resource} {r : Resource} :
    resolve resources n = .ok r ↔ resources.get? n = some r := by
  unfold resolve
  cases resources.get? n <;> simp

theorem descriptorOf_eq_ok {d : Descriptor} :
    descriptorOf D n = .ok d ↔ D.get? n = some d := by
  unfold descriptorOf
  cases D.get? n <;> simp

theorem draft_eq_ok :
    draft ctx D false n = .ok m ↔
      ∃ r d, ctx.resources.get? n = some r ∧ D.get? n = some d
        ∧ Naming.isIdentifier (startTable ctx d n).name = true ∧ startModel ctx r d n = m := by
  unfold draft resolve descriptorOf
  cases hr : ctx.resources.get? n with
  | none => simp [bind, Except.bind]
  | some r =>
      cases hd : D.get? n with
      | none => simp [bind, Except.bind]
      | some d =>
          by_cases ok : Naming.isIdentifier (d.options.tableNameFor n ctx.generator)
          · simp [bind, Except.bind, draftTable, Naming.checkIdentifier, ok, startTable, startModel,
              pure, Except.pure, Functor.map, Except.map]
          · simp [bind, Except.bind, draftTable, Naming.checkIdentifier, ok, startTable,
              Functor.map, Except.map]

/-- The drafts of a unit are there just if each of its members has a draft. -/
theorem drafts_eq_ok :
    drafts ctx D unit = .ok start ↔
      List.Forall₂ (fun n e => e.1 = n ∧ draft ctx D false n = .ok e.2) unit start.entries := by
  induction unit generalizing start with
  | nil =>
      obtain ⟨entries⟩ := start
      simp [drafts, Roster.empty, eq_comm]
  | cons n rest ih =>
      obtain ⟨entries⟩ := start
      rw [List.forall₂_cons_left_iff]
      unfold drafts
      cases one : draft ctx D false n with
      | error e => simp [bind, Except.bind]
      | ok first =>
          cases others : drafts ctx D rest with
          | error e =>
              simp only [bind, Except.bind, reduceCtorEq, false_iff, not_exists, not_and]
              rintro ⟨_, _⟩ entries _ more _
              have same : drafts ctx D rest = .ok ⟨entries⟩ := ih.2 more
              rw [others] at same
              cases same
          | ok later =>
              simp only [bind, Except.bind, pure, Except.pure, Except.ok.injEq, Roster.mk.injEq]
              constructor
              · rintro rfl
                exact ⟨(n, first), later.entries, ⟨rfl, rfl⟩, ih.1 others, rfl⟩
              · rintro ⟨⟨name, model⟩, entries, ⟨rfl, rfl⟩, more, rfl⟩
                have same : drafts ctx D rest = .ok ⟨entries⟩ := ih.2 more
                rw [others, Except.ok.injEq] at same
                rw [same]

theorem names_drafts (h : drafts ctx D unit = .ok start) : start.names = unit := by
  have entries := drafts_eq_ok.1 h
  rw [Roster.names, map_eq_map_of_forall₂ entries fun _ _ one => one.1]
  simp

theorem get?_drafts (h : drafts ctx D unit = .ok start) (distinct : unit.Nodup) (member : n ∈ unit) :
    ∃ m, draft ctx D false n = .ok m ∧ start.get? n = some m := by
  obtain ⟨⟨name, m⟩, mem, rfl, made⟩ := exists_right_of_forall₂ (drafts_eq_ok.1 h) member
  refine ⟨m, made, Roster.get?_of_mem_entries ?_ mem⟩
  rw [names_drafts h]
  exact distinct

/-- A draft is the model that its resource starts with. -/
theorem exists_startModel (h : drafts ctx D unit = .ok start) (distinct : unit.Nodup)
    (found : start.get? n = some m) :
    ∃ r d, ctx.resources.get? n = some r ∧ D.get? n = some d
      ∧ Naming.isIdentifier (startTable ctx d n).name = true ∧ startModel ctx r d n = m := by
  obtain ⟨m', made, there⟩ :=
    get?_drafts h distinct (names_drafts h ▸ Roster.mem_names_of_get? found)
  rw [found, Option.some.injEq] at there
  subst there
  exact draft_eq_ok.1 made

/-- Drafts start without properties. -/
theorem properties_drafts (h : drafts ctx D unit = .ok start) (distinct : unit.Nodup)
    (found : start.get? n = some m) : m.properties = [] := by
  obtain ⟨_, _, _, _, _, rfl⟩ := exists_startModel h distinct found
  rfl

/-! ## Changing several entries -/

/-- An idempotent change of the entries under some names. -/
theorem evolves_foldl_modify {α : Type} {f : α → α} (idempotent : ∀ a, f (f a) = f a)
    (names : List String) (r : Roster α) :
    Roster.Evolves (fun n a a' => a' = if n ∈ names then f a else a) r
      (names.foldl (fun r n => r.modify n f) r) := by
  induction names generalizing r with
  | nil => exact Roster.Evolves.refl (fun _ _ => by simp) r
  | cons name rest ih =>
      have first : Roster.Evolves (fun n a a' => a' = if n = name then f a else a) r
          (r.modify name f) :=
        Roster.evolves_modify (fun n a other => by simp [other]) fun a _ => by simp
      refine first.trans ?_ (ih _)
      rintro n a _ _ rfl rfl
      by_cases here : n = name
      · simp [here, idempotent]
      · simp [here]

theorem reset_reset (b : Builder) : b.reset.reset = b.reset := by
  cases b <;> rfl

theorem resetPlan_resetPlan (d : Descriptor) : d.resetPlan.resetPlan = d.resetPlan := by
  simp only [Descriptor.resetPlan, BuildPlan.reset, List.map_map]
  congr 2
  exact List.map_congr_left fun b _ => reset_reset b

theorem resetPlan_of_fresh {d : Descriptor} (fresh : d.Fresh) :
    d.resetPlan = d := by
  have same : d.plan.builders.map (·.reset) = d.plan.builders := by
    rw [List.map_congr_left fresh, List.map_id']
  simp only [Descriptor.resetPlan, BuildPlan.reset, same]

/-- Taking back what building has recorded leaves fresh descriptors as they were. -/
theorem resetUnit_of_worked (worked : Roster.Evolves
      (fun n d d' => Worked d d' ∧ (n ∉ unit → d = d')) D D')
    (fresh : ∀ n ∈ unit, ∀ d, (n, d) ∈ D.entries → d.Fresh) :
    resetUnit unit D' = D := by
  have back := evolves_foldl_modify resetPlan_resetPlan unit D'
  have both : Roster.Evolves (fun n d d'' => d'' = if n ∈ unit then d.resetPlan else d) D
      (resetUnit unit D') := by
    refine worked.trans ?_ back
    rintro n d d' _ ⟨recorded, same⟩ rfl
    by_cases member : n ∈ unit
    · rw [if_pos member, if_pos member]
      exact recorded
    · rw [if_neg member, if_neg member]
      exact (same member).symm
  refine (both.eq fun n d d'' mem reset => ?_).symm
  by_cases member : n ∈ unit
  · rw [reset, if_pos member]
    exact (resetPlan_of_fresh (fresh n member d mem)).symm
  · rw [reset, if_neg member]

/-! ## Storing -/

theorem answers_storeMember (h : finished.get? n = some m) :
    (storeMember finished n).Answers w u w' ↔
      { descriptors := w.descriptors.modify n (·.markGenerated)
        models := w.models.insertNew m.resource m } = w' := by
  unfold storeMember
  simp [h, store]

/-- Models of new names come to the end of the cache, in order, and their descriptors count as
generated. -/
theorem answers_storeAll (distinct : unit.Nodup) (new : ∀ n ∈ unit, w.models.get? n = none)
    {entries : List (String × Model)}
    (models : List.Forall₂ (fun n e => e.1 = n ∧ finished.get? n = some e.2 ∧ e.2.resource = n)
      unit entries) :
    (forM unit (storeMember finished)).Answers w u w' ↔
      { descriptors := unit.foldl (fun D n => D.modify n (·.markGenerated)) w.descriptors
        models := ⟨w.models.entries ++ entries⟩ } = w' := by
  induction models generalizing w with
  | nil => simp
  | @cons n entry rest others one _ ih =>
      obtain ⟨name, m⟩ := entry
      obtain ⟨same, found, resource⟩ := one
      dsimp only at same found resource
      subst same
      rw [List.nodup_cons] at distinct
      have added := Roster.insertNew_eq_append (new _ List.mem_cons_self) m
      rw [Action.answers_forM_cons]
      simp only [answers_storeMember found, exists_eq_left']
      rw [resource]
      rw [ih distinct.2 ?_]
      · simp only [added, List.append_assoc, List.singleton_append, List.foldl_cons]
      · intro k mem
        rw [Roster.get?_insertNew, new k (List.mem_cons_of_mem _ mem), Option.none_or, if_neg]
        rintro rfl
        exact distinct.1 mem

/-! ## Compiling a unit -/

theorem answers_build :
    (build unit start).Answers w finished w' ↔
      ∃ D', (runPhases w.models unit).Answers (w.descriptors, start) () (D', finished)
        ∧ { w with descriptors := D' } = w' := by
  unfold Action.Answers build
  rcases runPhases w.models unit (w.descriptors, start) with ⟨_ | u, ⟨D', drafts⟩, notes⟩
  · simp [Except.map]
  · simp only [Except.map, Except.ok.injEq, Prod.mk.injEq, true_and]
    constructor
    · rintro ⟨rfl, rfl⟩
      exact ⟨D', ⟨rfl, rfl⟩, rfl⟩
    · rintro ⟨_, ⟨rfl, rfl⟩, rfl⟩
      exact ⟨rfl, rfl⟩

theorem fails_build :
    (build unit start).Fails w e w' ↔
      ∃ D' drafts, (runPhases w.models unit).Fails (w.descriptors, start) e (D', drafts)
        ∧ { w with descriptors := D' } = w' := by
  unfold Action.Fails build
  rcases runPhases w.models unit (w.descriptors, start) with ⟨_ | u, ⟨D', drafts⟩, notes⟩
  · simp only [Except.map, Except.error.injEq, Prod.mk.injEq]
    constructor
    · rintro ⟨rfl, rfl⟩
      exact ⟨D', drafts, ⟨rfl, rfl, rfl⟩, rfl⟩
    · rintro ⟨_, _, ⟨rfl, rfl, rfl⟩, rfl⟩
      exact ⟨rfl, rfl⟩
  · simp [Except.map]

theorem answers_compile :
    (compile ctx unit).Answers w u w' ↔
      ∃ start D' finished, drafts ctx w.descriptors unit = .ok start
        ∧ (runPhases w.models unit).Answers (w.descriptors, start) () (D', finished)
        ∧ (forM unit (storeMember finished)).Answers { w with descriptors := D' } u w' := by
  unfold compile
  rw [Action.answers_read_bind]
  simp only [Action.answers_bind, Action.answers_ofExcept, Action.answers_onFailure, answers_build,
    List.forM_eq_forM]
  constructor
  · rintro ⟨start, _, ⟨drafted, rfl⟩, finished, _, ⟨D', built, rfl⟩, stored⟩
    exact ⟨start, D', finished, drafted, built, stored⟩
  · rintro ⟨start, D', finished, drafted, built, stored⟩
    exact ⟨start, w, ⟨drafted, rfl⟩, finished, _, ⟨D', built, rfl⟩, stored⟩

/-- Storing never fails. -/
theorem not_fails_storeAll : ¬ (forM unit (storeMember finished)).Fails w e w' := by
  induction unit generalizing w with
  | nil => simp
  | cons n rest ih =>
      rw [Action.fails_forM_cons]
      rintro (one | ⟨t, _, others⟩)
      · unfold storeMember at one
        cases found : finished.get? n with
        | none => simp [found] at one
        | some m => simp [found, store] at one
      · exact ih others

/-- If the members are fresh, a compilation that fails leaves everything as it was. -/
theorem fails_compile (descriptors_distinct : w.descriptors.names.Nodup) (distinct : unit.Nodup)
    (fresh : ∀ n ∈ unit, ∀ d, (n, d) ∈ w.descriptors.entries → d.Fresh)
    (h : (compile ctx unit).Fails w e w') : w = w' := by
  unfold compile at h
  rw [Action.fails_read_bind] at h
  rcases Action.fails_bind.1 h with undrafted | ⟨start, _, drafted, h⟩
  · exact (Action.fails_ofExcept.1 undrafted).2
  obtain ⟨drafted', rfl⟩ := Action.answers_ofExcept.1 drafted
  rcases Action.fails_bind.1 h with unbuilt | ⟨finished, w₁, built, stored⟩
  · obtain ⟨_, failed, rfl⟩ := Action.fails_onFailure.1 unbuilt
    obtain ⟨D', drafts', ends, rfl⟩ := fails_build.1 failed
    have draft_names : start.names.Nodup := by rw [names_drafts drafted']; exact distinct
    have worked : UnitWorked unit (w.descriptors, start) (D', drafts') :=
      (keeps_runPhases descriptors_distinct draft_names w.models).of_fails ends (.refl _)
    have back := resetUnit_of_worked worked.1 fresh
    change w = { w with descriptors := resetUnit unit D' }
    rw [back]
  · rw [List.forM_eq_forM] at stored
    exact absurd stored not_fails_storeAll

/-! ## Requests -/

/-- The workspace with a model stored and its descriptor marked. -/
def stored (w : Workspace) (n : String) (m : Model) : Workspace :=
  { descriptors := w.descriptors.modify n (·.markGenerated)
    models := w.models.insertNew m.resource m }

/-- Storing an abstract model adds it and leaves the others as they are. -/
theorem get?_models_stored {name : String} (uncached : w.models.get? name = none) {r : Resource}
    {d : Descriptor} {m : Model} :
    (stored w name (abstractModel ctx r d name)).models.get? n = some m ↔
      w.models.get? n = some m ∨ n = name ∧ abstractModel ctx r d name = m := by
  change (w.models.insertNew name _).get? n = some m ↔ _
  rw [Roster.get?_insertNew, Option.or_eq_some_iff]
  refine or_congr_right ?_
  by_cases same : n = name
  · simp [same, uncached]
  · simp [same]

theorem answers_generateAbstract :
    (generateAbstract ctx n).Answers w m w' ↔
      (w.models.get? n = some m ∧ w = w') ∨
      (w.models.get? n = none ∧ ∃ r d, ctx.resources.get? n = some r
        ∧ w.descriptors.get? n = some d ∧ abstractModel ctx r d n = m ∧ stored w n m = w') := by
  unfold generateAbstract
  rw [Action.answers_read_bind]
  cases found : w.models.get? n with
  | some cachedModel => simp [cached]
  | none =>
      simp only [Action.answers_bind, Action.answers_ofExcept, store, Action.answers_change,
        Action.answers_note, Action.answers_pure, descriptorOf_eq_ok, reduceCtorEq, false_and,
        false_or, true_and]
      constructor
      · rintro ⟨shell, _, ⟨drafted, rfl⟩, d, _, ⟨hd, rfl⟩, _, _, rfl, _, _, rfl, rfl, rfl⟩
        simp only [draft, bind, Except.bind, pure, Except.pure] at drafted
        cases hr : resolve ctx.resources n with
        | error e => simp [hr] at drafted
        | ok r =>
            rw [descriptorOf_eq_ok.2 hd] at drafted
            simp only [hr, if_true, Except.ok.injEq] at drafted
            subst drafted
            exact ⟨r, d, resolve_eq_ok.1 hr, hd, rfl, rfl⟩
      · rintro ⟨r, d, hr, hd, rfl, rfl⟩
        refine ⟨{ abstractModel ctx r d n with properties := [] }, w, ⟨?_, rfl⟩, d, w, ⟨hd, rfl⟩,
          (), _, rfl, (), _, rfl, rfl, rfl⟩
        simp [draft, resolve_eq_ok.2 hr, descriptorOf_eq_ok.2 hd, bind, Except.bind, pure,
          Except.pure, abstractModel]

/-- An abstract model that cannot be made changes nothing. -/
theorem fails_generateAbstract (h : (generateAbstract ctx n).Fails w e w') : w = w' := by
  unfold generateAbstract at h
  rw [Action.fails_read_bind] at h
  cases found : w.models.get? n with
  | some cachedModel => simp [found, cached] at h
  | none =>
      simp only [found] at h
      rcases Action.fails_bind.1 h with undrafted | ⟨shell, _, drafted, h⟩
      · exact (Action.fails_ofExcept.1 undrafted).2
      obtain ⟨_, rfl⟩ := Action.answers_ofExcept.1 drafted
      rcases Action.fails_bind.1 h with missing | ⟨d, _, there, h⟩
      · exact (Action.fails_ofExcept.1 missing).2
      · simp [store] at h

theorem answers_generate :
    (generate ctx n).Answers w m w' ↔
      (w.models.get? n = some m ∧ w = w') ∨
      (w.models.get? n = none ∧ ∃ r, ctx.resources.get? n = some r ∧
        ((r.isAbstract = true ∧ (generateAbstract ctx n).Answers w m w') ∨
          (r.isAbstract = false ∧ ∃ unit D',
            (Binding.bind ctx.resources w.models n).Answers w.descriptors unit D'
            ∧ (compile ctx unit).Answers { w with descriptors := D' } () w'
            ∧ w'.models.get? n = some m))) := by
  unfold generate
  rw [Action.answers_read_bind]
  cases found : w.models.get? n with
  | some cachedModel => simp [cached]
  | none =>
      simp only [Action.answers_bind (x := Action.ofExcept _), Action.answers_ofExcept,
        resolve_eq_ok, reduceCtorEq, false_and, false_or, true_and]
      constructor
      · rintro ⟨r, _, ⟨hr, rfl⟩, h⟩
        refine ⟨r, hr, ?_⟩
        by_cases abs : r.isAbstract
        · rw [if_pos abs] at h
          exact .inl ⟨abs, h⟩
        · rw [if_neg abs] at h
          simp only [Bool.not_eq_true] at abs
          obtain ⟨unit, _, zoomed, h⟩ := Action.answers_bind.1 h
          obtain ⟨D', bound, rfl⟩ := Action.answers_zoom.1 zoomed
          obtain ⟨_, w₁, compiled, h⟩ := Action.answers_bind.1 h
          rw [Action.answers_reads_bind] at h
          cases made : w₁.models.get? n with
          | none => simp [made] at h
          | some m' =>
              rw [made] at h
              obtain ⟨rfl, rfl⟩ := Action.answers_pure.1 h
              exact .inr ⟨abs, unit, D', bound, compiled, made⟩
      · rintro ⟨r, hr, ⟨abs, h⟩ | ⟨abs, unit, D', bound, compiled, made⟩⟩
        · refine ⟨r, w, ⟨hr, rfl⟩, ?_⟩
          rw [if_pos abs]
          exact h
        · refine ⟨r, w, ⟨hr, rfl⟩, ?_⟩
          rw [if_neg (by simp [abs])]
          refine Action.answers_bind.2 ⟨unit, _, Action.answers_zoom.2 ⟨D', bound, rfl⟩, ?_⟩
          refine Action.answers_bind.2 ⟨(), w', compiled, ?_⟩
          rw [Action.answers_reads_bind, made]
          exact Action.answers_pure.2 ⟨rfl, rfl⟩

/-- A request that fails does so before, in or after binding. -/
theorem fails_generate (h : (generate ctx n).Fails w e w') :
    w.models.get? n = none ∧
      (w = w' ∨ ∃ r, ctx.resources.get? n = some r ∧ r.isAbstract = false ∧
        ((∃ D', (Binding.bind ctx.resources w.models n).Fails w.descriptors e D'
            ∧ { w with descriptors := D' } = w') ∨
          ∃ unit D', (Binding.bind ctx.resources w.models n).Answers w.descriptors unit D' ∧
            ((compile ctx unit).Fails { w with descriptors := D' } e w' ∨
              ((compile ctx unit).Answers { w with descriptors := D' } () w'
                ∧ w'.models.get? n = none)))) := by
  unfold generate at h
  rw [Action.fails_read_bind] at h
  cases found : w.models.get? n with
  | some cachedModel => simp [found, cached] at h
  | none =>
      simp only [found] at h
      refine ⟨rfl, ?_⟩
      rcases Action.fails_bind.1 h with missing | ⟨r, _, there, h⟩
      · exact .inl (Action.fails_ofExcept.1 missing).2
      obtain ⟨hr, rfl⟩ := Action.answers_ofExcept.1 there
      by_cases abs : r.isAbstract
      · rw [if_pos abs] at h
        exact .inl (fails_generateAbstract h)
      · rw [if_neg abs] at h
        simp only [Bool.not_eq_true] at abs
        refine .inr ⟨r, resolve_eq_ok.1 hr, abs, ?_⟩
        rcases Action.fails_bind.1 h with unbound | ⟨unit, _, zoomed, h⟩
        · exact .inl (Action.fails_zoom.1 unbound)
        obtain ⟨D', bound, rfl⟩ := Action.answers_zoom.1 zoomed
        refine .inr ⟨unit, D', bound, ?_⟩
        rcases Action.fails_bind.1 h with failed | ⟨_, w₁, compiled, h⟩
        · exact .inl failed
        · rw [Action.fails_reads_bind] at h
          cases made : w₁.models.get? n with
          | some m' => simp [made] at h
          | none =>
              rw [made] at h
              obtain ⟨_, rfl⟩ := Action.fails_fail.1 h
              exact .inr ⟨compiled, made⟩

end ResourceTables.Generation
