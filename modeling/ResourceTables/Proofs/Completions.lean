/-
# `ResourceTables.Proofs.Completions` — what is synthesized goes on to complete a one-to-many

A relationship that is marked as synthesized was put on its resource to complete a one-to-many of its
target, which names it.  Later requests may settle that one-to-many again, when binding has failed and is
tried anew; by then the completion leads back, so that the name stays.
-/
import ResourceTables.Proofs.Leftovers
import ResourceTables.Proofs.Orderly
import ResourceTables.Proofs.Precedence

namespace ResourceTables

namespace Binding

/-- A relationship `x` of the resource `n` hosts the key of a one-to-many of its target, which names
it. -/
structure Completes (D : Roster Descriptor) (n x : String) (r : Relationship) (o : Descriptor)
    (y : String) (s : Relationship) : Prop where
  hosts : r.hostsKey = true
  owner : D.get? r.target = some o
  named : o.relationship? y = some s
  many : s.kind = .oneToMany
  target : s.target = n
  inverse : s.inverse = some x

/-- Every relationship that is marked as synthesized completes a one-to-many. -/
def Completing (D : Roster Descriptor) : Prop :=
  ∀ n d x r, D.get? n = some d → d.relationship? x = some r → r.synthesized = true →
    ∃ o y s, Completes D n x r o y s

variable {resources : Roster Resource} {models : Roster Model} {unit : List String}
  {n x : String} {d : Descriptor} {D D' : Roster Descriptor} {u : Unit} {r : Relationship}
  {side other : ManySide}

/-- Nothing but relationships counts. -/
theorem Completing.congr (h : Completing D)
    (same : Roster.Evolves (fun _ d d' => d'.relationships = d.relationships) D D') :
    Completing D' := by
  have look : ∀ {d d' : Descriptor}, d'.relationships = d.relationships →
      ∀ x, d'.relationship? x = d.relationship? x := by
    intro d d' same x
    rw [Descriptor.relationship?, Descriptor.relationshipNamed?, same]
    rfl
  intro n d' x r found' named synthesized
  obtain ⟨d, found, same_d⟩ := same.get?_backward found'
  rw [look same_d] at named
  obtain ⟨o, y, s, completes⟩ := h n d x r found named synthesized
  obtain ⟨o', owner', same_o⟩ := same.get?_forward completes.owner
  exact ⟨o', y, s, { completes with owner := owner', named := (look same_o y).trans completes.named }⟩

theorem Completing.stays (h : Completing D) (stays : Stays D D') : Completing D' := by
  intro n d' x r found' named synthesized
  obtain ⟨d, found, frozen⟩ := stays.get?_backward found'
  rw [frozen.relationship?_eq] at named
  obtain ⟨o, y, s, completes⟩ := h n d x r found named synthesized
  obtain ⟨o', owner', frozen'⟩ := stays.get?_forward completes.owner
  exact ⟨o', y, s, { completes with
    owner := owner', named := (frozen'.relationship?_eq y).trans completes.named }⟩

/-! ## One side -/

/-- The relationship of a side is still as the side tells. -/
def Current (D : Roster Descriptor) (side : ManySide) : Prop :=
  ∃ d r, D.get? side.owner = some d ∧ d.relationship? side.relationship = some r
    ∧ r.kind = .oneToMany ∧ r.target = side.target ∧ r.inverse = side.inverse

theorem current_of_mem_manySides (wf : AllWellFormed D) (mem : side ∈ manySides D unit) :
    Current D side := by
  obtain ⟨n, _, d, found, inside⟩ := mem_manySides.1 mem
  obtain ⟨e, entry, kind, rfl⟩ := mem_manySidesOf.1 inside
  exact ⟨d, e.relationship, found, (wf n d found).relationship?_eq_some_iff.2 ⟨e, entry, rfl, rfl⟩,
    kind, rfl, rfl⟩

theorem Current.completeSide (current : Current D other) (apart : other.key ≠ side.key)
    (h : (completeSide resources models side).Answers D u D') : Current D' other := by
  obtain ⟨d, r, found, named, shape⟩ := current
  obtain ⟨d', found', named'⟩ := relationship?_completeSide h found named
  rw [if_neg fun both => apart (Prod.ext both.1 both.2)] at named'
  exact ⟨d', r, found', named', shape⟩

/-- A one-to-many that is completed already is settled under the name that it has. -/
theorem inverseName_of_completes {o : Descriptor} {s : Relationship} (current : Current D side)
    (found : D.get? n = some d) (named : d.relationship? x = some r)
    (completes : Completes D n x r o side.relationship s) (owner : r.target = side.owner) :
    inverseName D side = x := by
  obtain ⟨o', s', found', named', _, target, inverse⟩ := current
  obtain rfl : o = o' := Option.some.inj (completes.owner.symm.trans (owner ▸ found'))
  obtain rfl : s = s' := Option.some.inj (completes.named.symm.trans named')
  have back : pointsBack D side x = true := by
    rw [pointsBack, ← target, completes.target, found, Option.bind_some, named]
    simpa using owner
  rw [inverseName, ← inverse, completes.inverse]
  simp only [back, Bool.or_true, if_true]

/-- Where the inverse of a side is settled, every completion keeps the one-to-many that it
completes. -/
theorem Completing.settledIn (h : Completing D) (current : Current D side) :
    Completing (settledIn D side (inverseName D side)) := by
  intro n d' x r' found' named' synthesized
  cases found : D.get? n with
  | none =>
      rw [Binding.settledIn, Roster.get?_modify, found] at found'
      split at found' <;> cases found'
  | some d =>
      obtain ⟨d'', found'', _, look⟩ := exists_settledIn side (inverseName D side) found
      obtain rfl : d' = d'' := Option.some.inj (found'.symm.trans found'')
      -- What is found is what was there, up to the inverse.
      obtain ⟨r, named, inverse, rfl⟩ : ∃ r, d.relationship? x = some r ∧
          ∃ inverse, r' = { r with inverse } := by
        rw [look] at named'
        split at named'
        · obtain ⟨r, named, rfl⟩ := Option.map_eq_some_iff.1 named'
          exact ⟨r, named, _, rfl⟩
        · exact ⟨r', named', r'.inverse, rfl⟩
      obtain ⟨o, y, s, completes⟩ := h n d x r found named synthesized
      obtain ⟨o', owner', _, look'⟩ := exists_settledIn side (inverseName D side) completes.owner
      have named_y := look' y
      rw [completes.named] at named_y
      by_cases here : r.target = side.owner ∧ y = side.relationship
      · obtain ⟨owner, rfl⟩ := here
        rw [if_pos ⟨owner, rfl⟩, inverseName_of_completes current found named completes owner]
          at named_y
        exact ⟨o', _, _, completes.hosts, owner', named_y, completes.many, completes.target, rfl⟩
      · rw [if_neg here] at named_y
        exact ⟨o', y, s, completes.hosts, owner', named_y, completes.many, completes.target,
          completes.inverse⟩

/-- Completing a side adds at most a relationship that completes it. -/
theorem Completing.completeSide (h : Completing D) (current : Current D side)
    (done : (completeSide resources models side).Answers D u D') : Completing D' := by
  have first := h.settledIn current
  obtain ⟨s, t, settled, owned⟩ : ∃ s o, D'.get? side.owner = some o ∧
      (o.relationship? side.relationship = some s ∧ s.kind = .oneToMany ∧ s.target = side.target
        ∧ s.inverse = some (inverseName D side)) := by
    obtain ⟨d, r, found, named, kind, target, _⟩ := current
    obtain ⟨o, found', named'⟩ := relationship?_completeSide done found named
    rw [if_pos ⟨rfl, rfl⟩] at named'
    exact ⟨_, o, found', named', kind, target, rfl⟩
  obtain ⟨t₀, there, ⟨_, rfl⟩ | ⟨_, _, _, owner, _, rfl⟩⟩ := answers_completeSide.1 done
  · exact first
  have kept : ∀ {n x r}, (∃ o y s, Completes (Binding.settledIn D side (inverseName D side)) n x r o y s) →
      ∃ o y s, Completes ((Binding.settledIn D side (inverseName D side)).modify side.target
        fun _ => completed side (inverseName D side) owner t₀) n x r o y s := by
    rintro n x r ⟨o, y, s, completes⟩
    by_cases target : r.target = side.target
    · obtain rfl : o = t₀ := Option.some.inj (completes.owner.symm.trans (target ▸ there))
      refine ⟨completed side (inverseName D side) owner o, y, s, { completes with
        owner := ?_, named := ?_ }⟩
      · rw [target, Roster.get?_modify_self, there]
        rfl
      · rw [relationship?_completed, completes.named, Option.some_or]
    · refine ⟨o, y, s, { completes with owner := ?_ }⟩
      rw [Roster.get?_modify_other target]
      exact completes.owner
  intro n d x r found named synthesized
  by_cases target : n = side.target
  · rw [target, Roster.get?_modify_self, there, Option.map_some, Option.some.injEq] at found
    rw [← found, relationship?_completed] at named
    rcases Option.or_eq_some_iff.1 named with old | ⟨_, new⟩
    · exact kept (first n t₀ x r (target ▸ there) old synthesized)
    · split at new
      · rename_i same
        rw [Option.some.injEq] at new
        subst same new
        exact ⟨t, side.relationship, s, rfl, settled, owned.1, owned.2.1, owned.2.2.1.trans target.symm,
          owned.2.2.2⟩
      · cases new
  · rw [Roster.get?_modify_other target] at found
    exact kept (first n d x r found named synthesized)

/-! ## Binding -/

/-- While sides are completed one by one, those to come are still as they were. -/
structure Underway (sides done : List ManySide) (D : Roster Descriptor) : Prop where
  completing : Completing D
  current : ∀ side ∈ sides, side.key ∉ done.map ManySide.key → Current D side

namespace Underway

variable {sides done rest : List ManySide}

theorem head (h : Underway sides done D) (keys : (sides.map ManySide.key).Nodup)
    (split : sides = done ++ side :: rest) : Current D side := by
  refine h.current side (split ▸ List.mem_append_right _ List.mem_cons_self) fun mem => ?_
  rw [split, List.map_append, List.map_cons, List.nodup_append] at keys
  exact keys.2.2 _ mem _ List.mem_cons_self rfl

theorem next (h : Underway sides done D) (keys : (sides.map ManySide.key).Nodup)
    (split : sides = done ++ side :: rest)
    (one : (Binding.completeSide resources models side).Answers D u D') :
    Underway sides (done ++ [side]) D' := by
  refine ⟨h.completing.completeSide (h.head keys split) one, fun other mem new => ?_⟩
  rw [List.map_append, List.mem_append, not_or, List.map_singleton, List.mem_singleton] at new
  exact (h.current other mem new.1).completeSide new.2 one

/-- Completing all sides keeps completions completing, also where it fails at one of them. -/
theorem completions (h : Underway sides [] D) (keys : (sides.map ManySide.key).Nodup) :
    Completing (forM sides (Binding.completeSide resources models) D).state := by
  rcases Action.answers_or_fails (forM sides (Binding.completeSide resources models)) D with
    ⟨⟨⟩, D', ends⟩ | ⟨e, D', ends⟩
  · rw [ends.2]
    exact (ends.forM_induction (I := Underway sides) h
      fun _ _ _ _ _ split before one => before.next keys split one).completing
  · rw [ends.2]
    obtain ⟨done, side, rest, D₁, split, before, failed⟩ := ends.forM_induction h
      fun _ _ _ _ _ split before one => before.next keys split one
    rw [← fails_completeSide failed]
    exact before.completing.settledIn (before.head keys split)

end Underway

/-- Binding keeps completions completing, whether it succeeds or fails. -/
theorem completing_bind (distinct : D.names.Nodup) (wf : AllWellFormed D) (h : Completing D)
    (root : String) : Completing (bind resources models root D).state := by
  have looks : Stays D (forM (members resources D models root) (lookUpTargets resources) D).state :=
    keeps_stays distinct (members resources D models root) D (.refl D)
  have completed : ∀ D₁, Stays D D₁ → Completing (forM (manySides D₁ (members resources D models root))
      (completeSide resources models) D₁).state := by
    intro D₁ stays
    have wf₁ := wf.stays stays
    refine Underway.completions ⟨h.stays stays, fun side mem _ => ?_⟩
      (nodup_keys_manySides (nodup_members root) wf₁)
    exact current_of_mem_manySides wf₁ mem
  rcases Action.answers_or_fails (bind resources models root) D with
    ⟨ordered, D', ends⟩ | ⟨e, D', ends⟩
  · rw [ends.2]
    obtain ⟨D₁, looked, done, _, _⟩ := answers_bindUnit.1 ends
    rw [looked.2] at looks
    exact done.2 ▸ completed D₁ looks
  · rw [ends.2]
    rcases fails_bindUnit.1 ends with unknown | ⟨D₁, looked, incomplete | ⟨done, _⟩⟩
    · rw [unknown.2] at looks
      exact h.stays looks
    · rw [looked.2] at looks
      exact incomplete.2 ▸ completed D₁ looks
    · rw [looked.2] at looks
      exact done.2 ▸ completed D₁ looks

end Binding

/-! ## Generations -/

open Binding

theorem Generation.kept_completing {ctx : GenerationContext} :
    Kept ctx fun w => Completing w.descriptors where
  bound := fun sound _ completing =>
    completing_bind sound.descriptors_distinct sound.allWellFormed completing _
  compiled := fun _ built _ completing =>
    completing.congr (built.compiled.declares.imp fun _ _ _ same => same.2)
  stored := by
    intro w name r d _ _ _ _ _ completing
    have marked : Roster.Evolves (fun _ d d' => d'.relationships = d.relationships) w.descriptors
        (w.descriptors.modify name Descriptor.markGenerated) := by
      refine Roster.evolves_modify ?_ ?_
      · exact fun _ _ _ => rfl
      · exact fun _ _ => rfl
    exact completing.congr marked

/-! ## Histories -/

/-- No relationship is declared as synthesized. -/
def Resource.Plain (resource : Resource) : Prop :=
  ∀ p ∈ resource.properties, ∀ r, p.property.relationship? = some r → r.synthesized = false

/-- A request does not pass a declared relationship off as synthesized. -/
def Request.Plain : Request → Prop
  | .declare resource => resource.Plain
  | _ => True

namespace Descriptor

variable {d : Descriptor}

/-- Nothing on a descriptor is synthesized. -/
def Plain (d : Descriptor) : Prop := ∀ e ∈ d.relationships, e.relationship.synthesized = false

theorem Plain.entered (h : d.Plain) (wf : d.WellFormed) {p : CollectedProperty}
    (plain : ∀ r, p.property.relationship? = some r → r.synthesized = false) :
    (d.entered p).Plain := by
  intro e mem
  cases property : p.property with
  | field f =>
      simp only [Descriptor.entered, put, property] at mem
      exact h e (List.mem_filter.1 mem).1
  | relationship r =>
      simp only [Descriptor.entered, put, property] at mem
      rcases (mem_putFirst wf.relationships_distinct).1 mem with rfl | ⟨old, _⟩
      · exact plain r (by rw [property]; rfl)
      · exact h e old

theorem keeps_plain_register {p : CollectedProperty}
    (plain : ∀ r, p.property.relationship? = some r → r.synthesized = false) :
    Action.Keeps (fun d => d.WellFormed ∧ d.Plain) (register p) := by
  rintro d ⟨wf, h⟩
  rcases register_state wf p with same | changed
  · rw [same]
    exact ⟨wf, h⟩
  · rw [changed]
    exact ⟨wf.entered p, h.entered wf plain⟩

theorem keeps_plain_prependField (n : String) (f : Field) :
    Action.Keeps Plain (prependField n f) := by
  intro d h
  rcases prependField_state d n f with same | ⟨_, changed⟩
  · rw [same]
    exact h
  · rw [changed]
    exact h

end Descriptor

namespace Compiler

variable {c : Compiler} {resource : Resource} {d : Descriptor}

/-- A descriptor is filled with nothing synthesized, if nothing is declared so. -/
theorem plain_fill (builtIn : ∀ k ∈ c.configurators, k = .primaryKey)
    (named : ∀ n r, c.resources.get? n = some r → r.name = n)
    (declared : ∀ n r, c.resources.get? n = some r → r.Plain) (plain : resource.Plain)
    (filled : (c.fill resource).Answers (.ofResource resource) () d) : d.Plain := by
  obtain ⟨chain, methods, d₁, ancestors, _, entered, configured⟩ := answers_fill.1 filled
  have start : (Descriptor.ofResource resource).Plain := by
    intro e mem
    cases mem
  have each : ∀ p ∈ Ancestry.inherited chain ++ Ancestry.own resource,
      ∀ r, p.property.relationship? = some r → r.synthesized = false := by
    intro p mem
    rcases List.mem_append.1 mem with far | near
    · obtain ⟨k, inside, q, made, rfl⟩ := Ancestry.mem_inherited.1 far
      exact declared k.name k ((Ancestry.chainFrom_eq_ok named ancestors).1 k inside).1 q made
    · obtain ⟨q, made, rfl⟩ := Ancestry.mem_own.1 near
      exact plain q made
  have collected : d₁.WellFormed ∧ d₁.Plain :=
    (Action.keeps_forM fun p mem => Descriptor.keeps_plain_register (each p mem)).of_answers entered
      ⟨(Descriptor.pristine_ofResource resource).wellFormed, start⟩
  have configure : Action.Keeps Descriptor.Plain
      (Configurator.applyAll c.settings c.configurators) := by
    refine keeps_applyAll fun k mem => ?_
    rw [builtIn k mem]
    exact Configurator.keeps_addPrimaryKey fun f => Descriptor.keeps_plain_prependField _ f
  exact configure.of_answers configured collected.2

/-- A new resource completes nothing and takes no completion away. -/
theorem completing_registered (completing : Completing c.workspace.descriptors)
    (new : c.workspace.descriptors.get? resource.name = none) (plain : d.Plain) (wf : d.WellFormed) :
    Completing (c.registered resource d).workspace.descriptors := by
  intro n d' x r found named synthesized
  simp only [registered, Roster.get?_insert] at found
  by_cases same : n = resource.name
  · rw [if_pos same, Option.some.injEq] at found
    obtain ⟨e, mem, _, rfl⟩ := (found ▸ wf).relationship?_eq_some_iff.1 named
    rw [plain e (found ▸ mem)] at synthesized
    cases synthesized
  · rw [if_neg same] at found
    obtain ⟨o, y, s, completes⟩ := completing n d' x r found named synthesized
    refine ⟨o, y, s, { completes with owner := ?_ }⟩
    have other : r.target ≠ resource.name := by
      intro same
      rw [← same, completes.owner] at new
      cases new
    simp only [registered, Roster.get?_insert, if_neg other]
    exact completes.owner

/-- A compiler with nothing declared as synthesized: whatever is marked so completes a one-to-many. -/
structure Unfeigned (c : Compiler) : Prop where
  declared : ∀ n r, c.resources.get? n = some r → r.Plain
  completing : Completing c.workspace.descriptors

theorem unfeigned_generating {α : Type} {x : GenerationContext → Action Workspace α}
    (h : ∀ ctx, Action.Keeps (fun w => Sound ctx.resources w ∧ Completing w.descriptors) (x ctx))
    (sound : Sound c.resources c.workspace) (unfeigned : c.Unfeigned) :
    (generating x c).state.Unfeigned := by
  rcases generating_state (x := x) c with same | ⟨ctx, known, changed⟩
  · rw [same]
    exact unfeigned
  · rw [changed]
    have resources := (generationContext_eq_ok known).2.1
    exact ⟨unfeigned.declared,
      (h ctx c.workspace ⟨resources ▸ sound, unfeigned.completing⟩).2⟩

theorem unfeigned_after {request : Request} (asks : c.Asks request) (plain : request.Plain)
    (inOrder : c.InOrder) (unfeigned : c.Unfeigned) : (c.after request).Unfeigned := by
  have sound := inOrder.orderly.sound
  have one : ∀ name ctx, Action.Keeps (fun w => Sound ctx.resources w ∧ Completing w.descriptors)
      (Generation.generate ctx name) :=
    fun name _ => Generation.keeps_of_kept Generation.kept_completing name
  have all : (generateAll c).state.Unfeigned :=
    unfeigned_generating (fun ctx => Generation.keeps_generateEach fun name _ => one name ctx) sound
      unfeigned
  cases asks with
  | declare resource new =>
      change (declare resource c).state.Unfeigned
      rcases declare_state c resource with same | ⟨d, filled, changed⟩
      · rw [same]
        exact unfeigned
      · rw [changed]
        have unknown : c.workspace.descriptors.get? resource.name = none := by
          rw [Roster.get?_eq_none_iff, sound.descriptors_names]
          exact Roster.get?_eq_none_iff.1 new
        have filling := filling_fill (fun k mem => by
          rw [inOrder.builtIn k mem]
          exact Descriptor.keeps_addPrimaryKey c.settings) filled
        refine ⟨fun n r found => ?_, completing_registered unfeigned.completing unknown
          (plain_fill inOrder.builtIn sound.named unfeigned.declared plain filled)
          filling.1.wellFormed⟩
        simp only [registered, Roster.get?_insert] at found
        by_cases same : n = resource.name
        · rw [if_pos same, Option.some.injEq] at found
          exact found ▸ plain
        · rw [if_neg same] at found
          exact unfeigned.declared n r found
  | generate name => exact unfeigned_generating (one name) sound unfeigned
  | generateAll => exact all
  | initApp app =>
      change (initApp (c, app)).state.1.Unfeigned
      rcases initApp_state c app with same | generated
      · rw [same]
        exact unfeigned
      · rw [generated]
        exact all

/-- As long as nothing is declared again and nothing as synthesized, whatever is marked so completes a
one-to-many. -/
theorem completing_run (settings : Settings) {requests : List Request}
    (once : (new settings).DeclaresOnce requests) (plain : ∀ request ∈ requests, request.Plain) :
    Completing ((new settings).run requests).workspace.descriptors := by
  suffices ∀ c : Compiler, c.InOrder → c.Unfeigned → c.DeclaresOnce requests →
      (c.run requests).Unfeigned by
    refine (this _ (inOrder_new settings) ⟨fun n r found => ?_, fun n d x r found => ?_⟩
      once).completing
    · cases found
    · cases found
  clear once
  induction requests with
  | nil => exact fun c _ unfeigned _ => unfeigned
  | cons request rest ih =>
      rintro c inOrder unfeigned ⟨asks, later⟩
      have next := unfeigned_after asks (plain request List.mem_cons_self) inOrder unfeigned
      have inOrder' := (inOrder_after (P := fun _ => True) (fun _ _ _ _ => trivial)
        (fun _ _ _ _ => trivial) asks inOrder trivial).1
      exact ih (fun r mem => plain r (List.mem_cons_of_mem _ mem)) _ inOrder' next later

end Compiler

end ResourceTables
