/-
# `ResourceTables.Proofs.Methods` — which methods a model gets, and from where

Methods are collected from the farthest ancestor on, and one of a name that is there already takes
its place.  So a name stands where its first, farthest declaration puts it, and what stands under it
is the last declaration of the nearest resource that has one.  Nothing but the declaration makes
methods: what is done to a descriptor afterwards does not touch them, so they are those of the model,
sorted by name, whenever it is made.
-/
import Mathlib
import ResourceTables.Proofs.Orderly

namespace ResourceTables

/-! ## Methods put in their places -/

namespace Ancestry

variable {methods declared before after : List (String × Method)} {n name : String}
  {m method : Method}

/-- Methods put in their places, one after another. -/
def putAll (declared : List (String × Method)) : List (String × Method) :=
  declared.foldl (fun methods (name, method) => putMethod methods name method) []

theorem putAll_concat (declared : List (String × Method)) (one : String × Method) :
    putAll (declared ++ [one]) = putMethod (putAll declared) one.1 one.2 := by
  simp [putAll]

theorem names_putMethod (methods : List (String × Method)) (name : String) (method : Method) :
    (putMethod methods name method).map (·.1) =
      if name ∈ methods.map (·.1) then methods.map (·.1) else methods.map (·.1) ++ [name] := by
  have present : methods.any (·.1 == name) = true ↔ name ∈ methods.map (·.1) := by
    simp only [List.any_eq_true, beq_iff_eq, List.mem_map]
  unfold putMethod
  by_cases taken : name ∈ methods.map (·.1)
  · rw [if_pos (present.2 taken), if_pos taken, List.map_map]
    refine List.map_congr_left fun one _ => ?_
    by_cases same : one.1 = name <;> simp [same]
  · rw [if_neg (mt present.1 taken), if_neg taken, List.map_append, List.map_singleton]

/-- A method that is put is there under its name. -/
theorem mem_putMethod_self : (name, method) ∈ putMethod methods name method := by
  unfold putMethod
  by_cases taken : methods.any (·.1 == name)
  · obtain ⟨one, mem, same⟩ := List.any_eq_true.1 taken
    rw [if_pos taken]
    exact List.mem_map.2 ⟨one, mem, by simp [eq_of_beq same]⟩
  · rw [if_neg taken]
    exact List.mem_append_right _ List.mem_cons_self

/-- It takes the place of no method of another name. -/
theorem mem_putMethod_of_ne (other : n ≠ name) (mem : (n, m) ∈ methods) :
    (n, m) ∈ putMethod methods name method := by
  unfold putMethod
  by_cases taken : methods.any (·.1 == name)
  · rw [if_pos taken]
    exact List.mem_map.2 ⟨(n, m), mem, by simp [other]⟩
  · rw [if_neg taken]
    exact List.mem_append_left _ mem

/-- A name stands where it came first. -/
theorem names_putAll (declared : List (String × Method)) :
    (putAll declared).map (·.1) = (declared.map (·.1)).eraseDups := by
  induction declared using List.reverseRecOn with
  | nil => rfl
  | append_singleton declared one ih =>
      rw [putAll_concat, names_putMethod, ih, List.map_append, List.map_singleton,
        List.eraseDups_append]
      by_cases known : one.1 ∈ declared.map (·.1)
      · simp [List.mem_eraseDups, List.removeAll, known]
      · simp [List.mem_eraseDups, List.removeAll, known, List.eraseDups_cons]

/-- Under a name stands what came last. -/
theorem mem_putAll (last : n ∉ after.map (·.1)) :
    (n, m) ∈ putAll (before ++ (n, m) :: after) := by
  -- What comes after is put one by one: it is the last one that an induction has to take off.
  induction after using List.reverseRecOn with
  | nil =>
      rw [putAll_concat]
      exact mem_putMethod_self
  | append_singleton after one ih =>
      rw [List.map_append, List.mem_append, not_or, List.map_singleton, List.mem_singleton] at last
      rw [← List.cons_append, ← List.append_assoc, putAll_concat]
      exact mem_putMethod_of_ne last.2 (ih last.1)

end Ancestry

/-- Of names in the order in which they came first, one that came early stands before one that came
late only. -/
theorem sublist_eraseDups {early late : List String} {a b : String} (ha : a ∈ early) (hb : b ∈ late)
    (new : b ∉ early) : [a, b].Sublist (early ++ late).eraseDups := by
  have first : [a].Sublist early.eraseDups := List.singleton_sublist.2 (List.mem_eraseDups.2 ha)
  have second : [b].Sublist (late.removeAll early).eraseDups :=
    List.singleton_sublist.2 (List.mem_eraseDups.2 (by simp [List.removeAll, hb, new]))
  rw [List.eraseDups_append]
  exact first.append second

/-! ## Methods sorted by name -/

section Sorting

variable {methods : List (String × Method)} {name : String} {method : Method}

theorem sortMethods_concat (methods : List (String × Method)) (one : String × Method) :
    sortMethods (methods ++ [one]) = insertMethod one.1 one.2 (sortMethods methods) := by
  simp [sortMethods]

theorem perm_insertMethod (new : name ∉ methods.map (·.1)) :
    (insertMethod name method methods).Perm ((name, method) :: methods) := by
  induction methods with
  | nil => exact .refl _
  | cons one rest ih =>
      rw [List.map_cons, List.mem_cons, not_or] at new
      simp only [insertMethod, new.1, if_false]
      by_cases before : name < one.1
      · rw [if_pos before]
      · rw [if_neg before]
        exact ((ih new.2).cons one).trans (.swap _ _ _)

theorem mem_names_insertMethod {n : String} (h : n ∈ (insertMethod name method methods).map (·.1)) :
    n = name ∨ n ∈ methods.map (·.1) := by
  induction methods with
  | nil => exact .inl (List.mem_singleton.1 h)
  | cons one rest ih =>
      by_cases same : name = one.1
      · simp only [insertMethod, if_pos same, List.map_cons, List.mem_cons] at h
        exact h.imp_right fun mem => List.mem_cons_of_mem _ mem
      · by_cases before : name < one.1
        · simp only [insertMethod, if_neg same, if_pos before, List.map_cons, List.mem_cons] at h
          exact h.imp_right List.mem_cons.2
        · simp only [insertMethod, if_neg same, if_neg before, List.map_cons, List.mem_cons] at h
          rcases h with rfl | later
          · exact .inr List.mem_cons_self
          · exact (ih later).imp_right fun mem => List.mem_cons_of_mem _ mem

theorem sorted_insertMethod (sorted : (methods.map (·.1)).Pairwise (· < ·)) :
    ((insertMethod name method methods).map (·.1)).Pairwise (· < ·) := by
  induction methods with
  | nil => exact List.pairwise_singleton _ _
  | cons one rest ih =>
      obtain ⟨first, others⟩ := List.pairwise_cons.1 sorted
      by_cases same : name = one.1
      · rw [insertMethod, if_pos same]
        exact List.pairwise_cons.2 ⟨same ▸ first, others⟩
      · by_cases before : name < one.1
        · rw [insertMethod, if_neg same, if_pos before]
          refine List.pairwise_cons.2 ⟨fun n mem => ?_, sorted⟩
          rcases List.mem_cons.1 mem with rfl | later
          · exact before
          · exact before.trans (first n later)
        · rw [insertMethod, if_neg same, if_neg before]
          refine List.pairwise_cons.2 ⟨fun n mem => ?_, ih others⟩
          rcases mem_names_insertMethod mem with rfl | later
          · exact lt_of_le_of_ne (not_lt.1 before) (Ne.symm same)
          · exact first n later

theorem sorted_sortMethods (methods : List (String × Method)) :
    ((sortMethods methods).map (·.1)).Pairwise (· < ·) := by
  induction methods using List.reverseRecOn with
  | nil => exact .nil
  | append_singleton methods one ih =>
      rw [sortMethods_concat]
      exact sorted_insertMethod ih

theorem perm_sortMethods (distinct : (methods.map (·.1)).Nodup) :
    (sortMethods methods).Perm methods := by
  induction methods using List.reverseRecOn with
  | nil => exact .refl _
  | append_singleton methods one ih =>
      rw [List.map_append, List.nodup_append] at distinct
      obtain ⟨before, _, apart⟩ := distinct
      rw [sortMethods_concat]
      have sorted := ih before
      refine (perm_insertMethod fun mem => ?_).trans ((sorted.cons one).trans ?_)
      · exact apart one.1 ((sorted.map _).mem_iff.1 mem) one.1 List.mem_cons_self rfl
      · exact (List.perm_append_singleton one methods).symm

end Sorting

/-! ## What a line of resources binds -/

/-- The names of the methods that a resource declares itself, in order. -/
def Resource.methodNames (r : Resource) : List String := r.methods.map (·.1)

/-- Along a line of resources, nearest first, a name is bound to the last declaration of it in the
first resource that declares it. -/
def Binds (line : List Resource) (n : String) (m : Method) : Prop :=
  ∃ nearer k farther before after, line = nearer ++ k :: farther
    ∧ (∀ r ∈ nearer, n ∉ r.methodNames)
    ∧ k.methods = before ++ (n, m) :: after ∧ n ∉ after.map (·.1)

/-- The methods of a line of resources, nearest first: every name that one of them declares stands
once, with what the line binds to it; what some resource declares first comes after all that is
declared farther away, and after what it declares before it. -/
structure FollowsLine (line : List Resource) (methods : List (String × Method)) : Prop where
  once : (methods.map (·.1)).Nodup
  declared : ∀ n, n ∈ methods.map (·.1) ↔ ∃ r ∈ line, n ∈ r.methodNames
  bound : ∀ n m, (n, m) ∈ methods ↔ Binds line n m
  farther_first : ∀ nearer k farther a b, line = nearer ++ k :: farther →
    (∃ r ∈ farther, a ∈ r.methodNames) → b ∈ k.methodNames → (∀ r ∈ farther, b ∉ r.methodNames) →
    [a, b].Sublist (methods.map (·.1))
  in_order : ∀ nearer k farther before a b after, line = nearer ++ k :: farther →
    k.methodNames = before ++ b :: after → a ∈ before → b ∉ before →
    (∀ r ∈ farther, b ∉ r.methodNames) → [a, b].Sublist (methods.map (·.1))

section Lines

variable {line nearer farther : List Resource} {k : Resource} {n : String} {m : Method}

/-- A name that is declared is declared for the last time. -/
theorem exists_last {methods : List (String × Method)} (declared : n ∈ methods.map (·.1)) :
    ∃ before m after, methods = before ++ (n, m) :: after ∧ n ∉ after.map (·.1) := by
  induction methods with
  | nil => cases declared
  | cons one rest ih =>
      by_cases again : n ∈ rest.map (·.1)
      · obtain ⟨before, m, after, rfl, last⟩ := ih again
        exact ⟨one :: before, m, after, rfl, last⟩
      · obtain rfl : n = one.1 := (List.mem_cons.1 declared).resolve_right again
        exact ⟨[], one.2, rest, rfl, again⟩

theorem exists_binds (declared : ∃ r ∈ line, n ∈ r.methodNames) : ∃ m, Binds line n m := by
  induction line with
  | nil => simp at declared
  | cons k farther ih =>
      by_cases here : n ∈ k.methodNames
      · obtain ⟨before, m, after, parts, last⟩ := exists_last here
        exact ⟨m, [], k, farther, before, after, rfl, by simp, parts, last⟩
      · obtain ⟨r, inside, names⟩ := declared
        have up : r ∈ farther :=
          (List.mem_cons.1 inside).resolve_left fun same => here (same ▸ names)
        obtain ⟨m, nearer, k', farther, before, after, rfl, none, binds⟩ := ih ⟨r, up, names⟩
        exact ⟨m, k :: nearer, k', farther, before, after, rfl, by simpa [here] using none, binds⟩

/-- The methods of a line, the farthest resource's first. -/
def declaredAlong (line : List Resource) : List (String × Method) :=
  line.reverse.flatMap (·.methods)

theorem declaredAlong_append (nearer : List Resource) (k : Resource) (farther : List Resource) :
    declaredAlong (nearer ++ k :: farther)
      = declaredAlong farther ++ k.methods ++ declaredAlong nearer := by
  simp [declaredAlong]

theorem mem_names_declaredAlong :
    n ∈ (declaredAlong line).map (·.1) ↔ ∃ r ∈ line, n ∈ r.methodNames := by
  simp only [declaredAlong, List.map_flatMap, List.mem_flatMap, List.mem_reverse,
    Resource.methodNames]

open Ancestry in
theorem mem_putAll_of_binds (bound : Binds line n m) : (n, m) ∈ putAll (declaredAlong line) := by
  obtain ⟨nearer, k, farther, before, after, rfl, none, parts, last⟩ := bound
  rw [declaredAlong_append, parts, ← List.append_assoc, List.append_assoc, List.cons_append]
  refine mem_putAll ?_
  rw [List.map_append, List.mem_append, mem_names_declaredAlong, not_or, not_exists]
  exact ⟨last, fun r h => none r h.1 h.2⟩

open Ancestry in
theorem followsLine_putAll (line : List Resource) :
    FollowsLine line (putAll (declaredAlong line)) := by
  have names := names_putAll (declaredAlong line)
  have once : ((putAll (declaredAlong line)).map (·.1)).Nodup := names ▸ nodup_eraseDups _
  have declared (n : String) :
      n ∈ (putAll (declaredAlong line)).map (·.1) ↔ ∃ r ∈ line, n ∈ r.methodNames := by
    rw [names, List.mem_eraseDups, mem_names_declaredAlong]
  refine ⟨once, declared, fun n m => ⟨fun mem => ?_, mem_putAll_of_binds⟩, ?_, ?_⟩
  · obtain ⟨m', bound⟩ := exists_binds ((declared n).1 (List.mem_map_of_mem mem))
    have same := List.inj_on_of_nodup_map once mem (mem_putAll_of_binds bound) rfl
    exact (Prod.mk.inj same).2 ▸ bound
  · rintro nearer k farther a b rfl far near new
    rw [names, declaredAlong_append, List.append_assoc, List.map_append]
    refine sublist_eraseDups (mem_names_declaredAlong.2 far) ?_ ?_
    · rw [List.map_append]
      exact List.mem_append_left _ near
    · rw [mem_names_declaredAlong]
      exact fun ⟨r, mem, names⟩ => new r mem names
  · rintro nearer k farther before a b after rfl parts first new far
    rw [Resource.methodNames] at parts
    rw [names, declaredAlong_append, List.map_append, List.map_append, parts, ← List.append_assoc,
      List.append_assoc]
    refine sublist_eraseDups (List.mem_append_right _ first) (by simp) ?_
    rw [List.mem_append, mem_names_declaredAlong, not_or]
    exact ⟨fun ⟨r, mem, names⟩ => far r mem names, new⟩

end Lines

namespace Ancestry

theorem collectMethods_eq_ok {resources : Roster Resource} {resource : Resource}
    {methods : List (String × Method)} :
    collectMethods resources resource = .ok methods ↔
      ∃ chain, ancestors resources resource = .ok chain
        ∧ putAll (declaredAlong (resource :: chain)) = methods := by
  unfold collectMethods
  cases ancestors resources resource with
  | error e => simp [bind, Except.bind]
  | ok chain => simp [bind, Except.bind, pure, Except.pure, putAll, declaredAlong]

end Ancestry

/-! ## Methods of descriptors and models -/

namespace Descriptor

variable {d d' : Descriptor}

theorem Edit.methods_eq (h : Edit d d') (wf : d.WellFormed) : d'.methods = d.methods := by
  cases h with
  | register p =>
      rcases register_state wf p with same | changed
      · rw [same]
      · rw [changed, entered, put_eq]
  | prependField n f =>
      rcases prependField_state d n f with same | ⟨_, changed⟩
      · rw [same]
      · rw [changed]
  | modifyField n f => rfl
  | modifyRelationship n f => rfl

theorem methods_of_edits (h : Relation.ReflTransGen Edit d d') (wf : d.WellFormed) :
    d'.methods = d.methods := by
  induction h with
  | refl => rfl
  | tail steps last ih => exact (last.methods_eq ((edited_of_edits steps wf).wellFormed wf)).trans ih

end Descriptor

/-- What a resource is known by has some methods: its descriptor, and its model if there is one. -/
structure CarriesMethods (name : String) (methods : List (String × Method)) (w : Workspace) :
    Prop where
  descriptor : ∃ d, w.descriptors.get? name = some d ∧ d.methods = methods
  model : ∀ m, w.models.get? name = some m → m.methods = sortMethods methods

namespace Generation

variable {ctx : GenerationContext} {w : Workspace} {name : String} {methods : List (String × Method)}

/-- A model that is stored has the methods of its descriptor. -/
theorem carriesMethods_stored {n : String} {r : Resource} {d : Descriptor}
    (uncached : w.models.get? n = none) (found : w.descriptors.get? n = some d)
    (carries : CarriesMethods name methods w) :
    CarriesMethods name methods (stored w n (abstractModel ctx r d n)) := by
  obtain ⟨⟨d', found', same⟩, model⟩ := carries
  refine ⟨?_, fun m cached => ?_⟩
  · change ∃ d, (w.descriptors.modify n _).get? name = some d ∧ _
    rw [Roster.get?_modify, found']
    by_cases here : name = n
    · exact ⟨d'.markGenerated, if_pos here, same⟩
    · exact ⟨d', if_neg here, same⟩
  · rcases (get?_models_stored uncached).1 cached with old | ⟨rfl, rfl⟩
    · exact model m old
    · rw [found, Option.some.injEq] at found'
      rw [← same, ← found']
      rfl

theorem kept_carriesMethods : Kept ctx (CarriesMethods name methods) where
  bound := by
    rintro w root sound _ ⟨⟨d, found, same⟩, model⟩
    obtain ⟨d', found', steps⟩ := (sound.bind_steps root).get?_forward found
    have grown := steps.grown (sound.allWellFormed name d found)
    exact ⟨⟨d', found', grown.methods_eq.trans same⟩, model⟩
  compiled := by
    rintro w w' unit D' start finished D₁ sound built _ ⟨⟨d, found, same⟩, model⟩
    refine ⟨?_, fun m cached => ?_⟩
    · obtain ⟨d', found', ends⟩ := built.compiled.descriptor found
      refine ⟨d', found', ?_⟩
      by_cases member : name ∈ unit
      · rw [if_pos member] at ends
        obtain ⟨d₁, worked, rfl⟩ := ends
        exact (congrArg (fun x : Descriptor => x.methods) worked.rest_eq).trans same
      · rw [if_neg member] at ends
        exact ends ▸ same
    · rw [built.compiled.get?_models] at cached
      rcases Option.or_eq_some_iff.1 cached with old | ⟨_, made⟩
      · exact model m old
      · obtain ⟨_, r, d', _, found', grows⟩ := built.compiled.exists_grown built.distinct made
        obtain rfl : d = d' := Option.some.inj (found.symm.trans found')
        rw [← same]
        exact congrArg (fun x : Model => x.methods) grows.rest_eq
  stored := fun _ uncached _ _ found carries => carriesMethods_stored uncached found carries

end Generation

namespace Compiler

open Ancestry

variable {c c' : Compiler} {resource : Resource} {d : Descriptor} {name : String}
  {methods : List (String × Method)}

/-- A descriptor is filled with the methods that are collected, and configurators leave them. -/
theorem methods_of_fill (coherent : c.Coherent)
    (h : (c.fill resource).Answers (.ofResource resource) () d) :
    collectMethods c.resources resource = .ok d.methods := by
  obtain ⟨_, methods, d₁, _, collected, entered, configured⟩ := answers_fill.1 h
  have wf : d₁.WellFormed := by
    refine (Action.keeps_forM (I := Descriptor.WellFormed) fun p _ d wf => ?_).of_answers entered
      (Descriptor.pristine_ofResource resource).wellFormed
    exact ((Descriptor.Edit.register d p).edited wf).wellFormed wf
  have ends : d.WellFormed ∧ d.methods = methods := by
    refine (keeps_applyAll (I := fun d => d.WellFormed ∧ d.methods = methods) ?_).of_answers
      configured ⟨wf.of_names rfl rfl rfl, rfl⟩
    rintro k mem d ⟨wf, same⟩
    have edits := coherent.configurators_edit k mem c.settings d
    exact ⟨(Descriptor.edited_of_edits edits wf).wellFormed wf,
      (Descriptor.methods_of_edits edits wf).trans same⟩
  rw [collected, ends.2]

/-- In a history that starts from some compiler, no declaration of a name is accepted. -/
def NotDeclared (c : Compiler) (name : String) (requests : List Request) : Prop :=
  ∀ before resource after, requests = before ++ .declare resource :: after → resource.name = name →
    ∀ c', ¬ (declare resource).Answers (c.run before) () c'

theorem NotDeclared.tail {request : Request} {requests : List Request}
    (h : c.NotDeclared name (request :: requests)) : (c.after request).NotDeclared name requests := by
  rintro before resource after rfl named
  exact h (request :: before) resource after rfl named

/-- A request other than a new declaration of the resource leaves its methods. -/
theorem carriesMethods_after (coherent : c.Coherent) {request : Request}
    (other : c.NotDeclared name [request]) (carries : CarriesMethods name methods c.workspace) :
    CarriesMethods name methods (c.after request).workspace := by
  refine workspace_after_of_kept coherent request ?_ ?_ (fun _ _ => Generation.kept_carriesMethods)
    (fun _ _ _ _ _ _ _ uncached _ found carries =>
      Generation.carriesMethods_stored uncached found carries) carries
  · rintro resource d rfl names filled ⟨⟨d', found, same⟩, model⟩
    have apart : name ≠ resource.name := fun named =>
      other [] resource [] rfl named.symm _ (answers_declare.2 ⟨d, names, filled, rfl⟩)
    exact ⟨⟨d', (Roster.get?_insert _ _ _ _).trans ((if_neg apart).trans found), same⟩, model⟩
  · rintro n edit rfl ⟨⟨d, found, same⟩, model⟩
    have wf := coherent.sound.allWellFormed name d found
    refine ⟨?_, model⟩
    change ∃ d, (c.workspace.descriptors.modify n edit.change).get? name = some d ∧ _
    rw [Roster.get?_modify, found]
    by_cases here : name = n
    · exact ⟨edit.change d, if_pos here, (Descriptor.methods_of_edits (edit.edits d) wf).trans same⟩
    · exact ⟨d, if_neg here, same⟩

theorem carriesMethods_run (coherent : c.Coherent) {requests : List Request}
    (others : c.NotDeclared name requests) (carries : CarriesMethods name methods c.workspace) :
    CarriesMethods name methods (c.run requests).workspace := by
  induction requests generalizing c with
  | nil => exact carries
  | cons request rest ih =>
      refine ih (coherent_after coherent request) others.tail
        (carriesMethods_after coherent ?_ carries)
      rintro before resource after split named
      refine others before resource (after ++ rest) ?_ named
      rw [← List.singleton_append, split, List.append_assoc, List.cons_append]

/-- Wherever a history leads, and for every resource whose line of ancestors can be walked: its
methods are collected, and they follow the line.  A declaration of the resource enters them in its
descriptor; and if it had no model before, then whenever it has one, concrete or abstract, as long as
no other declaration of its name is accepted, the model has exactly these methods, sorted by name. -/
theorem methods_follow_line (settings : Settings) (requests : List Request) (c : Compiler)
    (reached : (new settings).run requests = c) (resource : Resource) (chain : List Resource)
    (walked : ancestors c.resources resource = .ok chain) :
    ∃ methods, collectMethods c.resources resource = .ok methods
      ∧ FollowsLine (resource :: chain) methods
      ∧ ∀ c', (declare resource).Answers c () c' →
        (∃ d, c'.descriptor? resource.name = some d ∧ d.methods = methods) ∧
        (c.model? resource.name = none →
          ∀ later, c'.NotDeclared resource.name later →
          ∀ m, (c'.run later).model? resource.name = some m →
            m.methods.Perm methods ∧ m.methodNames.Pairwise (· < ·)) := by
  have coherent : c.Coherent := reached ▸ coherent_run settings requests
  have collected := collectMethods_eq_ok.2 ⟨chain, walked, rfl⟩
  have follows := followsLine_putAll (resource :: chain)
  refine ⟨_, collected, follows, fun c' accepted => ?_⟩
  obtain ⟨d, _, filled, rfl⟩ := answers_declare.1 accepted
  have same : d.methods = putAll (declaredAlong (resource :: chain)) :=
    Except.ok.inj ((methods_of_fill coherent filled).symm.trans collected)
  have entered : (c.registered resource d).descriptor? resource.name = some d :=
    (Roster.get?_insert _ _ _ _).trans (if_pos rfl)
  refine ⟨⟨d, entered, same⟩, fun uncached later others m cached => ?_⟩
  have coherent' : (c.registered resource d).Coherent :=
    accepted.2 ▸ coherent_after coherent (.declare resource)
  have start : CarriesMethods resource.name d.methods (c.registered resource d).workspace := by
    refine ⟨⟨d, entered, rfl⟩, fun m cached => ?_⟩
    change c.model? resource.name = some m at cached
    rw [uncached] at cached
    cases cached
  have sorted := (carriesMethods_run coherent' others start).model m cached
  rw [Model.methodNames, sorted, same]
  exact ⟨perm_sortMethods follows.once, sorted_sortMethods _⟩

/-- Posts are entries. -/
def entriesAndPosts : List Request :=
  [.declare { name := "Entry", options := { isAbstract := true }
              methods := [("kind", fun _ => "entry"), ("label", fun m => m.name),
                ("kind", fun _ => "some entry")] },
    .declare { name := "Post", parent := some "Entry"
               methods := [("body", fun _ => "post"), ("kind", fun _ => "post")] }]

/-- A post with a label that it declares twice. -/
def memo : Resource :=
  { name := "Memo", parent := some "Post"
    methods := [("author", fun _ => "unknown"), ("label", fun _ => "memo"),
      ("label", fun m => "memo " ++ m.name)] }

theorem methods_follow_line_memo : ∃ chain methods c' m,
    ancestors ((new {}).run entriesAndPosts).resources memo = .ok chain
      ∧ collectMethods ((new {}).run entriesAndPosts).resources memo = .ok methods
      ∧ FollowsLine (memo :: chain) methods
      ∧ methods.map (·.1) = ["kind", "label", "body", "author"]
      ∧ (declare memo).Answers ((new {}).run entriesAndPosts) () c'
      ∧ ((new {}).run entriesAndPosts).model? "Memo" = none
      ∧ c'.NotDeclared "Memo" [.generate "Memo"]
      ∧ (c'.run [.generate "Memo"]).model? "Memo" = some m
      ∧ m.methods.Perm methods ∧ m.methodNames = ["author", "body", "kind", "label"]
      ∧ m.call? "kind" = some "post" ∧ m.call? "label" = some "memo Memo" := by
  have names : (collectMethods ((new {}).run entriesAndPosts).resources memo).toOption.map
      (·.map (·.1)) = some ["kind", "label", "body", "author"] := by cbv
  obtain ⟨methods, gathered, names⟩ := Option.map_eq_some_iff.1 names
  obtain ⟨chain, walked, _⟩ := collectMethods_eq_ok.1 (Action.toOption_eq_some_iff.1 gathered)
  obtain ⟨_, c', accepted⟩ := Action.exists_answers_of_isOk
    (show (declare memo ((new {}).run entriesAndPosts)).result.isOk = true by cbv)
  obtain ⟨methods', collected, follows, carried⟩ :=
    methods_follow_line {} entriesAndPosts _ rfl memo chain walked
  obtain rfl : methods = methods' :=
    Except.ok.inj ((Action.toOption_eq_some_iff.1 gathered).symm.trans collected)
  have uncached : ((new {}).run entriesAndPosts).model? "Memo" = none := by cbv
  have others : c'.NotDeclared "Memo" [.generate "Memo"] := by
    intro before resource after split
    have mem : .declare resource ∈ [Request.generate "Memo"] :=
      split ▸ List.mem_append_right _ List.mem_cons_self
    simp at mem
  have made : (((declare memo ((new {}).run entriesAndPosts)).state.run
        [.generate "Memo"]).model? "Memo").map
      (fun m => (m.methodNames, m.call? "kind", m.call? "label"))
        = some (["author", "body", "kind", "label"], some "post", some "memo Memo") := by cbv
  rw [accepted.2] at made
  obtain ⟨m, cached, told⟩ := Option.map_eq_some_iff.1 made
  rw [Prod.mk.injEq, Prod.mk.injEq] at told
  obtain ⟨_, model⟩ := carried c' accepted
  obtain ⟨all, _⟩ := model uncached [.generate "Memo"] others m cached
  exact ⟨chain, methods, c', m, walked, collected, follows, names, accepted, uncached, others,
    cached, all, told⟩

end Compiler

end ResourceTables
