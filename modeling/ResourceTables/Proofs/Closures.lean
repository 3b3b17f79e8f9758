/-
# `ResourceTables.Proofs.Closures` — binding finds the least closed unit, and stops at bad targets only

A unit is closed when it has every pending target of its members and every pending resource with a
one-to-many into one of them.  Binding searches along these links in both directions and adds more
links afterwards, when it completes one-to-many relationships; the completions lead back to members,
so the unit that was found stays closed.

Targets can be bad in one way only: nothing is registered under their name, or something without a
table.  Looking targets up stops just if a member has a bad one, and nothing that comes after it fails
for such a reason.
-/
import Mathlib
import ResourceTables.Proofs.Refusals
import ResourceTables.Proofs.Retries

namespace ResourceTables

/-- An error about a name that nothing is registered for, or about a resource without a table. -/
def Error.OfTarget (e : Error) : Prop :=
  (∃ name, e = .unresolvedTarget name) ∨ ∃ name, e = .abstractTarget name

namespace Binding

variable {resources : Roster Resource} {models : Roster Model} {unit : List String}
  {n root : String} {d : Descriptor} {D D' : Roster Descriptor} {side : ManySide} {e : Error}

/-! ## Bad targets -/

/-- A relationship that leads to nothing with a table. -/
def Astray (resources : Roster Resource) (entry : RelationshipEntry) : Prop :=
  ∀ target, resources.get? entry.relationship.target = some target → target.isAbstract = true

theorem astray_of_fails_lookUpOne {entry : RelationshipEntry} {s : RelationshipEntry × Unit}
    (h : (lookUpOne resources n).Fails (entry, ()) e s) : Astray resources entry ∧ e.OfTarget := by
  rcases fails_lookUpOne.1 h with ⟨unknown, rfl, _⟩ | ⟨target, found, abs, rfl, _⟩
  · refine ⟨fun target found => ?_, .inl ⟨_, rfl⟩⟩
    rw [unknown] at found
    cases found
  · refine ⟨fun target' found' => ?_, .inr ⟨_, rfl⟩⟩
    rw [found, Option.some.injEq] at found'
    exact found' ▸ abs

theorem astray_of_fails_lookUpEach {entries : List RelationshipEntry}
    {s : List RelationshipEntry × Unit}
    (h : (Action.onEach (lookUpOne resources n)).Fails (entries, ()) e s) :
    (∃ entry ∈ entries, Astray resources entry) ∧ e.OfTarget := by
  induction entries generalizing s with
  | nil => exact absurd h Action.fails_onEach_nil
  | cons entry rest ih =>
      rcases Action.fails_onEach_cons.1 h with ⟨_, here, _⟩ | ⟨_, _, _, later, _⟩
      · obtain ⟨astray, target⟩ := astray_of_fails_lookUpOne here
        exact ⟨⟨entry, List.mem_cons_self, astray⟩, target⟩
      · obtain ⟨⟨other, mem, astray⟩, target⟩ := ih later
        exact ⟨⟨other, List.mem_cons_of_mem _ mem, astray⟩, target⟩

/-- The targets of a resource cannot be looked up because one of them is bad. -/
theorem astray_of_fails_lookUpTargets (found : D.get? n = some d)
    (h : (lookUpTargets resources n).Fails D e D') :
    (∃ entry ∈ d.relationships, Astray resources entry) ∧ e.OfTarget := by
  rw [lookUpTargets_eq] at h
  rcases fails_within.1 h with ⟨missing, _, _⟩ | ⟨d', _, found', failed, _⟩
  · rw [found] at missing
    cases missing
  · obtain rfl : d = d' := Option.some.inj (found.symm.trans found')
    exact astray_of_fails_lookUpEach ⟨failed.1, rfl⟩

section LookUps

variable (distinct : D.names.Nodup) (wf : AllWellFormed D) (registered : ∀ n ∈ unit, n ∈ D.names)

include distinct

theorem astray_of_fails_lookUps (registered : ∀ n ∈ unit, n ∈ D.names)
    (h : (forM unit (lookUpTargets resources)).Fails D e D') :
    (∃ n ∈ unit, ∃ d, D.get? n = some d ∧ ∃ entry ∈ d.relationships, Astray resources entry)
      ∧ e.OfTarget := by
  obtain ⟨done, n, rest, D₁, split, stays, failed⟩ := h.forM_induction
    (I := fun _ D' => Stays D D') (.refl D) fun done n rest D₁ D₂ _ stays one => by
      have names : D₁.names.Nodup := by
        rw [stays.names_eq]
        exact distinct
      exact stays.trans (one.2 ▸ stays_lookUpTargets names n)
  have member : n ∈ unit := split ▸ List.mem_append_right _ List.mem_cons_self
  obtain ⟨d, found⟩ := Roster.exists_get?_of_mem (registered n member)
  obtain ⟨d₁, found₁, frozen⟩ := stays.get?_forward found
  obtain ⟨⟨entry₁, mem₁, astray⟩, target⟩ := astray_of_fails_lookUpTargets found₁ failed
  obtain ⟨entry, mem, resolved, rfl⟩ := exists_left_of_forall₂ frozen.marked mem₁
  exact ⟨⟨n, member, d, found, entry, mem, astray⟩, target⟩

/-- What has been looked up is not astray. -/
theorem not_astray_of_lookUps (wf : AllWellFormed D)
    (h : (forM unit (lookUpTargets resources)).Answers D ⟨⟩ D') (member : n ∈ unit)
    (found : D.get? n = some d) {entry : RelationshipEntry} (mem : entry ∈ d.relationships) :
    ¬ Astray resources entry := by
  obtain ⟨d', found', targets⟩ := (targets_of_lookUps distinct wf h).2 n member
  obtain rfl : d = d' := Option.some.inj (found.symm.trans found')
  obtain ⟨target, known, concrete⟩ := targets entry mem
  intro astray
  rw [astray target known] at concrete
  cases concrete

end LookUps

/-! ## What else binding fails for -/

/-- A relationship is refused for its inverse or for the side that it takes. -/
theorem not_ofTarget_of_checkEntry {entry : RelationshipEntry}
    (h : checkEntry D n entry = .error e) : ¬ e.OfTarget := by
  have pair : ∀ r inverse other, checkPair n entry.name r inverse other = .error e →
      ¬ e.OfTarget := by
    intro r inverse other h
    unfold checkPair at h
    split at h
    · cases h
      rintro (⟨_, h⟩ | ⟨_, h⟩) <;> cases h
    · split at h
      · cases h
        rintro (⟨_, h⟩ | ⟨_, h⟩) <;> cases h
      · split at h
        · cases h
          rintro (⟨_, h⟩ | ⟨_, h⟩) <;> cases h
        · split at h
          · cases h
            rintro (⟨_, h⟩ | ⟨_, h⟩) <;> cases h
          · cases h
  unfold checkEntry at h
  split at h
  · cases h
    rintro (⟨_, h⟩ | ⟨_, h⟩) <;> cases h
  · split at h
    · cases h
    · split at h
      · exact pair _ _ _ h
      · unfold checkSingle at h
        split at h
        · cases h
          rintro (⟨_, h⟩ | ⟨_, h⟩) <;> cases h
        · cases h

theorem not_ofTarget_of_checkResources (h : unit.forM (checkResource D) = .error e) :
    ¬ e.OfTarget := by
  obtain ⟨n, _, failed⟩ := exists_of_forM_error h
  unfold checkResource at failed
  cases found : D.get? n with
  | none => simp [found] at failed
  | some d =>
      rw [found] at failed
      obtain ⟨entry, _, wrong⟩ := exists_of_forM_error failed
      exact not_ofTarget_of_checkEntry wrong

/-- Once the targets of a unit have been looked up, completing its sides fails for an inverse only. -/
theorem not_ofTarget_of_completions (distinct : D.names.Nodup) (wf : AllWellFormed D)
    (names : D.names = resources.names) (looked : ∀ n ∈ unit, Looked resources D n)
    (h : (forM (manySides D unit) (completeSide resources models)).Fails D e D') :
    ¬ e.OfTarget := by
  obtain ⟨done, side, rest, D₁, split, steps, failed⟩ := h.forM_induction
    (I := fun _ D' => Roster.Evolves (Bound unit) D D') (evolves_refl D)
    fun done side rest D₁ D₂ split steps one => by
      obtain ⟨member, fits⟩ := fits_of_mem_manySides wf
        (split ▸ List.mem_append_right _ List.mem_cons_self : side ∈ manySides D unit)
      have names₁ : D₁.names.Nodup := by
        rw [steps.names_eq]
        exact distinct
      exact evolves_trans steps
        (one.2 ▸ evolves_completeSide names₁ resources models member (fits.evolve wf steps))
  have mem : side ∈ manySides D unit := split ▸ List.mem_append_right _ List.mem_cons_self
  have known : ∀ k, k ∈ resources.names → D₁.get? k ≠ none := by
    intro k inside none
    rw [Roster.get?_eq_none_iff, steps.names_eq, names] at none
    exact none inside
  obtain ⟨n, member, d, found, inside⟩ := mem_manySides.1 mem
  obtain ⟨entry, entered, _, shape⟩ := mem_manySidesOf.1 inside
  rcases (fails_completeSide_cases failed).2 with missing | unknown | ⟨reason, rfl⟩
  · obtain ⟨d', found', each⟩ := looked n member
    obtain rfl : d = d' := Option.some.inj (found.symm.trans found')
    obtain ⟨target, registered, _, _⟩ := each entry entered
    rw [shape] at missing
    exact absurd missing (known _ (Roster.mem_names_of_get? registered))
  · have registered : n ∈ resources.names := names ▸ Roster.mem_names_of_get? found
    rw [shape, Roster.get?_eq_none_iff] at unknown
    exact absurd registered unknown
  · rintro (⟨_, h⟩ | ⟨_, h⟩) <;> cases h

/-- Binding fails for a target just if a member of the unit has a bad one. -/
theorem fails_ofTarget_iff (distinct : D.names.Nodup) (wf : AllWellFormed D)
    (names : D.names = resources.names)
    (registered : ∀ n ∈ members resources D models root, n ∈ D.names) :
    (∃ e D', (bind resources models root).Fails D e D' ∧ e.OfTarget) ↔
      ∃ n ∈ members resources D models root, ∃ d, D.get? n = some d
        ∧ ∃ entry ∈ d.relationships, Astray resources entry := by
  constructor
  · rintro ⟨e, D', failed, target⟩
    rcases fails_bindUnit.1 failed with unknown | ⟨D₁, looked, incomplete | ⟨_, unfit⟩⟩
    · exact (astray_of_fails_lookUps distinct registered unknown).1
    · have stays : Stays D D₁ := looked.2 ▸ keeps_stays distinct _ D (.refl D)
      refine absurd target (not_ofTarget_of_completions ?_ (wf.stays stays) ?_
        (looked_of_lookUps looked) incomplete)
      · rw [stays.names_eq]
        exact distinct
      · rw [stays.names_eq]
        exact names
    · exact absurd target (not_ofTarget_of_checkResources unfit)
  · rintro ⟨n, member, d, found, entry, mem, astray⟩
    rcases Action.answers_or_fails
      (forM (members resources D models root) (lookUpTargets resources)) D with
      ⟨_, D₁, looked⟩ | ⟨e, D₁, failed⟩
    · exact absurd astray (not_astray_of_lookUps distinct wf looked member found mem)
    · exact ⟨e, D₁, fails_bindUnit.2 (.inl failed),
        (astray_of_fails_lookUps distinct registered failed).2⟩

end Binding

namespace Compiler

open Binding

/-- A resource that waits for compilation: it is registered with a table, it is not marked as
generated, and no model of it is cached. -/
def Waits (c : Compiler) (n : String) : Prop :=
  (∃ r, c.resources.get? n = some r ∧ r.isAbstract = false)
    ∧ (∃ d, c.descriptor? n = some d ∧ d.isGenerated = false) ∧ c.model? n = none

/-- A set of names that has every waiting resource that one of it leads to, and every waiting resource
with a one-to-many into one of it. -/
structure Closed (c : Compiler) (U : Set String) : Prop where
  targets : ∀ n ∈ U, ∀ d, c.descriptor? n = some d → ∀ entry ∈ d.relationships,
    c.Waits entry.relationship.target → entry.relationship.target ∈ U
  lists : ∀ n d, c.Waits n → c.descriptor? n = some d → ∀ entry ∈ d.relationships,
    entry.relationship.kind = .oneToMany → entry.relationship.target ∈ U → n ∈ U

theorem waits_iff_isPending {c : Compiler} (sound : Sound c.resources c.workspace) {n : String} :
    c.Waits n ↔ isPending c.workspace.descriptors c.workspace.models n = true := by
  rw [isPending_iff]
  constructor
  · rintro ⟨⟨r, hr, concrete⟩, ⟨d, found, unbuilt⟩, uncached⟩
    refine ⟨d, found, ?_, unbuilt, Roster.contains_eq_false_iff.2 uncached⟩
    rw [Descriptor.isAbstract, (sound.standing n r d hr found).options_eq]
    exact concrete
  · rintro ⟨d, found, concrete, unbuilt, uncached⟩
    obtain ⟨r, hr, standing⟩ := sound.exists_resource found
    rw [Descriptor.isAbstract, standing.options_eq] at concrete
    exact ⟨⟨r, hr, concrete⟩, ⟨d, found, unbuilt⟩, Roster.contains_eq_false_iff.1 uncached⟩

/-- The members of a unit are the least closed set with its root. -/
theorem isLeast_inUnit {c : Compiler} (sound : Sound c.resources c.workspace) (root : String) :
    IsLeast {U : Set String | root ∈ U ∧ c.Closed U}
      {n | InUnit c.workspace.descriptors c.workspace.models root n} := by
  refine ⟨⟨.refl, ?_, ?_⟩, ?_⟩
  · intro n inside d found entry mem waits
    refine InUnit.pulls inside ⟨(waits_iff_isPending sound).1 waits, .inl ?_⟩
    exact mem_targetsOf.2 ⟨d, found, entry, mem, rfl⟩
  · intro n d waits found entry mem many inside
    refine InUnit.pulls inside ⟨(waits_iff_isPending sound).1 waits, .inr ⟨d, found, ?_⟩⟩
    exact listsInto_iff.2 ⟨entry, mem, many, rfl⟩
  · rintro U ⟨start, closed⟩ n inside
    -- Every step from the root leads to a name that a closed set has to have.
    induction inside with
    | refl => exact start
    | tail _ step ih =>
        obtain ⟨pending, way⟩ := step
        have waits := (waits_iff_isPending sound).2 pending
        rcases way with target | ⟨d, found, lists⟩
        · obtain ⟨d, found, entry, mem, rfl⟩ := mem_targetsOf.1 target
          exact closed.targets _ ih d found entry mem waits
        · obtain ⟨entry, mem, many, rfl⟩ := listsInto_iff.1 lists
          exact closed.lists _ d waits found entry mem many ih

/-- Wherever a history leads: there is a least closed set with an uncached resource that has a table, and
the search from that resource ends with its members, each once.  Binding fails for a target just if a
member has a bad one; if it succeeds, it answers with the members in the order of declaration, and all
their relationships, added ones included, have their target looked up, which is a member or cached. -/
theorem bind_exact (settings : Settings) (requests : List Request) (c : Compiler)
    (reached : (new settings).run requests = c) (name : String) (resource : Resource)
    (declared : c.resources.get? name = some resource) (concrete : resource.isAbstract = false)
    (uncached : c.model? name = none) :
    ∃ U : Set String, IsLeast {U : Set String | name ∈ U ∧ c.Closed U} U ∧
    ((members c.resources c.workspace.descriptors c.workspace.models name).Nodup
      ∧ ∀ n, n ∈ members c.resources c.workspace.descriptors c.workspace.models name ↔ n ∈ U) ∧
    ((∃ e D', (bind c.resources c.workspace.models name).Fails c.workspace.descriptors e D'
        ∧ ((∃ target, e = .unresolvedTarget target) ∨ ∃ target, e = .abstractTarget target)) ↔
      ∃ n ∈ U, ∃ d, c.descriptor? n = some d ∧ ∃ entry ∈ d.relationships,
        c.resources.get? entry.relationship.target = none ∨
        ∃ r, c.resources.get? entry.relationship.target = some r ∧ r.isAbstract = true) ∧
    ∀ ordered D',
      (bind c.resources c.workspace.models name).Answers c.workspace.descriptors ordered D' →
      ordered.Nodup ∧ ordered.Sublist c.resources.names ∧ (∀ n, n ∈ ordered ↔ n ∈ U) ∧
      ∀ n ∈ U, ∃ d, D'.get? n = some d ∧ ∀ entry ∈ d.relationships, ∃ r,
        c.resources.get? entry.relationship.target = some r ∧ entry.resolved = some r
        ∧ r.isAbstract = false
        ∧ (entry.relationship.target ∈ U ∨ ∃ m, c.model? entry.relationship.target = some m) := by
  have sound : Sound c.resources c.workspace := reached ▸ (coherent_run settings requests).sound
  have inside : ∀ n, n ∈ members c.resources c.workspace.descriptors c.workspace.models name ↔
      InUnit c.workspace.descriptors c.workspace.models name n :=
    fun n => mem_members sound.descriptors_distinct sound.descriptors_names
  have pending := sound.pending_of_uncached declared concrete uncached
  have registered : ∀ n ∈ members c.resources c.workspace.descriptors c.workspace.models name,
      n ∈ c.workspace.descriptors.names :=
    fun n member => mem_names_of_isPending (((inside n).1 member).pending pending)
  refine ⟨_, isLeast_inUnit sound name, ⟨nodup_members name, inside⟩, ?_, fun ordered D' bound => ?_⟩
  · refine (fails_ofTarget_iff sound.descriptors_distinct sound.allWellFormed
      sound.descriptors_names registered).trans ?_
    simp only [inside]
    refine exists_congr fun n => and_congr_right fun _ => exists_congr fun d =>
      and_congr_right fun _ => exists_congr fun entry => and_congr_right fun _ => ?_
    unfold Astray
    cases c.resources.get? entry.relationship.target <;> simp
  · obtain ⟨_, distinct, ordered_iff, _⟩ := sound.bound_unit declared concrete uncached bound
    obtain ⟨D₁, looked, completed, _, rfl⟩ := answers_bindUnit.1 bound
    obtain ⟨sides, start⟩ :=
      halfway_of_lookUps sound.descriptors_distinct sound.allWellFormed looked
    rw [sides] at completed
    have tables : ∀ n ∈ members c.resources c.workspace.descriptors c.workspace.models name,
        ∀ r, c.resources.get? n = some r → r.isAbstract = false := by
      intro n member r hr
      obtain ⟨⟨r', hr', hasTable⟩, _⟩ :=
        (waits_iff_isPending sound).2 (((inside n).1 member).pending pending)
      obtain rfl : r = r' := Option.some.inj (hr.symm.trans hr')
      exact hasTable
    have ends := halfway_of_completions sound.descriptors_distinct sound.allWellFormed tables
      (nodup_members name) start completed
    refine ⟨distinct, sound.bound_sublist declared concrete uncached bound, ordered_iff,
      fun n member => ?_⟩
    obtain ⟨d, found, each⟩ := ends.looked n ((inside n).2 member)
    refine ⟨d, found, fun entry mem => ?_⟩
    obtain ⟨r, known, hasTable, same⟩ := each entry mem
    refine ⟨r, known, by rw [same], hasTable, ?_⟩
    refine (sound.bound_targets bound ((ordered_iff n).2 member) found mem).imp (ordered_iff _).1 ?_
    rintro ⟨_, m, _, _, cached⟩
    exact ⟨m, cached⟩

/-- Books of users that are generated before, and authors who list them. -/
def listedBooks : List Request :=
  [.declare { name := "User" }, .generate "User",
    .declare { name := "Book"
               properties := [⟨"owner", 1, .relationship (.new .manyToOne "User")⟩] },
    .declare { name := "Author"
               properties := [⟨"books", 2, .relationship (.new .oneToMany "Book")⟩] }]

/-- The authors come with the books, and the books are given their side. -/
theorem bind_exact_books :
    ∃ (c : Compiler) (U : Set String) (D' : Roster Descriptor) (d : Descriptor),
      (new {}).run listedBooks = c
      ∧ IsLeast {U : Set String | "Book" ∈ U ∧ c.Closed U} U
      ∧ (bind c.resources c.workspace.models "Book").Answers c.workspace.descriptors
          ["Book", "Author"] D'
      ∧ (∀ n, n ∈ ["Book", "Author"] ↔ n ∈ U)
      ∧ D'.get? "Book" = some d ∧ d.relationshipNames = ["owner", "author"]
      ∧ ∀ entry ∈ d.relationships, ∃ r, c.resources.get? entry.relationship.target = some r
          ∧ entry.resolved = some r ∧ r.isAbstract = false
          ∧ (entry.relationship.target ∈ U ∨ ∃ m, c.model? entry.relationship.target = some m) := by
  obtain ⟨c, reached⟩ : ∃ c, (new {}).run listedBooks = c := ⟨_, rfl⟩
  obtain ⟨r, declared, concrete, uncached⟩ : ∃ r, c.resources.get? "Book" = some r
      ∧ r.isAbstract = false ∧ c.model? "Book" = none :=
    exists_requestable (by rw [← reached]; cbv)
  obtain ⟨ordered, D', bound, order⟩ := Action.exists_answers_of_any (p := (· == ["Book", "Author"]))
    (show (bind c.resources c.workspace.models "Book" c.workspace.descriptors).result.toOption.any _
      = true by rw [← reached]; cbv)
  obtain rfl := beq_iff_eq.1 order
  have added : ((bind c.resources c.workspace.models "Book" c.workspace.descriptors).state.get?
      "Book").any (·.relationshipNames == ["owner", "author"]) = true := by
    rw [← reached]
    cbv
  obtain ⟨U, least, _, _, answers⟩ :=
    bind_exact {} listedBooks c reached "Book" r declared concrete uncached
  obtain ⟨_, _, members, looked⟩ := answers _ D' bound
  obtain ⟨d, found, each⟩ := looked "Book" least.1.1
  rw [bound.2, found, Option.any_some, beq_iff_eq] at added
  exact ⟨c, U, D', d, reached, least, bound, members, found, added, each⟩

end Compiler

end ResourceTables
