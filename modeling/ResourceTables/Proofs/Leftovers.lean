/-
# `ResourceTables.Proofs.Leftovers` — what a failed generation leaves in the descriptors

A compilation that fails takes back what building has recorded.  Binding comes before it, and nothing
takes that back: the inverses that it has settled and the many-to-ones that it has added stay, also on
resources that have nothing to do with the failure.  Where binding finds nothing to complete, a failure
leaves every field, relationship and builder as it was.
-/
import Mathlib
import ResourceTables.Proofs.Atomicity
import ResourceTables.Proofs.Sides

namespace ResourceTables

/-- What is as it should be already does not change. -/
theorem changeFirst_eq_self {α : Type} {p : α → Bool} {f : α → α} {xs : List α}
    (same : ∀ x, xs.find? p = some x → f x = x) : changeFirst p f xs = xs := by
  induction xs with
  | nil => rfl
  | cons x rest ih =>
      by_cases here : p x = true
      · simp [changeFirst, here, same x (by simp [here])]
      · simp only [changeFirst, here, Bool.false_eq_true, if_false]
        rw [ih fun y found => same y (by simpa [here] using found)]

namespace Binding

variable {resources : Roster Resource} {models : Roster Model} {unit : List String}
  {n root : String} {d d' : Descriptor} {D D' : Roster Descriptor} {side : ManySide}

/-! ## Descriptors in which targets have been looked up -/

/-- In every descriptor only targets have been looked up. -/
def Stays (D D' : Roster Descriptor) : Prop := Roster.Evolves (fun _ => Frozen) D D'

theorem Stays.refl (D : Roster Descriptor) : Stays D D := Roster.Evolves.refl (fun _ => .refl) D

theorem Stays.trans {D'' : Roster Descriptor} (h : Stays D D') (h' : Stays D' D'') : Stays D D'' := by
  refine Roster.Evolves.trans ?_ h h'
  exact fun _ _ _ _ => Frozen.trans

theorem stays_lookUpTargets (distinct : D.names.Nodup) (n : String) :
    Stays D (lookUpTargets resources n D).state := by
  rw [lookUpTargets_eq]
  unfold within
  cases found : D.get? n with
  | none => exact .refl D
  | some d =>
      refine Roster.evolves_modify (fun _ d _ => Frozen.refl d) fun a mem => ?_
      have same : D.get? n = some a := Roster.get?_of_mem_entries distinct mem
      rw [found, Option.some.injEq] at same
      subst same
      exact ⟨Action.forall₂_each Marked.refl marked_lookUpOne d.relationships (), rfl⟩

theorem keeps_stays (distinct : D.names.Nodup) (unit : List String) :
    Action.Keeps (Stays D) (forM unit (lookUpTargets resources)) := by
  refine Action.keeps_forM fun n _ D' stays => ?_
  have distinct' : D'.names.Nodup := by
    rw [stays.names_eq]
    exact distinct
  exact stays.trans (stays_lookUpTargets distinct' n)

theorem AllWellFormed.stays (wf : AllWellFormed D) (stays : Stays D D') : AllWellFormed D' := by
  intro n d' found
  obtain ⟨d, before, frozen⟩ := stays.get?_backward found
  refine (wf n d before).of_names ?_ ?_ ?_
  · rw [frozen.rest_eq, Descriptor.fieldNames, Descriptor.fieldNames]
  · exact names_of_follows (frozen.marked.imp fun _ _ => Marked.follows)
  · rw [frozen.rest_eq]

theorem manySidesOf_frozen (h : Frozen d d') (owner : String) :
    manySidesOf owner d' = manySidesOf owner d := by
  have marked := h.marked
  unfold manySidesOf
  generalize d.relationships = entries, d'.relationships = entries' at marked ⊢
  induction marked with
  | nil => rfl
  | cons one _ ih =>
      obtain ⟨resolved, rfl⟩ := one
      rw [List.filter_cons, List.filter_cons]
      split
      · rw [List.map_cons, List.map_cons, ih]
      · exact ih

theorem Stays.manySides_eq (h : Stays D D') (unit : List String) :
    manySides D' unit = manySides D unit := by
  unfold manySides
  refine List.flatMap_congr fun n _ => ?_
  rcases h.get? n with ⟨before, after⟩ | ⟨d, d', before, after, frozen⟩
  · rw [before, after]
  · rw [before, after]
    exact manySidesOf_frozen frozen n

theorem Stays.inverseName_eq (h : Stays D D') (side : ManySide) :
    Binding.inverseName D' side = Binding.inverseName D side := by
  have back : ∀ i, pointsBack D' side i = pointsBack D side i := by
    intro i
    unfold pointsBack
    rcases h.get? side.target with ⟨before, after⟩ | ⟨d, d', before, after, frozen⟩
    · rw [before, after]
    · rw [before, after, Option.bind_some, Option.bind_some, frozen.relationship?_eq]
  unfold Binding.inverseName
  cases side.inverse with
  | none => rfl
  | some i => simp only [back]

/-! ## Sides that are complete -/

/-- A one-to-many with nothing to complete: it names the inverse that it would be settled with, and
its target has a property of that name. -/
def Complete (D : Roster Descriptor) (side : ManySide) : Prop :=
  side.inverse = some (inverseName D side)
    ∧ ∃ t, D.get? side.target = some t ∧ t.hasProperty (inverseName D side) = true

theorem Complete.stays (complete : Complete D side) (h : Stays D D') : Complete D' side := by
  obtain ⟨inverse, t, there, has⟩ := complete
  obtain ⟨t', there', frozen⟩ := h.get?_forward there
  refine ⟨by rw [h.inverseName_eq, ← inverse], t', there', ?_⟩
  rw [frozen.hasProperty_eq, h.inverseName_eq]
  exact has

/-- A side that names the inverse under which it is settled changes nothing by being settled. -/
theorem settledIn_eq_self (distinct : D.names.Nodup) (wf : AllWellFormed D) {i : String}
    (mem : side ∈ manySides D unit) (inverse : side.inverse = some i) : settledIn D side i = D := by
  obtain ⟨n, _, d, found, inside⟩ := mem_manySides.1 mem
  obtain ⟨e, entry, _, shape⟩ := mem_manySidesOf.1 inside
  have owner : D.get? side.owner = some d := by
    rw [shape]
    exact found
  refine Roster.modify_of_get? distinct owner ?_
  unfold settled Descriptor.modifyRelationship
  rw [changeFirst_eq_self]
  intro x first
  have is : e = x := by
    have there := find?_key_of_mem (wf n d found).relationships_distinct entry
    rw [shape, there] at first
    exact Option.some.inj first
  rw [← inverse, shape, ← is]

/-- Completing such a side changes nothing. -/
theorem completeSide_of_complete (distinct : D.names.Nodup) (wf : AllWellFormed D)
    (mem : side ∈ manySides D unit) (complete : Complete D side) :
    (completeSide resources models side).Answers D () D := by
  obtain ⟨inverse, t, there, has⟩ := complete
  have same := settledIn_eq_self distinct wf mem inverse
  exact answers_completeSide.2 ⟨t, by rw [same]; exact there, .inl ⟨has, same⟩⟩

/-- A unit without anything to complete is only looked up by binding, also where that fails. -/
theorem stays_bind (distinct : D.names.Nodup) (wf : AllWellFormed D)
    (complete : ∀ side ∈ manySides D (members resources D models root), Complete D side) :
    Stays D (bind resources models root D).state := by
  have completions : ∀ D₁, Stays D D₁ →
      (forM (manySides D₁ (members resources D models root))
        (completeSide resources models)).Answers D₁ ⟨⟩ D₁ := by
    intro D₁ stays
    have distinct₁ : D₁.names.Nodup := by
      rw [stays.names_eq]
      exact distinct
    have wf₁ := wf.stays stays
    have ends : ∃ D₂, (forM (manySides D₁ (members resources D models root))
        (completeSide resources models)).Answers D₁ ⟨⟩ D₂ ∧ D₂ = D₁ := by
      refine Action.exists_answers_forM (I := fun _ t => t = D₁) rfl ?_
      rintro done side rest t split rfl
      have mem : side ∈ manySides t (members resources D models root) :=
        split ▸ List.mem_append_right _ List.mem_cons_self
      refine ⟨t, completeSide_of_complete distinct₁ wf₁ mem ?_, rfl⟩
      exact (complete side (stays.manySides_eq _ ▸ mem)).stays stays
    obtain ⟨_, ends, rfl⟩ := ends
    exact ends
  have looks : Stays D (forM (members resources D models root) (lookUpTargets resources) D).state :=
    keeps_stays distinct (members resources D models root) D (.refl D)
  rcases Action.answers_or_fails (bind resources models root) D with
    ⟨ordered, D', h⟩ | ⟨e, D', h⟩
  · rw [h.2]
    obtain ⟨D₁, looked, completed, _, _⟩ := answers_bindUnit.1 h
    rw [looked.2] at looks
    rw [← ((completions D₁ looks).unique completed).2]
    exact looks
  · rw [h.2]
    rcases fails_bindUnit.1 h with unknown | ⟨D₁, looked, incomplete | ⟨completed, _⟩⟩
    · rw [← unknown.2]
      exact looks
    · rw [looked.2] at looks
      exact absurd incomplete (completions D₁ looks).not_fails
    · rw [looked.2] at looks
      rw [← ((completions D₁ looks).unique completed).2]
      exact looks

end Binding

/-! ## Generations that fail -/

namespace Generation

/-- A request that fails leaves the descriptors as they were, or as binding left them. -/
theorem generate_leaves {ctx : GenerationContext} {w w' : Workspace} {name : String} {e : Error}
    (sound : Sound ctx.resources w) (h : (generate ctx name).Fails w e w') :
    w' = w ∨ w' = { w with
      descriptors := (Binding.bind ctx.resources w.models name w.descriptors).state } := by
  obtain ⟨uncached, rfl | ⟨r, hr, concrete, ⟨D', unbound, rfl⟩ |
    ⟨ordered, D', bound, failed | ⟨compiled, missing⟩⟩⟩⟩ := fails_generate h
  · exact .inl rfl
  · exact .inr (by rw [unbound.2])
  · rw [← (compile_ends sound hr concrete uncached bound).2 e failed, bound.2]
    exact .inr rfl
  · obtain ⟨_, m, found⟩ := addsUnit_of_compiled sound hr concrete uncached bound compiled
    rw [missing] at found
    cases found

end Generation

namespace Compiler

/-- Wherever a history leads, a generation that fails changes no resource and no model.  Descriptors
keep their fields and builders, and their relationships up to the names of inverses; completions may
have come after them.  If the unit had nothing to complete, at most targets have been looked up. -/
theorem failed_generation_leaves (settings : Settings) (requests : List Request) (c c' : Compiler)
    (reached : (new settings).run requests = c) (name : String) (e : Error)
    (failed : (generate name).Fails c e c') :
    c'.resources = c.resources ∧ c'.workspace.models = c.workspace.models
      ∧ (∀ n d, c.descriptor? n = some d → ∃ d', c'.descriptor? n = some d' ∧ Binding.Grown
          (Binding.members c.resources c.workspace.descriptors c.workspace.models name) n d d')
      ∧ ((∀ side ∈ Binding.manySides c.workspace.descriptors
            (Binding.members c.resources c.workspace.descriptors c.workspace.models name),
          Binding.Complete c.workspace.descriptors side) →
        Binding.Stays c.workspace.descriptors c'.workspace.descriptors) := by
  have sound : Sound c.resources c.workspace := reached ▸ (coherent_run settings requests).sound
  have same : c'.resources = c.resources ∧ (c'.workspace = c.workspace ∨ c'.workspace =
      { c.workspace with descriptors := (Binding.bind c.resources c.workspace.models name
          c.workspace.descriptors).state }) := by
    rcases fails_generating.1 failed with ⟨_, rfl⟩ | ⟨ctx, w, known, ends, rfl⟩
    · exact ⟨rfl, .inl rfl⟩
    · have resources := (generationContext_eq_ok known).2.1
      refine ⟨rfl, ?_⟩
      rw [← resources]
      exact Generation.generate_leaves (resources ▸ sound) ends
  obtain ⟨resources, workspace | workspace⟩ := same
  · unfold descriptor?
    rw [workspace]
    exact ⟨resources, rfl, fun n d found => ⟨d, found, .refl d⟩, fun _ => .refl _⟩
  · unfold descriptor?
    rw [workspace]
    refine ⟨resources, rfl, fun n d found => ?_,
      Binding.stays_bind sound.descriptors_distinct sound.allWellFormed⟩
    obtain ⟨d', found', bound⟩ := (sound.bind_steps name).get?_forward found
    exact ⟨d', found', bound.grown (sound.allWellFormed n d found)⟩

/-- Authors and their books, declared on both sides; an author's best book has no other side. -/
def authors : List Request :=
  [.declare { name := "Author"
              properties := [⟨"books", 1, .relationship
                  { Relationship.new .oneToMany "Book" with inverse := some "author" }⟩,
                ⟨"best", 2, .relationship { Relationship.new .oneToOne "Book" with primary := true }⟩] },
    .declare { name := "Book"
               properties := [⟨"author", 3, .relationship
                  { Relationship.new .manyToOne "Author" with inverse := some "books" }⟩] }]

theorem failed_generation_leaves_authors :
    ∃ e c', (generate "Author").Fails ((new {}).run authors) e c'
      ∧ Binding.Stays ((new {}).run authors).workspace.descriptors c'.workspace.descriptors := by
  obtain ⟨e, c', failed⟩ := Action.exists_fails_of_isOk
    (show (generate "Author" ((new {}).run authors)).result.isOk = false by cbv)
  obtain ⟨_, _, _, stays⟩ := failed_generation_leaves {} authors _ c' rfl "Author" e failed
  refine ⟨e, c', failed, stays ?_⟩
  have complete : ((Binding.manySides ((new {}).run authors).workspace.descriptors
      (Binding.members ((new {}).run authors).resources ((new {}).run authors).workspace.descriptors
        ((new {}).run authors).workspace.models "Author")).all fun side =>
      side.inverse == some (Binding.inverseName ((new {}).run authors).workspace.descriptors side)
        && (((new {}).run authors).workspace.descriptors.get? side.target).any fun t => t.hasProperty
          (Binding.inverseName ((new {}).run authors).workspace.descriptors side)) = true := by cbv
  intro side mem
  have one := List.all_eq_true.1 complete side mem
  rw [Bool.and_eq_true, beq_iff_eq, Option.any_eq_true] at one
  exact one

/-- The same without the side of the books. -/
def authorsAlone : List Request :=
  [.declare { name := "Book" },
    .declare { name := "Author"
               properties := [⟨"books", 1, .relationship (.new .oneToMany "Book")⟩,
                 ⟨"best", 2, .relationship
                    { Relationship.new .oneToOne "Book" with primary := true }⟩] }]

/-- The author is declared again, without books, and then the book is generated. -/
def bookAlone : List Request := [.declare { name := "Author" }, .generate "Book"]

/-- A failed generation leaves a key behind on the table of another resource. -/
theorem failed_generation_leaves_key :
    ∃ e c', (generate "Author").Fails ((new {}).run authorsAlone) e c'
      ∧ ¬ Binding.Stays ((new {}).run authorsAlone).workspace.descriptors c'.workspace.descriptors
      ∧ ((((new {}).run authorsAlone).run bookAlone).model? "Book").map (·.columns.map (·.name))
          = some ["id"]
      ∧ ((c'.run bookAlone).model? "Book").map (·.columns.map (·.name)) = some ["id", "author_id"] := by
  obtain ⟨e, c', failed⟩ := Action.exists_fails_of_isOk
    (show (generate "Author" ((new {}).run authorsAlone)).result.isOk = false by cbv)
  refine ⟨e, c', failed, fun stays => ?_, by cbv, ?_⟩
  · have before : (((new {}).run authorsAlone).workspace.descriptors.get? "Book").any
        (fun d => d.plan.names == ["id"]) = true := by cbv
    have after : ((generate "Author" ((new {}).run authorsAlone)).state.workspace.descriptors.get?
        "Book").any (fun d => d.plan.names == ["id", "author"]) = true := by cbv
    rw [failed.2] at after
    obtain ⟨d, found, one⟩ := (Option.any_eq_true _ _).1 before
    obtain ⟨d', found', frozen⟩ := stays.get?_forward found
    rw [found', Option.any_some, frozen.rest_eq] at after
    simp only [beq_iff_eq] at one after
    rw [one] at after
    exact absurd after (by decide)
  · rw [← failed.2]
    cbv

end Compiler

end ResourceTables
