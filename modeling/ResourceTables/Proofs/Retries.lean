/-
# `ResourceTables.Proofs.Retries` — binding again does nothing

Binding leaves its work in the descriptors even when it fails, so a second attempt starts from other
descriptors than the first.  It comes to the same end all the same.  Completions lead only where a
one-to-many has come from, so the unit has the same members in the same order; every target that was
looked up is found again; every side that was completed is complete; and the side at which the first
attempt stopped is settled under the name that it was given then.
-/
import Mathlib
import ResourceTables.Proofs.Completions

namespace ResourceTables

namespace Binding

variable {resources : Roster Resource} {models : Roster Model} {unit : List String}
  {n root : String} {d d' : Descriptor} {D D' : Roster Descriptor} {side side' : ManySide} {u : Unit}
  {e : Error}

/-! ## Looking up again -/

theorem fails_lookUpOne {entry : RelationshipEntry} {s : RelationshipEntry × Unit} :
    (lookUpOne resources n).Fails (entry, ()) e s ↔
      (resources.get? entry.relationship.target = none ∧ .unresolvedTargetIn entry.relationship.target
          s!"relationship '{entry.name}' on resource '{n}'" = e ∧ entry = s.1) ∨
      ∃ target, resources.get? entry.relationship.target = some target ∧ target.isAbstract = true
        ∧ .abstractTarget target.name = e ∧ { entry with resolved := some target } = s.1 := by
  obtain ⟨entry', ⟨⟩⟩ := s
  simp only [lookUpOne, lookUpTarget, Action.fails_zoom, Action.fails_read_bind]
  cases found : resources.get? entry.relationship.target with
  | none => simp [resolveIn, found]
  | some target =>
      by_cases abs : target.isAbstract = true
      · simp [resolveIn, found, abs]
      · simp [resolveIn, found, abs]

theorem lookUpOne_again {entry entry' : RelationshipEntry}
    (h : (lookUpOne resources n).Fails (entry, ()) e (entry', ())) :
    (lookUpOne resources n).Fails (entry', ()) e (entry', ()) := by
  rcases fails_lookUpOne.1 h with ⟨unknown, rfl, rfl⟩ | ⟨target, found, abs, rfl, rfl⟩
  · exact fails_lookUpOne.2 (.inl ⟨unknown, rfl, rfl⟩)
  · exact fails_lookUpOne.2 (.inr ⟨target, found, abs, rfl, rfl⟩)

/-- What has been looked up is found again. -/
theorem LookedUp.again {entry entry' : RelationshipEntry} (h : LookedUp resources entry entry') :
    LookedUp resources entry' entry' := by
  obtain ⟨target, found, concrete, rfl⟩ := h
  exact ⟨target, found, concrete, rfl⟩

theorem lookUpEach_again {entries entries' : List RelationshipEntry}
    (h : (Action.onEach (lookUpOne resources n)).Fails (entries, ()) e (entries', ())) :
    (Action.onEach (lookUpOne resources n)).Fails (entries', ()) e (entries', ()) := by
  induction entries generalizing entries' with
  | nil => exact absurd h Action.fails_onEach_nil
  | cons entry rest ih =>
      rcases Action.fails_onEach_cons.1 h with ⟨one, here, same⟩ | ⟨one, others, found, later, same⟩
      · obtain ⟨rfl, _⟩ := Prod.mk.inj same
        exact Action.fails_onEach_cons.2 (.inl ⟨one, lookUpOne_again here, rfl⟩)
      · obtain ⟨rfl, _⟩ := Prod.mk.inj same
        refine Action.fails_onEach_cons.2 (.inr ⟨one, others, ?_, ih later, rfl⟩)
        exact answers_lookUpOne.2 (answers_lookUpOne.1 found).again

/-- A resource all of whose targets have been looked up. -/
def Looked (resources : Roster Resource) (D : Roster Descriptor) (n : String) : Prop :=
  ∃ d, D.get? n = some d ∧ ∀ entry ∈ d.relationships, LookedUp resources entry entry

/-- Looking them up again changes nothing. -/
theorem Looked.answers (looked : Looked resources D n) (distinct : D.names.Nodup) :
    (lookUpTargets resources n).Answers D () D := by
  obtain ⟨d, found, each⟩ := looked
  exact answers_lookUpTargets.2 ⟨d, d.relationships, found, List.forall₂_same.2 each,
    Roster.modify_of_get? distinct found rfl⟩

theorem looked_of_answers (h : (lookUpTargets resources n).Answers D u D') :
    Looked resources D' n := by
  obtain ⟨d, entries, found, looked, rfl⟩ := answers_lookUpTargets.1 h
  refine ⟨{ d with relationships := entries }, by rw [Roster.get?_modify_self, found]; rfl, ?_⟩
  intro entry mem
  obtain ⟨_, _, one⟩ := exists_left_of_forall₂ looked mem
  exact one.again

/-- Looking up the targets of another resource changes nothing about that. -/
theorem Looked.keep {m : String} (looked : Looked resources D n) (other : m ≠ n) (f : Descriptor → Descriptor) :
    Looked resources (D.modify m f) n := by
  obtain ⟨d, found, each⟩ := looked
  exact ⟨d, by rw [Roster.get?_modify_other other.symm]; exact found, each⟩

theorem lookUpTargets_again (h : (lookUpTargets resources n).Fails D e D') :
    (lookUpTargets resources n).Fails D' e D' := by
  rw [lookUpTargets_eq] at h ⊢
  rcases fails_within.1 h with ⟨unknown, rfl, rfl⟩ | ⟨d, d', found, failed, rfl⟩
  · exact fails_within.2 (.inl ⟨unknown, rfl, rfl⟩)
  · refine fails_within.2 (.inr ⟨d', d', by rw [Roster.get?_modify_self, found]; rfl, ?_, ?_⟩)
    · have first : (Action.onEach (lookUpOne resources n)).Fails (d.relationships, ()) e
          ((Action.each (lookUpOne resources n) d.relationships ()).state.1, ()) := ⟨failed.1, rfl⟩
      have again := lookUpEach_again first
      rw [← failed.2]
      refine ⟨again.1, ?_⟩
      have entries := congrArg Prod.fst again.2
      exact congrArg (fun entries => { d with relationships := entries }) entries
    · rw [Roster.modify_modify]
      rfl

theorem names_lookUpTargets (h : (lookUpTargets resources n).Answers D u D') :
    D'.names = D.names := by
  obtain ⟨_, _, _, _, rfl⟩ := answers_lookUpTargets.1 h
  exact Roster.names_modify _ _ _

theorem Looked.after {m : String} (looked : Looked resources D n)
    (h : (lookUpTargets resources m).Answers D u D') : Looked resources D' n := by
  by_cases same : m = n
  · exact same ▸ looked_of_answers h
  · obtain ⟨_, _, _, _, rfl⟩ := answers_lookUpTargets.1 h
    exact looked.keep same _

theorem Looked.next {done : List String} (before : ∀ n ∈ done, Looked resources D n)
    (one : (lookUpTargets resources root).Answers D u D') :
    ∀ n ∈ done ++ [root], Looked resources D' n := by
  intro n mem
  rcases List.mem_append.1 mem with early | here
  · exact (before n early).after one
  · rw [List.mem_singleton] at here
    exact here ▸ looked_of_answers one

/-- Once the targets of a unit have been looked up, every member is one whose targets are. -/
theorem looked_of_lookUps (h : (forM unit (lookUpTargets resources)).Answers D ⟨⟩ D') :
    ∀ n ∈ unit, Looked resources D' n := by
  refine h.forM_induction (I := fun done D' => ∀ n ∈ done, Looked resources D' n) (by simp) ?_
  exact fun _ _ _ _ _ _ before one => Looked.next before one

/-- A unit that leads to something unknown or abstract leads there again. -/
theorem lookUps_again (distinct : D.names.Nodup) (once : unit.Nodup)
    (h : (forM unit (lookUpTargets resources)).Fails D e D') :
    (forM unit (lookUpTargets resources)).Fails D' e D' := by
  obtain ⟨done, m, rest, D₁, split, ⟨names, before⟩, failed⟩ := h.forM_induction
    (I := fun done D' => D'.names = D.names ∧ ∀ n ∈ done, Looked resources D' n) ⟨rfl, by simp⟩
    fun _ _ _ _ _ _ ⟨names, before⟩ one =>
      ⟨(names_lookUpTargets one).trans names, Looked.next before one⟩
  have apart : ∀ n ∈ done, m ≠ n := by
    rintro n mem rfl
    rw [split, List.nodup_append] at once
    exact once.2.2 m mem m List.mem_cons_self rfl
  obtain ⟨f, changed⟩ : ∃ f, D' = D₁.modify m f := by
    rw [lookUpTargets_eq] at failed
    rcases fails_within.1 failed with ⟨_, _, rfl⟩ | ⟨_, d', _, _, rfl⟩
    · exact ⟨id, by simp [Roster.modify]⟩
    · exact ⟨_, rfl⟩
  have distinct' : D'.names.Nodup := by
    rw [changed, Roster.names_modify, names]
    exact distinct
  rw [split]
  refine Action.fails_forM_same (fun n mem => ?_) (lookUpTargets_again failed)
  refine Looked.answers ?_ distinct'
  rw [changed]
  exact (before n mem).keep (apart n mem) f

/-! ## The same unit -/

/-- What the relationships of a resource lead to are companions that it had before. -/
def Near (resources : Roster Resource) (D D' : Roster Descriptor) : Prop :=
  ∀ n, ∀ t ∈ targetsOf D' n, t ∈ companions resources D n

theorem Near.refl (D : Roster Descriptor) : Near resources D D :=
  fun _ _ mem => List.mem_append_right _ mem

/-- A resource lists into the same resources as before: completions are no one-to-many. -/
theorem listsInto_grown (grown : Grown unit n d d') (t : String) :
    listsInto t d' = listsInto t d := by
  rw [Bool.eq_iff_iff, listsInto_iff, listsInto_iff]
  constructor
  · rintro ⟨e, mem, many, target⟩
    rcases grown.origin mem with ⟨e₀, mem₀, _, _, inverse, same⟩ | ⟨⟨side, _, _, same⟩, _⟩
    · rw [same] at many target
      exact ⟨e₀, mem₀, many, target⟩
    · rw [same] at many
      cases many
  · rintro ⟨e, mem, many, target⟩
    obtain ⟨e', mem', _, _, inverse, same⟩ := grown.exists_follows mem
    refine ⟨e', mem', ?_, ?_⟩
    · rw [same]
      exact many
    · rw [same]
      exact target

section Again

variable (distinct : D.names.Nodup) (wf : AllWellFormed D)
  (steps : Roster.Evolves (Bound unit) D D')

include wf steps

/-- The targets of a resource stay in front. -/
theorem targetsOf_evolved (n : String) : ∃ more, targetsOf D' n = targetsOf D n ++ more := by
  unfold targetsOf
  rcases steps.get? n with ⟨before, after⟩ | ⟨d, d', before, after, bound⟩
  · exact ⟨[], by rw [before, after]; rfl⟩
  · obtain ⟨kept, added, split, follows, _⟩ := (bound.grown (wf n d before)).entries
    refine ⟨added.map (·.relationship.target), ?_⟩
    simp only [before, after, split, List.map_append]
    congr 1
    refine map_eq_map_of_forall₂ follows ?_
    rintro e e' ⟨_, _, inverse, same⟩
    rw [same]

include distinct

theorem companions_evolved (near : Near resources D D') (n : String) :
    ∃ more, companions resources D' n = companions resources D n ++ more
      ∧ ∀ t ∈ more, t ∈ companions resources D n := by
  have distinct' : D'.names.Nodup := by
    rw [steps.names_eq]
    exact distinct
  have listed : ∀ k, k ∈ listing D' n ↔ k ∈ listing D n := by
    intro k
    rw [mem_listing distinct, mem_listing distinct']
    rcases steps.get? k with ⟨before, after⟩ | ⟨d, d', before, after, bound⟩
    · simp [before, after]
    · simp [before, after, listsInto_grown (bound.grown (wf k d before))]
  obtain ⟨more, targets⟩ := targetsOf_evolved wf steps n
  refine ⟨more, ?_, fun t mem => near n t (targets ▸ List.mem_append_right _ mem)⟩
  have front : resources.names.filter (listing D' n).contains
      = resources.names.filter (listing D n).contains := by
    refine List.filter_congr fun k _ => ?_
    rw [Bool.eq_iff_iff, List.contains_iff_mem, List.contains_iff_mem]
    exact listed k
  rw [companions, companions, front, targets, List.append_assoc]

/-- A bound unit has the same members in the same order. -/
theorem members_evolved (near : Near resources D D') (models : Roster Model) (root : String) :
    members resources D' models root = members resources D models root := by
  unfold members reach
  rw [steps.names_eq]
  refine reachFrom_congr (fun name met => ?_) [] [root]
  obtain ⟨more, same, sub⟩ := companions_evolved distinct wf steps near name
  have pending : isPending D' models = isPending D models :=
    funext (isPending_evolved wf steps models)
  rw [same, pending, List.filter_append]
  refine firstMet_append_of_subset (fun t mem => ?_) _ _
  obtain ⟨inside, waits⟩ := List.mem_filter.1 mem
  exact List.mem_filter.2 ⟨sub t inside, waits⟩

end Again

/-! ## The same sides -/


/-- A side as it was, up to the name of its inverse. -/
def Renamed (side side' : ManySide) : Prop := ∃ inverse, side' = { side with inverse }

theorem renamed_manySidesOf (grown : Grown unit n d d') (owner : String) :
    List.Forall₂ Renamed (manySidesOf owner d) (manySidesOf owner d') := by
  obtain ⟨kept, added, split, follows, completions, _⟩ := grown.entries
  have none : added.filter (·.relationship.kind == .oneToMany) = [] := by
    refine List.filter_eq_nil_iff.2 fun e mem => ?_
    obtain ⟨⟨side, _, _, same⟩, _⟩ := completions e mem
    rw [same]
    exact Bool.false_ne_true
  unfold manySidesOf
  rw [split, List.filter_append, none, List.append_nil]
  clear split none
  generalize d.relationships = entries at follows
  induction follows with
  | nil => exact .nil
  | @cons e e' _ _ one _ ih =>
      obtain ⟨name, origin, inverse, same⟩ := one
      have kind : e'.relationship.kind = e.relationship.kind := by rw [same]
      rw [List.filter_cons, List.filter_cons, kind]
      by_cases many : (e.relationship.kind == .oneToMany) = true
      · rw [if_pos many, if_pos many]
        refine .cons ⟨e'.relationship.inverse, ?_⟩ ih
        simp only [name, origin, same]
      · rw [if_neg many, if_neg many]
        exact ih

theorem renamed_manySides (wf : AllWellFormed D) (steps : Roster.Evolves (Bound unit) D D')
    (names : List String) : List.Forall₂ Renamed (manySides D names) (manySides D' names) := by
  refine List.rel_flatMap (R := Eq) (List.forall₂_same.2 fun _ _ => rfl) ?_
  rintro n _ rfl
  rcases steps.get? n with ⟨before, after⟩ | ⟨d, d', before, after, bound⟩
  · simp only [before, after]
    exact .nil
  · simp only [before, after]
    exact renamed_manySidesOf (bound.grown (wf n d before)) n

/-- A side that names an inverse is settled under that name, as long as an heir is named or led back
to. -/
theorem inverseName_of_settled {i : String} (inverse : side.inverse = some i)
    (back : side.inherited = true →
      i = Naming.snakeCase side.owner ∨ pointsBack D side i = true) : inverseName D side = i := by
  unfold inverseName
  rw [inverse]
  by_cases keeps : (!side.inherited || pointsBack D side i) = true
  · simp only [keeps, if_true]
  · simp only [if_neg keeps]
    simp only [Bool.or_eq_true, not_or, Bool.not_eq_true, Bool.not_eq_false'] at keeps
    obtain ⟨inherited, astray⟩ := keeps
    rcases back inherited with snake | leads
    · exact snake.symm
    · rw [leads] at astray
      cases astray

theorem pointsBack_of_leadsTo {t : Descriptor} {i : String} (there : D.get? side.target = some t)
    (leads : LeadsTo t i side.owner) : pointsBack D side i = true := by
  obtain ⟨other, named, owner⟩ := leads
  simp [pointsBack, there, named, owner]

/-- A side that has its other side names it. -/
theorem HasOtherSide.inverse_eq (has : HasOtherSide D side) (renamed : Renamed side side')
    (current : Current D side') : side'.inverse = some (inverseName D side') := by
  obtain ⟨d, r, i, t, found, named, inverse, there, _, back⟩ := has
  obtain ⟨j, rfl⟩ := renamed
  obtain ⟨d', r', found', named', _, target, known⟩ := current
  obtain rfl : d = d' := Option.some.inj (found.symm.trans found')
  obtain rfl : r = r' := Option.some.inj (named.symm.trans named')
  obtain rfl : j = some i := known.symm.trans inverse
  rw [inverseName_of_settled (i := i) rfl]
  exact fun inherited => (back inherited).imp_right (pointsBack_of_leadsTo (target ▸ there))

/-- It is complete. -/
theorem HasOtherSide.complete (has : HasOtherSide D side) (renamed : Renamed side side')
    (current : Current D side') : Complete D side' := by
  have inverse := has.inverse_eq renamed current
  obtain ⟨d, r, i, t, found, named, settled, there, property, _⟩ := has
  obtain ⟨j, rfl⟩ := renamed
  obtain ⟨d', r', found', named', _, target, known⟩ := current
  obtain rfl : d = d' := Option.some.inj (found.symm.trans found')
  obtain rfl : r = r' := Option.some.inj (named.symm.trans named')
  refine ⟨inverse, t, target ▸ there, ?_⟩
  rw [← Option.some.inj (settled.symm.trans (known.trans inverse))]
  exact property

/-! ## Halfway through the completions -/

theorem targetsOf_settledIn (side : ManySide) (i n : String) :
    targetsOf (settledIn D side i) n = targetsOf D n := by
  unfold targetsOf settledIn
  rw [Roster.get?_modify]
  by_cases here : n = side.owner
  · rw [if_pos here]
    cases D.get? n with
    | none => rfl
    | some d =>
        refine map_eq_map_of_forall₂ (follows_changeFirst (fun _ => ⟨_, rfl⟩) d.relationships) ?_
        rintro e e' ⟨_, _, inverse, same⟩
        rw [same]
  · rw [if_neg here]

theorem Looked.settledIn (looked : Looked resources D n) (side : ManySide) (i : String) :
    Looked resources (settledIn D side i) n := by
  obtain ⟨d, found, each⟩ := looked
  unfold Looked Binding.settledIn
  rw [Roster.get?_modify, found]
  by_cases here : n = side.owner
  · rw [if_pos here]
    refine ⟨settled side i d, rfl, fun entry mem => ?_⟩
    rcases mem_changeFirst mem with old | ⟨entry₀, old, rfl⟩
    · exact each entry old
    · obtain ⟨target, known, concrete, same⟩ := each entry₀ old
      exact ⟨target, known, concrete, by rw [same]⟩
  · rw [if_neg here]
    exact ⟨d, rfl, each⟩

/-- A completion comes with the owner of its side looked up. -/
theorem Looked.completed {owner : Resource} {t : Descriptor} {i : String}
    (looked : Looked resources D n) (there : D.get? side.target = some t)
    (known : resources.get? side.owner = some owner) (concrete : owner.isAbstract = false) :
    Looked resources (D.modify side.target fun _ => completed side i owner t) n := by
  by_cases here : side.target = n
  · obtain ⟨d, found, each⟩ := looked
    obtain rfl : d = t := Option.some.inj (found.symm.trans (here ▸ there))
    refine ⟨Binding.completed side i owner d, ?_, fun entry mem => ?_⟩
    · rw [here, Roster.get?_modify_self, found]
      rfl
    · rcases List.mem_append.1 mem with old | new
      · exact each entry old
      · rw [List.mem_singleton] at new
        exact new ▸ ⟨owner, known, concrete, rfl⟩
  · exact looked.keep here _

theorem targetsOf_completed {owner : Resource} {t : Descriptor} {i : String}
    (there : D.get? side.target = some t) (n : String) :
    targetsOf (D.modify side.target fun _ => completed side i owner t) n
      = targetsOf D n ++ if n = side.target then [side.owner] else [] := by
  unfold targetsOf
  rw [Roster.get?_modify]
  by_cases here : n = side.target
  · subst here
    simp only [if_true, there, Option.map_some, completed, List.map_append]
    rfl
  · rw [if_neg here, if_neg here, List.append_nil]

/-- While the sides of a unit are completed: what has changed so far, and that those behind have their
other side. -/
structure Halfway (resources : Roster Resource) (unit : List String) (done : List ManySide)
    (D D' : Roster Descriptor) : Prop where
  steps : Roster.Evolves (Bound unit) D D'
  near : Near resources D D'
  looked : ∀ n ∈ unit, Looked resources D' n
  others : ∀ side ∈ done, HasOtherSide D' side

namespace Halfway

variable {done rest : List ManySide} {D₁ : Roster Descriptor}

theorem fits (h : Halfway resources unit done D D₁) (wf : AllWellFormed D)
    (mem : side ∈ manySides D unit) : Fits D₁ side :=
  (fits_of_mem_manySides wf mem).2.evolve wf h.steps

theorem names_nodup (h : Halfway resources unit done D D₁) (distinct : D.names.Nodup) :
    D₁.names.Nodup := by
  rw [h.steps.names_eq]
  exact distinct

/-- In the list of all sides, the one whose turn it is differs from those behind. -/
theorem apart (wf : AllWellFormed D) (once : unit.Nodup)
    (split : manySides D unit = done ++ side :: rest) : ∀ s ∈ done, s.key ≠ side.key := by
  intro s mem
  have keys := nodup_keys_manySides once wf
  rw [split, List.map_append, List.map_cons, List.nodup_append] at keys
  exact keys.2.2 _ (List.mem_map_of_mem mem) _ List.mem_cons_self

/-- Settling the inverse of a side to come takes nothing back. -/
theorem settledIn (h : Halfway resources unit done D D₁) (distinct : D.names.Nodup)
    (wf : AllWellFormed D) (once : unit.Nodup) (split : manySides D unit = done ++ side :: rest)
    (i : String) : Halfway resources unit done D (settledIn D₁ side i) := by
  have mem : side ∈ manySides D unit := split ▸ List.mem_append_right _ List.mem_cons_self
  have step : Roster.Evolves (Bound unit) D₁ (Binding.settledIn D₁ side i) :=
    evolves_settledIn (h.names_nodup distinct) (fits_of_mem_manySides wf mem).1 (h.fits wf mem) i
  refine ⟨evolves_trans h.steps step, ?_, fun n member => (h.looked n member).settledIn side i, ?_⟩
  · intro n t target
    rw [targetsOf_settledIn] at target
    exact h.near n t target
  · intro other behind
    refine (h.others other behind).evolve (wf.evolve h.steps) step fun d r found named => ?_
    obtain ⟨d', found', _, look⟩ := exists_settledIn side i found
    refine ⟨d', found', ?_⟩
    rw [look, if_neg fun both => apart wf once split other behind (Prod.ext both.1 both.2)]
    exact named

/-- Completing the next side puts it behind. -/
theorem next (h : Halfway resources unit done D D₁) (distinct : D.names.Nodup)
    (wf : AllWellFormed D) (concrete : ∀ n ∈ unit, ∀ r, resources.get? n = some r → r.isAbstract = false)
    (once : unit.Nodup) (split : manySides D unit = done ++ side :: rest)
    (one : (completeSide resources models side).Answers D₁ u D') :
    Halfway resources unit (done ++ [side]) D D' := by
  have mem : side ∈ manySides D unit := split ▸ List.mem_append_right _ List.mem_cons_self
  obtain ⟨member, fits⟩ := fits_of_mem_manySides wf mem
  have fits₁ := h.fits wf mem
  have step := evolves_completeSide (h.names_nodup distinct) resources models member fits₁
  rw [one.2] at step
  have settled := h.settledIn distinct wf once split (inverseName D₁ side)
  obtain ⟨near, looked⟩ : Near resources D D' ∧ ∀ n ∈ unit, Looked resources D' n := by
    obtain ⟨t, there, ⟨_, rfl⟩ | ⟨_, _, _, owner, known, rfl⟩⟩ := answers_completeSide.1 one
    · exact ⟨settled.near, settled.looked⟩
    · refine ⟨fun n t target => ?_, fun n inside => ?_⟩
      · rw [targetsOf_completed there] at target
        rcases List.mem_append.1 target with old | new
        · exact settled.near n t old
        · by_cases here : n = side.target
          · rw [if_pos here, List.mem_singleton] at new
            subst here new
            refine List.mem_append_left _ (List.mem_filter.2 ⟨Roster.mem_names_of_get? known, ?_⟩)
            obtain ⟨d, r, found, named, many, target⟩ := fits
            obtain ⟨e, entry, _, rfl⟩ := (wf _ d found).relationship?_eq_some_iff.1 named
            exact List.contains_iff_mem.2 ((mem_listing distinct).2
              ⟨d, found, listsInto_iff.2 ⟨e, entry, many, target⟩⟩)
          · rw [if_neg here] at new
            cases new
      · exact (settled.looked n inside).completed there known (concrete _ member owner known)
  refine ⟨evolves_trans h.steps step, near, looked, fun other behind => ?_⟩
  rcases List.mem_append.1 behind with early | here
  · exact (h.others other early).completeSide (wf.evolve h.steps) (apart wf once split other early) step one
  · rw [List.mem_singleton] at here
    rw [here]
    exact hasOtherSide_completeSide fits₁ one

end Halfway

/-! ## Completing again -/

/-- What becomes of a side once its inverse is settled is decided by the name and the descriptors. -/
theorem completeSide_congr (resources : Roster Resource) (models : Roster Model)
    {inverse : Option String} (name : inverseName D' { side with inverse } = inverseName D side)
    (same : settledIn D' side (inverseName D side) = settledIn D side (inverseName D side)) :
    completeSide resources models { side with inverse } D' = completeSide resources models side D := by
  unfold settledIn settled at same
  unfold completeSide
  simp only [Action.reads_bind, Action.change_bind, name, same]
  rfl

/-- A side that cannot be completed cannot be completed afterwards either, for the same reason. -/
theorem completeSide_again (fits : Fits D side) (distinct : D'.names.Nodup) (wf : AllWellFormed D')
    (failed : (completeSide resources models side).Fails D e D') (renamed : Renamed side side')
    (mem : side' ∈ manySides D' unit) : (completeSide resources models side').Fails D' e D' := by
  have left := fails_completeSide failed
  obtain ⟨j, rfl⟩ := renamed
  -- The side has been settled under the name that was found.
  obtain rfl : j = some (inverseName D side) := by
    obtain ⟨d, r, found, named, _⟩ := fits
    obtain ⟨d', found', _, look⟩ := exists_settledIn side (inverseName D side) found
    obtain ⟨d'', r', found'', named', _, _, known⟩ := current_of_mem_manySides wf mem
    rw [left] at found'
    obtain rfl : d' = d'' := Option.some.inj (found'.symm.trans found'')
    rw [look, if_pos ⟨rfl, rfl⟩, named, Option.map_some, Option.some.injEq] at named'
    exact known.symm.trans (named' ▸ rfl)
  have back : side.inherited = true → _ := inverseName_of_inherited (D := D)
  have name : inverseName D' { side with inverse := some (inverseName D side) }
      = inverseName D side := by
    refine inverseName_of_settled rfl fun inherited => (back inherited).imp_right ?_
    rintro ⟨t, there, other, leads, owner⟩
    obtain ⟨t', there', _, look⟩ := exists_settledIn side (inverseName D side) there
    rw [left] at there'
    refine pointsBack_of_leadsTo there' ?_
    unfold LeadsTo
    rw [look, leads]
    split
    · exact ⟨_, rfl, owner⟩
    · exact ⟨_, rfl, owner⟩
  have still : settledIn D' side (inverseName D side) = settledIn D side (inverseName D side) := by
    have same : settledIn D' _ (inverseName D side) = D' := settledIn_eq_self distinct wf mem rfl
    rw [left]
    exact same
  have same := completeSide_congr resources models name still
  exact ⟨by rw [same]; exact failed.1, by rw [same]; exact failed.2⟩

namespace Halfway

variable {done rest : List ManySide} {D₁ : Roster Descriptor}

/-- After all of them, completing the sides again changes nothing. -/
theorem answers_again (h : Halfway resources unit (manySides D unit) D D')
    (distinct : D.names.Nodup) (wf : AllWellFormed D) :
    (forM (manySides D' unit) (completeSide resources models)).Answers D' ⟨⟩ D' := by
  have wf' := wf.evolve h.steps
  refine Action.answers_forM_same fun side' mem => ?_
  obtain ⟨side, before, renamed⟩ :=
    exists_left_of_forall₂ (renamed_manySides wf h.steps unit) mem
  refine completeSide_of_complete (h.names_nodup distinct) wf' mem ?_
  exact (h.others side before).complete renamed (current_of_mem_manySides wf' mem)

/-- Where one of them cannot be completed, it cannot again. -/
theorem fails_again (h : Halfway resources unit done D D₁) (distinct : D.names.Nodup)
    (wf : AllWellFormed D) (once : unit.Nodup) (split : manySides D unit = done ++ side :: rest)
    (failed : (completeSide resources models side).Fails D₁ e D') :
    (forM (manySides D' unit) (completeSide resources models)).Fails D' e D' := by
  have mem : side ∈ manySides D unit := split ▸ List.mem_append_right _ List.mem_cons_self
  have left := h.settledIn distinct wf once split (inverseName D₁ side)
  rw [fails_completeSide failed] at left
  have wf' := wf.evolve left.steps
  have distinct' := left.names_nodup distinct
  have sides := renamed_manySides wf left.steps unit
  rw [split] at sides
  obtain ⟨done', others, split', behind, ahead⟩ := forall₂_append_left_split sides
  obtain ⟨side', rest', renamed, _, rfl⟩ := List.forall₂_cons_left_iff.1 ahead
  have inside : ∀ s ∈ done' ++ side' :: rest', s ∈ manySides D' unit := fun s mem => split' ▸ mem
  rw [split']
  refine Action.fails_forM_same (fun s mem => ?_) ?_
  · have there := inside s (List.mem_append_left _ mem)
    obtain ⟨s₀, before, renamed⟩ := exists_left_of_forall₂ behind mem
    refine completeSide_of_complete distinct' wf' there ?_
    exact (left.others s₀ before).complete renamed (current_of_mem_manySides wf' there)
  · have there := inside side' (List.mem_append_right _ List.mem_cons_self)
    exact completeSide_again (h.fits wf mem) distinct' wf' failed renamed there

end Halfway

/-! ## Binding again -/

theorem Stays.near (stays : Stays D D') : Near resources D D' := by
  intro n t target
  refine Near.refl D n t ?_
  obtain ⟨d', found', e', mem', rfl⟩ := mem_targetsOf.1 target
  obtain ⟨d, found, frozen⟩ := stays.get?_backward found'
  obtain ⟨e, mem, _, _, same⟩ := frozen.exists_entry mem'
  exact mem_targetsOf.2 ⟨d, found, e, mem, by rw [same]⟩

section Twice

variable {D₁ : Roster Descriptor} (distinct : D.names.Nodup) (wf : AllWellFormed D)

include distinct wf

/-- Before the first side is completed. -/
theorem halfway_of_lookUps
    (looked : (forM unit (lookUpTargets resources)).Answers D ⟨⟩ D₁) :
    manySides D₁ unit = manySides D unit ∧ Halfway resources unit [] D D₁ := by
  have stays : Stays D D₁ := looked.2 ▸ keeps_stays distinct unit D (.refl D)
  exact ⟨stays.manySides_eq unit, (targets_of_lookUps distinct wf looked).1, stays.near,
    looked_of_lookUps looked, by simp⟩

variable (concrete : ∀ n ∈ unit, ∀ r, resources.get? n = some r → r.isAbstract = false)
  (once : unit.Nodup)

include concrete once

theorem halfway_of_completions (start : Halfway resources unit [] D D₁)
    (completed : (forM (manySides D unit) (completeSide resources models)).Answers D₁ ⟨⟩ D') :
    Halfway resources unit (manySides D unit) D D' := by
  refine completed.forM_induction (I := fun done D' => Halfway resources unit done D D') start ?_
  exact fun _ _ _ _ _ split before one => before.next distinct wf concrete once split one

theorem halfway_of_incomplete (start : Halfway resources unit [] D D₁)
    (incomplete : (forM (manySides D unit) (completeSide resources models)).Fails D₁ e D') :
    Roster.Evolves (Bound unit) D D' ∧ Near resources D D' ∧ (∀ n ∈ unit, Looked resources D' n) ∧
      (forM (manySides D' unit) (completeSide resources models)).Fails D' e D' := by
  obtain ⟨done, side, rest, D₂, split, before, failed⟩ := incomplete.forM_induction
    (I := fun done D' => Halfway resources unit done D D') start
    fun _ _ _ _ _ split before one => before.next distinct wf concrete once split one
  have left := before.settledIn distinct wf once split (inverseName D₂ side)
  rw [fails_completeSide failed] at left
  exact ⟨left.steps, left.near, left.looked, before.fails_again distinct wf once split failed⟩

end Twice

section Unit

variable (distinct : D.names.Nodup) (wf : AllWellFormed D)
  (concrete : ∀ n ∈ members resources D models root, ∀ r, resources.get? n = some r →
    r.isAbstract = false)

include distinct wf concrete

/-- Binding a bound unit again answers the same and changes nothing. -/
theorem bind_again {ordered : List String}
    (h : (bind resources models root).Answers D ordered D') :
    (bind resources models root).Answers D' ordered D' := by
  obtain ⟨D₁, looked, completed, checked, order⟩ := answers_bindUnit.1 h
  obtain ⟨sides, start⟩ := halfway_of_lookUps distinct wf looked
  rw [sides] at completed
  have ends := halfway_of_completions distinct wf concrete (nodup_members root) start completed
  rw [answers_bindUnit, members_evolved distinct wf ends.steps ends.near models root]
  refine ⟨D', ?_, ends.answers_again distinct wf, checked, order⟩
  exact Action.answers_forM_same fun n mem => (ends.looked n mem).answers (ends.names_nodup distinct)

/-- Binding that fails fails again with the same error, and changes nothing more. -/
theorem bind_fails_again (h : (bind resources models root).Fails D e D') :
    (bind resources models root).Fails D' e D' := by
  have steps : Roster.Evolves (Bound (members resources D models root)) D D' :=
    h.2 ▸ evolves_bind distinct wf root
  have distinct' : D'.names.Nodup := by
    rw [steps.names_eq]
    exact distinct
  rcases fails_bindUnit.1 h with unknown | ⟨D₁, looked, incomplete | ⟨completed, unfit⟩⟩
  · have stays : Stays D D' := unknown.2 ▸ keeps_stays distinct _ D (.refl D)
    rw [fails_bindUnit, members_evolved distinct wf steps stays.near models root]
    exact .inl (lookUps_again distinct (nodup_members root) unknown)
  · obtain ⟨sides, start⟩ := halfway_of_lookUps distinct wf looked
    rw [sides] at incomplete
    obtain ⟨_, near, still, again⟩ :=
      halfway_of_incomplete distinct wf concrete (nodup_members root) start incomplete
    rw [fails_bindUnit, members_evolved distinct wf steps near models root]
    refine .inr ⟨D', ?_, .inl again⟩
    exact Action.answers_forM_same fun n mem => (still n mem).answers distinct'
  · obtain ⟨sides, start⟩ := halfway_of_lookUps distinct wf looked
    rw [sides] at completed
    have ends := halfway_of_completions distinct wf concrete (nodup_members root) start completed
    rw [fails_bindUnit, members_evolved distinct wf steps ends.near models root]
    refine .inr ⟨D', ?_, .inr ⟨ends.answers_again distinct wf, unfit⟩⟩
    exact Action.answers_forM_same fun n mem => (ends.looked n mem).answers distinct'

end Unit

end Binding

/-! ## Generations that fail -/

namespace Generation

variable {ctx : GenerationContext} {w w' : Workspace} {name : String} {r : Resource} {e : Error}

/-- For a resource with a table and without a model it is enough that its unit cannot be bound, or is
bound and cannot be compiled. -/
theorem fails_generate_of_unit (hr : ctx.resources.get? name = some r)
    (concrete : r.isAbstract = false) (uncached : w.models.get? name = none)
    (h : (∃ D', (Binding.bind ctx.resources w.models name).Fails w.descriptors e D'
        ∧ { w with descriptors := D' } = w') ∨
      ∃ ordered D', (Binding.bind ctx.resources w.models name).Answers w.descriptors ordered D'
        ∧ (compile ctx ordered).Fails { w with descriptors := D' } e w') :
    (generate ctx name).Fails w e w' := by
  unfold generate
  rw [Action.fails_read_bind, uncached]
  refine Action.fails_bind.2 (.inr ⟨r, w, Action.answers_ofExcept.2 ⟨resolve_eq_ok.2 hr, rfl⟩, ?_⟩)
  rw [if_neg (by simp [concrete])]
  rcases h with ⟨D', unbound, rfl⟩ | ⟨ordered, D', bound, failed⟩
  · exact Action.fails_bind.2 (.inl (Action.fails_zoom.2 ⟨D', unbound, rfl⟩))
  · refine Action.fails_bind.2 (.inr ⟨ordered, _, Action.answers_zoom.2 ⟨D', bound, rfl⟩, ?_⟩)
    exact Action.fails_bind.2 (.inl failed)

/-- The members of the unit of a pending resource have tables. -/
theorem concrete_of_member (sound : Sound ctx.resources w) (hr : ctx.resources.get? name = some r)
    (concrete : r.isAbstract = false) (uncached : w.models.get? name = none) {n : String}
    (member : n ∈ Binding.members ctx.resources w.descriptors w.models name) {s : Resource}
    (hs : ctx.resources.get? n = some s) : s.isAbstract = false := by
  rw [Binding.mem_members sound.descriptors_distinct sound.descriptors_names] at member
  obtain ⟨d, found, hasTable, _⟩ :=
    Binding.isPending_iff.1 (member.pending (sound.pending_of_uncached hr concrete uncached))
  rw [Descriptor.isAbstract, (sound.standing n s d hs found).options_eq] at hasTable
  exact hasTable

/-- A request that fails fails again, with the same error, and changes nothing more. -/
theorem generate_fails_again (sound : Sound ctx.resources w)
    (h : (generate ctx name).Fails w e w') : (generate ctx name).Fails w' e w' := by
  obtain ⟨uncached, rfl | ⟨r, hr, concrete, ⟨D', unbound, rfl⟩ |
    ⟨ordered, D', bound, failed | ⟨compiled, missing⟩⟩⟩⟩ := fails_generate h
  · exact h
  · refine fails_generate_of_unit hr concrete uncached (.inl ⟨D', ?_, rfl⟩)
    exact Binding.bind_fails_again sound.descriptors_distinct sound.allWellFormed
      (fun n member s hs => concrete_of_member sound hr concrete uncached member hs) unbound
  · have left := (compile_ends sound hr concrete uncached bound).2 e failed
    subst left
    refine fails_generate_of_unit hr concrete uncached (.inr ⟨ordered, D', ?_, failed⟩)
    exact Binding.bind_again sound.descriptors_distinct sound.allWellFormed
      (fun n member s hs => concrete_of_member sound hr concrete uncached member hs) bound
  · obtain ⟨_, m, found⟩ := addsUnit_of_compiled sound hr concrete uncached bound compiled
    rw [missing] at found
    cases found

end Generation

namespace Compiler

/-- Wherever a history leads, a generation that fails there fails again when it is asked for again, with
an equal error, and leaves everything as the first attempt left it. -/
theorem retry_fails_again (settings : Settings) (requests : List Request) (c c' : Compiler)
    (reached : (new settings).run requests = c) (name : String) (e : Error)
    (failed : (generate name).Fails c e c') : (generate name).Fails c' e c' := by
  have sound : Sound c.resources c.workspace := reached ▸ (coherent_run settings requests).sound
  rcases fails_generating.1 failed with ⟨_, rfl⟩ | ⟨ctx, w, known, ends, rfl⟩
  · exact failed
  · have resources := (generationContext_eq_ok known).2.1
    exact fails_generating.2 (.inr
      ⟨ctx, w, known, Generation.generate_fails_again (resources ▸ sound) ends, rfl⟩)

/-- The first attempt completes the books of an author, and the second finds them complete. -/
theorem retry_fails_again_authors :
    ∃ e c', (generate "Author").Fails ((new {}).run authorsAlone) e c'
      ∧ (c'.descriptor? "Book").any (·.hasProperty "author") = true
      ∧ (generate "Author").Fails c' e c' := by
  obtain ⟨e, c', failed⟩ := Action.exists_fails_of_isOk
    (show (generate "Author" ((new {}).run authorsAlone)).result.isOk = false by cbv)
  refine ⟨e, c', failed, ?_, retry_fails_again {} authorsAlone _ c' rfl "Author" e failed⟩
  rw [← failed.2]
  cbv

end Compiler

end ResourceTables
