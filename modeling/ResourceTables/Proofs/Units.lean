/-
# `ResourceTables.Proofs.Units` — which resources form a unit, and in what order they come

A unit is what its root pulls in, in any number of steps: a pending resource is pulled in by one
whose relationships lead to it, and by one that its own one-to-many leads to.  The search of
`Binding.members` finds just these, each once.
-/
import ResourceTables.Binding
import ResourceTables.Proofs.Reaching
import ResourceTables.Proofs.Rosters
import Mathlib.Data.List.Basic

namespace ResourceTables.Binding

variable {resources : Roster Resource} {models : Roster Model} {D : Roster Descriptor}
  {n m root : String} {unit : List String}

theorem isPending_iff :
    isPending D models n = true ↔
      ∃ d, D.get? n = some d ∧ d.isAbstract = false ∧ d.isGenerated = false
        ∧ models.contains n = false := by
  unfold isPending
  cases D.get? n with
  | none => simp
  | some d => simp [and_assoc]

theorem mem_targetsOf {t : String} :
    t ∈ targetsOf D n ↔
      ∃ d, D.get? n = some d ∧ ∃ e ∈ d.relationships, e.relationship.target = t := by
  unfold targetsOf
  cases D.get? n with
  | none => simp
  | some d => simp

theorem listsInto_iff {t : String} {d : Descriptor} :
    listsInto t d = true ↔ ∃ e ∈ d.relationships,
      e.relationship.kind = .oneToMany ∧ e.relationship.target = t := by
  simp [listsInto]

theorem mem_listing (distinct : D.names.Nodup) {t : String} :
    n ∈ listing D t ↔ ∃ d, D.get? n = some d ∧ listsInto t d = true := by
  simp only [listing, List.mem_map, List.mem_filter]
  constructor
  · rintro ⟨⟨name, d⟩, ⟨mem, lists⟩, rfl⟩
    exact ⟨d, Roster.get?_of_mem_entries distinct mem, lists⟩
  · rintro ⟨d, found, lists⟩
    exact ⟨(n, d), ⟨Roster.mem_entries_of_get? found, lists⟩, rfl⟩

/-- One resource pulls another into its unit: the other is pending, and either a relationship of the
first leads to it or a one-to-many of it leads to the first. -/
def Pulls (D : Roster Descriptor) (models : Roster Model) (n m : String) : Prop :=
  isPending D models m = true ∧
    (m ∈ targetsOf D n ∨ ∃ d, D.get? m = some d ∧ listsInto n d = true)

/-- The members of a unit: what its root pulls in, in any number of steps. -/
def InUnit (D : Roster Descriptor) (models : Roster Model) (root : String) : String → Prop :=
  Relation.ReflTransGen (Pulls D models) root

theorem leads_iff_pulls (distinct : D.names.Nodup) (registered : D.names = resources.names) :
    Leads D.names (fun name => (companions resources D name).filter (isPending D models)) n m ↔
      Pulls D models n m := by
  simp only [Leads, companions, List.filter_append, List.mem_append, List.mem_filter,
    List.contains_eq_mem, decide_eq_true_eq, mem_listing distinct, Pulls]
  constructor
  · rintro ⟨⟨⟨_, lists⟩, pending⟩ | ⟨target, pending⟩, _⟩
    · exact ⟨pending, .inr lists⟩
    · exact ⟨pending, .inl target⟩
  · rintro ⟨pending, way⟩
    obtain ⟨d, found, _⟩ := isPending_iff.1 pending
    have known : m ∈ D.names := Roster.mem_names_of_get? found
    refine ⟨?_, known⟩
    rcases way with target | lists
    · exact .inr ⟨target, pending⟩
    · exact .inl ⟨⟨registered ▸ known, lists⟩, pending⟩

theorem mem_members (distinct : D.names.Nodup) (registered : D.names = resources.names) :
    n ∈ members resources D models root ↔ InUnit D models root n := by
  have same : Leads D.names
      (fun name => (companions resources D name).filter (isPending D models)) = Pulls D models :=
    funext₂ fun _ _ => propext (leads_iff_pulls distinct registered)
  rw [members, mem_reach, InUnit, same]

theorem nodup_members (root : String) : (members resources D models root).Nodup := nodup_reach root

/-- Every member is pending if the root is. -/
theorem InUnit.pending (h : InUnit D models root n) (start : isPending D models root = true) :
    isPending D models n = true := by
  cases h with
  | refl => exact start
  | tail _ last => exact last.1

/-- What a member pulls in is a member. -/
theorem InUnit.pulls (h : InUnit D models root n) (step : Pulls D models n m) :
    InUnit D models root m :=
  h.tail step

theorem mem_names_of_isPending (h : isPending D models n = true) : n ∈ D.names := by
  obtain ⟨d, found, _⟩ := isPending_iff.1 h
  exact Roster.mem_names_of_get? found

/-! ## The order of declaration -/

theorem place_getElem (distinct : resources.names.Nodup) {i : Nat}
    (h : i < resources.names.length) : place resources resources.names[i] = i + 1 := by
  have found : resources.names.idxOf? resources.names[i] = some i := by
    rw [List.idxOf?_eq_some_iff]
    refine ⟨h, rfl, fun j lt same => ?_⟩
    exact absurd ((distinct.getElem_inj_iff).1 same) (by omega)
  rw [place, found]

theorem inDeclarationOrder_perm (resources : Roster Resource) (unit : List String) :
    (inDeclarationOrder resources unit).Perm unit :=
  List.mergeSort_perm _ _

/-- Registered resources come as they were declared. -/
theorem inDeclarationOrder_eq (distinct : resources.names.Nodup) (nodup : unit.Nodup)
    (registered : ∀ n ∈ unit, n ∈ resources.names) :
    inDeclarationOrder resources unit = resources.names.filter (unit.contains ·) := by
  have same : (resources.names.filter (unit.contains ·)).Perm unit := by
    refine (List.perm_ext_iff_of_nodup (distinct.filter _) nodup).2 fun n => ?_
    rw [List.mem_filter, List.contains_eq_mem, decide_eq_true_eq]
    exact ⟨And.right, fun mem => ⟨registered n mem, mem⟩⟩
  have decided : ∀ a b, a ∈ inDeclarationOrder resources unit →
      b ∈ resources.names.filter (unit.contains ·) → place resources a ≤ place resources b →
      place resources b ≤ place resources a → a = b := by
    intro a b ha hb hab hba
    obtain ⟨i, hi, rfl⟩ := List.getElem_of_mem
      (registered a ((inDeclarationOrder_perm resources unit).subset ha))
    obtain ⟨j, hj, rfl⟩ := List.getElem_of_mem (List.mem_filter.1 hb).1
    rw [place_getElem distinct hi, place_getElem distinct hj] at hab hba
    have : i = j := by omega
    subst this
    rfl
  have sorted : (inDeclarationOrder resources unit).Pairwise
      fun a b => decide (place resources a ≤ place resources b) = true :=
    List.pairwise_mergeSort (fun a b c hab hbc => by simp only [decide_eq_true_eq] at *; omega)
      (fun a b => by simp only [Bool.or_eq_true, decide_eq_true_eq]; omega) unit
  have declared : (resources.names.filter (unit.contains ·)).Pairwise
      fun a b => place resources a ≤ place resources b := by
    refine List.Pairwise.filter _ (List.pairwise_iff_getElem.2 fun i j hi hj lt => ?_)
    rw [place_getElem distinct hi, place_getElem distinct hj]
    omega
  exact List.Perm.eq_of_pairwise decided (sorted.imp of_decide_eq_true) declared
    ((inDeclarationOrder_perm resources unit).trans same.symm)

end ResourceTables.Binding
