/-
# `ResourceTables.Proofs.Ordering` — what is placed comes after what it waits for

Rounds place everything once, each thing when it is ready, and nothing is left then of the names
that it waits for.  What is stuck waits for something else that is stuck, which among finitely many
things leads into a cycle.  So a member of a unit that reaches no cycle of several members has its
turn, in whatever order the unit comes, and all others whose primary keys it copies have had theirs.
-/
import ResourceTables.Generation
import ResourceTables.Proofs.Rosters
import Mathlib.Data.Finite.Defs
import Mathlib.Data.Fintype.List
import Mathlib.Data.List.Perm.Basic
import Mathlib.Logic.Relation
import Mathlib.Order.WellFounded
import Mathlib.Data.Fintype.Order

namespace ResourceTables

/-! ## Where a list is split -/

section Splits

variable {α : Type} {xs ys before after : List α} {x : α}

/-- A list that is split at an element of its second part only is that part split there. -/
theorem exists_split_right (split : xs ++ ys = before ++ x :: after) (out : x ∉ xs) :
    ∃ first, before = xs ++ first ∧ ys = first ++ x :: after := by
  rcases List.append_eq_append_iff.1 split with ⟨first, rfl, rest⟩ | ⟨tail, rfl, rest⟩
  · exact ⟨first, rfl, rest⟩
  · cases tail with
    | nil => exact ⟨[], by simp, rest.symm⟩
    | cons y tail =>
        obtain ⟨rfl, _⟩ := List.cons.inj rest
        exact absurd (List.mem_append_right _ List.mem_cons_self) out

/-- A list that is split at an element of its first part only is that part split there. -/
theorem exists_split_left (split : xs ++ ys = before ++ x :: after) (out : x ∉ ys) :
    ∃ last, xs = before ++ x :: last ∧ after = last ++ ys := by
  rcases List.append_eq_append_iff.1 split with ⟨first, rfl, rfl⟩ | ⟨tail, rfl, rest⟩
  · exact absurd (List.mem_append_right _ List.mem_cons_self) out
  · cases tail with
    | nil => exact absurd (rest ▸ List.mem_cons_self : x ∈ [] ++ ys) out
    | cons y tail =>
        obtain ⟨rfl, rfl⟩ := List.cons.inj rest
        exact ⟨tail, rfl, rfl⟩

end Splits

/-! ## Rounds -/

section Rounds

variable {α : Type} {name : α → String} {isReady : List String → α → Bool} {placed : List String}
  {things : List α}

theorem inRounds_of_none (h : readyIn isReady placed things = []) :
    inRounds name isReady placed things = ([], things) := by
  rw [inRounds]
  split
  · rfl
  · rename_i found
    rw [h] at found
    cases found

theorem inRounds_of_some {first : α} {others : List α}
    (h : readyIn isReady placed things = first :: others) :
    inRounds name isReady placed things =
      (first :: others ++ (inRounds name isReady (placed ++ (first :: others).map name)
          (waitingIn isReady placed things)).1,
        (inRounds name isReady (placed ++ (first :: others).map name)
          (waitingIn isReady placed things)).2) := by
  rw [inRounds]
  split
  · rename_i found
    rw [h] at found
    cases found
  · rename_i found
    rw [h] at found
    cases found
    rfl

/-- A round splits what is left into what it places and what it leaves. -/
theorem perm_ready_waiting (isReady : List String → α → Bool) (placed : List String)
    (things : List α) :
    (readyIn isReady placed things ++ waitingIn isReady placed things).Perm things := by
  induction things with
  | nil => exact .nil
  | cons x rest ih =>
      unfold readyIn waitingIn at *
      by_cases h : isReady placed x
      · simpa [h] using ih
      · simp only [List.filter_cons, h, Bool.false_eq_true, if_false, Bool.not_false, if_true]
        exact List.perm_middle.trans (ih.cons x)

/-- Everything is placed once or stuck. -/
theorem perm_inRounds (name : α → String) (isReady : List String → α → Bool) (things : List α)
    (placed : List String) :
    ((inRounds name isReady placed things).1 ++ (inRounds name isReady placed things).2).Perm
      things := by
  induction len : things.length using Nat.strongRecOn generalizing things placed with
  | ind n ih =>
      cases h : readyIn isReady placed things with
      | nil => rw [inRounds_of_none h]; exact .refl things
      | cons first others =>
          have later := ih _ (len ▸ length_waitingIn_lt h) (waitingIn isReady placed things)
            (placed ++ (first :: others).map name) rfl
          rw [inRounds_of_some h, List.append_assoc]
          refine (later.append_left _).trans ?_
          rw [← h]
          exact perm_ready_waiting isReady placed things

/-- What is placed is ready as soon as what comes before it is placed, if more placed names never
make a thing wait. -/
theorem ready_inRounds (mono : ∀ x (more less : List String), less ⊆ more → isReady less x = true →
      isReady more x = true) {before after : List α} {x : α}
    (h : (inRounds name isReady placed things).1 = before ++ x :: after) :
    isReady (placed ++ before.map name) x = true := by
  induction len : things.length using Nat.strongRecOn generalizing things placed before with
  | ind n ih =>
      cases ready : readyIn isReady placed things with
      | nil =>
          rw [inRounds_of_none ready] at h
          simp at h
      | cons first others =>
          rw [inRounds_of_some ready] at h
          by_cases now : x ∈ first :: others
          · have mem : x ∈ readyIn isReady placed things := ready ▸ now
            exact mono x _ placed (List.subset_append_left _ _) (List.mem_filter.1 mem).2
          · obtain ⟨before', rfl, later⟩ := exists_split_right h now
            rw [List.map_append, ← List.append_assoc]
            exact ih _ (len ▸ length_waitingIn_lt ready) later rfl

/-- What is stuck waits even when everything else is placed. -/
theorem stuck_inRounds {x : α} (h : x ∈ (inRounds name isReady placed things).2) :
    isReady (placed ++ (inRounds name isReady placed things).1.map name) x = false := by
  induction len : things.length using Nat.strongRecOn generalizing things placed with
  | ind n ih =>
      cases ready : readyIn isReady placed things with
      | nil =>
          rw [inRounds_of_none ready] at h ⊢
          have waits : x ∉ readyIn isReady placed things := by simp [ready]
          simp only [readyIn, List.mem_filter, not_and, Bool.not_eq_true] at waits
          simpa using waits h
      | cons first others =>
          rw [inRounds_of_some ready] at h ⊢
          rw [List.map_append, ← List.append_assoc]
          exact ih _ (len ▸ length_waitingIn_lt ready) h rfl

/-- When a thing is placed, nothing is left of the name that it waits for. -/
theorem not_mem_left_inRounds {before after : List α} {x : α} {t : String}
    (waits : ∀ placed, t ∉ placed → isReady placed x = false)
    (alike : ∀ y ∈ things, ∀ z ∈ things, name y = name z → y = z) (new : t ∉ placed)
    (h : (inRounds name isReady placed things).1 = before ++ x :: after) :
    t ∉ (after ++ (inRounds name isReady placed things).2).map name := by
  induction len : things.length using Nat.strongRecOn generalizing things placed before with
  | ind n ih =>
      cases ready : readyIn isReady placed things with
      | nil =>
          rw [inRounds_of_none ready] at h
          simp at h
      | cons first others =>
          rw [inRounds_of_some ready] at h ⊢
          have apart : x ∉ first :: others := by
            rw [← ready, readyIn, List.mem_filter, waits placed new]
            simp
          obtain ⟨before', rfl, later⟩ := exists_split_right h apart
          by_cases here : t ∈ (first :: others).map name
          · -- Everything of this name is ready in this round.
            obtain ⟨y, now, rfl⟩ := List.mem_map.1 here
            have member : y ∈ readyIn isReady placed things := ready ▸ now
            obtain ⟨known, goes⟩ := List.mem_filter.1 member
            intro left
            obtain ⟨z, late, same⟩ := List.mem_map.1 left
            have waiting : z ∈ waitingIn isReady placed things := by
              refine (perm_inRounds name isReady _ (placed ++ (first :: others).map name)).subset ?_
              rw [later, List.append_assoc, List.cons_append]
              exact List.mem_append_right _ (List.mem_cons_of_mem _ late)
            obtain ⟨known', stays⟩ := List.mem_filter.1 waiting
            rw [alike z known' y known same, goes] at stays
            cases stays
          · refine ih _ (len ▸ length_waitingIn_lt ready) ?_ ?_ later rfl
            · intro y mem z mem'
              exact alike y (List.mem_filter.1 mem).1 z (List.mem_filter.1 mem').1
            · rw [List.mem_append, not_or]
              exact ⟨new, here⟩

end Rounds

/-! ## Relations without cycles -/

section Acyclic

variable {R : String → String → Prop}

/-- A relation along which a rank falls has no cycles. -/
theorem acyclic_of_rank (rank : String → Nat) (falls : ∀ a b, R a b → rank b < rank a) :
    ∀ n, ¬ Relation.TransGen R n n := by
  intro n cycle
  have below : ∀ m, Relation.TransGen R n m → rank m < rank n := by
    intro m path
    induction path with
    | single step => exact falls _ _ step
    | tail _ step ih => exact (falls _ _ step).trans ih
  exact lt_irrefl _ (below n cycle)

/-- Among finitely many names, a relation without cycles is well founded. -/
theorem wellFounded_of_acyclic (acyclic : ∀ n, ¬ Relation.TransGen R n n) (names : List String) :
    WellFounded fun a b : { n // n ∈ names } => Relation.TransGen R b.1 a.1 := by
  have : IsTrans { n // n ∈ names } fun a b => Relation.TransGen R b.1 a.1 :=
    ⟨fun _ _ _ h h' => h'.trans h⟩
  have : Std.Irrefl fun a b : { n // n ∈ names } => Relation.TransGen R b.1 a.1 :=
    ⟨fun a h => acyclic a.1 h⟩
  exact Finite.wellFounded_of_trans_of_irrefl _

/-- Of some names, one is related to no other of them. -/
theorem exists_minimal_of_acyclic (acyclic : ∀ n, ¬ Relation.TransGen R n n) {names : List String}
    (some : names ≠ []) : ∃ a ∈ names, ∀ b ∈ names, ¬ R a b := by
  obtain ⟨start, mem⟩ := List.exists_mem_of_ne_nil names some
  obtain ⟨⟨a, ha⟩, _, least⟩ :=
    (wellFounded_of_acyclic acyclic names).has_min Set.univ ⟨⟨start, mem⟩, trivial⟩
  exact ⟨a, ha, fun b hb related => least ⟨b, hb⟩ trivial (.single related)⟩

end Acyclic

/-! ## The order in which primary keys are extended -/

namespace Generation

variable {D : Roster Descriptor} {unit : List String} {n t : String} {d : Descriptor}

/-- The primary key of a member of a unit copies that of another. -/
def Identifies (D : Roster Descriptor) (unit : List String) (n t : String) : Prop :=
  n ∈ unit ∧ t ∈ unit ∧ ∃ d, D.get? n = some d ∧ t ∈ d.identifyingTargets

theorem mem_keyDependencies {entry : String × List String} :
    entry ∈ keyDependencies D unit ↔
      entry.1 ∈ unit ∧ ∃ d, D.get? entry.1 = some d ∧ entry.2 = d.identifyingTargets
        ∧ d.identifyingTargets ≠ [] := by
  obtain ⟨n, targets⟩ := entry
  simp only [keyDependencies, List.mem_filter, List.mem_filterMap, Option.map_eq_some_iff,
    Prod.mk.injEq]
  constructor
  · rintro ⟨⟨_, mem, d, found, rfl, rfl⟩, some⟩
    exact ⟨mem, d, found, rfl, by simpa using some⟩
  · rintro ⟨mem, d, found, rfl, some⟩
    exact ⟨⟨n, mem, d, found, rfl, rfl⟩, by simpa using some⟩

/-- Whether a resource copies a key at all. -/
def Dependent (D : Roster Descriptor) (unit : List String) (n : String) : Prop :=
  n ∈ unit ∧ ∃ d, D.get? n = some d ∧ d.identifyingTargets ≠ []

theorem mem_names_keyDependencies :
    n ∈ (keyDependencies D unit).map (·.1) ↔ Dependent D unit n := by
  simp only [List.mem_map]
  constructor
  · rintro ⟨entry, mem, rfl⟩
    obtain ⟨member, d, found, _, some⟩ := mem_keyDependencies.1 mem
    exact ⟨member, d, found, some⟩
  · rintro ⟨member, d, found, some⟩
    exact ⟨(n, d.identifyingTargets), mem_keyDependencies.2 ⟨member, d, found, rfl, some⟩, rfl⟩

/-- Whether a resource has an identifying relationship that hosts its key. -/
def hostsIdentifying (D : Roster Descriptor) (n : String) : Bool :=
  (D.get? n).any fun d => d.relationships.any fun e =>
    e.relationship.identifying && e.relationship.hostsKey

theorem names_keyDependencies (D : Roster Descriptor) (unit : List String) :
    (keyDependencies D unit).map (·.1) = unit.filter (hostsIdentifying D) := by
  unfold keyDependencies
  induction unit with
  | nil => rfl
  | cons n rest ih =>
      cases found : D.get? n with
      | none => simpa [found, hostsIdentifying] using ih
      | some d =>
          have some_ : (!d.identifyingTargets.isEmpty) = hostsIdentifying D n := by
            rw [hostsIdentifying, found, Bool.eq_iff_iff]
            simp [Descriptor.identifyingTargets, List.filter_eq_nil_iff]
          cases hosts : hostsIdentifying D n with
          | false => simpa [found, some_, hosts] using ih
          | true => simpa [found, some_, hosts] using ih

/-- Whether a resource can be placed: every target that copies a key itself is placed, unless it is
the resource. -/
def canFollow (names placed : List String) (entry : String × List String) : Bool :=
  entry.2.all fun target => target == entry.1 || !names.contains target || placed.contains target

theorem canFollow_iff {names placed : List String} {entry : String × List String} :
    canFollow names placed entry = true ↔
      ∀ t ∈ entry.2, t = entry.1 ∨ t ∉ names ∨ t ∈ placed := by
  simp [canFollow, or_assoc]

/-- The rounds in which the members that copy keys are placed. -/
def keyRounds (D : Roster Descriptor) (unit : List String) :
    List (String × List String) × List (String × List String) :=
  inRounds (·.1) (canFollow ((keyDependencies D unit).map (·.1))) [] (keyDependencies D unit)

theorem primaryKeyOrder_eq (D : Roster Descriptor) (unit : List String) :
    primaryKeyOrder D unit = ((keyRounds D unit).1 ++ (keyRounds D unit).2).map (·.1) := rfl

theorem perm_keyRounds (D : Roster Descriptor) (unit : List String) :
    ((keyRounds D unit).1 ++ (keyRounds D unit).2).Perm (keyDependencies D unit) :=
  perm_inRounds _ _ (keyDependencies D unit) []

theorem perm_primaryKeyOrder :
    (primaryKeyOrder D unit).Perm ((keyDependencies D unit).map (·.1)) :=
  (perm_keyRounds D unit).map _

theorem mem_primaryKeyOrder : n ∈ primaryKeyOrder D unit ↔ Dependent D unit n := by
  rw [perm_primaryKeyOrder.mem_iff, mem_names_keyDependencies]

theorem nodup_primaryKeyOrder (distinct : unit.Nodup) : (primaryKeyOrder D unit).Nodup :=
  perm_primaryKeyOrder.nodup_iff.2 (names_keyDependencies D unit ▸ distinct.filter _)

/-- What is stuck waits for something else that is stuck. -/
theorem exists_stuck_target (h : n ∈ (keyRounds D unit).2.map (·.1)) :
    ∃ t ∈ (keyRounds D unit).2.map (·.1), t ≠ n ∧ Identifies D unit n t := by
  have all := perm_keyRounds D unit
  obtain ⟨entry, mem, rfl⟩ := List.mem_map.1 h
  obtain ⟨member, d, found, targets, _⟩ :=
    mem_keyDependencies.1 (all.subset (List.mem_append_right _ mem))
  have waits : ¬ canFollow ((keyDependencies D unit).map (·.1))
      ([] ++ (keyRounds D unit).1.map (·.1)) entry = true :=
    Bool.eq_false_iff.1 (stuck_inRounds mem)
  simp only [canFollow_iff, not_forall, not_or, not_not] at waits
  obtain ⟨t, target, other, dependent, early⟩ := waits
  refine ⟨t, ?_, other, member, (mem_names_keyDependencies.1 dependent).1, d, found, targets ▸ target⟩
  rw [← (all.map (·.1)).mem_iff, List.map_append] at dependent
  exact (List.mem_append.1 dependent).resolve_left early

/-- A cycle of keys through several members is in reach of a resource. -/
def ReachesCycle (D : Roster Descriptor) (unit : List String) (n : String) : Prop :=
  ∃ a b, a ≠ b ∧ Relation.ReflTransGen (Identifies D unit) n a
    ∧ Relation.ReflTransGen (Identifies D unit) a b ∧ Relation.ReflTransGen (Identifies D unit) b a

/-- A step to another member, from one that is in reach of a resource. -/
def StepFrom (D : Roster Descriptor) (unit : List String) (n a b : String) : Prop :=
  Relation.ReflTransGen (Identifies D unit) n a ∧ b ≠ a ∧ Identifies D unit a b

theorem acyclic_stepFrom (none : ¬ ReachesCycle D unit n) :
    ∀ a, ¬ Relation.TransGen (StepFrom D unit n) a a := by
  intro a cycle
  obtain ⟨b, ⟨reached, other, first⟩, back⟩ := Relation.TransGen.head'_iff.1 cycle
  exact none ⟨a, b, other.symm, reached, .single first, back.lift id fun _ _ step => step.2.2⟩

/-- What is stuck reaches a cycle: from one thing that waits to the next one never comes to an end. -/
theorem reachesCycle_of_stuck (h : n ∈ (keyRounds D unit).2.map (·.1)) : ReachesCycle D unit n := by
  classical
  by_contra none
  have some : ((keyRounds D unit).2.map (·.1)).filter
      (fun a => decide (Relation.ReflTransGen (Identifies D unit) n a)) ≠ [] :=
    List.ne_nil_of_mem (List.mem_filter.2 ⟨h, decide_eq_true .refl⟩)
  obtain ⟨a, mem, least⟩ := exists_minimal_of_acyclic (acyclic_stepFrom none) some
  obtain ⟨stuck, within⟩ := List.mem_filter.1 mem
  have reached := of_decide_eq_true within
  obtain ⟨t, stuck', other, identifies⟩ := exists_stuck_target stuck
  exact least t (List.mem_filter.2 ⟨stuck', decide_eq_true (reached.tail identifies)⟩)
    ⟨reached, other, identifies⟩

theorem not_reachesCycle_of_acyclic
    (acyclic : ∀ n, ¬ Relation.TransGen (Identifies D unit) n n) (n : String) :
    ¬ ReachesCycle D unit n := by
  rintro ⟨a, b, other, _, there, back⟩
  rcases Relation.reflTransGen_iff_eq_or_transGen.1 there with same | there
  · exact other same.symm
  · exact acyclic a (there.trans_left back)

/-- When a resource is placed, no other target that copies a key itself is left. -/
theorem not_mem_left_keyRounds {first others : List (String × List String)}
    {entry : String × List String} (placed : (keyRounds D unit).1 = first ++ entry :: others)
    (target : t ∈ entry.2) (other : t ≠ entry.1) (dependent : Dependent D unit t) :
    t ∉ (others ++ (keyRounds D unit).2).map (·.1) := by
  refine not_mem_left_inRounds (fun early new => ?_) (fun y hy z hz same => ?_) List.not_mem_nil
    placed
  · rw [Bool.eq_false_iff, ne_eq, canFollow_iff]
    intro ready
    rcases ready t target with same | free | before
    · exact other same
    · exact free (mem_names_keyDependencies.2 dependent)
    · exact new before
  · obtain ⟨_, d, found, targets, _⟩ := mem_keyDependencies.1 hy
    obtain ⟨_, d', found', targets', _⟩ := mem_keyDependencies.1 hz
    rw [same, found', Option.some.injEq] at found
    exact Prod.ext same (by rw [targets, targets', found])

/-- A resource that reaches no cycle comes after every other target that copies a key itself. -/
theorem before_of_identifies {before after : List String}
    (split : primaryKeyOrder D unit = before ++ n :: after) (none : ¬ ReachesCycle D unit n)
    (identifies : Identifies D unit n t) (other : t ≠ n) (dependent : Dependent D unit t) :
    t ∈ before ∧ t ∉ after := by
  have order := primaryKeyOrder_eq D unit
  rw [split, List.map_append] at order
  have free : n ∉ (keyRounds D unit).2.map (·.1) := fun stuck => none (reachesCycle_of_stuck stuck)
  obtain ⟨rest, names, rfl⟩ := exists_split_left order.symm free
  obtain ⟨first, later, placed, rfl, ends⟩ := List.map_eq_append_iff.1 names
  obtain ⟨entry, others, rfl, rfl, rfl⟩ := List.map_eq_cons_iff.1 ends
  have known : entry ∈ keyDependencies D unit :=
    (perm_keyRounds D unit).subset (placed ▸ by simp)
  obtain ⟨_, d, found, targets, _⟩ := mem_keyDependencies.1 known
  obtain ⟨_, _, d', found', target⟩ := identifies
  obtain rfl : d = d' := Option.some.inj (found.symm.trans found')
  have left := not_mem_left_keyRounds placed (targets ▸ target) other dependent
  rw [List.map_append] at left
  have there : t ∈ primaryKeyOrder D unit := mem_primaryKeyOrder.2 dependent
  rw [split, List.mem_append, List.mem_cons] at there
  exact ⟨there.resolve_right (not_or.2 ⟨other, left⟩), left⟩

/-- Without cycles, a resource comes after every target that copies a key itself. -/
theorem primaryKeyOrder_after (acyclic : ∀ n, ¬ Relation.TransGen (Identifies D unit) n n)
    {before after : List String} (split : primaryKeyOrder D unit = before ++ n :: after)
    (found : D.get? n = some d) (ht : t ∈ d.identifyingTargets) (dependent : Dependent D unit t) :
    t ∈ before := by
  have there : n ∈ primaryKeyOrder D unit := split ▸ List.mem_append_right _ List.mem_cons_self
  have identifies : Identifies D unit n t :=
    ⟨(mem_primaryKeyOrder.1 there).1, dependent.1, d, found, ht⟩
  have other : t ≠ n := by
    rintro rfl
    exact acyclic t (.single identifies)
  have none := not_reachesCycle_of_acyclic acyclic n
  exact (before_of_identifies split none identifies other dependent).1

/-- In whatever order a unit comes, its primary keys are extended in an order of the members that
have an identifying relationship to host: all of them and no others, each once if the unit has it
once.  A member that reaches no cycle of several members comes after every other one whose key it
copies. -/
theorem primaryKeyOrder_topological (D : Roster Descriptor) (unit : List String) :
    (primaryKeyOrder D unit).Perm (unit.filter (hostsIdentifying D)) ∧
    (unit.Nodup → (primaryKeyOrder D unit).Nodup) ∧
    ∀ before n after, primaryKeyOrder D unit = before ++ n :: after → ¬ ReachesCycle D unit n →
      ∀ t ∈ primaryKeyOrder D unit, t ≠ n → Identifies D unit n t → t ∈ before ∧ t ∉ after := by
  refine ⟨?_, nodup_primaryKeyOrder, ?_⟩
  · rw [← names_keyDependencies]
    exact perm_primaryKeyOrder
  · intro before n after split none t there other identifies
    exact before_of_identifies split none identifies other (mem_primaryKeyOrder.1 there)

/-- A descriptor that is identified by some targets. -/
def identifiedBy (name : String) (targets : List String) : String × Descriptor :=
  (name, {
    resource := name, options := {}
    relationships := targets.map fun t =>
      { name := t, relationship := { Relationship.new .manyToOne t with identifying := true }
        declaredBy := name } })

/-- Rooms are identified by their floor and by another room, floors by a house, locks and keys by each
other. -/
def rooms : Roster Descriptor :=
  ⟨[identifiedBy "Room" ["Room", "Floor"], identifiedBy "Floor" ["House"],
    identifiedBy "Lock" ["Key"], identifiedBy "Key" ["Lock"]]⟩

/-- A unit that the house is no member of. -/
def roomUnit : List String := ["Lock", "Room", "Key", "Floor"]

theorem identifies_rooms (h : Identifies rooms roomUnit n t) :
    n = "Room" ∧ (t = "Room" ∨ t = "Floor") ∨ n = "Lock" ∧ t = "Key" ∨ n = "Key" ∧ t = "Lock" := by
  obtain ⟨_, member, d, found, target⟩ := h
  have entry : (n, d) ∈ rooms.entries := Roster.mem_entries_of_get? found
  simp only [rooms, identifiedBy, List.mem_cons, Prod.mk.injEq, List.not_mem_nil, or_false] at entry
  rcases entry with ⟨rfl, rfl⟩ | ⟨rfl, rfl⟩ | ⟨rfl, rfl⟩ | ⟨rfl, rfl⟩
  · simpa [Descriptor.identifyingTargets, Relationship.new, Relationship.hostsKey] using target
  · obtain rfl : t = "House" := by
      simpa [Descriptor.identifyingTargets, Relationship.new, Relationship.hostsKey] using target
    exact absurd member (by decide)
  · simpa [Descriptor.identifyingTargets, Relationship.new, Relationship.hostsKey] using target
  · simpa [Descriptor.identifyingTargets, Relationship.new, Relationship.hostsKey] using target

theorem not_reachesCycle_room : ¬ ReachesCycle rooms roomUnit "Room" := by
  have fromFloor : ∀ b, Relation.ReflTransGen (Identifies rooms roomUnit) "Floor" b →
      b = "Floor" := by
    intro b path
    induction path with
    | refl => rfl
    | tail _ step ih =>
        rw [ih] at step
        simpa using identifies_rooms step
  have fromRoom : ∀ b, Relation.ReflTransGen (Identifies rooms roomUnit) "Room" b →
      b = "Room" ∨ b = "Floor" := by
    intro b path
    induction path with
    | refl => exact .inl rfl
    | tail _ step ih =>
        rcases ih with rfl | rfl
        · simpa using identifies_rooms step
        · simpa using identifies_rooms step
  rintro ⟨a, b, other, reached, there, back⟩
  rcases fromRoom a reached with rfl | rfl
  · rcases fromRoom b there with rfl | rfl
    · exact other rfl
    · exact absurd (fromFloor _ back) (by decide)
  · exact other (fromFloor b there).symm

theorem primaryKeyOrder_topological_rooms :
    roomUnit.Nodup ∧ (primaryKeyOrder rooms roomUnit).Nodup
      ∧ primaryKeyOrder rooms roomUnit = ["Floor"] ++ "Room" :: ["Lock", "Key"]
      ∧ ¬ ReachesCycle rooms roomUnit "Room" ∧ "Floor" ∈ primaryKeyOrder rooms roomUnit
      ∧ Identifies rooms roomUnit "Room" "Floor"
      ∧ "Floor" ∈ ["Floor"] ∧ "Floor" ∉ ["Lock", "Key"] := by
  obtain ⟨all, once, ordered⟩ := primaryKeyOrder_topological rooms roomUnit
  have order : primaryKeyOrder rooms roomUnit = ["Floor"] ++ "Room" :: ["Lock", "Key"] := by
    rw [primaryKeyOrder_eq, keyRounds, inRounds_of_some rfl, inRounds_of_some rfl,
      inRounds_of_none rfl]
    rfl
  have there : "Floor" ∈ primaryKeyOrder rooms roomUnit := order ▸ List.mem_cons_self
  have identifies : Identifies rooms roomUnit "Room" "Floor" :=
    ⟨by decide, by decide, _, rfl, by decide⟩
  exact ⟨by decide, once (by decide), order, not_reachesCycle_room, there, identifies,
    ordered _ _ _ order not_reachesCycle_room _ there (by decide) identifies⟩

end Generation

end ResourceTables
